import Mathlib

namespace TheiaTaint.Foundations.Logged

variable {E W A B : Type}

/-- Programs that write entries to a log and may end in an exception. -/
abbrev Logging (E W : Type) := ExceptT E (StateM (List W))

/-- How a program ends and what the log holds then. -/
def exec (m : Logging E W A) (log : List W) : Except E A × List W := m.run.run log

def write (w : W) : Logging E W Unit := modify fun log ↦ log ++ [w]

@[simp] theorem exec_pure (a : A) (log : List W) :
    exec (pure a : Logging E W A) log = (.ok a, log) := rfl

@[simp] theorem exec_throw (e : E) (log : List W) :
    exec (throw e : Logging E W A) log = (.error e, log) := rfl

@[simp] theorem exec_write (w : W) (log : List W) :
    exec (write w : Logging E W Unit) log = (.ok (), log ++ [w]) := rfl

theorem exec_bind (m : Logging E W A) (f : A → Logging E W B) (log : List W) :
    exec (m >>= f) log = match exec m log with
      | (.ok a, log') => exec (f a) log'
      | (.error e, log') => (.error e, log') := by
  change ExceptT.bindCont f (exec m log).1 (exec m log).2 = _
  obtain ⟨r, log'⟩ := exec m log
  cases r <;> rfl

theorem exec_bind_of_ok {m : Logging E W A} {f : A → Logging E W B} {log log' : List W} {a : A}
    (h : exec m log = (.ok a, log')) : exec (m >>= f) log = exec (f a) log' := by
  rw [exec_bind, h]

theorem exec_bind_of_error {m : Logging E W A} {f : A → Logging E W B} {log log' : List W} {e : E}
    (h : exec m log = (.error e, log')) : exec (m >>= f) log = (.error e, log') := by
  rw [exec_bind, h]

theorem exec_tryCatch (m : Logging E W A) (f : E → Logging E W A) (log : List W) :
    exec (tryCatch m f) log = match exec m log with
      | (.ok a, log') => (.ok a, log')
      | (.error e, log') => exec (f e) log' := by
  have hcont : exec (tryCatch m f) log = StateT.run (match (exec m log).1 with
      | .ok a => pure (.ok a)
      | .error e => (f e).run) (exec m log).2 := rfl
  rw [hcont]
  obtain ⟨r, log'⟩ := exec m log
  cases r <;> rfl

theorem exec_tryCatch_of_ok {m : Logging E W A} {f : E → Logging E W A} {log log' : List W} {a : A}
    (h : exec m log = (.ok a, log')) : exec (tryCatch m f) log = (.ok a, log') := by
  rw [exec_tryCatch, h]

theorem exec_tryCatch_of_error {m : Logging E W A} {f : E → Logging E W A} {log log' : List W}
    {e : E} (h : exec m log = (.error e, log')) : exec (tryCatch m f) log = exec (f e) log' := by
  rw [exec_tryCatch, h]

end TheiaTaint.Foundations.Logged
