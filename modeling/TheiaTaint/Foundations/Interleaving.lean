import Mathlib

namespace TheiaTaint.Foundations.Interleaving

/-- A request changes the configuration, and a step one component, with some outputs. -/
structure Machine (G S C E O : Type*) where
  configure : C → G → G
  step : G → S → E → S × List O

inductive Event (I C E : Type*)
  | configure (c : C)
  | step (i : I) (e : E)

/-- All components, and what they have put out, in its order. -/
structure System (I G S O : Type*) where
  config : G
  parts : I → S
  log : List (I × O)

/-- A component on its own. -/
structure Part (G S O : Type*) where
  config : G
  state : S
  log : List O

variable {I G S C E O : Type*} [DecidableEq I]

/-- What a component sees of an event. -/
def Event.seen (i : I) : Event I C E → Option (C ⊕ E)
  | .configure c => some (.inl c)
  | .step j e => if j = i then some (.inr e) else none

def outputs (i : I) (log : List (I × O)) : List O :=
  (log.filter fun o ↦ o.1 = i).map Prod.snd

theorem outputs_append (i : I) (log log' : List (I × O)) :
    outputs i (log ++ log') = outputs i log ++ outputs i log' := by
  rw [outputs, List.filter_append, List.map_append]
  rfl

theorem outputs_tagged (i j : I) (os : List O) :
    outputs i (os.map fun o ↦ (j, o)) = if j = i then os else [] := by
  induction os with
  | nil => simp [outputs]
  | cons o os ih =>
    rw [outputs] at ih ⊢
    by_cases hj : j = i <;> simp_all

def System.part (s : System I G S O) (i : I) : Part G S O :=
  ⟨s.config, s.parts i, outputs i s.log⟩

namespace Machine

variable (m : Machine G S C E O)

def apply (s : System I G S O) : Event I C E → System I G S O
  | .configure c => { s with config := m.configure c s.config }
  | .step i e =>
    { s with
      parts := Function.update s.parts i (m.step s.config (s.parts i) e).1
      log := s.log ++ (m.step s.config (s.parts i) e).2.map fun o ↦ (i, o) }

def run (evs : List (Event I C E)) (s : System I G S O) : System I G S O := evs.foldl m.apply s

def applyAlone (p : Part G S O) : C ⊕ E → Part G S O
  | .inl c => { p with config := m.configure c p.config }
  | .inr e =>
    { p with
      state := (m.step p.config p.state e).1
      log := p.log ++ (m.step p.config p.state e).2 }

def runAlone (evs : List (C ⊕ E)) (p : Part G S O) : Part G S O := evs.foldl m.applyAlone p

theorem run_append (evs evs' : List (Event I C E)) (s : System I G S O) :
    m.run (evs ++ evs') s = m.run evs' (m.run evs s) := List.foldl_append

theorem part_apply (s : System I G S O) (ev : Event I C E) (i : I) :
    (m.apply s ev).part i =
      match ev.seen i with
      | some e => m.applyAlone (s.part i) e
      | none => s.part i := by
  cases ev with
  | configure c => rfl
  | step j e =>
    by_cases hj : j = i
    · subst hj
      simp [Event.seen, apply, applyAlone, System.part, outputs_append, outputs_tagged]
    · simp [Event.seen, hj, apply, System.part, outputs_append, outputs_tagged,
        Function.update_of_ne (Ne.symm hj)]

theorem parts_step (s : System I G S O) (i : I) (e : E) :
    (m.apply s (.step i e)).parts i = (m.step s.config (s.parts i) e).1 := Function.update_self ..

theorem outputs_step (s : System I G S O) (i : I) (e : E) :
    outputs i (m.apply s (.step i e)).log =
      outputs i s.log ++ (m.step s.config (s.parts i) e).2 := by
  rw [apply, outputs_append, outputs_tagged, if_pos rfl]

/-- In any interleaving a component goes through what it goes through on its own. -/
theorem part_run (evs : List (Event I C E)) (s : System I G S O) (i : I) :
    (m.run evs s).part i = m.runAlone (evs.filterMap (Event.seen i)) (s.part i) := by
  induction evs generalizing s with
  | nil => rfl
  | cons ev evs ih =>
    rw [run, List.foldl_cons, ← run, ih, part_apply]
    cases hev : ev.seen i with
    | none => rw [List.filterMap_cons_none hev]
    | some e =>
      rw [List.filterMap_cons_some hev]
      rfl

theorem part_run_quiet {evs : List (Event I C E)} {i : I} (hquiet : ∀ e, .step i e ∉ evs)
    (s : System I G S O) :
    (m.run evs s).parts i = s.parts i ∧ outputs i (m.run evs s).log = outputs i s.log := by
  induction evs generalizing s with
  | nil => exact ⟨rfl, rfl⟩
  | cons ev evs ih =>
    obtain ⟨hparts, hlog⟩ := ih (fun e he ↦ hquiet e (List.mem_cons_of_mem ev he)) (m.apply s ev)
    have happly := m.part_apply s ev i
    have hseen : ∀ e, ev.seen i = some (.inr e) → False := by
      intro e he
      cases ev with
      | configure c => cases he
      | step j e' =>
        by_cases hj : j = i
        · exact hquiet e' (hj ▸ List.mem_cons_self)
        · simp [Event.seen, hj] at he
    have hsame : (m.apply s ev).parts i = s.parts i ∧
        outputs i (m.apply s ev).log = outputs i s.log := by
      cases hev : ev.seen i with
      | none =>
        rw [hev] at happly
        exact ⟨congrArg Part.state happly, congrArg Part.log happly⟩
      | some e =>
        rw [hev] at happly
        cases e with
        | inl c => exact ⟨congrArg Part.state happly, congrArg Part.log happly⟩
        | inr e => exact absurd hev (hseen e)
    exact ⟨hparts.trans hsame.1, hlog.trans hsame.2⟩

theorem config_run_quiet {evs : List (Event I C E)} (hquiet : ∀ c, .configure c ∉ evs)
    (s : System I G S O) : (m.run evs s).config = s.config := by
  induction evs generalizing s with
  | nil => rfl
  | cons ev evs ih =>
    refine (ih (fun c hc ↦ hquiet c (List.mem_cons_of_mem ev hc)) (m.apply s ev)).trans ?_
    cases ev with
    | configure c => exact absurd List.mem_cons_self (hquiet c)
    | step i e => rfl

theorem config_run {P : G → Prop} (hstep : ∀ c g, P g → P (m.configure c g))
    (evs : List (Event I C E)) {s : System I G S O} (hs : P s.config) :
    P (m.run evs s).config := by
  induction evs generalizing s with
  | nil => exact hs
  | cons ev evs ih =>
    apply ih
    cases ev with
    | configure c => exact hstep c s.config hs
    | step i e => exact hs

end Machine

end TheiaTaint.Foundations.Interleaving
