import Mathlib

namespace TheiaTaint.Foundations.Scanning

variable {C S T : Type*}

/-- A machine that turns characters into tokens, with `none` as its error. -/
structure Scanner (C S T : Type*) where
  step : S → C → Option (List T × S)
  finish : S → Option (List T)

/-- The tokens of a text and the state after it. -/
def run (m : Scanner C S T) : S → List C → Option (List T × S)
  | s, [] => some ([], s)
  | s, c :: cs => (m.step s c).bind fun r ↦ (run m r.2 cs).map fun r' ↦ (r.1 ++ r'.1, r'.2)

def scan (m : Scanner C S T) (s : S) (cs : List C) : Option (List T) :=
  (run m s cs).bind fun r ↦ (m.finish r.2).map fun ts ↦ r.1 ++ ts

variable {m : Scanner C S T}

theorem run_append (s : S) (cs ds : List C) :
    run m s (cs ++ ds) =
      (run m s cs).bind fun r ↦ (run m r.2 ds).map fun r' ↦ (r.1 ++ r'.1, r'.2) := by
  induction cs generalizing s with
  | nil =>
    simp only [List.nil_append, run, Option.bind_some]
    exact Option.map_id'.symm
  | cons c cs ih =>
    rw [List.cons_append, run, run]
    cases m.step s c with
    | none => rfl
    | some r =>
      simp only [Option.bind_some, ih]
      cases run m r.2 cs with
      | none => rfl
      | some r' =>
        simp only [Option.bind_some, Option.map_some, Option.map_map]
        refine congrArg (Option.map · _) (funext fun r'' ↦ ?_)
        simp [List.append_assoc]

theorem scan_append {s s' : S} {cs : List C} {ts : List T} (h : run m s cs = some (ts, s'))
    (ds : List C) : scan m s (cs ++ ds) = (scan m s' ds).map fun us ↦ ts ++ us := by
  rw [scan, scan, run_append, h, Option.bind_some]
  cases run m s' ds with
  | none => rfl
  | some r =>
    simp only [Option.map_some, Option.bind_some, Option.map_map]
    refine congrArg (Option.map · _) (funext fun us ↦ ?_)
    simp [List.append_assoc]

/-- The tokens of a text begin with those of each of its beginnings. -/
theorem prefix_of_scan {s s' : S} {cs ds : List C} {ts us : List T}
    (hrun : run m s cs = some (ts, s')) (hscan : scan m s (cs ++ ds) = some us) : ts <+: us := by
  rw [scan_append hrun] at hscan
  obtain ⟨last, -, rfl⟩ := Option.map_eq_some_iff.1 hscan
  exact ⟨last, rfl⟩

end TheiaTaint.Foundations.Scanning
