import Mathlib

namespace TheiaTaint.Foundations.Trace

variable {S U E : Type*}

/-- What an action leaves behind: the state, what was observed on the way, and
whether it ran to its end instead of throwing. -/
structure Outcome (S U : Type*) where
  state : S
  seen : List U
  done : Bool

abbrev Action (S U : Type*) := S → Outcome S U

def returning (f : S → S) : Action S U := fun s ↦ ⟨f s, [], true⟩

def throwing (f : S → S) : Action S U := fun s ↦ ⟨f s, [], false⟩

def observe (obs : S → U) : Action S U := fun s ↦ ⟨s, [obs s], true⟩

def andThen (a b : Action S U) : Action S U := fun s ↦
  let r := a s
  if r.done then
    let r' := b r.state
    ⟨r'.state, r.seen ++ r'.seen, r'.done⟩
  else r

def caught (a : Action S U) : Action S U := fun s ↦
  let r := a s
  ⟨r.state, r.seen, true⟩

def runAll (step : E → Action S U) (es : List E) (s : S) : Outcome S U :=
  match es with
  | [] => ⟨s, [], true⟩
  | e :: es => andThen (caught (step e)) (runAll step es) s

/-- The condition holds before every step of the run. -/
def Meets (step : E → Action S U) (good : E → S → Prop) : List E → S → Prop
  | [], _ => True
  | e :: es, s => good e s ∧ Meets step good es (step e s).state

theorem andThen_of_done {a b : Action S U} {s : S} (h : (a s).done = true) :
    andThen a b s = ⟨(b (a s).state).state, (a s).seen ++ (b (a s).state).seen,
      (b (a s).state).done⟩ := by
  rw [andThen, if_pos h]

theorem andThen_of_eq {a b : Action S U} {s s' : S} {seen : List U} (h : a s = ⟨s', seen, true⟩) :
    andThen a b s = ⟨(b s').state, seen ++ (b s').seen, (b s').done⟩ := by
  rw [andThen_of_done (by rw [h]), h]

theorem andThen_of_not_done {a b : Action S U} {s : S} (h : (a s).done = false) :
    andThen a b s = a s := by
  rw [andThen, if_neg (by simp [h])]

theorem mem_seen_andThen {a b : Action S U} {s : S} {u : U} (h : u ∈ (a s).seen) :
    u ∈ (andThen a b s).seen := by
  cases hd : (a s).done with
  | true => simp [andThen_of_done hd, h]
  | false => simpa [andThen_of_not_done hd] using h

theorem done_of_andThen {a b : Action S U} {s : S} (h : (andThen a b s).done = true) :
    (b (a s).state).done = true := by
  cases hd : (a s).done with
  | true => rwa [andThen_of_done hd] at h
  | false =>
    rw [andThen_of_not_done hd, hd] at h
    cases h

theorem forall_seen_andThen {a b : Action S U} {p : U → Prop} (ha : ∀ s, ∀ u ∈ (a s).seen, p u)
    (hb : ∀ s, ∀ u ∈ (b s).seen, p u) (s : S) : ∀ u ∈ (andThen a b s).seen, p u := by
  cases hd : (a s).done with
  | true =>
    rw [andThen_of_done hd]
    exact List.forall_mem_append.2 ⟨ha s, hb _⟩
  | false =>
    rw [andThen_of_not_done hd]
    exact ha s

theorem andThen_returning_id (a : Action S U) : andThen a (returning id) = a := by
  funext s
  cases hd : (a s).done with
  | true => simp [andThen_of_done hd, returning, ← hd]
  | false => exact andThen_of_not_done hd

theorem caught_state (a : Action S U) (s : S) : (caught a s).state = (a s).state := rfl

theorem caught_seen (a : Action S U) (s : S) : (caught a s).seen = (a s).seen := rfl

/-- An invariant under which the observations of one step are right exactly when
a condition holds before it decides whole runs by that condition. -/
theorem forall_seen_runAll_iff {step : E → Action S U} {good : E → S → Prop} {inv : S → Prop}
    {p : U → Prop} (hstep : ∀ e s, inv s → ((∀ u ∈ (step e s).seen, p u) ↔ good e s))
    (hinv : ∀ e s, inv s → good e s → inv (step e s).state) (es : List E) {s : S} (hs : inv s) :
    (∀ u ∈ (runAll step es s).seen, p u) ↔ Meets step good es s := by
  induction es generalizing s with
  | nil => simp [runAll, Meets]
  | cons e es ih =>
    have hrun : (runAll step (e :: es) s).seen =
        (step e s).seen ++ (runAll step es (step e s).state).seen := by
      rw [runAll, andThen_of_done rfl]
      rfl
    rw [hrun, List.forall_mem_append, hstep e s hs, Meets]
    constructor
    · intro h
      exact ⟨h.1, (ih (hinv e s hs h.1)).1 h.2⟩
    · intro h
      exact ⟨h.1, (ih (hinv e s hs h.1)).2 h.2⟩

end TheiaTaint.Foundations.Trace
