import Mathlib

namespace TheiaTaint.Foundations.Components

variable {κ σ ρ τ α β ω : Type*}

abbrev Component (κ σ α : Type*) := κ → σ → Option (α × σ)

/-- What the calls are for: every call has a reply. -/
abbrev Purpose (κ τ ω : Type*) := κ → τ → ω × τ

namespace Component

def run (c : Component κ σ α) : List κ → σ → Option (List α × σ)
  | [], s => some ([], s)
  | k :: ks, s => (c k s).bind fun t ↦ (run c ks t.2).map fun u ↦ (t.1 :: u.1, u.2)

end Component

namespace Purpose

def run (p : Purpose κ τ ω) : List κ → τ → List ω × τ
  | [], t => ([], t)
  | k :: ks, t => ((p k t).1 :: (run p ks (p k t).2).1, (run p ks (p k t).2).2)

def Allowed (p : Purpose κ τ ω) (pre : κ → τ → Prop) : List κ → τ → Prop
  | [], _ => True
  | k :: ks, t => pre k t ∧ Allowed p pre ks (p k t).2

theorem Allowed.mono {p : Purpose κ τ ω} {pre pre' : κ → τ → Prop}
    (hpre : ∀ k t, pre k t → pre' k t) {ks : List κ} {t : τ} (h : p.Allowed pre ks t) :
    p.Allowed pre' ks t := by
  induction ks generalizing t with
  | nil => trivial
  | cons k ks ih => exact ⟨hpre k t h.1, ih h.2⟩

end Purpose

/-- Where the precondition holds, a call of the component answers what it is for. -/
structure Implements (c : Component κ σ α) (p : Purpose κ τ ω) (pre : κ → τ → Prop)
    (stands : σ → τ → Prop) (agree : α → ω → Prop) : Prop where
  call : ∀ {k s t}, stands s t → pre k t →
    ∃ a s', c k s = some (a, s') ∧ agree a (p k t).1 ∧ stands s' (p k t).2

theorem forall₂_comp {R : α → ω → Prop} {S : β → ω → Prop} {as : List α} {bs : List β}
    {ws : List ω} (has : List.Forall₂ R as ws) (hbs : List.Forall₂ S bs ws) :
    List.Forall₂ (fun a b ↦ ∃ w, R a w ∧ S b w) as bs := by
  induction has generalizing bs with
  | nil => rw [List.forall₂_nil_right_iff.1 hbs]; exact .nil
  | cons ha _ ih =>
    obtain ⟨b, bs', hb, hbs', rfl⟩ := List.forall₂_cons_right_iff.1 hbs
    exact .cons ⟨_, ha, hb⟩ (ih hbs')

variable {c : Component κ σ α} {d : Component κ ρ β} {p : Purpose κ τ ω}
  {pre pre' : κ → τ → Prop} {stands : σ → τ → Prop} {stands' : ρ → τ → Prop}
  {agree : α → ω → Prop} {agree' : β → ω → Prop}

theorem Implements.run (h : Implements c p pre stands agree) {ks : List κ} {s : σ} {t : τ}
    (hs : stands s t) (hks : p.Allowed pre ks t) :
    ∃ as s', c.run ks s = some (as, s') ∧ List.Forall₂ agree as (p.run ks t).1 ∧
      stands s' (p.run ks t).2 := by
  induction ks generalizing s t with
  | nil => exact ⟨[], s, rfl, .nil, hs⟩
  | cons k ks ih =>
    obtain ⟨a, s', hcall, hagree, hs'⟩ := h.call hs hks.1
    obtain ⟨as, s'', hrun, hagrees, hs''⟩ := ih hs' hks.2
    refine ⟨a :: as, s'', ?_, .cons hagree hagrees, hs''⟩
    rw [Component.run, hcall, Option.bind_some, hrun, Option.map_some]

/-- Two components with one purpose give answers that agree with the same replies. -/
theorem Implements.run_both (h : Implements c p pre stands agree)
    (h' : Implements d p pre' stands' agree') {ks : List κ} {s : σ} {r : ρ} {t : τ}
    (hs : stands s t) (hr : stands' r t) (hks : p.Allowed pre ks t)
    (hks' : p.Allowed pre' ks t) :
    ∃ as s' bs r', c.run ks s = some (as, s') ∧ d.run ks r = some (bs, r') ∧
      List.Forall₂ (fun a b ↦ ∃ w, agree a w ∧ agree' b w) as bs := by
  obtain ⟨as, s', hrun, has, -⟩ := h.run hs hks
  obtain ⟨bs, r', hrun', hbs, -⟩ := h'.run hr hks'
  exact ⟨as, s', bs, r', hrun, hrun', forall₂_comp has hbs⟩

end TheiaTaint.Foundations.Components
