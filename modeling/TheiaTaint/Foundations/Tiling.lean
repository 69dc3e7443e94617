import Mathlib

namespace TheiaTaint.Foundations.Tiling

variable {σ τ υ : Type*}

/-- The step has a result exactly when `p` holds, and then one in this relation to the start. -/
def Does (r : σ → Option τ) (p : Prop) (rel : σ → τ → Prop) : Prop :=
  ∀ s, (p → ∃ t, r s = some t ∧ rel s t) ∧ (¬p → r s = none)

/-- A relation that holds over an interval when it does over its pieces in turn. -/
structure Tiles (rel : ℕ → ℕ → σ → σ → Prop) : Prop where
  refl : ∀ a s, rel a a s s
  trans : ∀ {a b c s t u}, a ≤ b → b ≤ c → rel a b s t → rel b c t u → rel a c s u

variable {p q : Prop} {r : σ → Option τ} {rel : σ → τ → Prop}

theorem Does.mono (h : Does r p rel) {rel' : σ → τ → Prop} (hpq : p ↔ q)
    (hrel : ∀ s t, rel s t → rel' s t) : Does r q rel' := by
  intro s
  refine ⟨fun hq ↦ ?_, fun hq ↦ (h s).2 fun hp ↦ hq (hpq.1 hp)⟩
  obtain ⟨t, ht, hst⟩ := (h s).1 (hpq.2 hq)
  exact ⟨t, ht, hrel s t hst⟩

theorem Does.with_condition (h : Does r p rel) : Does r p fun s t ↦ p ∧ rel s t := by
  intro s
  refine ⟨fun hp ↦ ?_, (h s).2⟩
  obtain ⟨t, ht, hst⟩ := (h s).1 hp
  exact ⟨t, ht, hp, hst⟩

theorem Does.bind (h : Does r p rel) {r' : τ → Option υ} {rel' : τ → υ → Prop}
    (h' : Does r' q rel') :
    Does (fun s ↦ (r s).bind r') (p ∧ q) fun s u ↦ ∃ t, rel s t ∧ rel' t u := by
  intro s
  by_cases hp : p
  · obtain ⟨t, ht, hst⟩ := (h s).1 hp
    simp only [ht, Option.bind_some, hp, true_and]
    refine ⟨fun hq ↦ ?_, (h' t).2⟩
    obtain ⟨u, hu, htu⟩ := (h' t).1 hq
    exact ⟨u, hu, t, hst, htu⟩
  · simp [(h s).2 hp, hp]

theorem Does.exists_iff (h : Does r p rel) (s : σ) : (∃ t, r s = some t) ↔ p := by
  constructor
  · rintro ⟨t, ht⟩
    by_contra hp
    rw [(h s).2 hp] at ht
    cases ht
  · intro hp
    obtain ⟨t, ht, -⟩ := (h s).1 hp
    exact ⟨t, ht⟩

theorem Does.rel_of_eq (h : Does r p rel) {s : σ} {t : τ} (ht : r s = some t) : rel s t := by
  obtain ⟨t', ht', hst⟩ := (h s).1 ((h.exists_iff s).1 ⟨t, ht⟩)
  rw [ht, Option.some.injEq] at ht'
  exact ht' ▸ hst

theorem Does.exists_and_iff (h : Does r p rel) (s : σ) {good : τ → Prop}
    (hgood : ∀ t, rel s t → (good t ↔ q)) : (∃ t, r s = some t ∧ good t) ↔ p ∧ q := by
  constructor
  · rintro ⟨t, ht, hgood'⟩
    exact ⟨(h.exists_iff s).1 ⟨t, ht⟩, (hgood t (h.rel_of_eq ht)).1 hgood'⟩
  · rintro ⟨hp, hq⟩
    obtain ⟨t, ht, hst⟩ := (h s).1 hp
    exact ⟨t, ht, (hgood t hst).2 hq⟩

theorem Tiles.bind {rel : ℕ → ℕ → σ → σ → Prop} (h : Tiles rel) {a b c : ℕ} (hab : a ≤ b)
    (hbc : b ≤ c) {r r' : σ → Option σ} (hr : Does r p (rel a b)) (hr' : Does r' q (rel b c)) :
    Does (fun s ↦ (r s).bind r') (p ∧ q) (rel a c) := by
  refine (hr.bind hr').mono Iff.rfl fun s u ↦ ?_
  rintro ⟨t, hst, htu⟩
  exact h.trans hab hbc hst htu

end TheiaTaint.Foundations.Tiling
