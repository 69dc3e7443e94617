import Mathlib

namespace TheiaTaint.Foundations.TimedWalks

variable {V E T : Type*}

section Walks

variable (leaves arrives : E → V)

def Walk : V → List E → Prop
  | _, [] => True
  | v, e :: es => leaves e = v ∧ Walk (arrives e) es

/-- The trails of at most so many edges that use none of those already used. -/
def trails [DecidableEq V] [DecidableEq E] (edges : List E) : ℕ → V → List E → List (List E)
  | 0, _, _ => []
  | depth + 1, v, used =>
    (edges.filter fun e ↦ decide (leaves e = v) && decide (e ∉ used)).flatMap fun e ↦
      [e] :: (trails edges depth (arrives e) (e :: used)).map fun es ↦ e :: es

end Walks

variable {leaves arrives : E → V} {v : V} {e : E} {es fs : List E}

theorem Walk.front (h : Walk leaves arrives v (es ++ fs)) : Walk leaves arrives v es := by
  induction es generalizing v with
  | nil => trivial
  | cons e es ih => exact ⟨h.1, ih h.2⟩

theorem Walk.after (h : Walk leaves arrives v (es ++ e :: fs)) :
    Walk leaves arrives (arrives e) fs := by
  induction es generalizing v with
  | nil => exact h.2
  | cons f es ih => exact ih h.2

theorem Walk.getElem?_vertices (h : Walk leaves arrives v es) {i : ℕ} (hi : i < es.length) :
    (v :: es.map arrives)[i]? = some (leaves es[i]) := by
  induction es generalizing v i with
  | nil => exact absurd hi (Nat.not_lt_zero i)
  | cons e es ih =>
    cases i with
    | zero => exact congrArg some h.1.symm
    | succ i => exact ih h.2 (Nat.lt_of_succ_lt_succ hi)

/-- A walk that comes back to an edge can leave out what lies between. -/
theorem Walk.exists_trail (h : Walk leaves arrives v (es ++ [e])) :
    ∃ fs, (fs ++ [e]).Sublist (es ++ [e]) ∧ Walk leaves arrives v (fs ++ [e]) ∧
      (fs ++ [e]).Nodup := by
  induction es generalizing v with
  | nil => exact ⟨[], .refl _, h, List.nodup_singleton e⟩
  | cons f es ih =>
    obtain ⟨hleaves, hrest⟩ := h
    obtain ⟨fs, hsub, hwalk, hnodup⟩ := ih hrest
    by_cases hf : f ∈ fs ++ [e]
    · obtain ⟨before, after, hsplit⟩ := List.append_of_mem hf
      have hsuffix : (f :: after).Sublist (fs ++ [e]) := by
        rw [hsplit]
        exact List.sublist_append_right before _
      have hwalk' : Walk leaves arrives v (f :: after) := by
        rw [hsplit] at hwalk
        exact ⟨hleaves, hwalk.after⟩
      have hlast : ∃ gs, f :: after = gs ++ [e] := by
        cases after using List.reverseRecOn with
        | nil =>
          obtain ⟨-, hfe⟩ := List.append_inj' hsplit rfl
          exact ⟨[], hfe.symm⟩
        | append_singleton after e' =>
          rw [← List.cons_append, ← List.append_assoc] at hsplit
          obtain ⟨-, he⟩ := List.append_inj' hsplit rfl
          exact ⟨f :: after, by rw [he]; rfl⟩
      obtain ⟨gs, hgs⟩ := hlast
      rw [hgs] at hsuffix hwalk'
      exact ⟨gs, hsuffix.trans (hsub.trans (List.sublist_cons_self f _)), hwalk',
        hsuffix.nodup hnodup⟩
    · exact ⟨f :: fs, hsub.cons_cons f, ⟨hleaves, hwalk⟩, List.nodup_cons.2 ⟨hf, hnodup⟩⟩

theorem mem_trails_iff [DecidableEq V] [DecidableEq E] {edges : List E} {depth : ℕ}
    {used : List E} :
    es ∈ trails leaves arrives edges depth v used ↔
      es ≠ [] ∧ es.length ≤ depth ∧ Walk leaves arrives v es ∧ es.Nodup ∧
        ∀ e ∈ es, e ∈ edges ∧ e ∉ used := by
  induction depth generalizing v used es with
  | zero =>
    simp only [trails, List.not_mem_nil, false_iff]
    rintro ⟨hne, hlen, -⟩
    exact hne (List.length_eq_zero_iff.1 (Nat.le_zero.1 hlen))
  | succ depth ih =>
    simp only [trails, List.mem_flatMap, List.mem_filter, List.mem_cons, List.mem_map,
      Bool.and_eq_true, decide_eq_true_eq]
    constructor
    · rintro ⟨e, ⟨he, hleaves, hused⟩, rfl | ⟨fs, hfs, rfl⟩⟩
      · refine ⟨by simp, by simp, ⟨hleaves, trivial⟩, List.nodup_singleton e, ?_⟩
        rintro f hf
        rw [List.mem_singleton.1 hf]
        exact ⟨he, hused⟩
      · obtain ⟨-, hlen, hwalk, hnodup, hmem⟩ := ih.1 hfs
        refine ⟨List.cons_ne_nil e fs, by simpa using hlen, ⟨hleaves, hwalk⟩, ?_, ?_⟩
        · refine List.nodup_cons.2 ⟨fun hmem' ↦ ?_, hnodup⟩
          exact (hmem e hmem').2 List.mem_cons_self
        · intro f hf
          rcases List.mem_cons.1 hf with rfl | hf
          · exact ⟨he, hused⟩
          · exact ⟨(hmem f hf).1, fun hu ↦ (hmem f hf).2 (List.mem_cons_of_mem e hu)⟩
    · rintro ⟨hne, hlen, hwalk, hnodup, hmem⟩
      cases es with
      | nil => exact absurd rfl hne
      | cons e es =>
        obtain ⟨hnot, hnodup⟩ := List.nodup_cons.1 hnodup
        refine ⟨e, ⟨(hmem e List.mem_cons_self).1, hwalk.1, (hmem e List.mem_cons_self).2⟩, ?_⟩
        by_cases hes : es = []
        · exact .inl (by rw [hes])
        · refine .inr ⟨es, ih.2 ⟨hes, by simpa using hlen, hwalk.2, hnodup, fun f hf ↦ ?_⟩, rfl⟩
          obtain ⟨hfe, hfu⟩ := hmem f (List.mem_cons_of_mem e hf)
          refine ⟨hfe, fun hu ↦ ?_⟩
          rcases List.mem_cons.1 hu with rfl | hu
          · exact hnot hf
          · exact hfu hu

end TheiaTaint.Foundations.TimedWalks
