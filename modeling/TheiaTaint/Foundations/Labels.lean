import Mathlib
import TheiaTaint.Foundations.History

namespace TheiaTaint.Foundations.Labels

open History

variable {N : Type*} [DecidableEq N] {w : ℕ}

/-- A table that hands out `w`-bit labels to names from a wrapping counter. -/
@[ext] structure Register (N : Type*) (w : ℕ) where
  next : BitVec w
  labelOf : N → Option (BitVec w)
  nameOf : BitVec w → Option N

namespace Register

def empty : Register N w := ⟨0, fun _ ↦ none, fun _ ↦ none⟩

/-- A name without a label takes the next one; the name that held that label
before, if any, is forgotten. -/
def enter (r : Register N w) (x : N) : Register N w :=
  match r.labelOf x with
  | some _ => r
  | none =>
    { next := r.next + 1
      labelOf := Function.update r.labelOf x (some r.next)
      nameOf := Function.update r.nameOf r.next (some x) }

def enterAll (xs : List N) : Register N w := xs.foldl enter empty

/-- Different names of `S` carry different labels, and each label leads back to
its name. -/
structure OneToOne (r : Register N w) (S : Set N) : Prop where
  labels_ne : ∀ x ∈ S, ∀ y ∈ S, x ≠ y → r.labelOf x ≠ r.labelOf y
  name_label : ∀ x ∈ S, ∃ t, r.labelOf x = some t ∧ r.nameOf t = some x

/-- The register after the names of a duplicate-free list were entered in order. -/
def ofList (l : List N) : Register N w where
  next := BitVec.ofNat w l.length
  labelOf x := if x ∈ l then some (BitVec.ofNat w (l.idxOf x)) else none
  nameOf t := lastWhere (fun u ↦ decide (u = t)) (l.mapIdx fun k x ↦ (BitVec.ofNat w k, x))

end Register

open Register

def addName (l : List N) (x : N) : List N := if x ∈ l then l else l ++ [x]

/-- The names of a list in the order of their first occurrence. -/
def firstSeen (xs : List N) : List N := xs.foldl addName []

theorem firstSeen_concat (xs : List N) (x : N) :
    firstSeen (xs ++ [x]) = addName (firstSeen xs) x := by
  simp [firstSeen]

theorem nodup_addName {l : List N} (h : l.Nodup) (x : N) : (addName l x).Nodup := by
  unfold addName
  split
  · exact h
  · rename_i hx
    exact h.append (List.nodup_singleton x) (by simpa using hx)

theorem nodup_firstSeen (xs : List N) : (firstSeen xs).Nodup := by
  induction xs using List.reverseRecOn with
  | nil => exact List.nodup_nil
  | append_singleton xs x ih => exact firstSeen_concat xs x ▸ nodup_addName ih x

theorem mem_firstSeen {xs : List N} {y : N} : y ∈ firstSeen xs ↔ y ∈ xs := by
  induction xs using List.reverseRecOn generalizing y with
  | nil => simp [firstSeen]
  | append_singleton xs x ih =>
    rw [firstSeen_concat, addName]
    split
    · rename_i hx
      rw [ih, List.mem_append, List.mem_singleton]
      refine ⟨Or.inl, fun h ↦ ih.1 ?_⟩
      rcases h with hy | rfl
      · exact ih.2 hy
      · exact hx
    · simp [ih]

theorem length_firstSeen (xs : List N) : (firstSeen xs).length = xs.toFinset.card := by
  rw [← List.toFinset_card_of_nodup (nodup_firstSeen xs)]
  exact congrArg Finset.card (by ext; simp [mem_firstSeen])

theorem enter_ofList (l : List N) (x : N) :
    (ofList l : Register N w).enter x = ofList (addName l x) := by
  by_cases hx : x ∈ l
  · simp [enter, ofList, addName, hx]
  · have hlabel : (ofList l : Register N w).labelOf x = none := by simp [ofList, hx]
    simp only [enter, hlabel, addName, hx, if_false]
    ext1
    · simp [ofList, BitVec.ofNat_add]
    · funext y
      by_cases hy : y = x
      · subst hy
        simp [ofList, List.idxOf_append_of_notMem hx]
      · by_cases hl : y ∈ l <;>
          simp [ofList, hy, hl, List.idxOf_append_of_mem]
    · funext t
      simp only [ofList, List.mapIdx_concat, lastWhere_concat, Function.update_apply]
      by_cases ht : BitVec.ofNat w l.length = t
      · simp [ht]
      · simp [ht, Ne.symm ht]

theorem enterAll_eq_ofList (xs : List N) : (enterAll xs : Register N w) = ofList (firstSeen xs) := by
  induction xs using List.reverseRecOn with
  | nil => rfl
  | append_singleton xs x ih =>
    rw [firstSeen_concat, ← enter_ofList, ← ih]
    simp [enterAll]

theorem labelOf_ofList_getElem {l : List N} (hl : l.Nodup) {k : ℕ} (hk : k < l.length) :
    (ofList l : Register N w).labelOf l[k] = some (BitVec.ofNat w k) := by
  simp [ofList, hl.idxOf_getElem k hk]

theorem ofNat_inj_of_lt {j k : ℕ} (hj : j < 2 ^ w) (hk : k < 2 ^ w)
    (h : BitVec.ofNat w j = BitVec.ofNat w k) : j = k := by
  have hn := congrArg BitVec.toNat h
  simpa [Nat.mod_eq_of_lt hj, Nat.mod_eq_of_lt hk] using hn

theorem nameOf_ofList_getElem {l : List N} (hw : l.length ≤ 2 ^ w) {k : ℕ} (hk : k < l.length) :
    (ofList l : Register N w).nameOf (BitVec.ofNat w k) = some l[k] := by
  induction l using List.reverseRecOn generalizing k with
  | nil => simp at hk
  | append_singleton l x ih =>
    simp only [List.length_append, List.length_singleton] at hw hk
    simp only [ofList, List.mapIdx_concat, lastWhere_concat] at ih ⊢
    rcases Nat.lt_succ_iff_lt_or_eq.1 hk with hlt | rfl
    · have hne : BitVec.ofNat w l.length ≠ BitVec.ofNat w k := fun h ↦ by
        have := ofNat_inj_of_lt (by omega) (by omega) h
        omega
      simpa [hne, List.getElem_append_left hlt] using ih (by omega) hlt
    · simp

theorem oneToOne_ofList_iff {l : List N} (hl : l.Nodup) :
    (ofList l : Register N w).OneToOne {x | x ∈ l} ↔ l.length ≤ 2 ^ w := by
  constructor
  · intro h
    by_contra hlong
    -- the first name and the one entered after a full turn share the label 0
    have hturn : 2 ^ w < l.length := Nat.lt_of_not_le hlong
    have h0 : 0 < l.length := Nat.zero_lt_of_lt hturn
    refine h.labels_ne l[0] (List.getElem_mem h0) l[2 ^ w] (List.getElem_mem hturn) ?_ ?_
    · rw [ne_eq, hl.getElem_inj_iff]
      exact (Nat.two_pow_pos w).ne
    · rw [labelOf_ofList_getElem hl h0, labelOf_ofList_getElem hl hturn]
      exact congrArg some (BitVec.eq_of_toNat_eq (by rw [BitVec.toNat_ofNat, BitVec.toNat_ofNat,
        Nat.mod_self, Nat.zero_mod]))
  · intro h
    refine ⟨fun x hx y hy hne ↦ ?_, fun x hx ↦ ?_⟩
    · obtain ⟨j, hj, rfl⟩ := List.getElem_of_mem hx
      obtain ⟨k, hk, rfl⟩ := List.getElem_of_mem hy
      rw [labelOf_ofList_getElem hl hj, labelOf_ofList_getElem hl hk]
      intro he
      have hjk := ofNat_inj_of_lt (hj.trans_le h) (hk.trans_le h) (Option.some.inj he)
      subst hjk
      exact hne rfl
    · obtain ⟨k, hk, rfl⟩ := List.getElem_of_mem hx
      exact ⟨_, labelOf_ofList_getElem hl hk, nameOf_ofList_getElem h hk⟩

/-- The labels stay one-to-one with the names exactly as long as the counter has
not been asked for more than `2 ^ w` of them. -/
theorem oneToOne_enterAll_iff (xs : List N) :
    (enterAll xs : Register N w).OneToOne {x | x ∈ xs} ↔ xs.toFinset.card ≤ 2 ^ w := by
  have hset : {x | x ∈ xs} = {x | x ∈ firstSeen xs} := by ext; simp [mem_firstSeen]
  rw [enterAll_eq_ofList, hset, oneToOne_ofList_iff (nodup_firstSeen xs), length_firstSeen]

end TheiaTaint.Foundations.Labels
