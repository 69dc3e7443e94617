import Mathlib
import TheiaTaint.Foundations.Strings

namespace TheiaTaint.Objects.OriginSet

open Foundations.Strings

/-- A `std::set<string>` visits its elements in lexicographic order. -/
def inOrder (S : Finset Text) : List Text := S.sort (· ≤ ·)

/-- `pack_uuids`. On the empty set it erases before the start of an empty
string, which is undefined and here has no result. -/
def packUuids (S : Finset Text) : Option Text :=
  let result := ((inOrder S).map (· ++ ['|'])).flatten
  if result = [] then none else some result.dropLast

/-- `parse_uuids`, the set of texts it inserts. In the loop, `substr(0, i - 1)` is
the whole string for `i = 0`, because the length then wraps to `npos`. -/
def parseUuids (s : Text) : Finset Text :=
  match h : find '|' s with
  | none => {s}
  | some i =>
    insert (if i = 0 then s else substr s 0 (i - 1)) (parseUuids (s.drop (i + 1)))
termination_by s.length
decreasing_by
  have hi := (List.findIdx?_eq_some_iff_getElem.1 h).1
  simp only [List.length_drop]
  omega

@[simp] theorem mem_inOrder {S : Finset Text} {t : Text} : t ∈ inOrder S ↔ t ∈ S := by
  simp [inOrder]

theorem nodup_inOrder (S : Finset Text) : (inOrder S).Nodup := Finset.sort_nodup S _

theorem length_inOrder (S : Finset Text) : (inOrder S).length = S.card := Finset.length_sort _

theorem inOrder_ne_nil {S : Finset Text} (h : S ≠ ∅) : inOrder S ≠ [] := by
  obtain ⟨t, ht⟩ := Finset.nonempty_iff_ne_empty.2 h
  exact List.ne_nil_of_mem (mem_inOrder.2 ht)

theorem flatten_map_bar {ts : List Text} (h : ts ≠ []) :
    (ts.map (· ++ ['|'])).flatten = join '|' ts ++ ['|'] := by
  induction ts with
  | nil => exact absurd rfl h
  | cons t ts ih =>
    cases ts with
    | nil => simp
    | cons u ts =>
      rw [List.map_cons, List.flatten_cons, ih (by simp), join_cons_cons]
      simp

theorem packUuids_eq_none_iff {S : Finset Text} : packUuids S = none ↔ S = ∅ := by
  constructor
  · intro h
    by_contra hS
    simp [packUuids, flatten_map_bar (inOrder_ne_nil hS)] at h
  · rintro rfl
    simp [packUuids, inOrder]

theorem packUuids_of_ne_empty {S : Finset Text} (h : S ≠ ∅) :
    packUuids S = some (join '|' (inOrder S)) := by
  simp [packUuids, flatten_map_bar (inOrder_ne_nil h)]

theorem parseUuids_of_not_mem {t : Text} (h : '|' ∉ t) : parseUuids t = {t} := by
  rw [parseUuids]
  split
  · rfl
  · rename_i i hi
    rw [find_eq_none h] at hi
    exact absurd hi (by simp)

theorem parseUuids_append {t s : Text} (h : '|' ∉ t) (ht : t ≠ []) :
    parseUuids (t ++ '|' :: s) = insert t.dropLast (parseUuids s) := by
  rw [parseUuids]
  split
  · rename_i hi
    rw [find_append s h] at hi
    exact absurd hi (by simp)
  · rename_i i hi
    rw [find_append s h, Option.some.injEq] at hi
    subst hi
    have hlen : t.length ≠ 0 := by simpa using ht
    have htake : substr (t ++ '|' :: s) 0 (t.length - 1) = t.dropLast := by
      rw [substr, List.drop_zero, List.take_append_of_le_length (by omega), List.dropLast_eq_take]
    rw [if_neg hlen, htake, drop_append_cons]

/-- What reading back a packed list gives: every text but the last loses its
last character. -/
def readBack : List Text → Finset Text
  | [] => ∅
  | [t] => {t}
  | t :: u :: ts => insert t.dropLast (readBack (u :: ts))

theorem parseUuids_join {ts : List Text} (hbar : ∀ t ∈ ts, '|' ∉ t) (hnil : ∀ t ∈ ts, t ≠ [])
    (h : ts ≠ []) : parseUuids (join '|' ts) = readBack ts := by
  induction ts with
  | nil => exact absurd rfl h
  | cons t ts ih =>
    cases ts with
    | nil => rw [join_singleton, parseUuids_of_not_mem (hbar t (by simp)), readBack]
    | cons u ts =>
      rw [join_cons_cons, parseUuids_append (hbar t (by simp)) (hnil t (by simp)),
        ih (fun x hx ↦ hbar x (by simp [hx])) (fun x hx ↦ hnil x (by simp [hx])) (by simp),
        readBack]

def totalLength (S : Finset Text) : ℕ := ∑ t ∈ S, t.length

theorem totalLength_insert_le (t : Text) (S : Finset Text) :
    totalLength (insert t S) ≤ t.length + totalLength S := by
  by_cases h : t ∈ S
  · rw [Finset.insert_eq_of_mem h]
    exact Nat.le_add_left _ _
  · exact (Finset.sum_insert h).le

theorem totalLength_readBack_le (ts : List Text) :
    totalLength (readBack ts) ≤ (ts.map List.length).sum := by
  induction ts with
  | nil => rfl
  | cons t ts ih =>
    cases ts with
    | nil => simp [readBack, totalLength]
    | cons u ts =>
      have h := totalLength_insert_le t.dropLast (readBack (u :: ts))
      rw [readBack, List.map_cons, List.sum_cons]
      rw [List.length_dropLast] at h
      omega

theorem totalLength_readBack_lt {t u : Text} {ts : List Text} (ht : t ≠ []) :
    totalLength (readBack (t :: u :: ts)) < ((t :: u :: ts).map List.length).sum := by
  have h := totalLength_insert_le t.dropLast (readBack (u :: ts))
  have hrest := totalLength_readBack_le (u :: ts)
  have hpos : 0 < t.length := List.length_pos_iff.2 ht
  rw [readBack, List.map_cons, List.sum_cons]
  rw [List.length_dropLast] at h
  omega

theorem totalLength_eq_sum_inOrder (S : Finset Text) :
    totalLength S = ((inOrder S).map List.length).sum := by
  have hS : (inOrder S).toFinset = S := Finset.sort_toFinset S _
  rw [← List.sum_toFinset _ (nodup_inOrder S), hS, totalLength]

/-- A set of proper texts that reads back without loss has one element: with
two, the first to be packed comes back one character short. -/
theorem card_eq_one_of_subset_readBack {S : Finset Text} (hnil : ∀ t ∈ S, t ≠ []) (hS : S ≠ ∅)
    (h : S ⊆ readBack (inOrder S)) : S.card = 1 := by
  have hlen := length_inOrder S
  match hl : inOrder S with
  | [] => exact absurd hl (inOrder_ne_nil hS)
  | [t] => rw [← hlen, hl, List.length_singleton]
  | t :: u :: ts =>
    have ht : t ≠ [] := hnil t (mem_inOrder.1 (by simp [hl]))
    have hlt : totalLength (readBack (t :: u :: ts)) < ((t :: u :: ts).map List.length).sum :=
      totalLength_readBack_lt ht
    have hle : totalLength S ≤ totalLength (readBack (inOrder S)) := Finset.sum_le_sum_of_subset h
    rw [← hl, ← totalLength_eq_sum_inOrder] at hlt
    exact absurd (hle.trans_lt hlt) (lt_irrefl _)

theorem inOrder_singleton (t : Text) : inOrder {t} = [t] := Finset.sort_singleton _ t

/-- The texts `create_prov_tag_node` takes from a packed list, by `split('|')`. -/
def splitUuids (sourceTagUuidSet : Text) : List Text := sourceTagUuidSet.splitOn '|'

structure Origins where
  uuids : Finset Text
  nonempty : uuids ≠ ∅
  ne_nil : ∀ t ∈ uuids, t ≠ []
  unbarred : ∀ t ∈ uuids, '|' ∉ t

namespace Origins

def packed (S : Origins) : Text := join '|' (inOrder S.uuids)

theorem packUuids_eq (S : Origins) : packUuids S.uuids = some S.packed :=
  packUuids_of_ne_empty S.nonempty

theorem splitUuids_packed (S : Origins) : splitUuids S.packed = inOrder S.uuids :=
  List.splitOn_intercalate '|' (fun t ht ↦ S.unbarred t (mem_inOrder.1 ht))
    (inOrder_ne_nil S.nonempty)

theorem parseUuids_packed (S : Origins) : parseUuids S.packed = readBack (inOrder S.uuids) :=
  parseUuids_join (fun t ht ↦ S.unbarred t (mem_inOrder.1 ht))
    (fun t ht ↦ S.ne_nil t (mem_inOrder.1 ht)) (inOrder_ne_nil S.nonempty)

theorem toFinset_splitUuids (S : Origins) : (splitUuids S.packed).toFinset = S.uuids := by
  rw [S.splitUuids_packed]
  exact Finset.sort_toFinset S.uuids _

theorem parseUuids_packed_iff (S : Origins) : parseUuids S.packed = S.uuids ↔ S.uuids.card = 1 := by
  rw [S.parseUuids_packed]
  constructor
  · intro h
    exact card_eq_one_of_subset_readBack S.ne_nil S.nonempty h.ge
  · intro h
    obtain ⟨t, ht⟩ := Finset.card_eq_one.1 h
    rw [ht, inOrder_singleton, readBack]

end Origins

def ReadBackByBoth (S : Finset Text) : Prop :=
  ∃ packed, packUuids S = some packed ∧ parseUuids packed = S ∧ (splitUuids packed).toFinset = S

/-- The list is always packed, and `split('|')` always recovers it; `parse_uuids` does so, and
agrees with `split('|')`, exactly on the sets of one text. -/
theorem origin_codec_iff (S : Origins) :
    (ReadBackByBoth S.uuids ↔ S.uuids.card = 1) ∧
      ∀ packed, packUuids S.uuids = some packed →
        (splitUuids packed).toFinset = S.uuids ∧
          (parseUuids packed = (splitUuids packed).toFinset ↔ S.uuids.card = 1) := by
  refine ⟨?_, fun packed hpacked ↦ ?_⟩
  · simp [ReadBackByBoth, S.packUuids_eq, S.parseUuids_packed_iff, S.toFinset_splitUuids]
  · rw [S.packUuids_eq, Option.some.injEq] at hpacked
    subst hpacked
    refine ⟨S.toFinset_splitUuids, ?_⟩
    rw [S.toFinset_splitUuids, S.parseUuids_packed_iff]

theorem two_origins_lose_a_character :
    ¬ ∀ S : Origins, ReadBackByBoth S.uuids := by
  intro h
  let S : Origins := ⟨{"1".toList, "2".toList}, by decide, by decide, by decide⟩
  obtain ⟨packed, hpacked, hread, -⟩ := h S
  rw [S.packUuids_eq, Option.some.injEq] at hpacked
  subst hpacked
  exact absurd (S.parseUuids_packed_iff.1 hread) (by decide)

end TheiaTaint.Objects.OriginSet
