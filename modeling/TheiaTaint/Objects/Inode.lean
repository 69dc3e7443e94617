import Mathlib
import TheiaTaint.Foundations.Strings

namespace TheiaTaint.Objects.Inode

open Foundations.Strings

/-- `s.substr(0, s.find('|'))` -/
def uptoBar (s : Text) : Text :=
  match find '|' s with
  | none => s
  | some pos => substr s 0 pos

/-- `s.substr(s.find('|') + 1)`, where `npos + 1` is 0 -/
def afterBar (s : Text) : Text :=
  match find '|' s with
  | none => s
  | some pos => s.drop (pos + 1)

/-- The loop with a bound on its turns. A turn that does not break takes two fields. -/
def parseInodeLoop : ℕ → Text → List Text → Option (List Text)
  | 0, _, _ => none
  | n + 1, substring, items =>
    match find '|' substring with
    | none => some (items ++ [substring])
    | some pos =>
      let items := items ++ [substr substring 0 pos]
      let substring := substring.drop (pos + 1)
      parseInodeLoop n (afterBar substring) (items ++ [uptoBar substring])

/-- Every turn but the last takes a character away. -/
def parseInode (ipt : Text) : List Text := (parseInodeLoop (ipt.length + 1) ipt []).getD []

/-- The fields of a record. -/
structure Fields where
  fields : List Text
  ne_nil : fields ≠ []
  unbarred : ∀ t ∈ fields, '|' ∉ t

/-- What is read of a record: a last field that was the second of its turn is read again. -/
def Fields.reread (x : Fields) : List Text :=
  x.fields ++ if Even x.fields.length then [x.fields.getLast x.ne_nil] else []

theorem uptoBar_of_not_mem {s : Text} (h : '|' ∉ s) : uptoBar s = s := by
  rw [uptoBar, find_eq_none h]

theorem afterBar_of_not_mem {s : Text} (h : '|' ∉ s) : afterBar s = s := by
  rw [afterBar, find_eq_none h]

theorem uptoBar_append {a : Text} (b : Text) (h : '|' ∉ a) : uptoBar (a ++ '|' :: b) = a := by
  rw [uptoBar, find_append b h]
  exact take_append_cons a b '|'

theorem afterBar_append {a : Text} (b : Text) (h : '|' ∉ a) : afterBar (a ++ '|' :: b) = b := by
  rw [afterBar, find_append b h]
  exact drop_append_cons a b '|'

theorem length_afterBar_le (s : Text) : (afterBar s).length ≤ s.length := by
  rw [afterBar]
  split
  · exact le_rfl
  · rw [List.length_drop]
    exact Nat.sub_le _ _

theorem lt_length_of_find {c : Char} {s : Text} {pos : ℕ} (h : find c s = some pos) :
    pos < s.length :=
  (List.findIdx?_eq_some_iff_getElem.1 h).1

theorem exists_parseInodeLoop (s : Text) (items : List Text) {n : ℕ} (hn : s.length < n) :
    ∃ out, parseInodeLoop n s items = some out := by
  induction n generalizing s items with
  | zero => exact absurd hn (Nat.not_lt_zero _)
  | succ n ih =>
    rw [parseInodeLoop]
    cases hfind : find '|' s with
    | none => exact ⟨_, rfl⟩
    | some pos =>
      have hpos := lt_length_of_find hfind
      have hle := length_afterBar_le (s.drop (pos + 1))
      rw [List.length_drop] at hle
      exact ih _ _ (by omega)

theorem parseInodeLoop_succ {n : ℕ} {s : Text} {items out : List Text}
    (h : parseInodeLoop n s items = some out) : parseInodeLoop (n + 1) s items = some out := by
  induction n generalizing s items with
  | zero => cases h
  | succ n ih =>
    rw [parseInodeLoop] at h ⊢
    cases hfind : find '|' s with
    | none =>
      rw [hfind] at h
      exact h
    | some pos =>
      rw [hfind] at h
      exact ih h

theorem parseInodeLoop_mono {m n : ℕ} (hmn : m ≤ n) {s : Text} {items out : List Text}
    (h : parseInodeLoop m s items = some out) : parseInodeLoop n s items = some out := by
  induction hmn with
  | refl => exact h
  | step _ ih => exact parseInodeLoop_succ ih

theorem parseInodeLoop_eq {n : ℕ} {s : Text} {out : List Text}
    (h : parseInodeLoop n s [] = some out) : parseInode s = out := by
  obtain ⟨out', hout'⟩ := exists_parseInodeLoop s [] (Nat.lt_succ_self _)
  have hleft := parseInodeLoop_mono (Nat.le_add_right n (s.length + 1)) h
  have hright := parseInodeLoop_mono (Nat.le_add_left (s.length + 1) n) hout'
  rw [parseInode, hout', Option.getD_some]
  exact Option.some.inj (hright.symm.trans hleft)

/-- A turn takes two fields. The second of them is read again if no third follows it. -/
theorem parseInodeLoop_two {a b : Text} (ha : '|' ∉ a) (hb : '|' ∉ b) (n : ℕ) (items : List Text) :
    parseInodeLoop (n + 2) (join '|' [a, b]) items = some (items ++ [a, b, b]) := by
  rw [join_cons_cons, join_singleton, parseInodeLoop, find_append b ha]
  simp only [drop_append_cons, afterBar_of_not_mem hb, uptoBar_of_not_mem hb]
  rw [parseInodeLoop, find_eq_none hb]
  simp [substr]

theorem parseInodeLoop_turn {a b c : Text} (ha : '|' ∉ a) (hb : '|' ∉ b) (n : ℕ)
    (items ts : List Text) :
    parseInodeLoop (n + 1) (join '|' (a :: b :: c :: ts)) items =
      parseInodeLoop n (join '|' (c :: ts)) (items ++ [a, b]) := by
  rw [join_cons_cons, parseInodeLoop, find_append _ ha, join_cons_cons]
  simp [substr, afterBar_append _ hb, uptoBar_append _ hb]

theorem parseInodeLoop_join (ts : List Text) (hne : ts ≠ []) (hbar : ∀ t ∈ ts, '|' ∉ t)
    (items : List Text) :
    parseInodeLoop (ts.length + 1) (join '|' ts) items =
      some (items ++ (ts ++ if Even ts.length then [ts.getLast hne] else [])) := by
  match ts with
  | [] => exact absurd rfl hne
  | [a] =>
    have ha := hbar a (by simp)
    rw [join_singleton, parseInodeLoop, find_eq_none ha]
    simp
  | [a, b] =>
    have ha := hbar a (by simp)
    have hb := hbar b (by simp)
    have htwo := parseInodeLoop_two ha hb 1 items
    simpa using htwo
  | a :: b :: c :: ts =>
    have ha := hbar a (by simp)
    have hb := hbar b (by simp)
    have hrest : ∀ t ∈ c :: ts, '|' ∉ t :=
      fun t ht ↦ hbar t (List.mem_cons_of_mem _ (List.mem_cons_of_mem _ ht))
    have ih := parseInodeLoop_join (c :: ts) (List.cons_ne_nil _ _) hrest (items ++ [a, b])
    have hparity : Even (a :: b :: c :: ts).length ↔ Even (c :: ts).length := by
      simp only [List.length_cons]
      grind
    refine (parseInodeLoop_turn ha hb ((c :: ts).length + 2) items ts).trans ?_
    rw [parseInodeLoop_succ ih]
    simp only [hparity, List.getLast_cons_cons, List.append_assoc, List.cons_append,
      List.nil_append]

theorem parseInode_join (x : Fields) : parseInode (join '|' x.fields) = x.reread := by
  have hloop := parseInodeLoop_join x.fields x.ne_nil x.unbarred []
  exact parseInodeLoop_eq hloop

theorem Fields.reread_eq_iff (x : Fields) : x.reread = x.fields ↔ Odd x.fields.length := by
  rw [Fields.reread, List.append_right_eq_self, ← Nat.not_even_iff_odd]
  split
  · rename_i heven
    exact ⟨fun h ↦ absurd h (List.cons_ne_nil _ _), fun h ↦ absurd heven h⟩
  · rename_i hodd
    exact ⟨fun _ ↦ hodd, fun _ ↦ rfl⟩

/-- The loop ends on every text, and splitting undoes joining exactly for an odd
number of fields. -/
theorem parse_exact_iff (s : Text) (x : Fields) :
    (∃ n, parseInodeLoop n s [] = some (parseInode s)) ∧
      (parseInode (join '|' x.fields) = x.fields ↔ Odd x.fields.length) := by
  constructor
  · obtain ⟨out, hout⟩ := exists_parseInodeLoop s [] (Nat.lt_succ_self _)
    exact ⟨_, (parseInodeLoop_eq hout).symm ▸ hout⟩
  · rw [parseInode_join]
    exact x.reread_eq_iff

theorem parse_repeats_last :
    ¬ ∀ x : Fields, parseInode (join '|' x.fields) = x.fields := by
  intro h
  have hab := h ⟨["a".toList, "b".toList], by decide, by decide⟩
  exact absurd hab (by decide)

end TheiaTaint.Objects.Inode
