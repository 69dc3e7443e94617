import Mathlib
import TheiaTaint.Foundations.Strings

namespace TheiaTaint.Foundations.Numbers

open Foundations.Strings

/-- The base and the digits of a text without its sign. A `0x` counts as a prefix if
a hexadecimal digit follows it, and base 0 is told by the prefix. -/
def radix (base : ℕ) : Text → ℕ × Text
  | '0' :: x :: c :: rest =>
    if (base = 0 ∨ base = 16) ∧ (x = 'x' ∨ x = 'X') ∧ (digitValue 16 c).isSome then (16, c :: rest)
    else (if base = 0 then 8 else base, '0' :: x :: c :: rest)
  | '0' :: rest => (if base = 0 then 8 else base, '0' :: rest)
  | s => (if base = 0 then 10 else base, s)

def magnitude (base : ℕ) (s : Text) : Option ℕ :=
  let (base, digits) := radix base s
  if (digits.head?.bind (digitValue base)).isSome then some (parseDigits base digits 0) else none

/-- The number at the start of a text, where `none` is `std::invalid_argument`. -/
def integer (base : ℕ) (s : Text) : Option ℤ :=
  let body := s.dropWhile isSpace
  let negative := body.head? = some '-'
  let digits := if negative ∨ body.head? = some '+' then body.tail else body
  (magnitude base digits).map fun n : ℕ ↦ if negative then -(n : ℤ) else n

/-- `std::stoi(s, nullptr, base)`, where `none` is an exception. -/
def stoiBase (base : ℕ) (s : Text) : Option ℤ :=
  (integer base s).filter fun v ↦ -2 ^ 31 ≤ v ∧ v < 2 ^ 31

/-- `std::stoll(s, nullptr, base)` -/
def stollBase (base : ℕ) (s : Text) : Option ℤ :=
  (integer base s).filter fun v ↦ -2 ^ 63 ≤ v ∧ v < 2 ^ 63

/-- `std::stoul(s, nullptr, base)`, which wraps a negative number around. -/
def stoulBase (base : ℕ) (s : Text) : Option (BitVec 64) :=
  ((integer base s).filter fun v ↦ v.natAbs < 2 ^ 64).map (BitVec.ofInt 64)

def IsHex (s : Text) : Prop := ∀ c ∈ s, (digitValue 16 c).isSome

instance (s : Text) : Decidable (IsHex s) := List.decidableBAll _ s

theorem digitValue_of_eq {b base d : ℕ} {c : Char} (h : digitValue base c = some d) :
    digitValue b c = if d < b then some d else none := by
  simp only [digitValue, Option.filter_eq_some_iff, decide_eq_true_eq] at h ⊢
  rw [h.1, Option.filter_some]
  simp

theorem le_parseDigits {base : ℕ} (hbase : 0 < base) (s : Text) (acc : ℕ) :
    acc ≤ parseDigits base s acc := by
  induction s generalizing acc with
  | nil => exact le_rfl
  | cons c s ih =>
    rw [parseDigits]
    split
    · rename_i d _
      have hmul : acc ≤ acc * base := Nat.le_mul_of_pos_right acc hbase
      exact (hmul.trans (Nat.le_add_right _ d)).trans (ih _)
    · exact le_rfl

theorem parseDigits_lt {b base : ℕ} (hb : b ≤ base) (hbase : 0 < base) {s : Text}
    (hs : ∀ c ∈ s, (digitValue base c).isSome) {acc acc' : ℕ} (hacc : acc < acc') :
    parseDigits b s acc < parseDigits base s acc' := by
  induction s generalizing acc acc' with
  | nil => exact hacc
  | cons c s ih =>
    obtain ⟨d, hd⟩ := Option.isSome_iff_exists.1 (hs c List.mem_cons_self)
    have hrest : ∀ c' ∈ s, (digitValue base c').isSome :=
      fun c' hc' ↦ hs c' (List.mem_cons_of_mem c hc')
    have hlarger : acc * b + d < acc' * base + d :=
      Nat.add_lt_add_right (Nat.mul_lt_mul_of_lt_of_le hacc hb hbase) d
    rw [parseDigits, parseDigits, hd, digitValue_of_eq hd]
    by_cases hlt : d < b
    · rw [if_pos hlt]
      exact ih hrest hlarger
    · rw [if_neg hlt]
      have hmul : acc' ≤ acc' * base := Nat.le_mul_of_pos_right acc' hbase
      have hle := le_parseDigits hbase s (acc' * base + d)
      exact hacc.trans_le ((hmul.trans (Nat.le_add_right _ d)).trans hle)

theorem mul_le_parseDigits {base d : ℕ} (hbase : 0 < base) {c : Char} {s : Text}
    (hc : digitValue base c = some d) (acc : ℕ) :
    acc * base + d ≤ parseDigits base (c :: s) acc := by
  rw [parseDigits, hc]
  exact le_parseDigits hbase s _

/-- Once a digit that counts was read, every further one tells two bases apart. -/
theorem parseDigits_cons_lt {b base : ℕ} (hb : 0 < b) (hlt : b < base) {c : Char} {s : Text}
    (hs : ∀ c' ∈ c :: s, (digitValue base c').isSome) {acc : ℕ} (hacc : 0 < acc) :
    parseDigits b (c :: s) acc < parseDigits base (c :: s) acc := by
  obtain ⟨d, hd⟩ := Option.isSome_iff_exists.1 (hs c List.mem_cons_self)
  have hrest : ∀ c' ∈ s, (digitValue base c').isSome :=
    fun c' hc' ↦ hs c' (List.mem_cons_of_mem c hc')
  have hbase : 0 < base := hb.trans hlt
  have hmul : acc * b < acc * base := Nat.mul_lt_mul_of_pos_left hlt hacc
  rw [parseDigits, parseDigits, hd, digitValue_of_eq hd]
  by_cases hdb : d < b
  · rw [if_pos hdb]
    exact parseDigits_lt hlt.le hbase hrest (Nat.add_lt_add_right hmul d)
  · rw [if_neg hdb]
    have hone : acc ≤ acc * base := Nat.le_mul_of_pos_right acc hbase
    have hnext : acc < acc * base + d := by omega
    exact hnext.trans_le (le_parseDigits hbase s _)

/-- A text of digits means the same number in two bases exactly when this is a digit
of the smaller one. -/
theorem parseDigits_eq_iff {b base : ℕ} (hb : 0 < b) (hlt : b < base) {s : Text}
    (hs : ∀ c ∈ s, (digitValue base c).isSome) :
    parseDigits b s 0 = parseDigits base s 0 ↔ parseDigits base s 0 < b := by
  induction s with
  | nil => exact ⟨fun _ ↦ hb, fun _ ↦ rfl⟩
  | cons c s ih =>
    obtain ⟨d, hd⟩ := Option.isSome_iff_exists.1 (hs c List.mem_cons_self)
    have hrest : ∀ c' ∈ s, (digitValue base c').isSome :=
      fun c' hc' ↦ hs c' (List.mem_cons_of_mem c hc')
    have hbase : 0 < base := hb.trans hlt
    rw [parseDigits, parseDigits, hd, digitValue_of_eq hd]
    simp only [Nat.zero_mul, Nat.zero_add]
    rcases Nat.eq_zero_or_pos d with rfl | hpos
    · rw [if_pos hb]
      exact ih hrest
    · have hle := le_parseDigits hbase s d
      by_cases hdb : d < b
      · rw [if_pos hdb]
        cases s with
        | nil => exact ⟨fun _ ↦ hdb, fun _ ↦ rfl⟩
        | cons c' s =>
          have hstrict := parseDigits_cons_lt hb hlt hrest hpos
          obtain ⟨d', hd'⟩ := Option.isSome_iff_exists.1 (hrest c' List.mem_cons_self)
          have hmul := mul_le_parseDigits (s := s) hbase hd' d
          have hone : base ≤ d * base := Nat.le_mul_of_pos_left base hpos
          have hlarge : b ≤ parseDigits base (c' :: s) d := by omega
          exact ⟨fun h ↦ absurd h hstrict.ne, fun h ↦ absurd h hlarge.not_gt⟩
      · rw [if_neg hdb]
        exact ⟨fun h ↦ absurd h (hpos.trans_le hle).ne, fun h ↦ absurd h (by omega)⟩

theorem ne_of_isHex {c d : Char} (hc : (digitValue 16 c).isSome) (hd : digitValue 16 d = none) :
    c ≠ d := by
  rintro rfl
  rw [hd] at hc
  cases hc

theorem isSpace_of_isHex {c : Char} (hc : (digitValue 16 c).isSome) : isSpace c = false := by
  by_contra hspace
  simp only [isSpace, List.mem_cons, List.not_mem_nil, or_false, decide_eq_true_eq,
    Bool.not_eq_false] at hspace
  rcases hspace with h | h | h | h | h | h <;> exact ne_of_isHex hc (by decide) h

theorem integer_of_head {base : ℕ} {c : Char} {s : Text} (hc : (digitValue 16 c).isSome) :
    integer base (c :: s) = (magnitude base (c :: s)).map fun n : ℕ ↦ (n : ℤ) := by
  have hminus : c ≠ '-' := ne_of_isHex hc (by decide)
  have hplus : c ≠ '+' := ne_of_isHex hc (by decide)
  rw [integer, List.dropWhile_cons_of_neg (by simp [isSpace_of_isHex hc])]
  simp [hminus, hplus]

theorem radix_digits {s : Text} (hs : IsHex s) (base : ℕ) :
    radix base s = (if base = 0 then (if s.head? = some '0' then 8 else 10) else base, s) := by
  rw [radix.eq_def]
  split
  · rename_i x c rest
    have hx := hs x (by simp)
    have hlower : x ≠ 'x' := ne_of_isHex hx (by decide)
    have hupper : x ≠ 'X' := ne_of_isHex hx (by decide)
    simp [hlower, hupper]
  · simp
  · rename_i hzero
    have hhead : s.head? ≠ some '0' := by
      intro h
      obtain ⟨rest, hrest⟩ := List.head?_eq_some_iff.1 h
      exact hzero rest hrest
    rw [if_neg hhead]

theorem radix_marked {base : ℕ} (hbase : base = 0 ∨ base = 16) {x : Char} (hx : x = 'x' ∨ x = 'X')
    {s : Text} (hne : s ≠ []) (hs : IsHex s) : radix base ('0' :: x :: s) = (16, s) := by
  cases s with
  | nil => exact absurd rfl hne
  | cons c s =>
    have hc := hs c List.mem_cons_self
    rw [radix, if_pos ⟨hbase, hx, hc⟩]

/-- A hexadecimal number, with or without its mark. -/
structure HexText (w : ℕ) where
  mark : Text
  digits : Text
  mark_mem : mark = [] ∨ ∃ x, (x = 'x' ∨ x = 'X') ∧ mark = ['0', x]
  ne_nil : digits ≠ []
  isHex : IsHex digits
  lt : parseDigits 16 digits 0 < 2 ^ w

namespace HexText

variable {w : ℕ} (x : HexText w)

def text : Text := x.mark ++ x.digits

def number : ℕ := parseDigits 16 x.digits 0

/-- The base in which the text is read if no base is given. -/
def ownBase : ℕ := if x.mark = [] then (if x.digits.head? = some '0' then 8 else 10) else 16

theorem radix_sixteen : radix 16 x.text = (16, x.digits) := by
  rw [text]
  rcases x.mark_mem with hmark | ⟨c, hc, hmark⟩
  · rw [hmark, List.nil_append, radix_digits x.isHex]
    rfl
  · rw [hmark]
    exact radix_marked (.inr rfl) hc x.ne_nil x.isHex

theorem radix_zero : radix 0 x.text = (x.ownBase, x.digits) := by
  rw [text, ownBase]
  rcases x.mark_mem with hmark | ⟨c, hc, hmark⟩
  · rw [hmark, List.nil_append, radix_digits x.isHex, if_pos rfl, if_pos rfl]
  · rw [hmark, if_neg (List.cons_ne_nil _ _)]
    exact radix_marked (.inl rfl) hc x.ne_nil x.isHex

theorem exists_digit : ∃ c s d, x.digits = c :: s ∧ digitValue 16 c = some d := by
  obtain ⟨c, s, hdigits⟩ := List.exists_cons_of_ne_nil x.ne_nil
  have hc := x.isHex c (by simp [hdigits])
  obtain ⟨d, hd⟩ := Option.isSome_iff_exists.1 hc
  exact ⟨c, s, d, hdigits, hd⟩

theorem integer_text (base : ℕ) :
    integer base x.text = (magnitude base x.text).map fun n : ℕ ↦ (n : ℤ) := by
  obtain ⟨c, s, d, hdigits, hd⟩ := x.exists_digit
  rw [text, hdigits]
  rcases x.mark_mem with hmark | ⟨c', hc', hmark⟩
  · rw [hmark, List.nil_append]
    exact integer_of_head (by rw [hd]; rfl)
  · rw [hmark]
    exact integer_of_head (by decide)

theorem integer_sixteen : integer 16 x.text = some (x.number : ℤ) := by
  obtain ⟨c, s, d, hdigits, hd⟩ := x.exists_digit
  rw [integer_text, magnitude, radix_sixteen]
  simp [hdigits, hd, number]

theorem ownBase_eq : x.ownBase = 16 ∨ 0 < x.ownBase ∧ x.ownBase < 16 := by
  rw [ownBase]
  split
  · split <;> exact .inr (by decide)
  · exact .inl rfl

/-- Without a base the text means its number only if it is marked or has one digit
that counts. -/
theorem integer_zero_iff :
    integer 0 x.text = some (x.number : ℤ) ↔ x.ownBase = 16 ∨ x.number < x.ownBase := by
  obtain ⟨c, s, d, hdigits, hd⟩ := x.exists_digit
  rw [integer_text, magnitude, radix_zero]
  rcases x.ownBase_eq with hbase | ⟨hpos, hlt⟩
  · simp [hbase, hdigits, hd, number]
  · have hne : x.ownBase ≠ 16 := hlt.ne
    have hdigit := digitValue_of_eq (b := x.ownBase) hd
    simp only [hdigits, List.head?_cons, Option.bind_some, hdigit, hne, false_or]
    by_cases hdb : d < x.ownBase
    · have hiff := parseDigits_eq_iff hpos hlt x.isHex
      rw [hdigits] at hiff
      simpa [hdb, number, hdigits] using hiff
    · have hmul := mul_le_parseDigits (s := s) (by decide) hd 0
      have hle : x.ownBase ≤ x.number := by
        rw [number, hdigits]
        omega
      simp [hdb, hle]

theorem stoulBase_sixteen (hw : w ≤ 64) :
    stoulBase 16 x.text = some (BitVec.ofNat 64 x.number) := by
  have hlt : x.number < 2 ^ 64 := x.lt.trans_le (Nat.pow_le_pow_right (by decide) hw)
  rw [stoulBase, integer_sixteen, Option.filter_some, if_pos (by simpa using hlt), Option.map_some,
    BitVec.ofInt_natCast]

theorem stoiBase_sixteen :
    stoiBase 16 x.text = if x.number < 2 ^ 31 then some (x.number : ℤ) else none := by
  have hiff : (-2 ^ 31 ≤ (x.number : ℤ) ∧ (x.number : ℤ) < 2 ^ 31) ↔ x.number < 2 ^ 31 := by
    omega
  rw [stoiBase, integer_sixteen, Option.filter_some]
  simp only [decide_eq_true_eq, hiff]

theorem stoiBase_zero_iff (hw : w ≤ 32) :
    (stoiBase 0 x.text).map (BitVec.ofInt 32) = some (BitVec.ofNat 32 x.number) ↔
      (x.ownBase = 16 ∨ x.number < x.ownBase) ∧ x.number < 2 ^ 31 := by
  have hlt : x.number < 2 ^ 32 := x.lt.trans_le (Nat.pow_le_pow_right (by decide) hw)
  rw [← integer_zero_iff]
  constructor
  · intro h
    obtain ⟨v, hv, hword⟩ := Option.map_eq_some_iff.1 h
    rw [stoiBase, Option.filter_eq_some_iff, decide_eq_true_eq] at hv
    obtain ⟨hint, -, hhigh⟩ := hv
    have htext := hint
    rw [integer_text] at htext
    obtain ⟨n, -, rfl⟩ := Option.map_eq_some_iff.1 htext
    rw [BitVec.ofInt_natCast, ← BitVec.toNat_inj, BitVec.toNat_ofNat, BitVec.toNat_ofNat,
      Nat.mod_eq_of_lt (by omega), Nat.mod_eq_of_lt hlt] at hword
    subst hword
    exact ⟨hint, by omega⟩
  · rintro ⟨hint, hsmall⟩
    have hlow : -2 ^ 31 ≤ (x.number : ℤ) := by omega
    have hhigh : (x.number : ℤ) < 2 ^ 31 := by omega
    rw [stoiBase, hint, Option.filter_some, if_pos (decide_eq_true ⟨hlow, hhigh⟩), Option.map_some,
      BitVec.ofInt_natCast]

end HexText

/-- A text at whose start a number stands, in the base its prefix tells. -/
structure NumText where
  text : Text
  value : ℤ
  reads : integer 0 text = some value

end TheiaTaint.Foundations.Numbers
