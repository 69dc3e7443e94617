import Mathlib

namespace TheiaTaint.Foundations.Strings

/-- A byte string of the source; all texts it builds are ASCII. -/
abbrev Text := List Char

instance : LawfulBEq Text := inferInstance

/-- `std::to_string` of an unsigned number. -/
def decimal (n : ℕ) : Text := Nat.toDigits 10 n

theorem ofDigitChars_decimal (n : ℕ) : Nat.ofDigitChars 10 (decimal n) 0 = n :=
  Nat.ofDigitChars_ten_toDigits

theorem decimal_injective : Function.Injective decimal :=
  Function.LeftInverse.injective (g := fun s ↦ Nat.ofDigitChars 10 s 0) ofDigitChars_decimal

theorem isDigit_of_mem_decimal {n : ℕ} {c : Char} (h : c ∈ decimal n) : c.isDigit = true :=
  Nat.isDigit_of_mem_toDigits (by decide) (by decide) h

theorem not_mem_decimal {c : Char} (hc : c.isDigit = false) (n : ℕ) : c ∉ decimal n :=
  fun h ↦ by simp [isDigit_of_mem_decimal h] at hc

theorem decimal_ne_nil (n : ℕ) : decimal n ≠ [] := Nat.toDigits_ne_nil

/-- `std::string::find` of one character, where `none` is `npos`. -/
def find (c : Char) (s : Text) : Option ℕ := s.findIdx? (· == c)

/-- `std::string::substr(pos, n)` for a `pos` inside the string. -/
def substr (s : Text) (pos n : ℕ) : Text := (s.drop pos).take n

theorem find_eq_none {c : Char} {s : Text} (h : c ∉ s) : find c s = none := by
  simp only [find, List.findIdx?_eq_none_iff, beq_eq_false_iff_ne]
  exact fun x hx hc ↦ h (hc ▸ hx)

theorem find_append {c : Char} {a : Text} (b : Text) (h : c ∉ a) :
    find c (a ++ c :: b) = some a.length := by
  have ha : a.findIdx? (· == c) = none := find_eq_none h
  simp [find, List.findIdx?_append, List.findIdx?_cons, ha]

theorem take_append_cons (a b : Text) (c : Char) : (a ++ c :: b).take a.length = a :=
  List.take_left

theorem drop_append_cons (a b : Text) (c : Char) : (a ++ c :: b).drop (a.length + 1) = b := by
  rw [List.drop_append, List.drop_eq_nil_of_le (Nat.le_succ _), Nat.add_sub_cancel_left]
  rfl

def join (sep : Char) (ts : List Text) : Text := [sep].intercalate ts

@[simp] theorem join_singleton (sep : Char) (t : Text) : join sep [t] = t := by
  simp [join]

theorem join_cons_cons (sep : Char) (t u : Text) (ts : List Text) :
    join sep (t :: u :: ts) = t ++ sep :: join sep (u :: ts) := by
  simp [join, List.intercalate_cons_cons]

theorem mem_join {c sep : Char} {ts : List Text} (h : c ∈ join sep ts) :
    c = sep ∨ ∃ t ∈ ts, c ∈ t := by
  induction ts with
  | nil => simp [join] at h
  | cons t ts ih =>
    cases ts with
    | nil => exact .inr ⟨t, by simp, by simpa using h⟩
    | cons u ts =>
      rw [join_cons_cons, List.mem_append, List.mem_cons] at h
      rcases h with h | rfl | h
      · exact .inr ⟨t, by simp, h⟩
      · exact .inl rfl
      · exact (ih h).imp_right fun ⟨v, hv, hc⟩ ↦ ⟨v, List.mem_cons_of_mem _ hv, hc⟩

theorem filter_join (sep : Char) (ts : List Text) :
    (join sep ts).filter (· ≠ sep) = ts.flatMap fun t ↦ t.filter (· ≠ sep) := by
  induction ts with
  | nil => rfl
  | cons t ts ih =>
    cases ts with
    | nil => simp
    | cons u ts =>
      rw [join_cons_cons, List.filter_append, List.filter_cons_of_neg (by simp), ih]
      rfl

theorem join_injective {sep : Char} {ts us : List Text} (ht : ∀ t ∈ ts, sep ∉ t)
    (hu : ∀ u ∈ us, sep ∉ u) (ht0 : ts ≠ []) (hu0 : us ≠ []) (h : join sep ts = join sep us) :
    ts = us := by
  rw [← List.splitOn_intercalate sep ht ht0, ← List.splitOn_intercalate sep hu hu0]
  exact congrArg (List.splitOn sep) h

def isSpace (c : Char) : Bool := c ∈ [' ', '\t', '\n', '\x0b', '\x0c', '\r']

theorem isSpace_of_isDigit {c : Char} (hc : c.isDigit = true) : isSpace c = false := by
  by_contra hsp
  simp only [isSpace, List.mem_cons, List.not_mem_nil, or_false, decide_eq_true_eq,
    Bool.not_eq_false] at hsp
  rcases hsp with rfl | rfl | rfl | rfl | rfl | rfl <;> exact absurd hc (by decide)

theorem dropWhile_isSpace {s : Text} (h : ∀ c ∈ s, isSpace c = false) :
    s.dropWhile isSpace = s := by
  cases s with
  | nil => rfl
  | cons c s => rw [List.dropWhile_cons_of_neg (by simp [h c List.mem_cons_self])]

/-- `std::stoi` in base ten, where `none` is the exception it throws. -/
def stoi (s : Text) : Option ℤ :=
  let body := s.dropWhile isSpace
  let sign : ℤ := if body.head? = some '-' then -1 else 1
  let digits := (if body.head? = some '-' ∨ body.head? = some '+' then body.tail else body).takeWhile
    Char.isDigit
  let value := sign * Nat.ofDigitChars 10 digits 0
  if digits = [] ∨ value < -2 ^ 31 ∨ 2 ^ 31 ≤ value then none else some value

theorem stoi_decimal {n : ℕ} (h : n < 2 ^ 31) : stoi (decimal n) = some (n : ℤ) := by
  obtain ⟨c, s, hs⟩ := List.exists_cons_of_ne_nil (decimal_ne_nil n)
  have hdigit : ∀ d ∈ decimal n, d.isDigit = true := fun d hd ↦ isDigit_of_mem_decimal hd
  have hc : c.isDigit = true := hdigit c (by simp [hs])
  have hspace : isSpace c = false := isSpace_of_isDigit hc
  have hdrop : (decimal n).dropWhile isSpace = decimal n := by simp [hs, hspace]
  have hminus : c ≠ '-' := by rintro rfl; exact absurd hc (by decide)
  have hplus : c ≠ '+' := by rintro rfl; exact absurd hc (by decide)
  have htake : (decimal n).takeWhile Char.isDigit = decimal n := List.takeWhile_eq_self_iff.2 hdigit
  have hhead : (decimal n).head? = some c := by simp [hs]
  have hval : (1 : ℤ) * (Nat.ofDigitChars 10 (decimal n) 0 : ℕ) = n := by
    rw [ofDigitChars_decimal, one_mul]
  have hlow : ¬ ((n : ℤ) < -2 ^ 31) := by omega
  have hhigh : ¬ ((2 : ℤ) ^ 31 ≤ n) := by omega
  simp only [stoi, hdrop, hhead, Option.some.injEq, hminus, hplus, or_self, if_false, htake, hval,
    decimal_ne_nil, hlow, hhigh]

/-- The digits `strtoul` accepts in a base, as values. -/
def digitValue (base : ℕ) (c : Char) : Option ℕ :=
  let v := if c.isDigit then some (c.toNat - '0'.toNat)
    else if c.isLower then some (c.toNat - 'a'.toNat + 10)
    else if c.isUpper then some (c.toNat - 'A'.toNat + 10)
    else none
  v.filter (· < base)

def parseDigits (base : ℕ) : Text → ℕ → ℕ
  | [], acc => acc
  | c :: s, acc =>
    match digitValue base c with
    | some d => parseDigits base s (acc * base + d)
    | none => acc

/-- `strtoul(s, NULL, 0)`: a `0x` prefix means base 16, a leading zero base 8.
Without digits the result is 0, and too large a number gives `ULONG_MAX`. -/
def strtoul (s : Text) : BitVec 64 :=
  let body := s.dropWhile isSpace
  let negative := body.head? = some '-'
  let digits := if negative ∨ body.head? = some '+' then body.tail else body
  let value :=
    match digits with
    | '0' :: x :: c :: rest =>
      if (x = 'x' ∨ x = 'X') ∧ (digitValue 16 c).isSome then parseDigits 16 (c :: rest) 0
      else parseDigits 8 digits 0
    | '0' :: _ => parseDigits 8 digits 0
    | _ => parseDigits 10 digits 0
  if 2 ^ 64 ≤ value then BitVec.allOnes 64
  else if negative then -BitVec.ofNat 64 value
  else BitVec.ofNat 64 value

theorem parseDigits_eq {s : Text} (h : ∀ c ∈ s, c.isDigit = true) (acc : ℕ) :
    parseDigits 10 s acc = Nat.ofDigitChars 10 s acc := by
  induction s generalizing acc with
  | nil => rfl
  | cons c s ih =>
    have hc : c.isDigit = true := h c List.mem_cons_self
    have hle : c.toNat ≤ 57 := (Char.isDigit_iff_toNat.1 hc).2
    have hlt : c.toNat - 48 < 10 := by omega
    have hvalue : digitValue 10 c = some (c.toNat - '0'.toNat) := by
      simp [digitValue, hc, hlt]
    rw [parseDigits, hvalue, Nat.ofDigitChars_cons, Nat.mul_comm]
    exact ih (fun d hd ↦ h d (List.mem_cons_of_mem c hd)) _

theorem head?_decimal_ne_zero {n : ℕ} (hn : n ≠ 0) : (decimal n).head? ≠ some '0' := by
  induction n using Nat.strong_induction_on with
  | h n ih =>
    rw [decimal, Nat.toDigits_eq_if (by decide)]
    split
    · rename_i hlt
      have hdigit : ∀ d < 10, d ≠ 0 → d.digitChar ≠ '0' := by decide
      simpa using hdigit n hlt hn
    · rename_i hge
      have hdiv : n / 10 ≠ 0 := by omega
      rw [List.head?_append_of_ne_nil _ Nat.toDigits_ne_nil]
      exact ih (n / 10) (by omega) hdiv

theorem decimal_append_digit {n : ℕ} (hn : 0 < n) {c : Char} (hc : c.isDigit = true) :
    decimal n ++ [c] = decimal (10 * n + (c.toNat - 48)) := by
  have hlow : 48 ≤ c.toNat := (Char.isDigit_iff_toNat.1 hc).1
  have hhigh : c.toNat ≤ 57 := (Char.isDigit_iff_toNat.1 hc).2
  have hlt : c.toNat - 48 < 10 := by omega
  have hchar : (c.toNat - 48).digitChar = c := by
    refine Char.toNat_inj.1 ?_
    rw [Nat.toNat_digitChar_of_lt_ten hlt]
    omega
  rw [decimal, decimal, ← Nat.toDigits_append_toDigits (by decide) hn hlt,
    Nat.toDigits_of_lt_base hlt, hchar]

/-- A number in decimal is no octal or hexadecimal text. -/
theorem strtoul_decimal {n : ℕ} (h : n < 2 ^ 64) : strtoul (decimal n) = BitVec.ofNat 64 n := by
  by_cases hn : n = 0
  · subst hn
    decide
  · obtain ⟨c, s, hs⟩ := List.exists_cons_of_ne_nil (decimal_ne_nil n)
    have hc : c.isDigit = true := isDigit_of_mem_decimal (n := n) (by simp [hs])
    have hzero : c ≠ '0' := by
      rintro rfl
      exact head?_decimal_ne_zero hn (by rw [hs, List.head?_cons])
    have hminus : c ≠ '-' := by rintro rfl; exact absurd hc (by decide)
    have hplus : c ≠ '+' := by rintro rfl; exact absurd hc (by decide)
    have hvalue : parseDigits 10 (decimal n) 0 = n := by
      rw [parseDigits_eq fun d hd ↦ isDigit_of_mem_decimal hd, ofDigitChars_decimal]
    rw [hs] at hvalue ⊢
    simp [strtoul, isSpace_of_isDigit hc, hminus, hplus, hzero, hvalue]
    exact fun hbig ↦ absurd h (not_lt.2 hbig)

/-- The words that `istream >> string` reads, `word` being the one under way. -/
def wordsFrom : Text → Text → List Text
  | word, [] => if word = [] then [] else [word]
  | word, c :: s =>
    if isSpace c then (if word = [] then [] else [word]) ++ wordsFrom [] s
    else wordsFrom (word ++ [c]) s

def words (s : Text) : List Text := wordsFrom [] s

theorem wordsFrom_append {t : Text} (ht : ∀ c ∈ t, isSpace c = false) (word s : Text) :
    wordsFrom word (t ++ s) = wordsFrom (word ++ t) s := by
  induction t generalizing word with
  | nil => simp
  | cons c t ih =>
    rw [List.cons_append, wordsFrom, ht c List.mem_cons_self]
    rw [if_neg Bool.false_ne_true, ih fun d hd ↦ ht d (List.mem_cons_of_mem c hd)]
    simp

theorem words_join {ts : List Text} (hspace : ∀ t ∈ ts, ∀ c ∈ t, isSpace c = false)
    (hnil : ∀ t ∈ ts, t ≠ []) : words (join ' ' ts) = ts := by
  induction ts with
  | nil => rfl
  | cons t ts ih =>
    have ht := hspace t List.mem_cons_self
    have hne := hnil t List.mem_cons_self
    cases ts with
    | nil =>
      rw [join_singleton, words, ← List.append_nil t, wordsFrom_append ht]
      simp [wordsFrom, hne]
    | cons u ts =>
      rw [join_cons_cons, words, wordsFrom_append ht, wordsFrom]
      have hrest := ih (fun v hv ↦ hspace v (List.mem_cons_of_mem t hv))
        fun v hv ↦ hnil v (List.mem_cons_of_mem t hv)
      rw [words] at hrest
      rw [hrest]
      simp [isSpace, hne]

end TheiaTaint.Foundations.Strings
