import Mathlib

namespace TheiaTaint.Foundations.BitField

variable {w : ℕ}

def mask (w n : ℕ) : BitVec w := BitVec.ofNat w (2 ^ n - 1)

/-- The `n` bits of `x` from bit `o` on. -/
def extract (o n : ℕ) (x : BitVec w) : BitVec w := (x >>> o) &&& mask w n

/-- Replaces the `n` bits of `x` from bit `o` on by `y`. -/
def merge (o n : ℕ) (x y : BitVec w) : BitVec w := (x &&& ~~~(mask w n <<< o)) ||| (y <<< o)

/-- `x` has no bit at `n` or above. -/
def Fits (n : ℕ) (x : BitVec w) : Prop := ∀ j, n ≤ j → x.getLsbD j = false

@[simp] theorem getLsbD_mask (n j : ℕ) :
    (mask w n).getLsbD j = (decide (j < w) && decide (j < n)) := by
  rw [mask, BitVec.getLsbD_ofNat, Nat.testBit_two_pow_sub_one]

theorem getLsbD_extract (o n j : ℕ) (x : BitVec w) :
    (extract o n x).getLsbD j = (decide (j < n) && x.getLsbD (o + j)) := by
  rw [extract, BitVec.getLsbD_and, BitVec.getLsbD_ushiftRight, getLsbD_mask]
  by_cases hj : j < w
  · simp [hj, Bool.and_comm]
  · rw [BitVec.getLsbD_of_ge x (o + j) (by omega)]
    simp

theorem fits_extract (o n : ℕ) (x : BitVec w) : Fits n (extract o n x) := by
  intro j hj
  rw [getLsbD_extract, decide_eq_false (Nat.not_lt.2 hj), Bool.false_and]

theorem Fits.or {n : ℕ} {x y : BitVec w} (hx : Fits n x) (hy : Fits n y) : Fits n (x ||| y) := by
  intro j hj
  rw [BitVec.getLsbD_or, hx j hj, hy j hj, Bool.or_false]

theorem Fits.mono {n m : ℕ} {x : BitVec w} (h : Fits n x) (hnm : n ≤ m) : Fits m x := by
  intro j hj
  exact h j (hnm.trans hj)

theorem fits_zero (n : ℕ) : Fits n (0 : BitVec w) := by
  intro j _
  exact BitVec.getLsbD_zero

theorem fits_mask (n : ℕ) : Fits n (mask w n) := by
  intro j hj
  rw [getLsbD_mask, decide_eq_false (Nat.not_lt.2 hj), Bool.and_false]

theorem fits_iff_toNat_lt (n : ℕ) (x : BitVec w) : Fits n x ↔ x.toNat < 2 ^ n := by
  constructor
  · intro h
    exact Nat.lt_pow_two_of_testBit _ h
  · intro h j hj
    exact Nat.testBit_lt_two_pow (h.trans_le (Nat.pow_le_pow_right Nat.two_pos hj))

theorem getLsbD_merge {o n : ℕ} {y : BitVec w} (hy : Fits n y) (how : o + n ≤ w) (x : BitVec w)
    (j : ℕ) :
    (merge o n x y).getLsbD j = if o ≤ j ∧ j < o + n then y.getLsbD (j - o) else x.getLsbD j := by
  rw [merge, BitVec.getLsbD_or, BitVec.getLsbD_and, BitVec.getLsbD_not, BitVec.getLsbD_shiftLeft,
    BitVec.getLsbD_shiftLeft, getLsbD_mask]
  by_cases hj : j < w
  · by_cases ho : j < o
    · simp [hj, ho]
    · by_cases hn : j < o + n
      · have hjo : j - o < n := by omega
        simp [hj, ho, hn, hjo, Nat.not_lt.1 ho, (show j - o < w by omega)]
      · have hout : ¬ j - o < n := by omega
        simp [hj, ho, hn, hout, hy (j - o) (by omega)]
  · simp [hj, BitVec.getLsbD_of_ge x j (Nat.not_lt.1 hj), (show ¬ j < o + n by omega)]

theorem Fits.merge {o n m : ℕ} {x y : BitVec w} (hx : Fits m x) (hy : Fits n y)
    (how : o + n ≤ w) (hom : o + n ≤ m) : Fits m (merge o n x y) := by
  intro j hj
  rw [getLsbD_merge hy how, if_neg (by omega), hx j hj]

theorem and_mask (n : ℕ) (x : BitVec w) : x &&& mask w n = extract 0 n x := by
  rw [extract, BitVec.ushiftRight_zero]

theorem and_mask_shiftLeft {o n : ℕ} (x : BitVec w) :
    x &&& (mask w n <<< o) = extract o n x <<< o := by
  refine BitVec.eq_of_getLsbD_eq fun j hj ↦ ?_
  rw [BitVec.getLsbD_and, BitVec.getLsbD_shiftLeft, BitVec.getLsbD_shiftLeft, getLsbD_extract,
    getLsbD_mask]
  by_cases ho : j < o
  · simp [ho]
  · simp [hj, ho, Nat.add_sub_cancel' (Nat.not_lt.1 ho), (show j - o < w by omega), Bool.and_comm]

theorem extract_shiftLeft_ushiftRight {o n : ℕ} (how : o + n ≤ w) (x : BitVec w) :
    (extract o n x <<< o) >>> o = extract o n x := by
  refine BitVec.eq_of_getLsbD_eq fun j hj ↦ ?_
  rw [BitVec.getLsbD_ushiftRight, BitVec.getLsbD_shiftLeft, getLsbD_extract, getLsbD_extract]
  by_cases hn : j < n
  · simp [hn, (show o + j < w by omega)]
  · simp [hn]

theorem extract_zero_ushiftRight (o n : ℕ) (x : BitVec w) :
    extract 0 n (x >>> o) = extract o n x := by
  rw [extract, BitVec.ushiftRight_zero, extract]

theorem extract_shiftLeft {o n : ℕ} (how : o + n ≤ w) (x : BitVec w) :
    extract o n (x <<< o) = extract 0 n x := by
  refine BitVec.eq_of_getLsbD_eq fun j hj ↦ ?_
  rw [getLsbD_extract, getLsbD_extract, BitVec.getLsbD_shiftLeft]
  by_cases hn : j < n
  · simp [hn, (show o + j < w by omega)]
  · simp [hn]

theorem merge_extract_or {o n : ℕ} (x y : BitVec w) :
    merge o n x (extract o n x ||| y) = x ||| (y <<< o) := by
  refine BitVec.eq_of_getLsbD_eq fun j hj ↦ ?_
  rw [merge, BitVec.getLsbD_or, BitVec.getLsbD_or, BitVec.getLsbD_and, BitVec.getLsbD_not,
    BitVec.getLsbD_shiftLeft, BitVec.getLsbD_shiftLeft, BitVec.getLsbD_shiftLeft,
    BitVec.getLsbD_or, getLsbD_extract, getLsbD_mask]
  by_cases ho : j < o
  · simp [hj, ho]
  · by_cases hn : j - o < n
    · simp [hj, ho, hn, Nat.add_sub_cancel' (Nat.not_lt.1 ho), (show j - o < w by omega)]
    · simp [hj, ho, hn]

theorem merge_or_extract {o n : ℕ} (x y : BitVec w) :
    merge o n x (y ||| extract o n x) = x ||| (y <<< o) := by
  rw [BitVec.or_comm, merge_extract_or]

theorem merge_zero_right (o n : ℕ) (x : BitVec w) :
    merge o n x 0 = x &&& ~~~(mask w n <<< o) := by
  simp [merge]

theorem merge_of_fits {n : ℕ} {x : BitVec w} (hx : Fits n x) (y : BitVec w) :
    merge 0 n x y = y := by
  refine BitVec.eq_of_getLsbD_eq fun j hj ↦ ?_
  rw [merge, BitVec.getLsbD_or, BitVec.getLsbD_and, BitVec.getLsbD_not, BitVec.shiftLeft_zero,
    BitVec.shiftLeft_zero, getLsbD_mask]
  by_cases hn : j < n
  · simp [hj, hn]
  · simp [hx j (Nat.not_lt.1 hn)]

theorem extract_eq_self {n : ℕ} {x : BitVec w} (hx : Fits n x) : extract 0 n x = x := by
  refine BitVec.eq_of_getLsbD_eq fun j hj ↦ ?_
  rw [getLsbD_extract, Nat.zero_add]
  by_cases hn : j < n
  · simp [hn]
  · simp [hx j (Nat.not_lt.1 hn)]

end TheiaTaint.Foundations.BitField
