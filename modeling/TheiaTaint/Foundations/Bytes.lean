import Mathlib

namespace TheiaTaint.Foundations.Bytes

-- A numeral of an index type refers to its instance by name, the same one everywhere.
instance neZeroFour : NeZero 4 := ⟨by decide⟩
instance neZeroSix : NeZero 6 := ⟨by decide⟩
instance neZeroEight : NeZero 8 := ⟨by decide⟩
instance neZeroSixteen : NeZero 16 := ⟨by decide⟩
instance neZeroSeventeen : NeZero 17 := ⟨by decide⟩

variable {m n : ℕ}

/-- Byte `k` of a word, the least significant one first. -/
def leByte (x : BitVec n) (k : ℕ) : BitVec 8 := (x >>> (k * 8)).setWidth 8

theorem getLsbD_leByte (x : BitVec n) (k j : ℕ) :
    (leByte x k).getLsbD j = (decide (j < 8) && x.getLsbD (k * 8 + j)) := by
  rw [leByte, BitVec.getLsbD_setWidth, BitVec.getLsbD_ushiftRight]

theorem leByte_append_low (x : BitVec m) (y : BitVec n) {k : ℕ} (hk : k * 8 + 8 ≤ n) :
    leByte (x ++ y) k = leByte y k := by
  refine BitVec.eq_of_getLsbD_eq fun j hj ↦ ?_
  have hlow : k * 8 + j < n := by omega
  rw [getLsbD_leByte, getLsbD_leByte, BitVec.getLsbD_append, if_pos hlow]

theorem leByte_append_high (x : BitVec m) (y : BitVec n) {k l : ℕ} (hk : k * 8 = n + l * 8) :
    leByte (x ++ y) k = leByte x l := by
  refine BitVec.eq_of_getLsbD_eq fun j _ ↦ ?_
  have hhigh : ¬ k * 8 + j < n := by omega
  have hsub : k * 8 + j - n = l * 8 + j := by omega
  rw [getLsbD_leByte, getLsbD_leByte, BitVec.getLsbD_append, if_neg hhigh, hsub]

theorem append_inj {x x' : BitVec m} {y y' : BitVec n} : x ++ y = x' ++ y' ↔ x = x' ∧ y = y' := by
  constructor
  · intro h
    have hy : y = y' := by
      simpa only [BitVec.setWidth_append_eq_right] using congrArg (BitVec.setWidth n) h
    subst hy
    exact ⟨(BitVec.append_left_inj y).1 h, rfl⟩
  · rintro ⟨rfl, rfl⟩
    rfl

theorem leByte_zero (k : ℕ) : leByte (0 : BitVec n) k = 0 := by
  refine BitVec.eq_of_getLsbD_eq fun j _ ↦ ?_
  simp [getLsbD_leByte]

@[simp] theorem leByte_byte (b : BitVec 8) : leByte b 0 = b := by
  simp [leByte]

theorem eq_of_leByte {x y : BitVec n} (hn : m * 8 = n)
    (h : ∀ k < m, leByte x k = leByte y k) : x = y := by
  refine BitVec.eq_of_getLsbD_eq fun i hi ↦ ?_
  have hk : i / 8 < m := by omega
  have hj : i % 8 < 8 := Nat.mod_lt i (by decide)
  have hsum : i / 8 * 8 + i % 8 = i := Nat.div_add_mod' i 8
  have hbit := congrArg (BitVec.getLsbD · (i % 8)) (h (i / 8) hk)
  simpa only [getLsbD_leByte, hj, decide_true, Bool.true_and, hsum] using hbit

end TheiaTaint.Foundations.Bytes
