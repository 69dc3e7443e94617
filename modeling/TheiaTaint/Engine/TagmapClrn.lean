import Mathlib
import TheiaTaint.Engine.TagmapRanges

namespace TheiaTaint.Engine.Tagmap

open Foundations.BitField Foundations.Tiling Tags.Directory BitmapState

/-- The switch of the last loop of `tagmap_clrn`, which multiplies for seven bytes where the
other cases mask. -/
def clrnChunk (num : ℕ) (addr : AddrInt) : BitmapState → Option BitmapState :=
  if num = 7 then modifyEntry (fun entry ↦ entry * ~~~(mask7Byte <<< virt2bit addr)) addr
  else clrBytes num addr

/-- The last loop of `tagmap_clrn`, which does not advance the address. -/
def clrnSlowPath (addr : AddrInt) (num : ℕ) (b : BitmapState) : Option BitmapState :=
  if num = 0 then some b
  else do
    let n := min num alignOffMax
    let b ← clrnChunk n addr b
    clrnSlowPath addr (num - n) b
termination_by num
decreasing_by
  have hpos : 0 < alignOffMax := by decide
  omega

def tagmapClrn (addr : AddrInt) (num : ℕ) (b : BitmapState) : Option BitmapState :=
  if num ≤ alignOffMax then clrBytes num addr b
  else do
    let b ← clrBytes (algOff addr) addr b
    let (addr, num, b) ←
      fastPath (setBlock 0) (addr + BitVec.ofNat 64 (algOff addr)) (num - algOff addr) b
    clrnSlowPath addr num b

/-- What the multiplication leaves at an aligned address. -/
def MulTo (addr : AddrInt) (b b' : BitmapState) : Prop :=
  ∀ p, b'.memBit p = if addr.toNat ≤ p ∧ p < addr.toNat + 16
    then (b.entry addr * ~~~mask7Byte).getLsbD (p - addr.toNat) else b.memBit p

/-- What the last loop leaves. After a cleared byte, the multiplication copies the bit
above that byte to the end of its entry. -/
def TailTo (addr : AddrInt) (num : ℕ) (b b' : BitmapState) : Prop :=
  if num % 8 = 7 then
    if num = 7 then MulTo addr b b'
    else ∀ p, b'.memBit p = if addr.toNat ≤ p ∧ p < addr.toNat + 15 then false
      else if p = addr.toNat + 15 then b.memBit (addr.toNat + 8) else b.memBit p
  else SetTo false addr.toNat (addr.toNat + min num 8) b b'

/-- The tags that the last loop would get wrong are not there. -/
def TailHarmless (addr : AddrInt) (num : ℕ) (b : BitmapState) : Prop :=
  if num % 8 = 7 then
    if num = 7 then 512 ∣ (b.entry addr).toNat + (b.entry addr).toNat / 128
    else if num = 15 then b.memBit (addr.toNat + 15) = b.memBit (addr.toNat + 8)
    else b.memBit (addr.toNat + 8) = false ∧
      ∀ p, addr.toNat + 16 ≤ p → p < addr.toNat + num → b.memBit p = false
  else ∀ p, addr.toNat + 8 ≤ p → p < addr.toNat + num → b.memBit p = false

variable {addr : AddrInt} {num : ℕ} {b b' : BitmapState}

theorem clrBytes_access : Access (SetTo false) clrBytes (setBlock 0) where
  tiles := setTo_tiles false
  bytes n addr hn hbound := by
    cases Nat.eq_zero_or_pos n with
    | inl hzero =>
      subst hzero
      exact fun b ↦ ⟨fun _ ↦ ⟨b, rfl, (setTo_tiles false).refl _ b⟩, by simp⟩
    | inr hpos =>
      rw [clrBytes_eq hpos hn]
      exact (does_clrMask (by omega) hn).mono (by simp [hpos]) fun _ _ ↦ id
  block _ hbound halign := does_setBlock hbound halign false fun i _ ↦ BitVec.getLsbD_zero

theorem entry_lt (b : BitmapState) (addr : AddrInt) : (b.entry addr).toNat < 2 ^ 16 := by
  rw [← fits_iff_toNat_lt]
  exact fun i hi ↦ getLsbD_entry_of_ge b addr hi

theorem toNat_mul_mask7 (x : BitVec 32) :
    (x * ~~~mask7Byte).toNat = x.toNat * (2 ^ 32 - 128) % 2 ^ 32 := by
  rw [BitVec.toNat_mul]
  rfl

/-- Without the low byte, one bit of the entry is left, and at another place. -/
theorem getLsbD_mul_mask7 {x : BitVec 32} (hx : ∀ i < 8, x.getLsbD i = false) {i : ℕ}
    (hi : i < 16) : (x * ~~~mask7Byte).getLsbD i = (decide (i = 15) && x.getLsbD 8) := by
  have hlow : x.toNat % 2 ^ 8 = 0 := by
    refine Nat.eq_of_testBit_eq fun i ↦ ?_
    rw [Nat.testBit_mod_two_pow, Nat.zero_testBit]
    by_cases hlt : i < 8
    · rw [BitVec.testBit_toNat, hx i hlt, Bool.and_false]
    · rw [decide_eq_false hlt, Bool.false_and]
  have hprod : x.toNat * (2 ^ 32 - 128) = 2 ^ 15 * (x.toNat / 2 ^ 8 * (2 ^ 25 - 1)) := by omega
  have hodd : (x.toNat / 2 ^ 8 * (2 ^ 25 - 1)).testBit 0 = x.getLsbD 8 := by
    have hparity : x.toNat / 2 ^ 8 * (2 ^ 25 - 1) % 2 = x.toNat / 2 ^ 8 % 2 := by omega
    rw [← BitVec.testBit_toNat, Nat.testBit_zero, hparity, Nat.testBit_eq_decide_div_mod_eq]
  rw [← BitVec.testBit_toNat, toNat_mul_mask7, hprod, Nat.testBit_mod_two_pow,
    Nat.testBit_two_pow_mul, decide_eq_true (show i < 32 by omega), Bool.true_and]
  by_cases h15 : i = 15
  · rw [h15, Nat.sub_self, hodd]
    rfl
  · rw [decide_eq_false (show ¬i ≥ 15 by omega), decide_eq_false h15, Bool.false_and,
      Bool.false_and]

/-- The multiplication clears the low seven bits and keeps the others exactly in some cases. -/
theorem mul_mask7_iff {x : BitVec 32} (hx : x.toNat < 2 ^ 16) :
    (∀ i < 16, (x * ~~~mask7Byte).getLsbD i = (decide (7 ≤ i) && x.getLsbD i)) ↔
      512 ∣ x.toNat + x.toNat / 128 := by
  have hhigh : ∀ i, (2 ^ 7 * (x.toNat / 2 ^ 7)).testBit i = (decide (7 ≤ i) && x.getLsbD i) := by
    intro i
    rw [Nat.testBit_two_pow_mul, Nat.testBit_div_two_pow, BitVec.testBit_toNat]
    by_cases h7 : 7 ≤ i
    · rw [Nat.sub_add_cancel h7]
    · rw [decide_eq_false h7, Bool.false_and, Bool.false_and]
  have hbits : (∀ i < 16, (x * ~~~mask7Byte).getLsbD i = (decide (7 ≤ i) && x.getLsbD i)) ↔
      (x * ~~~mask7Byte).toNat % 2 ^ 16 = 2 ^ 7 * (x.toNat / 2 ^ 7) := by
    constructor
    · intro h
      refine Nat.eq_of_testBit_eq fun i ↦ ?_
      rw [Nat.testBit_mod_two_pow, hhigh]
      by_cases hi : i < 16
      · rw [decide_eq_true hi, Bool.true_and, BitVec.testBit_toNat, h i hi]
      · have hzero : x.getLsbD i = false :=
          (fits_iff_toNat_lt 16 x).2 hx i (not_lt.1 hi)
        rw [decide_eq_false hi, hzero, Bool.false_and, Bool.and_false]
    · intro h i hi
      have htest := congrArg (Nat.testBit · i) h
      simp only [Nat.testBit_mod_two_pow, hhigh, decide_eq_true hi, Bool.true_and] at htest
      rw [← BitVec.testBit_toNat, htest]
  rw [hbits, toNat_mul_mask7]
  omega

theorem clrnSlowPath_zero (b : BitmapState) : clrnSlowPath addr 0 b = some b := by
  rw [clrnSlowPath, if_pos rfl]

theorem clrnSlowPath_of_pos (h : 0 < num) (b : BitmapState) :
    clrnSlowPath addr num b =
      (clrnChunk (min num 8) addr b).bind (clrnSlowPath addr (num - min num 8)) := by
  rw [clrnSlowPath, if_neg (Nat.ne_of_gt h)]
  rfl

theorem does_clrnChunk_seven (h : addr.toNat < 2 ^ 48) (halign : addr.toNat % 8 = 0) :
    Does (clrnChunk 7 addr) (Fits 2 addr.toNat) (MulTo addr) := by
  have hstart : 8 * (addr.toNat / 8) = addr.toNat := by omega
  have hbit : virt2bit addr = 0 := by
    rw [virt2bit_eq, halign]
  have hmod := does_modifyEntry (fun entry ↦ entry * ~~~(mask7Byte <<< virt2bit addr)) h
  rw [hstart, hbit, BitVec.shiftLeft_zero] at hmod
  rw [clrnChunk, if_pos rfl, hbit, BitVec.shiftLeft_zero]
  exact hmod.mono Iff.rfl fun b b' ↦ And.right

theorem does_clrnChunk {n : ℕ} (hn : n ≤ 8) (hbound : addr.toNat + n ≤ 2 ^ 48)
    (halign : addr.toNat % 8 = 0) :
    Does (clrnChunk n addr) (0 < n → Fits 2 addr.toNat) (TailTo addr n) := by
  by_cases hseven : n = 7
  · subst hseven
    refine (does_clrnChunk_seven (by omega) halign).mono (by simp) fun b b' hmul ↦ ?_
    rw [TailTo, if_pos rfl, if_pos rfl]
    exact hmul
  · rw [clrnChunk, if_neg hseven]
    refine (clrBytes_access.bytes n addr hn hbound).mono Iff.rfl fun b b' hset ↦ ?_
    rw [TailTo, if_neg (by omega), Nat.min_eq_left hn]
    exact hset

theorem memBit_of_mulTo {t : BitmapState} (hin : Inside addr) (halign : addr.toNat % 8 = 0)
    (hclear : SetTo false addr.toNat (addr.toNat + 8) b t) (hmul : MulTo addr t b') (p : ℕ) :
    b'.memBit p = if addr.toNat ≤ p ∧ p < addr.toNat + 15 then false
      else if p = addr.toNat + 15 then b.memBit (addr.toNat + 8) else b.memBit p := by
  have hstart : 8 * (addr.toNat / 8) = addr.toNat := by omega
  have hlow : ∀ i < 8, (t.entry addr).getLsbD i = false := by
    intro i hi
    rw [getLsbD_entry hin t (by omega), hstart, hclear, if_pos (by omega)]
  have hbit : (t.entry addr).getLsbD 8 = b.memBit (addr.toNat + 8) := by
    rw [getLsbD_entry hin t (by omega), hstart, hclear, if_neg (by omega)]
  rw [hmul p]
  by_cases hp : addr.toNat ≤ p ∧ p < addr.toNat + 16
  · rw [if_pos hp, getLsbD_mul_mask7 hlow (by omega), hbit]
    by_cases hlast : p = addr.toNat + 15
    · rw [if_neg (by omega), if_pos hlast, decide_eq_true (by omega), Bool.true_and]
    · rw [if_pos (by omega), decide_eq_false (by omega), Bool.false_and]
  · rw [if_neg hp, if_neg (by omega), if_neg (by omega), hclear, if_neg (by omega)]

theorem tailTo_add_eight {t : BitmapState} (hin : Inside addr) (halign : addr.toNat % 8 = 0)
    (hclear : SetTo false addr.toNat (addr.toNat + 8) b t) (htail : TailTo addr num t b') :
    TailTo addr (num + 8) b b' := by
  rw [TailTo] at htail ⊢
  by_cases hmod : num % 8 = 7
  · rw [if_pos hmod] at htail
    rw [if_pos (by omega), if_neg (by omega)]
    by_cases hseven : num = 7
    · rw [if_pos hseven] at htail
      exact memBit_of_mulTo hin halign hclear htail
    · rw [if_neg hseven] at htail
      intro p
      rw [htail p]
      split_ifs with hlow hlast
      · rfl
      · rw [hclear, if_neg (by omega)]
      · rw [hclear, if_neg (by omega)]
  · rw [if_neg hmod] at htail
    rw [if_neg (by omega), Nat.min_eq_right (by omega)]
    intro p
    rw [htail p, hclear p]
    split_ifs <;> first | rfl | omega

theorem does_clrnSlowPath (hbound : addr.toNat + num ≤ 2 ^ 48) (halign : addr.toNat % 8 = 0) :
    Does (clrnSlowPath addr num) (0 < num → Fits 2 addr.toNat) (TailTo addr num) := by
  induction num using Nat.strong_induction_on with
  | _ num ih =>
    cases Nat.eq_zero_or_pos num with
    | inl hzero =>
      subst hzero
      intro b
      refine ⟨fun _ ↦ ⟨b, clrnSlowPath_zero b, ?_⟩, by simp⟩
      exact (setTo_tiles false).refl _ b
    | inr hpos =>
      have hfun : clrnSlowPath addr num = fun b ↦
          (clrnChunk (min num 8) addr b).bind (clrnSlowPath addr (num - min num 8)) :=
        funext (clrnSlowPath_of_pos hpos)
      rw [hfun]
      by_cases hlong : 8 ≤ num
      · have hmin : min num 8 = 8 := Nat.min_eq_right hlong
        rw [hmin]
        have hfirst : Does (clrnChunk 8 addr) (0 < 8 → Fits 2 addr.toNat)
            (SetTo false addr.toNat (addr.toNat + 8)) :=
          clrBytes_access.bytes 8 addr le_rfl (by omega)
        have hrest := ih (num - 8) (by omega) (by omega)
        refine (hfirst.with_condition.bind hrest).mono ?_ fun b b' ↦ ?_
        · simp only [hpos, true_implies, show 0 < 8 by decide]
          exact and_iff_left_of_imp fun hfits _ ↦ hfits
        · rintro ⟨t, ⟨hfits, hclear⟩, htail⟩
          have hin := (inside_iff (by omega)).2 (hfits (by decide))
          have hnum : num - 8 + 8 = num := Nat.sub_add_cancel hlong
          rw [← hnum]
          exact tailTo_add_eight hin halign hclear htail
      · have hmin : min num 8 = num := Nat.min_eq_left (by omega)
        have hlast : clrnSlowPath addr 0 = some := funext clrnSlowPath_zero
        rw [hmin, Nat.sub_self, hlast]
        simp only [Option.bind_fun_some]
        exact does_clrnChunk (by omega) (by omega) halign

theorem TailTo.memBit_below (h : TailTo addr num b b') {p : ℕ} (hp : p < addr.toNat) :
    b'.memBit p = b.memBit p := by
  rw [TailTo] at h
  split_ifs at h
  · rw [h p, if_neg (by omega)]
  · rw [h p, if_neg (by omega), if_neg (by omega)]
  · rw [h p, if_neg (by omega)]

theorem tailHarmless_congr (hin : 0 < num → Inside addr) (halign : addr.toNat % 8 = 0)
    (h : ∀ p, addr.toNat ≤ p → b'.memBit p = b.memBit p) :
    TailHarmless addr num b' ↔ TailHarmless addr num b := by
  have hrange : ∀ n, (∀ p, addr.toNat + n ≤ p → p < addr.toNat + num → b'.memBit p = false) ↔
      ∀ p, addr.toNat + n ≤ p → p < addr.toNat + num → b.memBit p = false := by
    intro n
    refine forall_congr' fun p ↦ forall_congr' fun hle ↦ ?_
    rw [h p (by omega)]
  rw [TailHarmless, TailHarmless]
  by_cases hseven : num = 7
  · have hentry : b'.entry addr = b.entry addr := by
      refine entry_congr (hin (by omega)) fun p hp ↦ h p ?_
      omega
    rw [hentry, hrange, hrange, h _ (by omega), h _ (by omega)]
  · simp only [if_neg hseven]
    rw [hrange, hrange, h _ (by omega), h _ (by omega)]

theorem setTo_iff_of_mulTo (hin : Inside addr) (halign : addr.toNat % 8 = 0)
    (hmul : MulTo addr b b') :
    SetTo false addr.toNat (addr.toNat + 7) b b' ↔
      512 ∣ (b.entry addr).toNat + (b.entry addr).toNat / 128 := by
  have hbit : ∀ i < 16, (b.entry addr).getLsbD i = b.memBit (addr.toNat + i) := by
    intro i hi
    have hstart : 8 * (addr.toNat / 8) = addr.toNat := by omega
    rw [getLsbD_entry hin b hi, hstart]
  rw [← mul_mask7_iff (entry_lt b addr)]
  constructor
  · intro hset i hi
    have hp := hset (addr.toNat + i)
    rw [hmul, if_pos (by omega), Nat.add_sub_cancel_left] at hp
    rw [hp, hbit i hi]
    by_cases h7 : 7 ≤ i
    · rw [if_neg (by omega), decide_eq_true h7, Bool.true_and]
    · rw [if_pos (by omega), decide_eq_false h7, Bool.false_and]
  · intro hall p
    rw [hmul]
    by_cases hp : addr.toNat ≤ p ∧ p < addr.toNat + 16
    · rw [if_pos hp, hall _ (by omega), hbit _ (by omega), Nat.add_sub_cancel' hp.1]
      by_cases h7 : 7 ≤ p - addr.toNat
      · rw [if_neg (by omega), decide_eq_true h7, Bool.true_and]
      · rw [if_pos (by omega), decide_eq_false h7, Bool.false_and]
    · rw [if_neg hp, if_neg (by omega)]

/-- A copied bit is harmless outside the interval when it was there already, and inside the
interval when it is not set. -/
theorem setTo_iff_of_copied (hlong : 15 ≤ num)
    (hcopy : ∀ p, b'.memBit p = if addr.toNat ≤ p ∧ p < addr.toNat + 15 then false
      else if p = addr.toNat + 15 then b.memBit (addr.toNat + 8) else b.memBit p) :
    SetTo false addr.toNat (addr.toNat + num) b b' ↔
      if num = 15 then b.memBit (addr.toNat + 15) = b.memBit (addr.toNat + 8)
      else b.memBit (addr.toNat + 8) = false ∧
        ∀ p, addr.toNat + 16 ≤ p → p < addr.toNat + num → b.memBit p = false := by
  have hlast := hcopy (addr.toNat + 15)
  rw [if_neg (by omega), if_pos rfl] at hlast
  by_cases hfifteen : num = 15
  · rw [if_pos hfifteen]
    subst hfifteen
    constructor
    · intro hset
      have hp := hset (addr.toNat + 15)
      rw [if_neg (by omega), hlast] at hp
      exact hp.symm
    · intro heq p
      rw [hcopy p]
      split_ifs with hlow hp
      · rfl
      · rw [hp, heq]
      · rfl
  · rw [if_neg hfifteen]
    constructor
    · intro hset
      refine ⟨?_, fun p hle hlt ↦ ?_⟩
      · rw [← hlast, hset, if_pos (by omega)]
      · have hp := hset p
        rw [hcopy p, if_neg (by omega), if_neg (by omega), if_pos (by omega)] at hp
        exact hp
    · rintro ⟨hfirst, hrest⟩ p
      rw [hcopy p]
      split_ifs with hlow hall hp hall hall
      · rfl
      · omega
      · exact hfirst
      · omega
      · exact hrest p (by omega) (by omega)
      · rfl

theorem setTo_iff_of_setTo_min (hfirst : SetTo false addr.toNat (addr.toNat + min num 8) b b') :
    SetTo false addr.toNat (addr.toNat + num) b b' ↔
      ∀ p, addr.toNat + 8 ≤ p → p < addr.toNat + num → b.memBit p = false := by
  constructor
  · intro hset p hle hlt
    have hp := hset p
    rw [hfirst p, if_neg (by omega), if_pos (by omega)] at hp
    exact hp
  · intro hrest p
    rw [hfirst p]
    split_ifs with hlow hall hall
    · rfl
    · omega
    · exact hrest p (by omega) (by omega)
    · rfl

/-- The last loop clears its interval exactly when the tags it gets wrong are not there. -/
theorem setTo_iff_tailHarmless (hin : 0 < num → Inside addr) (halign : addr.toNat % 8 = 0)
    (htail : TailTo addr num b b') :
    SetTo false addr.toNat (addr.toNat + num) b b' ↔ TailHarmless addr num b := by
  rw [TailTo] at htail
  rw [TailHarmless]
  by_cases hmod : num % 8 = 7
  · rw [if_pos hmod] at htail ⊢
    by_cases hseven : num = 7
    · rw [if_pos hseven] at htail ⊢
      subst hseven
      exact setTo_iff_of_mulTo (hin (by decide)) halign htail
    · rw [if_neg hseven] at htail ⊢
      exact setTo_iff_of_copied (by omega) htail
  · rw [if_neg hmod] at htail ⊢
    exact setTo_iff_of_setTo_min htail

theorem does_tagmapClrn (hbound : addr.toNat + num ≤ 2 ^ 48) (hlong : 8 < num) {tail : AddrInt}
    (htail : tail.toNat = tailStart addr num) :
    Does (tagmapClrn addr num)
      (HeadFits addr num ∧ (0 < tailLen addr num → Fits 2 (tailStart addr num)))
      fun b b' ↦ ∃ t, SetTo false addr.toNat (tailStart addr num) b t ∧
        TailTo tail (tailLen addr num) t b' := by
  have halg := algOff_eq addr
  have hmod := tailStart_mod addr hlong
  have hlen := tailStart_add_tailLen addr num
  have hrest : ∀ tail' : AddrInt, tail'.toNat = tailStart addr num →
      Does (clrnSlowPath tail' (tailLen addr num))
        (0 < tailLen addr num → Fits 2 (tailStart addr num))
        (TailTo tail (tailLen addr num)) := by
    intro tail' htail'
    have heq : tail' = tail := BitVec.eq_of_toNat_eq (htail'.trans htail.symm)
    rw [heq, ← htail]
    exact does_clrnSlowPath (by omega) (by omega)
  have hhead := clrBytes_access.bytes (algOff addr) addr (by omega) (by omega)
  have hfun : tagmapClrn addr num = fun b ↦ (clrBytes (algOff addr) addr b).bind fun b ↦
      (fastPath (setBlock 0) (addr + BitVec.ofNat 64 (algOff addr)) (num - algOff addr) b).bind
        fun t ↦ clrnSlowPath t.1 t.2.1 t.2.2 :=
    funext fun b ↦ by
      rw [tagmapClrn, if_neg (show ¬num ≤ alignOffMax from not_le.2 hlong)]
      rfl
  rw [hfun]
  have hall := hhead.bind (clrBytes_access.does_head clrnSlowPath hbound hlong hrest)
  refine hall.mono ?_ fun b b' ↦ ?_
  · rw [headFits_iff, and_assoc]
  · rintro ⟨t, hst, t', htt', hu⟩
    exact ⟨t', (setTo_tiles false).trans (by omega) (algOff_le_tailStart addr hlong) hst htt', hu⟩

namespace Range

variable (r : Range) (b : BitmapState)

/-- `tagmap_clrn` clears exactly the interval, as the calls of `tagmap_clrb` do. -/
def ClrnExact : Prop :=
  ∃ b', tagmapClrn r.addr r.num b = some b' ∧
    SetTo false r.addr.toNat (r.addr.toNat + r.num) b b' ∧
    ∀ b'', byteCalls tagmapClrb r.addr r.num b = some b'' → ∀ p, b''.memBit p = b'.memBit p

def tail : AddrInt := BitVec.ofNat 64 (tailStart r.addr r.num)

/-- No access leaves its segment, and the last loop has no tags to get wrong. -/
def ClrnHarmless : Prop :=
  if r.num ≤ 8 then 0 < r.num → Fits 2 r.addr.toNat
  else HeadFits r.addr r.num ∧
    (0 < tailLen r.addr r.num → Fits 2 (tailStart r.addr r.num)) ∧
      TailHarmless r.tail (tailLen r.addr r.num) b

theorem toNat_tail : r.tail.toNat = tailStart r.addr r.num := by
  have hlen := tailStart_add_tailLen r.addr r.num
  have hinside := r.inside
  rw [tail, BitVec.toNat_ofNat]
  exact Nat.mod_eq_of_lt (by omega)

theorem clrnExact_iff_exists :
    r.ClrnExact b ↔ ∃ b', tagmapClrn r.addr r.num b = some b' ∧
      SetTo false r.addr.toNat (r.addr.toNat + r.num) b b' := by
  constructor
  · rintro ⟨b', hb', hset, -⟩
    exact ⟨b', hb', hset⟩
  · rintro ⟨b', hb', hset⟩
    refine ⟨b', hb', hset, fun b'' hcalls p ↦ ?_⟩
    rw [clrBytes_access.rel_of_byteCalls r.inside hcalls p, hset p]

theorem setTo_iff_tail (hlong : 8 < r.num) {t b' : BitmapState}
    (hhead : SetTo false r.addr.toNat (tailStart r.addr r.num) b t)
    (hbelow : ∀ p, p < tailStart r.addr r.num → b'.memBit p = t.memBit p) :
    SetTo false r.addr.toNat (r.addr.toNat + r.num) b b' ↔
      SetTo false (tailStart r.addr r.num) (r.addr.toNat + r.num) t b' := by
  have hle := (Nat.le_add_right _ _).trans (algOff_le_tailStart r.addr hlong)
  have hlen := tailStart_add_tailLen r.addr r.num
  constructor
  · intro hset p
    by_cases hp : p < tailStart r.addr r.num
    · rw [hbelow p hp, if_neg (by omega)]
    · rw [hset p, hhead p]
      split_ifs <;> first | rfl | omega
  · intro htail
    exact (setTo_tiles false).trans hle (by omega) hhead htail

theorem clrnExact_iff_of_long (hlong : 8 < r.num) :
    r.ClrnExact b ↔ HeadFits r.addr r.num ∧
      (0 < tailLen r.addr r.num → Fits 2 (tailStart r.addr r.num)) ∧
        TailHarmless r.tail (tailLen r.addr r.num) b := by
  have hmod := tailStart_mod r.addr hlong
  have hlen := tailStart_add_tailLen r.addr r.num
  have htoNat := r.toNat_tail
  have hinside := r.inside
  rw [clrnExact_iff_exists, ← and_assoc]
  refine (does_tagmapClrn hinside hlong htoNat).with_condition.exists_and_iff b fun b' ↦ ?_
  rintro ⟨⟨-, hfits⟩, t, hhead, htail⟩
  have hin : 0 < tailLen r.addr r.num → Inside r.tail := by
    intro hpos
    rw [inside_iff (by omega), htoNat]
    exact hfits hpos
  have habove : ∀ p, r.tail.toNat ≤ p → t.memBit p = b.memBit p := by
    intro p hp
    rw [hhead p, if_neg (by omega)]
  rw [r.setTo_iff_tail b hlong hhead fun p hp ↦ htail.memBit_below (htoNat ▸ hp),
    ← hlen, ← htoNat, setTo_iff_tailHarmless hin (by omega) htail]
  exact tailHarmless_congr hin (by omega) habove

theorem exists_setTo_iff :
    (∃ b', tagmapClrn r.addr r.num b = some b' ∧
      SetTo false r.addr.toNat (r.addr.toNat + r.num) b b') ↔ r.ClrnHarmless b := by
  by_cases hsmall : r.num ≤ 8
  · have hfun : tagmapClrn r.addr r.num = clrBytes r.num r.addr :=
      funext fun b ↦ by rw [tagmapClrn, if_pos (show r.num ≤ alignOffMax from hsmall)]
    rw [ClrnHarmless, if_pos hsmall, hfun]
    have hbytes := clrBytes_access.bytes r.num r.addr hsmall r.inside
    rw [hbytes.exists_and_iff b fun b' hset ↦ iff_of_true hset trivial, and_true]
  · rw [ClrnHarmless, if_neg hsmall, ← clrnExact_iff_exists]
    exact r.clrnExact_iff_of_long b (not_le.1 hsmall)

/-- `tagmap_clrn` is right exactly where it is harmless. -/
theorem clrnExact_iff : r.ClrnExact b ↔ r.ClrnHarmless b := by
  rw [clrnExact_iff_exists, exists_setTo_iff]

/-- A segment whose bytes all have tags. -/
def fullBitmap : BitmapState := ⟨fun _ ↦ 0, fun _ ↦ some fun _ ↦ 0xFF⟩

def sixteenBytes : Range := ⟨0, 16, by decide⟩

theorem clrn_leaves_tags : ¬ ∀ (r : Range) (b : BitmapState), r.ClrnExact b := by
  intro h
  obtain ⟨-, -, hharmless⟩ :=
    (sixteenBytes.clrnExact_iff_of_long fullBitmap (by decide)).1 (h _ _)
  have hclear := hharmless 8 (by decide) (by decide)
  exact absurd hclear (by decide)

end Range

end TheiaTaint.Engine.Tagmap
