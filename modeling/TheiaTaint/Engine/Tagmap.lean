import Mathlib
import TheiaTaint.Foundations.Tiling
import TheiaTaint.Engine.Bitmap

namespace TheiaTaint.Engine.Tagmap

open Foundations.BitField Foundations.Tiling Tags.Directory BitmapState
open Bitmap (withEntry)

def longMask : BitVec 32 := 0x000F
def mask3Byte : BitVec 32 := 0x0007
def mask5Byte : BitVec 32 := 0x001F
def mask6Byte : BitVec 32 := 0x003F
def mask7Byte : BitVec 32 := 0x007F

/-- Replaces the 16-bit entry of an address. -/
def modifyEntry (f : BitVec 32 → BitVec 32) (addr : AddrInt) :
    BitmapState → Option BitmapState :=
  withEntry addr fun entry b ↦ b.setEntry addr (f entry)

def setMask (mask : BitVec 32) (addr : AddrInt) : BitmapState → Option BitmapState :=
  modifyEntry (fun entry ↦ entry ||| (mask <<< virt2bit addr)) addr

def clrMask (mask : BitVec 32) (addr : AddrInt) : BitmapState → Option BitmapState :=
  modifyEntry (fun entry ↦ entry &&& ~~~(mask <<< virt2bit addr)) addr

/-- The bits of a mask; a missing segment is allocated here as well. -/
def getMask (mask : BitVec 32) (addr : AddrInt) (b : BitmapState) :
    Option (BitVec 64 × BitmapState) :=
  (b.virt2entry addr).map fun b ↦
    ((b.entry addr &&& (mask <<< virt2bit addr)).setWidth 64, b)

def tagmapSetb : AddrInt → BitmapState → Option BitmapState := setMask byteMask
def tagmapSetw : AddrInt → BitmapState → Option BitmapState := setMask wordMask
def tagmapSetl : AddrInt → BitmapState → Option BitmapState := setMask longMask
def tagmapSetq : AddrInt → BitmapState → Option BitmapState := setMask quadMask

def tagmapClrb : AddrInt → BitmapState → Option BitmapState := clrMask byteMask
def tagmapClrw : AddrInt → BitmapState → Option BitmapState := clrMask wordMask
def tagmapClrl : AddrInt → BitmapState → Option BitmapState := clrMask longMask
def tagmapClrq : AddrInt → BitmapState → Option BitmapState := clrMask quadMask

def tagmapGetb : AddrInt → BitmapState → Option (BitVec 64 × BitmapState) := getMask byteMask
def tagmapGetw : AddrInt → BitmapState → Option (BitVec 64 × BitmapState) := getMask wordMask
def tagmapGetl : AddrInt → BitmapState → Option (BitVec 64 × BitmapState) := getMask longMask
def tagmapGetq : AddrInt → BitmapState → Option (BitVec 64 × BitmapState) := getMask quadMask

def setBytes (num : ℕ) (addr : AddrInt) : BitmapState → Option BitmapState :=
  match num with
  | 1 => tagmapSetb addr
  | 2 => tagmapSetw addr
  | 3 => setMask mask3Byte addr
  | 4 => tagmapSetl addr
  | 5 => setMask mask5Byte addr
  | 6 => setMask mask6Byte addr
  | 7 => setMask mask7Byte addr
  | 8 => tagmapSetq addr
  | _ => some

def clrBytes (num : ℕ) (addr : AddrInt) : BitmapState → Option BitmapState :=
  match num with
  | 1 => tagmapClrb addr
  | 2 => tagmapClrw addr
  | 3 => clrMask mask3Byte addr
  | 4 => tagmapClrl addr
  | 5 => clrMask mask5Byte addr
  | 6 => clrMask mask6Byte addr
  | 7 => clrMask mask7Byte addr
  | 8 => tagmapClrq addr
  | _ => some

def getBytes (num : ℕ) (addr : AddrInt) (b : BitmapState) : Option (BitVec 64 × BitmapState) :=
  match num with
  | 1 => tagmapGetb addr b
  | 2 => tagmapGetw addr b
  | 3 => getMask mask3Byte addr b
  | 4 => tagmapGetl addr b
  | 5 => getMask mask5Byte addr b
  | 6 => getMask mask6Byte addr b
  | 7 => getMask mask7Byte addr b
  | 8 => tagmapGetq addr b
  | _ => some (0, b)

/-- `VIRT2ENTRY` before an access to 32 bits, which has to stay inside the segment. -/
def virt2entry32 (b : BitmapState) (addr : AddrInt) : Option BitmapState :=
  if 0x7FFFFC < byteIndex addr then none else b.virt2entry addr

/-- `*((uint32_t *)mapp)`, whose upper half is the entry of the address 16 bytes on. -/
def entry32 (b : BitmapState) (addr : AddrInt) : BitVec 32 :=
  (b.entry (addr + 16) <<< 16) ||| b.entry addr

def setEntry32 (b : BitmapState) (addr : AddrInt) (x : BitVec 32) : BitmapState :=
  (b.setEntry addr x).setEntry (addr + 16) (x >>> 16)

def setBlock (value : BitVec 32) (addr : AddrInt) (b : BitmapState) : Option BitmapState :=
  (virt2entry32 b addr).map fun b ↦ setEntry32 b addr value

def getBlock (addr : AddrInt) (b : BitmapState) : Option (BitVec 64 × BitmapState) :=
  (virt2entry32 b addr).map fun b ↦ ((entry32 b addr).setWidth 64, b)

/-- An access to `w` bytes of the bitmap at the entry of an address ends in its segment. -/
def Fits (w a : ℕ) : Prop := a % 2 ^ 26 / 8 + w ≤ 2 ^ 23

instance (w a : ℕ) : Decidable (Fits w a) := inferInstanceAs (Decidable (_ ≤ _))

/-- The tag bits of an interval get one value and no others change. -/
def SetTo (v : Bool) (lo hi : ℕ) (b b' : BitmapState) : Prop :=
  ∀ p, b'.memBit p = if lo ≤ p ∧ p < hi then v else b.memBit p

theorem setTo_tiles (v : Bool) : Tiles (SetTo v) where
  refl a b p := by rw [if_neg (by omega)]
  trans hab hbc hst htu p := by
    rw [htu p, hst p]
    split_ifs <;> first | rfl | omega

variable {addr : AddrInt} {b b' : BitmapState}

theorem inside_iff (h : addr.toNat < 2 ^ 48) : Inside addr ↔ Fits 2 addr.toNat := by
  rw [Inside, Fits, byteIndex_eq]
  omega

theorem fits_two_of_four {a : ℕ} (h : Fits 4 a) : Fits 2 a := by
  rw [Fits] at h ⊢
  omega

theorem virt2entry_eq_none (h : addr.toNat < 2 ^ 48) (hfits : ¬Fits 2 addr.toNat) :
    b.virt2entry addr = none := by
  have hlast : byteIndex addr = 0x7FFFFF := by
    by_contra hlast
    exact hfits ((inside_iff h).1 ⟨h, hlast⟩)
  rw [virt2entry, if_pos hlast]

theorem getLsbD_entry_of_ge (b : BitmapState) (addr : AddrInt) {i : ℕ} (hi : 16 ≤ i) :
    (b.entry addr).getLsbD i = false := by
  rw [entry]
  split
  · rw [BitVec.getLsbD_setWidth, BitVec.getLsbD_of_ge _ i hi, Bool.and_false]
  · exact BitVec.getLsbD_zero

theorem entry_congr (h : Inside addr)
    (hbits : ∀ p, 8 * (addr.toNat / 8) ≤ p → b'.memBit p = b.memBit p) :
    b'.entry addr = b.entry addr := by
  refine BitVec.eq_of_getLsbD_eq fun i _ ↦ ?_
  by_cases hi : i < 16
  · rw [getLsbD_entry h b' hi, getLsbD_entry h b hi, hbits _ (Nat.le_add_right _ _)]
  · rw [getLsbD_entry_of_ge _ _ (not_lt.1 hi), getLsbD_entry_of_ge _ _ (not_lt.1 hi)]

theorem does_modifyEntry (f : BitVec 32 → BitVec 32) (h : addr.toNat < 2 ^ 48) :
    Does (modifyEntry f addr) (Fits 2 addr.toNat) fun b b' ↦ Inside addr ∧ ∀ p, b'.memBit p =
      if 8 * (addr.toNat / 8) ≤ p ∧ p < 8 * (addr.toNat / 8) + 16
      then (f (b.entry addr)).getLsbD (p - 8 * (addr.toNat / 8)) else b.memBit p := by
  intro b
  constructor
  · intro hfits
    have hin := (inside_iff h).2 hfits
    obtain ⟨b', hb', hmap, -, hbits, -⟩ := virt2entry_eq hin b
    refine ⟨b'.setEntry addr (f (b'.entry addr)), ?_, hin, fun p ↦ ?_⟩
    · rw [modifyEntry, withEntry, hb', Option.map_some]
    · rw [memBit_setEntry hin hmap, entry_congr hin fun p _ ↦ hbits p, hbits]
  · intro hfits
    rw [modifyEntry, withEntry, virt2entry_eq_none h hfits, Option.map_none]

theorem getLsbD_entry_sub (h : Inside addr) (b : BitmapState) {p : ℕ}
    (hp : 8 * (addr.toNat / 8) ≤ p ∧ p < 8 * (addr.toNat / 8) + 16) :
    (b.entry addr).getLsbD (p - 8 * (addr.toNat / 8)) = b.memBit p := by
  rw [getLsbD_entry h b (by omega), Nat.add_sub_cancel' hp.1]

/-- The mask of some bytes at an address, as a bit of its entry. -/
theorem getLsbD_mask_shiftLeft {n p : ℕ} (hn : n ≤ 8)
    (hp : 8 * (addr.toNat / 8) ≤ p ∧ p < 8 * (addr.toNat / 8) + 16) :
    (mask 32 n <<< virt2bit addr).getLsbD (p - 8 * (addr.toNat / 8)) =
      decide (addr.toNat ≤ p ∧ p < addr.toNat + n) := by
  rw [BitVec.getLsbD_shiftLeft, getLsbD_mask, virt2bit_eq, Bool.eq_iff_iff]
  simp only [Bool.and_eq_true, Bool.not_eq_true', decide_eq_true_eq, decide_eq_false_iff_not]
  omega

theorem does_setMask {n : ℕ} (h : addr.toNat < 2 ^ 48) (hn : n ≤ 8) :
    Does (setMask (mask 32 n) addr) (Fits 2 addr.toNat)
      (SetTo true addr.toNat (addr.toNat + n)) := by
  refine (does_modifyEntry _ h).mono Iff.rfl fun b b' ↦ ?_
  rintro ⟨hin, hbits⟩ p
  rw [hbits p]
  by_cases hp : 8 * (addr.toNat / 8) ≤ p ∧ p < 8 * (addr.toNat / 8) + 16
  · rw [if_pos hp, BitVec.getLsbD_or, getLsbD_entry_sub hin b hp, getLsbD_mask_shiftLeft hn hp]
    split_ifs with hin' <;> simp [hin']
  · rw [if_neg hp, if_neg (by omega)]

theorem does_clrMask {n : ℕ} (h : addr.toNat < 2 ^ 48) (hn : n ≤ 8) :
    Does (clrMask (mask 32 n) addr) (Fits 2 addr.toNat)
      (SetTo false addr.toNat (addr.toNat + n)) := by
  refine (does_modifyEntry _ h).mono Iff.rfl fun b b' ↦ ?_
  rintro ⟨hin, hbits⟩ p
  rw [hbits p]
  by_cases hp : 8 * (addr.toNat / 8) ≤ p ∧ p < 8 * (addr.toNat / 8) + 16
  · have hlt : p - 8 * (addr.toNat / 8) < 32 := by omega
    rw [if_pos hp, BitVec.getLsbD_and, BitVec.getLsbD_not, getLsbD_entry_sub hin b hp,
      getLsbD_mask_shiftLeft hn hp]
    split_ifs with hin' <;> simp [hin', hlt]
  · rw [if_neg hp, if_neg (by omega)]

/-- A read keeps the tag bits and has a bit exactly when one of its bytes has a tag. -/
def Reads (lo hi : ℕ) (b : BitmapState) (t : BitVec 64 × BitmapState) : Prop :=
  (∀ p, t.2.memBit p = b.memBit p) ∧ (t.1 ≠ 0 ↔ ∃ p, lo ≤ p ∧ p < hi ∧ b.memBit p = true)

theorem setWidth_ne_zero_iff (x : BitVec 32) :
    x.setWidth 64 ≠ 0 ↔ ∃ i, x.getLsbD i = true := by
  constructor
  · intro h
    by_contra hnone
    rw [not_exists] at hnone
    have hzero : x = 0 :=
      BitVec.eq_of_getLsbD_eq fun i _ ↦ by rw [Bool.eq_false_of_not_eq_true (hnone i)]; simp
    exact h (by rw [hzero]; rfl)
  · rintro ⟨i, hi⟩ hzero
    have hlt : i < 32 := BitVec.lt_of_getLsbD hi
    have hbit : (x.setWidth 64).getLsbD i = true := by
      rw [BitVec.getLsbD_setWidth, hi, Bool.and_true, decide_eq_true_eq]
      omega
    rw [hzero] at hbit
    exact absurd hbit (by simp)

theorem exists_getLsbD_entry_and_mask {n : ℕ} (h : Inside addr) (hn : n ≤ 8) (b : BitmapState) :
    (∃ i, (b.entry addr &&& (mask 32 n <<< virt2bit addr)).getLsbD i = true) ↔
      ∃ p, addr.toNat ≤ p ∧ p < addr.toNat + n ∧ b.memBit p = true := by
  simp only [BitVec.getLsbD_and, Bool.and_eq_true]
  constructor
  · rintro ⟨i, hentry, hmask⟩
    have hi : i < 16 := by
      by_contra hge
      rw [getLsbD_entry_of_ge _ _ (not_lt.1 hge)] at hentry
      cases hentry
    have hsub : i = 8 * (addr.toNat / 8) + i - 8 * (addr.toNat / 8) := by omega
    rw [getLsbD_entry h b hi] at hentry
    rw [hsub, getLsbD_mask_shiftLeft hn (by omega), decide_eq_true_eq] at hmask
    exact ⟨_, hmask.1, hmask.2, hentry⟩
  · rintro ⟨p, hle, hlt, hbit⟩
    have hp : 8 * (addr.toNat / 8) ≤ p ∧ p < 8 * (addr.toNat / 8) + 16 := by omega
    refine ⟨p - 8 * (addr.toNat / 8), ?_, ?_⟩
    · rw [getLsbD_entry_sub h b hp, hbit]
    · rw [getLsbD_mask_shiftLeft hn hp, decide_eq_true_eq]
      exact ⟨hle, hlt⟩

theorem does_getMask {n : ℕ} (h : addr.toNat < 2 ^ 48) (hn : n ≤ 8) :
    Does (getMask (mask 32 n) addr) (Fits 2 addr.toNat)
      (Reads addr.toNat (addr.toNat + n)) := by
  intro b
  constructor
  · intro hfits
    have hin := (inside_iff h).2 hfits
    obtain ⟨b', hb', -, -, hbits, -⟩ := virt2entry_eq hin b
    refine ⟨_, by rw [getMask, hb', Option.map_some], hbits, ?_⟩
    rw [entry_congr hin fun p _ ↦ hbits p, setWidth_ne_zero_iff,
      exists_getLsbD_entry_and_mask hin hn]
  · intro hfits
    rw [getMask, virt2entry_eq_none h hfits, Option.map_none]

theorem setBytes_eq {n : ℕ} (hpos : 0 < n) (hn : n ≤ 8) :
    setBytes n addr = setMask (mask 32 n) addr := by
  interval_cases n <;> rfl

theorem clrBytes_eq {n : ℕ} (hpos : 0 < n) (hn : n ≤ 8) :
    clrBytes n addr = clrMask (mask 32 n) addr := by
  interval_cases n <;> rfl

theorem getBytes_eq {n : ℕ} (hpos : 0 < n) (hn : n ≤ 8) :
    getBytes n addr = getMask (mask 32 n) addr := by
  interval_cases n <;> rfl

theorem virt2entry32_of_fits (hfits : Fits 4 addr.toNat) (b : BitmapState) :
    virt2entry32 b addr = b.virt2entry addr := by
  rw [Fits] at hfits
  rw [virt2entry32, byteIndex_eq, if_neg (by omega)]

theorem virt2entry32_of_not_fits (hfits : ¬Fits 4 addr.toNat) (b : BitmapState) :
    virt2entry32 b addr = none := by
  rw [Fits] at hfits
  rw [virt2entry32, byteIndex_eq, if_pos (by omega)]

section Block

variable (h : addr.toNat + 32 ≤ 2 ^ 48) (halign : addr.toNat % 8 = 0)
include h halign

theorem toNat_add_sixteen : (addr + 16).toNat = addr.toNat + 16 := by
  have hsixteen : (16 : AddrInt).toNat = 16 := rfl
  rw [BitVec.toNat_add, hsixteen]
  omega

theorem inside_add_sixteen (hfits : Fits 4 addr.toNat) : Inside (addr + 16) := by
  have hadd := toNat_add_sixteen h halign
  rw [inside_iff (by omega), hadd, Fits]
  rw [Fits] at hfits
  omega

theorem segIndex_add_sixteen (hfits : Fits 4 addr.toNat) :
    segIndex (addr + 16) = segIndex addr := by
  have hadd := toNat_add_sixteen h halign
  rw [segIndex_eq (by omega), segIndex_eq (by omega), hadd]
  rw [Fits] at hfits
  omega

theorem memBit_setEntry32 (hfits : Fits 4 addr.toNat) (hmap : b.stab (segIndex addr) ≠ none)
    (x : BitVec 32) (p : ℕ) :
    (setEntry32 b addr x).memBit p =
      if addr.toNat ≤ p ∧ p < addr.toNat + 32 then x.getLsbD (p - addr.toNat)
      else b.memBit p := by
  have hin := (inside_iff (by omega)).2 (fits_two_of_four hfits)
  have hadd := toNat_add_sixteen h halign
  have hmap' : (b.setEntry addr x).stab (segIndex (addr + 16)) ≠ none := by
    rw [segIndex_add_sixteen h halign hfits]
    simpa [setEntry] using hmap
  have hstart : 8 * (addr.toNat / 8) = addr.toNat := by omega
  have hstart' : 8 * ((addr.toNat + 16) / 8) = addr.toNat + 16 := by omega
  rw [setEntry32, memBit_setEntry (inside_add_sixteen h halign hfits) hmap',
    memBit_setEntry hin hmap, hadd, hstart, hstart', BitVec.getLsbD_ushiftRight]
  by_cases hhigh : addr.toNat + 16 ≤ p ∧ p < addr.toNat + 16 + 16
  · rw [if_pos hhigh, if_pos (by omega)]
    congr 1
    omega
  · rw [if_neg hhigh]
    by_cases hlow : addr.toNat ≤ p ∧ p < addr.toNat + 16
    · rw [if_pos hlow, if_pos (by omega)]
    · rw [if_neg hlow, if_neg (by omega)]

theorem does_setBlock (v : Bool) {x : BitVec 32} (hx : ∀ i < 32, x.getLsbD i = v) :
    Does (setBlock x addr) (Fits 4 addr.toNat) (SetTo v addr.toNat (addr.toNat + 32)) := by
  intro b
  constructor
  · intro hfits
    have hin := (inside_iff (by omega)).2 (fits_two_of_four hfits)
    obtain ⟨b', hb', hmap, -, hbits, -⟩ := virt2entry_eq hin b
    refine ⟨_, by rw [setBlock, virt2entry32_of_fits hfits, hb', Option.map_some], ?_⟩
    intro p
    rw [memBit_setEntry32 h halign hfits hmap, hbits]
    split_ifs with hp
    · exact hx _ (by omega)
    · rfl
  · intro hfits
    rw [setBlock, virt2entry32_of_not_fits hfits, Option.map_none]

theorem getLsbD_entry32 (hfits : Fits 4 addr.toNat) (b : BitmapState) {i : ℕ} (hi : i < 32) :
    (entry32 b addr).getLsbD i = b.memBit (addr.toNat + i) := by
  have hin := (inside_iff (by omega)).2 (fits_two_of_four hfits)
  have hin' := inside_add_sixteen h halign hfits
  have hadd := toNat_add_sixteen h halign
  rw [entry32, BitVec.getLsbD_or, BitVec.getLsbD_shiftLeft]
  by_cases hlow : i < 16
  · have hp : 8 * (addr.toNat / 8) + i = addr.toNat + i := by omega
    rw [getLsbD_entry hin b hlow, hp]
    simp [hlow]
  · have hp : 8 * ((addr + 16).toNat / 8) + (i - 16) = addr.toNat + i := by omega
    rw [getLsbD_entry hin' b (by omega), hp, getLsbD_entry_of_ge b addr (not_lt.1 hlow)]
    simp [hi, hlow]

theorem exists_getLsbD_entry32 (hfits : Fits 4 addr.toNat) (b : BitmapState) :
    (∃ i, (entry32 b addr).getLsbD i = true) ↔
      ∃ p, addr.toNat ≤ p ∧ p < addr.toNat + 32 ∧ b.memBit p = true := by
  constructor
  · rintro ⟨i, hi⟩
    have hlt : i < 32 := BitVec.lt_of_getLsbD hi
    rw [getLsbD_entry32 h halign hfits b hlt] at hi
    exact ⟨addr.toNat + i, by omega, by omega, hi⟩
  · rintro ⟨p, hle, hlt, hp⟩
    refine ⟨p - addr.toNat, ?_⟩
    rw [getLsbD_entry32 h halign hfits b (by omega), Nat.add_sub_cancel' hle, hp]

theorem does_getBlock :
    Does (getBlock addr) (Fits 4 addr.toNat) (Reads addr.toNat (addr.toNat + 32)) := by
  intro b
  constructor
  · intro hfits
    have hin := (inside_iff (by omega)).2 (fits_two_of_four hfits)
    obtain ⟨b', hb', -, -, hbits, -⟩ := virt2entry_eq hin b
    refine ⟨_, by rw [getBlock, virt2entry32_of_fits hfits, hb', Option.map_some],
      hbits, ?_⟩
    rw [setWidth_ne_zero_iff, exists_getLsbD_entry32 h halign hfits]
    simp only [hbits]
  · intro hfits
    rw [getBlock, virt2entry32_of_not_fits hfits, Option.map_none]

end Block

end TheiaTaint.Engine.Tagmap
