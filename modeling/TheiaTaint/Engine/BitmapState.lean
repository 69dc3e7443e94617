import Mathlib
import TheiaTaint.Engine.TagState
import TheiaTaint.Foundations.BitField

namespace TheiaTaint.Engine

open Foundations.BitField Tags.Directory

/-- The tags of a thread and of memory, in the build with one bit for each byte.
A segment of `STAB` is an array of bytes. -/
structure BitmapState where
  gpr : Reg → BitVec 32
  stab : ℕ → Option (ℕ → BitVec 8)

def vcpuMask8 : BitVec 32 := 0x01
def vcpuMask16 : BitVec 32 := 0x03
def vcpuMask64 : BitVec 32 := 0xFF

def byteMask : BitVec 32 := 0x01
def wordMask : BitVec 32 := 0x0003
def quadMask : BitVec 32 := 0x00FF

def segShift : ℕ := 26
def addrMask : AddrInt := 0x0000FFFFFFFFFFFF
def segMask : AddrInt := 0x03FFFFFF

def segIndex (addr : AddrInt) : ℕ := ((addr &&& addrMask) >>> segShift).toNat
def byteIndex (addr : AddrInt) : ℕ := ((addr &&& segMask) >>> 3).toNat
def virt2bit (addr : AddrInt) : ℕ := (addr &&& 0x7).toNat

namespace BitmapState

def setGpr (b : BitmapState) (r : Reg) (x : BitVec 32) : BitmapState :=
  { b with gpr := Function.update b.gpr r x }

/-- `VIRT2ENTRY`: a missing segment is allocated clear. The 16-bit entry of the
last byte reaches beyond its segment, so there the access has no meaning. -/
def virt2entry (b : BitmapState) (addr : AddrInt) : Option BitmapState :=
  if byteIndex addr = 0x7FFFFF then none
  else
    match b.stab (segIndex addr) with
    | some _ => some b
    | none => some { b with stab := Function.update b.stab (segIndex addr) (some fun _ ↦ 0) }

/-- `*entry`, promoted to the width of its computations. -/
def entry (b : BitmapState) (addr : AddrInt) : BitVec 32 :=
  match b.stab (segIndex addr) with
  | some seg => (seg (byteIndex addr + 1) ++ seg (byteIndex addr)).setWidth 32
  | none => 0

/-- `*entry = x`, which keeps 16 bits. -/
def setEntry (b : BitmapState) (addr : AddrInt) (x : BitVec 32) : BitmapState :=
  { b with
    stab := Function.update b.stab (segIndex addr) <| (b.stab (segIndex addr)).map fun seg ↦
      Function.update (Function.update seg (byteIndex addr) (x.setWidth 8)) (byteIndex addr + 1)
        ((x >>> 8).setWidth 8) }

@[simp] theorem gpr_setGpr_self (b : BitmapState) (r : Reg) (x : BitVec 32) :
    (b.setGpr r x).gpr r = x := Function.update_self ..

theorem gpr_setGpr_of_ne {r r' : Reg} (h : r' ≠ r) (b : BitmapState) (x : BitVec 32) :
    (b.setGpr r x).gpr r' = b.gpr r' := Function.update_of_ne h ..

@[simp] theorem stab_setGpr (b : BitmapState) (r : Reg) (x : BitVec 32) :
    (b.setGpr r x).stab = b.stab := rfl

@[simp] theorem gpr_setEntry (b : BitmapState) (addr : AddrInt) (x : BitVec 32) :
    (b.setEntry addr x).gpr = b.gpr := rfl

@[simp] theorem entry_setGpr (b : BitmapState) (r : Reg) (x : BitVec 32) (addr : AddrInt) :
    (b.setGpr r x).entry addr = b.entry addr := rfl

def memBit (b : BitmapState) (p : ℕ) : Bool :=
  match b.stab (p / 2 ^ 26) with
  | some seg => (seg (p % 2 ^ 26 / 8)).getLsbD (p % 8)
  | none => false

/-- The address starts an access that stays inside its segment. -/
def InSegment (addr : AddrInt) : Prop := addr.toNat < 2 ^ 32 ∧ byteIndex addr ≠ 0x7FFFFF

/-- The same for the addresses that `STAB` has segments for. -/
def Inside (addr : AddrInt) : Prop := addr.toNat < 2 ^ 48 ∧ byteIndex addr ≠ 0x7FFFFF

theorem InSegment.inside {addr : AddrInt} (h : InSegment addr) : Inside addr :=
  ⟨h.1.trans (by decide), h.2⟩

theorem segIndex_eq {addr : AddrInt} (h : addr.toNat < 2 ^ 48) :
    segIndex addr = addr.toNat / 2 ^ 26 := by
  have hmask : (addr &&& addrMask).toNat = addr.toNat := by
    have hand := toNat_and_mask addr (k := 48) (by decide)
    exact hand.trans (Nat.mod_eq_of_lt h)
  rw [segIndex, BitVec.toNat_ushiftRight, hmask, Nat.shiftRight_eq_div_pow, segShift]

theorem byteIndex_eq (addr : AddrInt) : byteIndex addr = addr.toNat % 2 ^ 26 / 8 := by
  have hand := toNat_and_mask addr (k := 26) (by decide)
  rw [byteIndex, BitVec.toNat_ushiftRight, Nat.shiftRight_eq_div_pow]
  exact congrArg (· / 2 ^ 3) hand

theorem virt2bit_eq (addr : AddrInt) : virt2bit addr = addr.toNat % 8 :=
  toNat_and_mask addr (k := 3) (by decide)

theorem virt2bit_lt (addr : AddrInt) : virt2bit addr < 8 := by
  rw [virt2bit_eq]
  omega

theorem memBit_of_some {b : BitmapState} {p : ℕ} {seg : ℕ → BitVec 8}
    (h : b.stab (p / 2 ^ 26) = some seg) : b.memBit p = (seg (p % 2 ^ 26 / 8)).getLsbD (p % 8) := by
  rw [memBit, h]

theorem getLsbD_entry {addr : AddrInt} (h : Inside addr) (b : BitmapState) {i : ℕ}
    (hi : i < 16) : (b.entry addr).getLsbD i = b.memBit (8 * (addr.toNat / 8) + i) := by
  obtain ⟨hlt, hlast⟩ := h
  rw [byteIndex_eq] at hlast
  have hseg : (8 * (addr.toNat / 8) + i) / 2 ^ 26 = segIndex addr := by
    rw [segIndex_eq hlt]
    omega
  rw [entry, memBit, hseg]
  cases b.stab (segIndex addr) with
  | none => exact BitVec.getLsbD_zero
  | some seg =>
    have hbit : (8 * (addr.toNat / 8) + i) % 8 = i % 8 := by omega
    simp only [BitVec.getLsbD_setWidth, BitVec.getLsbD_append, byteIndex_eq, hbit]
    by_cases hlow : i < 8
    · have hidx : (8 * (addr.toNat / 8) + i) % 2 ^ 26 / 8 = addr.toNat % 2 ^ 26 / 8 := by omega
      rw [hidx]
      simp [hlow, Nat.mod_eq_of_lt hlow, (show i < 32 by omega)]
    · have hidx : (8 * (addr.toNat / 8) + i) % 2 ^ 26 / 8 = addr.toNat % 2 ^ 26 / 8 + 1 := by omega
      have hmod : i % 8 = i - 8 := by omega
      rw [hidx]
      simp [hlow, hmod, (show i < 32 by omega)]

theorem memBit_setEntry {addr : AddrInt} (h : Inside addr) {b : BitmapState}
    (hmap : b.stab (segIndex addr) ≠ none) (x : BitVec 32) (p : ℕ) :
    (b.setEntry addr x).memBit p =
      if 8 * (addr.toNat / 8) ≤ p ∧ p < 8 * (addr.toNat / 8) + 16
      then x.getLsbD (p - 8 * (addr.toNat / 8)) else b.memBit p := by
  obtain ⟨hlt, hlast⟩ := h
  obtain ⟨seg, hseg⟩ := Option.ne_none_iff_exists'.1 hmap
  rw [byteIndex_eq] at hlast
  by_cases hp : p / 2 ^ 26 = segIndex addr
  · have hnew : (b.setEntry addr x).stab (p / 2 ^ 26) = some (Function.update
        (Function.update seg (byteIndex addr) (x.setWidth 8)) (byteIndex addr + 1)
          ((x >>> 8).setWidth 8)) := by
      simp only [hp, setEntry, hseg, Function.update_self, Option.map_some]
    rw [memBit_of_some hnew, memBit_of_some (hp ▸ hseg)]
    rw [segIndex_eq hlt] at hp
    rw [byteIndex_eq]
    have hpmod : p % 8 < 8 := Nat.mod_lt _ (by decide)
    by_cases hhigh : p % 2 ^ 26 / 8 = addr.toNat % 2 ^ 26 / 8 + 1
    · have hsub : p - 8 * (addr.toNat / 8) = 8 + p % 8 := by omega
      rw [hhigh, Function.update_self, if_pos (by omega), hsub]
      simp [hpmod]
    · rw [Function.update_of_ne hhigh]
      by_cases hlow : p % 2 ^ 26 / 8 = addr.toNat % 2 ^ 26 / 8
      · have hsub : p - 8 * (addr.toNat / 8) = p % 8 := by omega
        rw [hlow, Function.update_self, if_pos (by omega), hsub]
        simp [hpmod]
      · rw [Function.update_of_ne hlow, if_neg (by omega)]
  · have hold : (b.setEntry addr x).stab (p / 2 ^ 26) = b.stab (p / 2 ^ 26) :=
      Function.update_of_ne hp _ _
    rw [memBit, hold, ← memBit, if_neg]
    rw [segIndex_eq hlt] at hp
    omega

/-- An access inside its segment maps it and changes no tag. -/
theorem virt2entry_eq {addr : AddrInt} (h : Inside addr) (b : BitmapState) :
    ∃ b', b.virt2entry addr = some b' ∧ b'.stab (segIndex addr) ≠ none ∧ b'.gpr = b.gpr ∧
      (∀ p, b'.memBit p = b.memBit p) ∧ ∀ k, b.stab k ≠ none → b'.stab k ≠ none := by
  rw [virt2entry, if_neg h.2]
  cases hseg : b.stab (segIndex addr) with
  | some seg => exact ⟨b, rfl, by simp [hseg], rfl, fun _ ↦ rfl, fun _ hk ↦ hk⟩
  | none =>
    refine ⟨_, rfl, by simp, rfl, fun p ↦ ?_, fun k hk ↦ ?_⟩
    · by_cases hp : p / 2 ^ 26 = segIndex addr
      · simp only [memBit, hp, hseg, Function.update_self]
        exact BitVec.getLsbD_zero
      · simp only [memBit, Function.update_of_ne hp]
    · have hne : k ≠ segIndex addr := fun hkseg ↦ hk (hkseg ▸ hseg)
      simpa [Function.update_of_ne hne] using hk

end BitmapState

end TheiaTaint.Engine
