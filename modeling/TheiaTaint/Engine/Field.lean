import Mathlib
import TheiaTaint.Engine.BitmapState

namespace TheiaTaint.Engine

open Foundations.BitField Foundations.Moves Tags.Directory BitmapState

/-- The bytes an operand covers: `n` bytes of a register from byte `o` on, or of
memory from an address on. -/
inductive Field
  | reg (r : Reg) (o n : ℕ)
  | mem (addr : AddrInt) (n : ℕ)

namespace Field

def size : Field → ℕ
  | .reg _ _ n => n
  | .mem _ n => n

def loc : Field → ℕ → Loc
  | .reg r o _, i => .reg r (Fin.ofNat 8 (o + i))
  | .mem addr _, i => .mem (addr + BitVec.ofNat 64 i)

def locs (f : Field) : List Loc := (List.range f.size).map f.loc

/-- The operand is part of a general-purpose register or of one segment. -/
def Within : Field → Prop
  | .reg r o n => r ≠ gprScratch ∧ o + n ≤ 8
  | .mem addr n => InSegment addr ∧ n ≤ 8

/-- The bytes of the operand are distinct. -/
def Proper : Field → Prop
  | .reg _ o n => o + n ≤ 8
  | .mem _ n => n ≤ 2 ^ 64

def Mapped (b : BitmapState) : Field → Prop
  | .reg _ _ _ => True
  | .mem addr _ => b.stab (segIndex addr) ≠ none

def read (b : BitmapState) : Field → BitVec 32
  | .reg r o n => extract o n (b.gpr r)
  | .mem addr n => extract (virt2bit addr) n (b.entry addr)

def write (b : BitmapState) (y : BitVec 32) : Field → BitmapState
  | .reg r o n => b.setGpr r (merge o n (b.gpr r) y)
  | .mem addr n => b.setEntry addr (merge (virt2bit addr) n (b.entry addr) y)

end Field

/-- A byte that both builds track. -/
def Loc.Visible : Loc → Prop
  | .reg r _ => r ≠ gprScratch
  | .mem addr => addr.toNat < 2 ^ 32

def BitmapState.bit (b : BitmapState) : Loc → Bool
  | .reg r i => (b.gpr r).getLsbD i
  | .mem addr => b.memBit addr.toNat

theorem Loc.eq_of_cell_eq {l l' : Loc} (hl : l.Visible) (hl' : l'.Visible)
    (h : l.cell = l'.cell) : l = l' := by
  cases l with
  | reg r i =>
    cases l' with
    | reg r' i' =>
      cases h
      rfl
    | mem addr' => cases h
  | mem addr =>
    cases l' with
    | reg r' i' => cases h
    | mem addr' =>
      have hlow : low32 addr = low32 addr' := Cell.mem.inj h
      rw [BitVec.toNat_eq, low32, low32, BitVec.toNat_setWidth, BitVec.toNat_setWidth,
        Nat.mod_eq_of_lt hl, Nat.mod_eq_of_lt hl'] at hlow
      rw [BitVec.eq_of_toNat_eq hlow]

theorem BitmapState.InSegment.toNat_add {addr : AddrInt} (h : InSegment addr) {i : ℕ}
    (hi : i < 8) : (addr + BitVec.ofNat 64 i).toNat = addr.toNat + i := by
  have hlt := h.1
  rw [BitVec.toNat_add, BitVec.toNat_ofNat]
  omega

theorem BitmapState.InSegment.toNat_add_lt {addr : AddrInt} (h : InSegment addr) {i : ℕ}
    (hi : i < 8) : addr.toNat + i < 2 ^ 32 := by
  obtain ⟨hlt, hlast⟩ := h
  rw [byteIndex_eq] at hlast
  omega

namespace Field

variable {f : Field} {b : BitmapState} {y : BitVec 32}

theorem size_le (h : f.Within) : f.size ≤ 8 := by
  cases f with
  | reg r o n => exact (Nat.le_add_left n o).trans h.2
  | mem addr n => exact h.2

theorem visible_loc (h : f.Within) {i : ℕ} (hi : i < f.size) : (f.loc i).Visible := by
  cases f with
  | reg r o n => exact h.1
  | mem addr n =>
    have hi8 : i < 8 := hi.trans_le h.2
    rw [loc, Loc.Visible, h.1.toNat_add hi8]
    exact h.1.toNat_add_lt hi8

theorem Within.proper (h : f.Within) : f.Proper := by
  cases f with
  | reg r o n => exact h.2
  | mem addr n => exact h.2.trans (by decide)

theorem loc_inj (h : f.Proper) {i j : ℕ} (hi : i < f.size) (hj : j < f.size)
    (hij : f.loc i = f.loc j) : i = j := by
  cases f with
  | reg r o n =>
    have hfin : (o + i) % 8 = (o + j) % 8 := congrArg Fin.val (Loc.reg.inj hij).2
    have ho : o + n ≤ 8 := h
    simp only [size] at hi hj
    omega
  | mem addr n =>
    have hoff := congrArg BitVec.toNat (BitVec.add_right_inj addr |>.1 (Loc.mem.inj hij))
    rw [BitVec.toNat_ofNat, BitVec.toNat_ofNat, Nat.mod_eq_of_lt (hi.trans_le h),
      Nat.mod_eq_of_lt (hj.trans_le h)] at hoff
    exact hoff

theorem loc_injOn (h : f.Within) {i j : ℕ} (hi : i < f.size) (hj : j < f.size)
    (hij : f.loc i = f.loc j) : i = j := loc_inj h.proper hi hj hij

theorem nodup_locs (h : f.Proper) : f.locs.Nodup := by
  refine List.Nodup.map_on (fun i hi j hj hij ↦ ?_) List.nodup_range
  rw [List.mem_range] at hi hj
  exact loc_inj h hi hj hij

theorem mem_locs {l : Loc} : l ∈ f.locs ↔ ∃ i < f.size, f.loc i = l := by
  simp [locs]

@[simp] theorem length_locs : f.locs.length = f.size := by
  simp [locs]

theorem nodup_cell_locs (h : f.Within) : (f.locs.map Loc.cell).Nodup := by
  rw [locs, List.map_map]
  refine List.Nodup.map_on (fun i hi j hj hij ↦ ?_) List.nodup_range
  rw [List.mem_range] at hi hj
  exact loc_injOn h hi hj (Loc.eq_of_cell_eq (visible_loc h hi) (visible_loc h hj) hij)

theorem fits_read : Fits f.size (f.read b) := by
  cases f with
  | reg r o n => exact fits_extract o n _
  | mem addr n => exact fits_extract _ n _

theorem getLsbD_read (h : f.Within) {i : ℕ} (hi : i < f.size) :
    (f.read b).getLsbD i = b.bit (f.loc i) := by
  cases f with
  | reg r o n =>
    have ho : o + n ≤ 8 := h.2
    simp only [size] at hi
    have hlt : o + i < 8 := by omega
    rw [read, getLsbD_extract, decide_eq_true hi, Bool.true_and, loc, bit, Fin.val_ofNat,
      Nat.mod_eq_of_lt hlt]
  | mem addr n =>
    have hi8 : i < 8 := hi.trans_le h.2
    simp only [size] at hi
    have hv := virt2bit_lt addr
    have hp : 8 * (addr.toNat / 8) + (virt2bit addr + i) = addr.toNat + i := by
      rw [virt2bit_eq]
      omega
    rw [read, getLsbD_extract, decide_eq_true hi, Bool.true_and,
      getLsbD_entry h.1.inside b (show virt2bit addr + i < 16 by omega), hp, loc, bit,
      h.1.toNat_add hi8]

theorem memBit_write {addr : AddrInt} {n : ℕ} (h : (Field.mem addr n).Within)
    (hmap : (Field.mem addr n).Mapped b) (hy : Fits n y) (p : ℕ) :
    ((Field.mem addr n).write b y).memBit p =
      if addr.toNat ≤ p ∧ p < addr.toNat + n then y.getLsbD (p - addr.toNat) else b.memBit p := by
  have hv := virt2bit_lt addr
  have hn := h.2
  rw [write, memBit_setEntry h.1.inside hmap]
  by_cases hin : 8 * (addr.toNat / 8) ≤ p ∧ p < 8 * (addr.toNat / 8) + 16
  · rw [if_pos hin, getLsbD_merge hy (by omega)]
    rw [virt2bit_eq]
    by_cases hp : addr.toNat ≤ p ∧ p < addr.toNat + n
    · rw [if_pos hp, if_pos (by omega)]
      congr 1
      omega
    · rw [if_neg hp, if_neg (by omega), getLsbD_entry h.1.inside b (by omega)]
      congr 1
      omega
  · rw [if_neg hin, if_neg (by omega)]

theorem bit_write_loc (h : f.Within) (hmap : f.Mapped b) (hy : Fits f.size y) {i : ℕ}
    (hi : i < f.size) : (f.write b y).bit (f.loc i) = y.getLsbD i := by
  cases f with
  | reg r o n =>
    have ho : o + n ≤ 8 := h.2
    simp only [size] at hi hy
    rw [write, loc, bit, Fin.val_ofNat, Nat.mod_eq_of_lt (by omega), gpr_setGpr_self,
      getLsbD_merge hy (by omega), if_pos (by omega), Nat.add_sub_cancel_left]
  | mem addr n =>
    have hi8 : i < 8 := hi.trans_le h.2
    simp only [size] at hi
    rw [loc, bit, h.1.toNat_add hi8, memBit_write h hmap hy, if_pos (by omega),
      Nat.add_sub_cancel_left]

theorem bit_write_of_ne (h : f.Within) (hmap : f.Mapped b) (hy : Fits f.size y) {l : Loc}
    (hl : l.Visible) (hne : ∀ i < f.size, f.loc i ≠ l) : (f.write b y).bit l = b.bit l := by
  cases f with
  | reg r o n =>
    have ho : o + n ≤ 8 := h.2
    cases l with
    | mem addr => rfl
    | reg r' i =>
      by_cases hr : r' = r
      · subst hr
        have hout : ¬ (o ≤ i.val ∧ i.val < o + n) := by
          intro hin
          refine hne (i.val - o) (show i.val - o < n by omega) ?_
          rw [loc, Nat.add_sub_cancel' hin.1]
          exact congrArg _ (Fin.ofNat_val_eq_self i)
        simp only [size] at hy
        rw [write, bit, gpr_setGpr_self, getLsbD_merge hy (by omega), if_neg hout]
        rfl
      · rw [write, bit, gpr_setGpr_of_ne hr]
        rfl
  | mem addr n =>
    cases l with
    | reg r' i => rfl
    | mem addr' =>
      have hout : ¬ (addr.toNat ≤ addr'.toNat ∧ addr'.toNat < addr.toNat + n) := by
        intro hin
        refine hne (addr'.toNat - addr.toNat) (show _ < n by omega) ?_
        have hlt : addr'.toNat - addr.toNat < 8 := by
          have hn : n ≤ 8 := h.2
          omega
        rw [loc]
        refine congrArg Loc.mem (BitVec.eq_of_toNat_eq ?_)
        rw [h.1.toNat_add hlt]
        omega
      rw [bit, memBit_write h hmap hy, if_neg hout]
      rfl

theorem fits_gpr_write (h : f.Within) (hy : Fits f.size y) {r : Reg} (hb : Fits 8 (b.gpr r)) :
    Fits 8 ((f.write b y).gpr r) := by
  cases f with
  | mem addr n => exact hb
  | reg r' o n =>
    have ho : o + n ≤ 8 := h.2
    by_cases hr : r = r'
    · subst hr
      rw [write, gpr_setGpr_self]
      exact hb.merge hy (by omega) ho
    · rw [write, gpr_setGpr_of_ne hr]
      exact hb

end Field

end TheiaTaint.Engine
