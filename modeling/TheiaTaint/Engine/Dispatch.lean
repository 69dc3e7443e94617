import Mathlib
import TheiaTaint.Engine.Flat

namespace TheiaTaint.Engine

open Foundations.Moves Foundations.Assign Tags.Directory ZeroExtension

/-- The registers that the dispatcher asks about. A general one is given by the entry of
`vcpu.gpr` that holds it, `upper8` by its distance from `BH`. -/
inductive PinReg
  | invalid
  | gr64 (r : Fin 16)
  | rip
  | upper8 (r : Fin 4)
  | ip
  | eip
  | gr32 (r : Fin 16)
  | gr16 (r : Fin 16)
  | lower8 (r : Fin 16)
deriving DecidableEq

namespace PinReg

def al : PinReg := .lower8 7
def ah : PinReg := .upper8 3
def ax : PinReg := .gr16 7
def eax : PinReg := .gr32 7
def rax : PinReg := .gr64 7

/-- The position of a register in the enumeration `REG`. -/
def enum : PinReg → ℕ
  | .invalid => 0
  | .gr64 r => 3 + r
  | .rip => 26
  | .upper8 r => ![37, 34, 31, 28] r
  | .ip => 44
  | .eip => 58
  | .gr32 r => ![45, 47, 49, 51, 53, 54, 55, 56, 61, 64, 67, 70, 73, 76, 79, 82] r
  | .gr16 r => ![41, 40, 39, 42, 38, 35, 32, 29, 60, 63, 66, 69, 72, 75, 78, 81] r
  | .lower8 r => ![46, 48, 50, 52, 36, 33, 30, 27, 59, 62, 65, 68, 71, 74, 77, 80] r

def isGr64 : PinReg → Bool
  | .gr64 _ => true
  | _ => false

def isGr32 : PinReg → Bool
  | .gr32 _ => true
  | _ => false

def isGr16 : PinReg → Bool
  | .gr16 _ => true
  | _ => false

def isGr8 : PinReg → Bool
  | .lower8 _ | .upper8 _ => true
  | _ => false

def isLower8 : PinReg → Bool
  | .lower8 _ => true
  | _ => false

def isUpper8 : PinReg → Bool
  | .upper8 _ => true
  | _ => false

def regGrBase : ℕ := 3
def gprNum : ℕ := 16

/-- The difference is unsigned, and an index of `GPR_NUM` itself is not sent away. -/
def reg64Indx (reg : PinReg) : Reg :=
  let indx := (reg.enum + 2 ^ 32 - regGrBase) % 2 ^ 32
  if indx > gprNum then gprScratch else Fin.ofNat 17 indx

def reg32Indx : PinReg → Reg
  | .gr32 r => r.castSucc
  | _ => gprScratch

def reg16Indx : PinReg → Reg
  | .gr16 r => r.castSucc
  | _ => gprScratch

def reg8Indx : PinReg → Reg
  | .lower8 r => r.castSucc
  | .upper8 r => Fin.ofNat 17 (4 + r)
  | _ => gprScratch

/-- The bytes of `vcpu.gpr` that a register names. -/
def field : PinReg → Field
  | .gr64 r => .reg r.castSucc 0 8
  | .gr32 r => .reg r.castSucc 0 4
  | .gr16 r => .reg r.castSucc 0 2
  | .lower8 r => .reg r.castSucc 0 1
  | .upper8 r => .reg (Fin.ofNat 17 (4 + r)) 1 1
  | _ => .reg gprScratch 0 0

def size (reg : PinReg) : ℕ := reg.field.size

def General (reg : PinReg) : Prop := reg.size ≠ 0

instance (reg : PinReg) : Decidable reg.General := inferInstanceAs (Decidable (_ ≠ _))

variable {reg : PinReg}

theorem reg64Indx_gr64 (r : Fin 16) : reg64Indx (.gr64 r) = r.castSucc := by
  have hindx : (3 + r.val + 2 ^ 32 - 3) % 2 ^ 32 = r.val := by omega
  have hle : ¬ r.val > gprNum := by
    rw [gprNum]
    omega
  simp only [reg64Indx, enum, regGrBase, hindx, if_neg hle]
  refine Fin.ext ?_
  rw [Fin.val_ofNat, Fin.val_castSucc]
  omega

theorem reg64Indx_of_not_gr64 (h : reg.isGr64 = false) : reg64Indx reg = gprScratch := by
  cases reg with
  | gr64 r => cases h
  | invalid | rip | ip | eip => decide
  | upper8 r | gr32 r | gr16 r | lower8 r =>
    revert r
    decide

theorem proper_field (reg : PinReg) : reg.field.Proper := by
  cases reg <;> simp [field, Field.Proper]

theorem castSucc_ne_gprScratch (r : Fin 16) : r.castSucc ≠ gprScratch := Fin.castSucc_ne_last r

theorem field_loc_ne_scratch {i : ℕ} (hi : i < reg.size) (j : Fin 8) :
    reg.field.loc i ≠ .reg gprScratch j := by
  intro h
  cases reg with
  | gr64 r | gr32 r | gr16 r | lower8 r => exact castSucc_ne_gprScratch r (Loc.reg.inj h).1
  | upper8 r =>
    have hreg : (4 + r.val) % 17 = 16 := congrArg Fin.val (Loc.reg.inj h).1
    omega
  | invalid | rip | ip | eip => exact absurd hi (Nat.not_lt_zero i)

/-- Two registers of one size start at the same byte, or are bytes themselves. -/
theorem field_loc_align {reg' : PinReg} (hsize : reg'.size = reg.size) {i j : ℕ}
    (hi : i < reg.size) (hj : j < reg.size) (hij : reg'.field.loc i = reg.field.loc j) :
    i = j := by
  by_cases hone : reg.size = 1
  · omega
  · have hzero : ∀ r : PinReg, r.size ≠ 1 → r.size ≠ 0 →
        ∃ b n, r.field = .reg b 0 n ∧ n ≤ 8 := by
      intro r h1 h0
      cases r with
      | gr64 r | gr32 r | gr16 r => exact ⟨_, _, rfl, by decide⟩
      | lower8 r | upper8 r => exact absurd rfl h1
      | invalid | rip | ip | eip => exact absurd rfl h0
    obtain ⟨b, n, hb, hn⟩ := hzero reg hone (by omega)
    obtain ⟨b', n', hb', -⟩ := hzero reg' (hsize ▸ hone) (by omega)
    rw [size, hb, Field.size] at hi hj
    rw [hb, hb', Field.loc, Field.loc] at hij
    have hval : (0 + i) % 8 = (0 + j) % 8 := congrArg Fin.val (Loc.reg.inj hij).2
    omega

theorem size_le (reg : PinReg) : reg.size ≤ 8 := by
  cases reg <;> simp [size, field, Field.size]

theorem field_loc_ne_mem (reg : PinReg) (i : ℕ) (addr : AddrInt) :
    reg.field.loc i ≠ .mem addr := by
  cases reg <;> exact Loc.noConfusion

theorem eq_gr64 (h : reg.size = 8) : ∃ r, reg = .gr64 r := by
  cases reg with
  | gr64 r => exact ⟨r, rfl⟩
  | _ => cases h

theorem eq_gr32 (h : reg.size = 4) : ∃ r, reg = .gr32 r := by
  cases reg with
  | gr32 r => exact ⟨r, rfl⟩
  | _ => cases h

theorem eq_gr16 (h : reg.size = 2) : ∃ r, reg = .gr16 r := by
  cases reg with
  | gr16 r => exact ⟨r, rfl⟩
  | _ => cases h

theorem eq_gr8 (h : reg.size = 1) : (∃ r, reg = .lower8 r) ∨ ∃ r, reg = .upper8 r := by
  cases reg with
  | lower8 r => exact .inl ⟨r, rfl⟩
  | upper8 r => exact .inr ⟨r, rfl⟩
  | _ => cases h

end PinReg

/-- The operands of an instruction on a register or memory and a register. -/
inductive Operands
  | r2r (dst src : PinReg) (hdst : dst.General) (hsize : src.size = dst.size)
  | r2m (dst : AddrInt) (src : PinReg) (hsrc : src.General)

namespace Operands

def dst : Operands → Field
  | .r2r dst _ _ _ => dst.field
  | .r2m dst src _ => .mem dst src.size

def reg : Operands → PinReg
  | .r2r _ src _ _ | .r2m _ src _ => src

def src (ops : Operands) : Field := ops.reg.field

def size (ops : Operands) : ℕ := ops.src.size

theorem size_dst (ops : Operands) : ops.dst.size = ops.size := by
  cases ops with
  | r2r dst src hdst hsize => exact hsize.symm
  | r2m => rfl

theorem proper_dst (ops : Operands) : ops.dst.Proper := by
  cases ops with
  | r2r dst => exact dst.proper_field
  | r2m dst src => exact src.size_le.trans (by decide)

theorem dst_loc_ne_scratch (ops : Operands) {i : ℕ} (hi : i < ops.size) (j : Fin 8) :
    ops.dst.loc i ≠ .reg gprScratch j := by
  cases ops with
  | r2r dst src hdst hsize =>
    have hsrc : src.size = dst.size := hsize
    exact dst.field_loc_ne_scratch (hsrc ▸ hi) j
  | r2m dst src => exact Loc.noConfusion

theorem src_loc_ne_scratch (ops : Operands) {i : ℕ} (hi : i < ops.size) (j : Fin 8) :
    ops.src.loc i ≠ .reg gprScratch j := ops.reg.field_loc_ne_scratch hi j

theorem loc_align (ops : Operands) {i j : ℕ} (hi : i < ops.size) (hj : j < ops.size)
    (hij : ops.src.loc i = ops.dst.loc j) : i = j := by
  cases ops with
  | r2r dst src hdst hsize =>
    have hsrc : src.size = dst.size := hsize
    exact PinReg.field_loc_align hsize (hsrc ▸ hi) (hsrc ▸ hj) hij
  | r2m dst src => exact absurd hij (src.field_loc_ne_mem i _)

end Operands

/-- The operands of an instruction that also takes a register and memory. -/
inductive TwoOperands
  | rm (ops : Operands)
  | m2r (dst : PinReg) (hdst : dst.General) (src : AddrInt)

namespace TwoOperands

def dst : TwoOperands → Field
  | .rm ops => ops.dst
  | .m2r dst _ _ => dst.field

def src : TwoOperands → Field
  | .rm ops => ops.src
  | .m2r dst _ src => .mem src dst.size

end TwoOperands

section Ladders

variable (narrow : RrForm → Reg → Reg → Instr) (long : Reg → Reg → Instr32)
  (narrowMem : RmForm → Reg → AddrInt → Instr) (longMem : Reg → AddrInt → Instr32)

/-- `none` is an instruction without a call. -/
def inspectR2r (regDst regSrc : PinReg) : Option Handler :=
  if regDst.isGr64 then
    some (.narrow (narrow .opq regDst.reg64Indx regSrc.reg64Indx))
  else if regDst.isGr32 then
    some (.long (long regDst.reg32Indx regSrc.reg32Indx))
  else if regDst.isGr16 then
    some (.narrow (narrow .opw regDst.reg16Indx regSrc.reg16Indx))
  else if regDst.isGr8 then
    if regDst.isLower8 && regSrc.isLower8 then
      some (.narrow (narrow .opbL regDst.reg8Indx regSrc.reg8Indx))
    else if regDst.isUpper8 && regSrc.isUpper8 then
      some (.narrow (narrow .opbU regDst.reg8Indx regSrc.reg8Indx))
    else if regDst.isLower8 then
      some (.narrow (narrow .opbLu regDst.reg8Indx regSrc.reg8Indx))
    else
      some (.narrow (narrow .opbUl regDst.reg8Indx regSrc.reg8Indx))
  else
    none

def inspectMem (reg : PinReg) (addr : AddrInt) : Handler :=
  if reg.isGr64 then
    .narrow (narrowMem .opq reg.reg64Indx addr)
  else if reg.isGr32 then
    .long (longMem reg.reg32Indx addr)
  else if reg.isGr16 then
    .narrow (narrowMem .opw reg.reg16Indx addr)
  else if reg.isUpper8 then
    .narrow (narrowMem .opbU reg.reg8Indx addr)
  else
    .narrow (narrowMem .opbL reg.reg8Indx addr)

theorem inspectR2r_program (shape : List Loc → List Loc → List (Block Loc))
    (hnarrow : ∀ f dst src, (narrow f dst src).program = shape (f.dst dst).locs (f.src src).locs)
    (hlong : ∀ dst src, (long dst src).program = shape (r32Tag dst) (r32Tag src))
    {dst src : PinReg} (hdst : dst.General) (hsize : src.size = dst.size) :
    ∃ h, inspectR2r narrow long dst src = some h ∧
      h.program = shape dst.field.locs src.field.locs := by
  cases dst with
  | gr64 r =>
    obtain ⟨r', rfl⟩ := PinReg.eq_gr64 hsize
    refine ⟨_, rfl, (hnarrow _ _ _).trans ?_⟩
    rw [PinReg.reg64Indx_gr64, PinReg.reg64Indx_gr64]
    rfl
  | gr32 r =>
    obtain ⟨r', rfl⟩ := PinReg.eq_gr32 hsize
    exact ⟨_, rfl, hlong _ _⟩
  | gr16 r =>
    obtain ⟨r', rfl⟩ := PinReg.eq_gr16 hsize
    exact ⟨_, rfl, hnarrow _ _ _⟩
  | lower8 r | upper8 r =>
    obtain ⟨r', rfl⟩ | ⟨r', rfl⟩ := PinReg.eq_gr8 hsize <;> exact ⟨_, rfl, hnarrow _ _ _⟩
  | invalid | rip | ip | eip => exact absurd rfl hdst

theorem inspectMem_program (shape : List Loc → List Loc → List (Block Loc))
    (hnarrow : ∀ f reg addr,
      (narrowMem f reg addr).program = shape (f.reg reg).locs (f.mem addr).locs)
    (hlong : ∀ reg addr, (longMem reg addr).program = shape (r32Tag reg) (m32Tag addr))
    {reg : PinReg} (hreg : reg.General) (addr : AddrInt) :
    (inspectMem narrowMem longMem reg addr).program =
      shape reg.field.locs (Field.mem addr reg.size).locs := by
  cases reg with
  | gr64 r =>
    refine (hnarrow _ _ _).trans ?_
    rw [PinReg.reg64Indx_gr64]
    rfl
  | gr32 r =>
    refine (hlong _ _).trans ?_
    rw [m32Tag_eq]
    rfl
  | gr16 r | lower8 r | upper8 r => exact hnarrow _ _ _
  | invalid | rip | ip | eip => exact absurd rfl hreg

end Ladders

end TheiaTaint.Engine
