import Mathlib
import TheiaTaint.Engine.Custom

namespace TheiaTaint.Engine.ZeroExtension

open Foundations.Moves Tags.Directory

/-- The instructions with a 32-bit general-purpose destination. -/
inductive Instr32
  | r2rXferOpl (dst src : Reg)
  | m2rXferOpl (dst : Reg) (src : AddrInt)
  | r2rBinaryOpl (dst src : Reg)
  | m2rBinaryOpl (dst : Reg) (src : AddrInt)
  | rClrl (reg : Reg)
  | leaR2rOpl (dst base index : Reg)
  | movzxR2rOplbU (dst src : Reg)
  | movzxR2rOplbL (dst src : Reg)
  | movzxR2rOplw (dst src : Reg)
  | movzxM2rOplb (dst : Reg) (src : AddrInt)
  | movzxM2rOplw (dst : Reg) (src : AddrInt)
  | movsxR2rOplbU (dst src : Reg)
  | movsxR2rOplbL (dst src : Reg)
  | movsxR2rOplw (dst src : Reg)
  | movsxM2rOplb (dst : Reg) (src : AddrInt)
  | movsxM2rOplw (dst : Reg) (src : AddrInt)
  | xchgR2rOpl (dst src : Reg)
  | xchgM2rOpl (dst : Reg) (src : AddrInt)
  | xaddR2rOpl (dst src : Reg)
  | xaddR2mOpl (src : Reg) (dst : AddrInt)
  | r2rTernaryOpl (src : Reg)
  | m2rTernaryOpl (src : AddrInt)

def Instr32.written : Instr32 → List Reg
  | .r2rXferOpl dst _ | .m2rXferOpl dst _ | .r2rBinaryOpl dst _ | .m2rBinaryOpl dst _
  | .leaR2rOpl dst _ _ | .movzxR2rOplbU dst _ | .movzxR2rOplbL dst _ | .movzxR2rOplw dst _
  | .movzxM2rOplb dst _ | .movzxM2rOplw dst _ | .movsxR2rOplbU dst _ | .movsxR2rOplbL dst _
  | .movsxR2rOplw dst _ | .movsxM2rOplb dst _ | .movsxM2rOplw dst _ | .xchgM2rOpl dst _ => [dst]
  | .rClrl reg => [reg]
  | .xchgR2rOpl dst src | .xaddR2rOpl dst src => [dst, src]
  | .xaddR2mOpl src _ => [src]
  | .r2rTernaryOpl _ | .m2rTernaryOpl _ => [gprEdx, gprEax]

variable {S T : Type*} [SemilatticeSup T] [OrderBot T]

def Instr32.run [TagStore S T] : Instr32 → S → S
  | .r2rXferOpl dst src => Custom.r2rXferOpl dst src
  | .m2rXferOpl dst src => Custom.m2rXferOpl dst src
  | .r2rBinaryOpl dst src => Custom.r2rBinaryOpl dst src
  | .m2rBinaryOpl dst src => Custom.m2rBinaryOpl dst src
  | .rClrl reg => Custom.rClrl reg
  | .leaR2rOpl dst base index => Custom.leaR2rOpl dst base index
  | .movzxR2rOplbU dst src => Custom.movzxR2rOplbU dst src
  | .movzxR2rOplbL dst src => Custom.movzxR2rOplbL dst src
  | .movzxR2rOplw dst src => Custom.movzxR2rOplw dst src
  | .movzxM2rOplb dst src => Custom.movzxM2rOplb dst src
  | .movzxM2rOplw dst src => Custom.movzxM2rOplw dst src
  | .movsxR2rOplbU dst src => Custom.movsxR2rOplbU dst src
  | .movsxR2rOplbL dst src => Custom.movsxR2rOplbL dst src
  | .movsxR2rOplw dst src => Custom.movsxR2rOplw dst src
  | .movsxM2rOplb dst src => Custom.movsxM2rOplb dst src
  | .movsxM2rOplw dst src => Custom.movsxM2rOplw dst src
  | .xchgR2rOpl dst src => Custom.xchgR2rOpl dst src
  | .xchgM2rOpl dst src => Custom.xchgM2rOpl dst src
  | .xaddR2rOpl dst src => Custom.xaddR2rOpl dst src
  | .xaddR2mOpl src dst => Custom.xaddR2mOpl src dst
  | .r2rTernaryOpl src => Custom.r2rTernaryOpl src
  | .m2rTernaryOpl src => Custom.m2rTernaryOpl src

def UpperClear (s : TagState T) (r : Reg) : Prop :=
  ∀ i : Fin 8, 4 ≤ i.val → s.gpr r i = clearedVal

/-- A byte of memory or of the low half of a register. -/
def Loc.Low : Loc → Prop
  | .reg _ i => i.val < 4
  | .mem _ => True

def KeepsUpper (f : TagState T → TagState T) : Prop :=
  ∀ (s : TagState T) (r : Reg) (i : Fin 8), 4 ≤ i.val → (f s).gpr r i = s.gpr r i

theorem low_r32Tag (r : Reg) : ∀ l ∈ r32Tag r, Loc.Low l := by
  intro l hl
  simp only [r32Tag, List.mem_cons, List.not_mem_nil, or_false] at hl
  rcases hl with rfl | rfl | rfl | rfl <;> simp [Loc.Low]

theorem low_m32Tag (addr : AddrInt) : ∀ l ∈ m32Tag addr, Loc.Low l := by
  intro l hl
  simp only [m32Tag, List.mem_cons, List.not_mem_nil, or_false] at hl
  rcases hl with rfl | rfl | rfl | rfl <;> trivial

theorem keepsUpper_store {ls : List Loc} (hls : ∀ l ∈ ls, Loc.Low l) (ts : List T) :
    KeepsUpper fun s : TagState T ↦ storeTags s ls ts := by
  intro s r i hi
  have hne : ∀ l ∈ ls, l.cell ≠ (Loc.reg r i).cell := by
    intro l hl hcell
    have hlow := hls l hl
    cases l with
    | reg r' i' =>
      cases hcell
      exact absurd hlow (Nat.not_lt.2 hi)
    | mem addr => cases hcell
  exact get_store_of_forall_ne aliased hne s ts

theorem keepsUpper_xchg {dst src : List Loc} (hdst : ∀ l ∈ dst, Loc.Low l)
    (hsrc : ∀ l ∈ src, Loc.Low l) : KeepsUpper (xchg (S := TagState T) dst src) := by
  intro s r i hi
  exact (keepsUpper_store hdst _ _ r i hi).trans (keepsUpper_store hsrc _ s r i hi)

theorem keepsUpper_xadd {dst src : List Loc} (hdst : ∀ l ∈ dst, Loc.Low l)
    (hsrc : ∀ l ∈ src, Loc.Low l) : KeepsUpper (xadd (S := TagState T) dst src) := by
  intro s r i hi
  exact (keepsUpper_store hsrc _ _ r i hi).trans (keepsUpper_store hdst _ s r i hi)

theorem keepsUpper_xaddMem {src dst : List Loc} (hsrc : ∀ l ∈ src, Loc.Low l)
    (hdst : ∀ l ∈ dst, Loc.Low l) : KeepsUpper (xaddMem (S := TagState T) src dst) := by
  intro s r i hi
  exact (keepsUpper_store hdst _ _ r i hi).trans (keepsUpper_store hsrc _ s r i hi)

theorem keepsUpper_ternary (src : List Loc) : KeepsUpper (ternary (S := TagState T) r32Tag src) := by
  intro s r i hi
  exact (keepsUpper_store (low_r32Tag gprEax) _ _ r i hi).trans
    (keepsUpper_store (low_r32Tag gprEdx) _ s r i hi)

/-- No handler of a 32-bit destination touches the upper half of any register. -/
theorem keepsUpper_run (i : Instr32) : KeepsUpper (i.run (S := TagState T)) := by
  have hreg : ∀ (dst : Reg) (ts : TagState T → List T),
      KeepsUpper fun s : TagState T ↦ storeTags s (r32Tag dst) (ts s) := fun dst ts s ↦
    keepsUpper_store (low_r32Tag dst) (ts s) s
  cases i with
  | xchgR2rOpl dst src => exact keepsUpper_xchg (low_r32Tag dst) (low_r32Tag src)
  | xchgM2rOpl dst src => exact keepsUpper_xchg (low_r32Tag dst) (low_m32Tag src)
  | xaddR2rOpl dst src => exact keepsUpper_xadd (low_r32Tag dst) (low_r32Tag src)
  | xaddR2mOpl src dst => exact keepsUpper_xaddMem (low_r32Tag src) (low_m32Tag dst)
  | r2rTernaryOpl src => exact keepsUpper_ternary (r32Tag src)
  | m2rTernaryOpl src => exact keepsUpper_ternary (m32Tag src)
  | _ => exact hreg _ _

/-- The upper half of the written registers is clear afterwards exactly when it
was clear before. -/
theorem zero_extends_iff (i : Instr32) (s : TagState T) :
    (∀ r ∈ i.written, UpperClear (i.run s) r) ↔ ∀ r ∈ i.written, UpperClear s r := by
  have hkeep : ∀ r, UpperClear (i.run s) r ↔ UpperClear s r := by
    intro r
    refine forall₂_congr fun j hj ↦ ?_
    rw [keepsUpper_run i s r j hj]
  exact forall₂_congr fun r _ ↦ hkeep r

theorem stale_upper_tag :
    ¬ ∀ (i : Instr32) (s : TagState (Finset (BitVec 32))), ∀ r ∈ i.written,
      UpperClear (i.run s) r := by
  intro h
  let s : TagState (Finset (BitVec 32)) :=
    { gpr := fun r j ↦ if r = gprEax ∧ j = 4 then {1} else ∅, tagDir := emptyDir }
  have hclear := h (.r2rXferOpl gprEax gprEsi) s gprEax (List.mem_singleton.2 rfl) 4 (le_refl 4)
  rw [keepsUpper_run _ s gprEax 4 (le_refl 4)] at hclear
  exact absurd hclear (by decide)

end TheiaTaint.Engine.ZeroExtension
