import Mathlib
import TheiaTaint.Engine.Instr
import TheiaTaint.Engine.Field

namespace TheiaTaint.Engine

open Foundations.BitField Tags.Directory BitmapState

def RrForm.dst : RrForm → Reg → Field
  | .opbUl, r => .reg r 1 1
  | .opbLu, r => .reg r 0 1
  | .opbU, r => .reg r 1 1
  | .opbL, r => .reg r 0 1
  | .opw, r => .reg r 0 2
  | .opq, r => .reg r 0 8

def RrForm.src : RrForm → Reg → Field
  | .opbUl, r => .reg r 0 1
  | .opbLu, r => .reg r 1 1
  | .opbU, r => .reg r 1 1
  | .opbL, r => .reg r 0 1
  | .opw, r => .reg r 0 2
  | .opq, r => .reg r 0 8

def RmForm.reg : RmForm → Reg → Field
  | .opbU, r => .reg r 1 1
  | .opbL, r => .reg r 0 1
  | .opw, r => .reg r 0 2
  | .opq, r => .reg r 0 8

def RmForm.mem : RmForm → AddrInt → Field
  | .opbU, addr => .mem addr 1
  | .opbL, addr => .mem addr 1
  | .opw, addr => .mem addr 2
  | .opq, addr => .mem addr 8

def MmForm.mem : MmForm → AddrInt → Field
  | .opb, addr => .mem addr 1
  | .opw, addr => .mem addr 2
  | .opq, addr => .mem addr 8

def WqForm.reg : WqForm → Reg → Field
  | .opw, r => .reg r 0 2
  | .opq, r => .reg r 0 8

def ZxForm.dst : ZxForm → Reg → Field
  | .opwbU, r => .reg r 0 2
  | .opwbL, r => .reg r 0 2
  | .opqbU, r => .reg r 0 8
  | .opqbL, r => .reg r 0 8
  | .opqw, r => .reg r 0 8

def ZxForm.src : ZxForm → Reg → Field
  | .opwbU, r => .reg r 1 1
  | .opwbL, r => .reg r 0 1
  | .opqbU, r => .reg r 1 1
  | .opqbL, r => .reg r 0 1
  | .opqw, r => .reg r 0 2

def ZxMemForm.dst : ZxMemForm → Reg → Field
  | .opwb, r => .reg r 0 2
  | .opqb, r => .reg r 0 8
  | .opqw, r => .reg r 0 8

def ZxMemForm.src : ZxMemForm → AddrInt → Field
  | .opwb, addr => .mem addr 1
  | .opqb, addr => .mem addr 1
  | .opqw, addr => .mem addr 2

section Operands

variable {r : Reg} {addr : AddrInt}

theorem RrForm.proper_dst (f : RrForm) : (f.dst r).Proper := by
  cases f <;> simp [RrForm.dst, Field.Proper]

theorem RmForm.proper_reg (f : RmForm) : (f.reg r).Proper := by
  cases f <;> simp [RmForm.reg, Field.Proper]

theorem RmForm.proper_mem (f : RmForm) : (f.mem addr).Proper := by
  cases f <;> simp [RmForm.mem, Field.Proper]

theorem MmForm.proper_mem (f : MmForm) : (f.mem addr).Proper := by
  cases f <;> simp [MmForm.mem, Field.Proper]

theorem RrForm.within_dst (f : RrForm) (hr : r ≠ gprScratch) : (f.dst r).Within := by
  cases f <;> exact ⟨hr, by decide⟩

theorem RrForm.within_src (f : RrForm) (hr : r ≠ gprScratch) : (f.src r).Within := by
  cases f <;> exact ⟨hr, by decide⟩

theorem RmForm.within_reg (f : RmForm) (hr : r ≠ gprScratch) : (f.reg r).Within := by
  cases f <;> exact ⟨hr, by decide⟩

theorem RmForm.within_mem (f : RmForm) (haddr : InSegment addr) : (f.mem addr).Within := by
  cases f <;> exact ⟨haddr, by decide⟩

theorem MmForm.within_mem (f : MmForm) (haddr : InSegment addr) : (f.mem addr).Within := by
  cases f <;> exact ⟨haddr, by decide⟩

theorem WqForm.within_reg (f : WqForm) (hr : r ≠ gprScratch) : (f.reg r).Within := by
  cases f <;> exact ⟨hr, by decide⟩

theorem ZxForm.within_dst (f : ZxForm) (hr : r ≠ gprScratch) : (f.dst r).Within := by
  cases f <;> exact ⟨hr, by decide⟩

theorem ZxForm.within_src (f : ZxForm) (hr : r ≠ gprScratch) : (f.src r).Within := by
  cases f <;> exact ⟨hr, by decide⟩

theorem ZxMemForm.within_dst (f : ZxMemForm) (hr : r ≠ gprScratch) : (f.dst r).Within := by
  cases f <;> exact ⟨hr, by decide⟩

theorem ZxMemForm.within_src (f : ZxMemForm) (haddr : InSegment addr) : (f.src addr).Within := by
  cases f <;> exact ⟨haddr, by decide⟩

variable {b : BitmapState}

theorem RrForm.mapped_dst (f : RrForm) : (f.dst r).Mapped b := by
  cases f <;> trivial

theorem RrForm.mapped_src (f : RrForm) : (f.src r).Mapped b := by
  cases f <;> trivial

theorem RmForm.mapped_reg (f : RmForm) : (f.reg r).Mapped b := by
  cases f <;> trivial

theorem WqForm.mapped_reg (f : WqForm) : (f.reg r).Mapped b := by
  cases f <;> trivial

theorem ZxForm.mapped_dst (f : ZxForm) : (f.dst r).Mapped b := by
  cases f <;> trivial

theorem ZxMemForm.mapped_dst (f : ZxMemForm) : (f.dst r).Mapped b := by
  cases f <;> trivial

theorem RmForm.mapped_mem (f : RmForm) (h : ∀ n, (Field.mem addr n).Mapped b) :
    (f.mem addr).Mapped b := by
  cases f <;> exact h _

theorem MmForm.mapped_mem (f : MmForm) (h : ∀ n, (Field.mem addr n).Mapped b) :
    (f.mem addr).Mapped b := by
  cases f <;> exact h _

theorem RrForm.size_src (f : RrForm) (dst src : Reg) : (f.src src).size = (f.dst dst).size := by
  cases f <;> rfl

theorem RmForm.size_mem (f : RmForm) (r : Reg) (addr : AddrInt) :
    (f.mem addr).size = (f.reg r).size := by
  cases f <;> rfl

theorem MmForm.size_mem (f : MmForm) (addr addr' : AddrInt) :
    (f.mem addr).size = (f.mem addr').size := by
  cases f <;> rfl

theorem WqForm.size_reg (f : WqForm) (r r' : Reg) : (f.reg r).size = (f.reg r').size := by
  cases f <;> rfl

theorem ZxForm.size_src_le (f : ZxForm) (dst src : Reg) : (f.src src).size ≤ (f.dst dst).size := by
  cases f <;> simp [ZxForm.src, ZxForm.dst, Field.size]

theorem ZxMemForm.size_src_le (f : ZxMemForm) (dst : Reg) (src : AddrInt) :
    (f.src src).size ≤ (f.dst dst).size := by
  cases f <;> simp [ZxMemForm.src, ZxMemForm.dst, Field.size]

/-- Two operands of one form start at the same byte, or are bytes themselves. -/
theorem RrForm.loc_align (f : RrForm) {dst src : Reg} (hdst : dst ≠ gprScratch) {i j : ℕ}
    (hi : i < (f.src src).size) (hj : j < (f.dst dst).size)
    (hij : (f.src src).loc i = (f.dst dst).loc j) : i = j := by
  have hin := f.within_dst hdst
  cases f with
  | opw | opq =>
    obtain rfl : src = dst := (Loc.reg.inj hij).1
    exact Field.loc_injOn hin hi hj hij
  | _ =>
    rw [Nat.lt_one_iff.1 hi, Nat.lt_one_iff.1 hj]

theorem RmForm.loc_ne (f : RmForm) (r : Reg) (addr : AddrInt) (i j : ℕ) :
    (f.reg r).loc i ≠ (f.mem addr).loc j := by
  cases f <;> exact Loc.noConfusion

end Operands

theorem vcpuMask8_eq : vcpuMask8 = mask 32 1 := rfl
theorem vcpuMask16_eq : vcpuMask16 = mask 32 2 := rfl
theorem vcpuMask64_eq : vcpuMask64 = mask 32 8 := rfl
theorem byteMask_eq : byteMask = mask 32 1 := rfl
theorem wordMask_eq : wordMask = mask 32 2 := rfl
theorem quadMask_eq : quadMask = mask 32 8 := rfl

theorem toUint16_of_fits {n : ℕ} {x : BitVec 32} (hx : Fits n x) (hn : n ≤ 16) :
    Bitmap.toUint16 x = x := by
  refine BitVec.eq_of_getLsbD_eq fun j hj ↦ ?_
  rw [Bitmap.toUint16, BitVec.getLsbD_setWidth, BitVec.getLsbD_setWidth]
  by_cases hj16 : j < 16
  · simp [hj, hj16]
  · simp [hj16, hx j (by omega)]

theorem toUint16_extract {n : ℕ} (hn : n ≤ 16) (o : ℕ) (x : BitVec 32) :
    Bitmap.toUint16 (extract o n x) = extract o n x :=
  toUint16_of_fits (fits_extract o n x) hn

theorem fits_gpr_setGpr {b : BitmapState} {n : ℕ} {r : Reg} (hb : Fits n (b.gpr r))
    {x : BitVec 32} (hx : Fits n x) (d : Reg) : Fits n ((b.setGpr d x).gpr r) := by
  by_cases hr : r = d
  · rw [hr, gpr_setGpr_self]
    exact hx
  · rw [gpr_setGpr_of_ne hr]
    exact hb

variable {b b' : BitmapState}

theorem bitmap_r2rXfer (f : RrForm) (dst src : Reg)
    (hdst : Fits 8 (b.gpr dst)) (hsrc : Fits 8 (b.gpr src)) :
    (Instr.r2rXfer f dst src).bitmap b = some ((f.dst dst).write b ((f.src src).read b)) := by
  cases f with
  | opq =>
    simp only [Instr.bitmap, Function.comp_apply, Bitmap.r2rXferOpq, RrForm.dst, RrForm.src,
      Field.write, Field.read, extract_eq_self hsrc, merge_of_fits hdst]
  | _ =>
    simp only [Instr.bitmap, Function.comp_apply, Bitmap.r2rXferOpbUl, Bitmap.r2rXferOpbLu,
      Bitmap.r2rXferOpbU, Bitmap.r2rXferOpbL, Bitmap.r2rXferOpw, vcpuMask8_eq, vcpuMask16_eq,
      RrForm.dst, RrForm.src, Field.write, Field.read, merge, and_mask, and_mask_shiftLeft,
      Nat.reduceAdd, Nat.reduceLeDiff, extract_shiftLeft_ushiftRight, BitVec.shiftLeft_zero]

theorem bitmap_m2rXfer (f : RmForm) (dst : Reg) (src : AddrInt)
    (hv : b.virt2entry src = some b') (hdst : Fits 8 (b'.gpr dst)) :
    (Instr.m2rXfer f dst src).bitmap b = some ((f.reg dst).write b' ((f.mem src).read b')) := by
  cases f with
  | opq =>
    simp only [Instr.bitmap, Bitmap.withEntry, hv, Option.map_some, Bitmap.m2rXferOpq,
      vcpuMask64_eq, RmForm.reg, RmForm.mem, Field.write, Field.read, and_mask,
      extract_zero_ushiftRight, merge_of_fits hdst]
  | _ =>
    simp only [Instr.bitmap, Bitmap.withEntry, hv, Option.map_some, Bitmap.m2rXferOpbU,
      Bitmap.m2rXferOpbL, Bitmap.m2rXferOpw, vcpuMask8_eq, vcpuMask16_eq, RmForm.reg, RmForm.mem,
      Field.write, Field.read, merge, and_mask, and_mask_shiftLeft, Nat.reduceAdd, Nat.reduceLeDiff,
      extract_shiftLeft, extract_zero_ushiftRight, BitVec.shiftLeft_zero]

theorem bitmap_r2mXfer (f : RmForm) (dst : AddrInt) (src : Reg)
    (hv : b.virt2entry dst = some b') :
    (Instr.r2mXfer f dst src).bitmap b = some ((f.mem dst).write b' ((f.reg src).read b')) := by
  cases f <;>
    simp only [Instr.bitmap, Bitmap.withEntry, hv, Option.map_some, Bitmap.r2mXferOpbU,
      Bitmap.r2mXferOpbL, Bitmap.r2mXferOpw, Bitmap.r2mXferOpq, vcpuMask8_eq, vcpuMask16_eq,
      vcpuMask64_eq, byteMask_eq, wordMask_eq, quadMask_eq, RmForm.reg, RmForm.mem, Field.write,
      Field.read, merge, and_mask, and_mask_shiftLeft, Nat.reduceAdd, Nat.reduceLeDiff,
      extract_shiftLeft_ushiftRight, toUint16_extract]

theorem bitmap_m2mXfer {b'' : BitmapState} (f : MmForm) (dst src : AddrInt)
    (hv : b.virt2entry src = some b') (hv' : b'.virt2entry dst = some b'') :
    (Instr.m2mXfer f dst src).bitmap b = some ((f.mem dst).write b'' ((f.mem src).read b'')) := by
  cases f <;>
    simp only [Instr.bitmap, Bitmap.m2mXferOpb, Bitmap.m2mXferOpw, Bitmap.m2mXferOpq, hv, hv',
      Option.bind_eq_bind, Option.bind_some, byteMask_eq, wordMask_eq, quadMask_eq, MmForm.mem,
      Field.write, Field.read, merge, and_mask, extract_zero_ushiftRight]

theorem bitmap_r2rBinary (f : RrForm) (dst src : Reg) (hsrc : Fits 8 (b.gpr src)) :
    (Instr.r2rBinary f dst src).bitmap b =
      some ((f.dst dst).write b ((f.dst dst).read b ||| (f.src src).read b)) := by
  cases f <;>
    simp only [Instr.bitmap, Function.comp_apply, Bitmap.r2rBinaryOpbUl, Bitmap.r2rBinaryOpbLu,
      Bitmap.r2rBinaryOpbU, Bitmap.r2rBinaryOpbL, Bitmap.r2rBinaryOpw, Bitmap.r2rBinaryOpq,
      vcpuMask8_eq, vcpuMask16_eq, RrForm.dst, RrForm.src, Field.write, Field.read,
      merge_extract_or, and_mask, and_mask_shiftLeft, Nat.reduceAdd, Nat.reduceLeDiff,
      extract_shiftLeft_ushiftRight, extract_eq_self hsrc, BitVec.shiftLeft_zero]

theorem bitmap_m2rBinary (f : RmForm) (dst : Reg) (src : AddrInt)
    (hv : b.virt2entry src = some b') :
    (Instr.m2rBinary f dst src).bitmap b =
      some ((f.reg dst).write b' ((f.mem src).read b' ||| (f.reg dst).read b')) := by
  cases f <;>
    simp only [Instr.bitmap, Bitmap.withEntry, hv, Option.map_some, Bitmap.m2rBinaryOpbU,
      Bitmap.m2rBinaryOpbL, Bitmap.m2rBinaryOpw, Bitmap.m2rBinaryOpq, vcpuMask8_eq, vcpuMask16_eq,
      vcpuMask64_eq, RmForm.reg, RmForm.mem, Field.write, Field.read, merge_or_extract, and_mask,
      extract_zero_ushiftRight, BitVec.shiftLeft_zero]

theorem bitmap_r2mBinary (f : RmForm) (dst : AddrInt) (src : Reg)
    (hv : b.virt2entry dst = some b') :
    (Instr.r2mBinary f dst src).bitmap b =
      some ((f.mem dst).write b' ((f.mem dst).read b' ||| (f.reg src).read b')) := by
  cases f <;>
    simp only [Instr.bitmap, Bitmap.withEntry, hv, Option.map_some, Bitmap.r2mBinaryOpbU,
      Bitmap.r2mBinaryOpbL, Bitmap.r2mBinaryOpw, Bitmap.r2mBinaryOpq, vcpuMask8_eq, vcpuMask16_eq,
      vcpuMask64_eq, RmForm.reg, RmForm.mem, Field.write, Field.read, merge_extract_or, and_mask,
      and_mask_shiftLeft, Nat.reduceAdd, Nat.reduceLeDiff, extract_shiftLeft_ushiftRight]

theorem bitmap_rClr (f : RmForm) (reg : Reg) (hreg : Fits 8 (b.gpr reg)) :
    (Instr.rClr f reg).bitmap b = some ((f.reg reg).write b 0) := by
  cases f with
  | opq =>
    simp only [Instr.bitmap, Function.comp_apply, Bitmap.rClrq, RmForm.reg, Field.write,
      merge_of_fits hreg]
  | _ =>
    simp only [Instr.bitmap, Function.comp_apply, Bitmap.rClrw, Bitmap.rClrbU, Bitmap.rClrbL,
      vcpuMask8_eq, vcpuMask16_eq, RmForm.reg, Field.write, merge_zero_right, BitVec.shiftLeft_zero]

theorem bitmap_movzxR2r (f : ZxForm) (dst src : Reg) (hdst : Fits 8 (b.gpr dst)) :
    (Instr.movzxR2r f dst src).bitmap b = some ((f.dst dst).write b ((f.src src).read b)) := by
  cases f with
  | opwbU | opwbL =>
    simp only [Instr.bitmap, Function.comp_apply, Bitmap.movzxR2rOpwbU, Bitmap.movzxR2rOpwbL,
      vcpuMask8_eq, vcpuMask16_eq, ZxForm.dst, ZxForm.src, Field.write, Field.read, merge, and_mask,
      and_mask_shiftLeft, Nat.reduceAdd, Nat.reduceLeDiff, extract_shiftLeft_ushiftRight,
      BitVec.shiftLeft_zero]
  | _ =>
    simp only [Instr.bitmap, Function.comp_apply, Bitmap.movzxR2rOpqbU, Bitmap.movzxR2rOpqbL,
      Bitmap.movzxR2rOpqw, vcpuMask8_eq, vcpuMask16_eq, ZxForm.dst, ZxForm.src, Field.write,
      Field.read, merge_of_fits hdst, and_mask, and_mask_shiftLeft, Nat.reduceAdd, Nat.reduceLeDiff,
      extract_shiftLeft_ushiftRight]

theorem bitmap_movzxM2r (f : ZxMemForm) (dst : Reg) (src : AddrInt)
    (hv : b.virt2entry src = some b') (hdst : Fits 8 (b'.gpr dst)) :
    (Instr.movzxM2r f dst src).bitmap b = some ((f.dst dst).write b' ((f.src src).read b')) := by
  cases f with
  | opwb =>
    simp only [Instr.bitmap, Bitmap.withEntry, hv, Option.map_some, Bitmap.movzxM2rOpwb,
      vcpuMask8_eq, vcpuMask16_eq, ZxMemForm.dst, ZxMemForm.src, Field.write, Field.read, merge,
      and_mask, extract_zero_ushiftRight, BitVec.shiftLeft_zero]
  | _ =>
    simp only [Instr.bitmap, Bitmap.withEntry, hv, Option.map_some, Bitmap.movzxM2rOpqb,
      Bitmap.movzxM2rOpqw, vcpuMask8_eq, vcpuMask16_eq, ZxMemForm.dst, ZxMemForm.src, Field.write,
      Field.read, merge_of_fits hdst, and_mask, extract_zero_ushiftRight]

theorem bitmap_xchgR2r (f : RrForm) (dst src : Reg)
    (hdst : Fits 8 (b.gpr dst)) (hsrc : Fits 8 (b.gpr src)) :
    (Instr.xchgR2r f dst src).bitmap b =
      some ((f.src src).write ((f.dst dst).write b ((f.src src).read b)) ((f.dst dst).read b)) := by
  cases f with
  | opq =>
    simp only [Instr.bitmap, Function.comp_apply, Bitmap.xchgR2rOpq, RrForm.dst, RrForm.src,
      Field.write, Field.read, extract_eq_self hsrc, extract_eq_self hdst, merge_of_fits hdst,
      merge_of_fits (fits_gpr_setGpr hsrc hsrc dst)]
  | _ =>
    simp only [Instr.bitmap, Function.comp_apply, Bitmap.xchgR2rOpbUl, Bitmap.xchgR2rOpbLu,
      Bitmap.xchgR2rOpbU, Bitmap.xchgR2rOpbL, Bitmap.xchgR2rOpw, vcpuMask8_eq, vcpuMask16_eq,
      RrForm.dst, RrForm.src, Field.write, Field.read, merge, and_mask, and_mask_shiftLeft,
      Nat.reduceAdd, Nat.reduceLeDiff, extract_shiftLeft_ushiftRight, BitVec.shiftLeft_zero]

theorem bitmap_xchgM2r (f : RmForm) (dst : Reg) (src : AddrInt)
    (hv : b.virt2entry src = some b') (hdst : Fits 8 (b'.gpr dst)) :
    (Instr.xchgM2r f dst src).bitmap b =
      some ((f.mem src).write ((f.reg dst).write b' ((f.mem src).read b'))
        ((f.reg dst).read b')) := by
  cases f with
  | opq =>
    simp only [RmForm.reg, RmForm.mem, Field.write, Field.read, merge_of_fits hdst]
    simp only [Instr.bitmap, Bitmap.withEntry, hv, Option.map_some, Bitmap.xchgM2rOpq,
      vcpuMask64_eq, quadMask_eq, entry_setGpr, and_mask, extract_zero_ushiftRight,
      extract_eq_self hdst, merge, toUint16_of_fits hdst, Nat.reduceLeDiff]
  | _ =>
    simp only [Instr.bitmap, Bitmap.withEntry, hv, Option.map_some, Bitmap.xchgM2rOpbU,
      Bitmap.xchgM2rOpbL, Bitmap.xchgM2rOpw, vcpuMask8_eq, vcpuMask16_eq, byteMask_eq, wordMask_eq,
      RmForm.reg, RmForm.mem, Field.write, Field.read, entry_setGpr, merge, and_mask,
      and_mask_shiftLeft, Nat.reduceAdd, Nat.reduceLeDiff, extract_shiftLeft,
      extract_zero_ushiftRight, extract_shiftLeft_ushiftRight, toUint16_extract,
      BitVec.shiftLeft_zero]

theorem bitmap_xaddR2r (f : RrForm) (dst src : Reg)
    (hdst : Fits 8 (b.gpr dst)) (hsrc : Fits 8 (b.gpr src)) :
    (Instr.xaddR2r f dst src).bitmap b =
      some ((f.src src).write ((f.dst dst).write b ((f.dst dst).read b ||| (f.src src).read b))
        ((f.dst dst).read b)) := by
  cases f with
  | opq =>
    simp only [Instr.bitmap, Function.comp_apply, Bitmap.xaddR2rOpq, RrForm.dst, RrForm.src,
      Field.write, Field.read, extract_eq_self hsrc, extract_eq_self hdst, merge_of_fits hdst,
      merge_of_fits (fits_gpr_setGpr hsrc (hdst.or hsrc) dst)]
  | _ =>
    simp only [RrForm.dst, RrForm.src, Field.write, Field.read, merge_extract_or]
    simp only [Instr.bitmap, Function.comp_apply, Bitmap.xaddR2rOpbUl, Bitmap.xaddR2rOpbLu,
      Bitmap.xaddR2rOpbU, Bitmap.xaddR2rOpbL, Bitmap.xaddR2rOpw, vcpuMask8_eq, vcpuMask16_eq, merge,
      and_mask, and_mask_shiftLeft, Nat.reduceAdd, Nat.reduceLeDiff, extract_shiftLeft_ushiftRight,
      BitVec.shiftLeft_zero]

theorem bitmap_xaddR2m (f : RmForm) (src : Reg) (dst : AddrInt)
    (hv : b.virt2entry dst = some b') (hsrc : Fits 8 (b'.gpr src)) :
    (Instr.xaddR2m f src dst).bitmap b =
      some ((f.reg src).write ((f.mem dst).write b' ((f.reg src).read b' ||| (f.mem dst).read b'))
        ((f.mem dst).read b')) := by
  cases f with
  | opq =>
    simp only [Instr.bitmap, Bitmap.withEntry, hv, Option.map_some, Bitmap.xaddR2mOpq,
      vcpuMask64_eq, quadMask_eq, RmForm.reg, RmForm.mem, Field.write, Field.read, gpr_setEntry,
      and_mask, extract_zero_ushiftRight, merge_of_fits hsrc, merge_or_extract]
  | _ =>
    simp only [RmForm.reg, RmForm.mem, Field.write, Field.read, merge_or_extract]
    simp only [Instr.bitmap, Bitmap.withEntry, hv, Option.map_some, Bitmap.xaddR2mOpbU,
      Bitmap.xaddR2mOpbL, Bitmap.xaddR2mOpw, vcpuMask8_eq, vcpuMask16_eq, byteMask_eq, wordMask_eq,
      gpr_setEntry, merge, and_mask, and_mask_shiftLeft, Nat.reduceAdd, Nat.reduceLeDiff,
      extract_zero_ushiftRight, extract_shiftLeft_ushiftRight, BitVec.shiftLeft_zero]

theorem bitmap_leaR2r (f : WqForm) (dst base index : Reg)
    (hdst : Fits 8 (b.gpr dst)) (hbase : Fits 8 (b.gpr base)) (hindex : Fits 8 (b.gpr index)) :
    (Instr.leaR2r f dst base index).bitmap b =
      some ((f.reg dst).write b ((f.reg base).read b ||| (f.reg index).read b)) := by
  cases f with
  | opq =>
    simp only [Instr.bitmap, Function.comp_apply, Bitmap.leaR2rOpq, WqForm.reg, Field.write,
      Field.read, extract_eq_self hbase, extract_eq_self hindex, merge_of_fits hdst]
  | opw =>
    simp only [Instr.bitmap, Function.comp_apply, Bitmap.leaR2rOpw, vcpuMask16_eq, WqForm.reg,
      Field.write, Field.read, merge, and_mask, BitVec.or_assoc, BitVec.shiftLeft_zero]

theorem eq_zero_or_one_of_fits {x : BitVec 32} (hx : Fits 1 x) : x = 0 ∨ x = 1 := by
  have hlt : x.toNat < 2 := (fits_iff_toNat_lt 1 x).1 hx
  rcases Nat.lt_succ_iff_lt_or_eq.1 hlt with hzero | hone
  · exact Or.inl (BitVec.eq_of_toNat_eq (Nat.lt_one_iff.1 hzero))
  · exact Or.inr (BitVec.eq_of_toNat_eq hone)

theorem map8l16_getD {x : BitVec 32} (hx : Fits 1 x) :
    Bitmap.map8l16.getD x.toNat 0 = if x.getLsbD 0 then mask 32 2 else 0 := by
  rcases eq_zero_or_one_of_fits hx with rfl | rfl <;> rfl

theorem map8h16_getD {x : BitVec 32} (hx : Fits 1 x) :
    Bitmap.map8h16.getD (x <<< 1).toNat 0 = if x.getLsbD 0 then mask 32 2 else 0 := by
  rcases eq_zero_or_one_of_fits hx with rfl | rfl <;> rfl

def ternaryWrite (n : ℕ) (tag : BitVec 32) (b : BitmapState) : BitmapState :=
  (Field.reg gprEax 0 n).write
    ((Field.reg gprEdx 0 n).write b ((Field.reg gprEdx 0 n).read b ||| tag))
    ((Field.reg gprEax 0 n).read b ||| tag)

def ternaryByteWrite (tag : BitVec 32) (b : BitmapState) : BitmapState :=
  (Field.reg gprEax 0 2).write b
    ((Field.reg gprEax 0 2).read b ||| if tag.getLsbD 0 then mask 32 2 else 0)

def RmForm.ternary : RmForm → BitVec 32 → BitmapState → BitmapState
  | .opbU => ternaryByteWrite
  | .opbL => ternaryByteWrite
  | .opw => ternaryWrite 2
  | .opq => ternaryWrite 8

def MmForm.ternary : MmForm → BitVec 32 → BitmapState → BitmapState
  | .opb => ternaryByteWrite
  | .opw => ternaryWrite 2
  | .opq => ternaryWrite 8

theorem ternaryWrite_eq (n : ℕ) (tag : BitVec 32) (b : BitmapState) :
    ternaryWrite n tag b =
      (b.setGpr gprEdx (b.gpr gprEdx ||| tag)).setGpr gprEax (b.gpr gprEax ||| tag) := by
  have hne : gprEax ≠ gprEdx := by decide
  simp only [ternaryWrite, Field.write, Field.read, merge_extract_or, BitVec.shiftLeft_zero,
    gpr_setGpr_of_ne hne]

theorem ternaryByteWrite_eq (tag : BitVec 32) (b : BitmapState) :
    ternaryByteWrite tag b =
      b.setGpr gprEax (b.gpr gprEax ||| if tag.getLsbD 0 then mask 32 2 else 0) := by
  simp only [ternaryByteWrite, Field.write, Field.read, merge_extract_or, BitVec.shiftLeft_zero]

theorem bitmap_r2rTernary (f : RmForm) (src : Reg) (hsrc : Fits 8 (b.gpr src)) :
    (Instr.r2rTernary f src).bitmap b = some (f.ternary ((f.reg src).read b) b) := by
  have hne : gprEax ≠ gprEdx := by decide
  cases f with
  | opbU =>
    have hmap := map8h16_getD (fits_extract 1 1 (b.gpr src))
    simp only [Instr.bitmap, Function.comp_apply, Bitmap.r2rTernaryOpbU, vcpuMask8_eq,
      and_mask_shiftLeft, hmap, RmForm.ternary, RmForm.reg, ternaryByteWrite_eq, Field.read]
  | opbL =>
    have hmap := map8l16_getD (fits_extract 0 1 (b.gpr src))
    simp only [Instr.bitmap, Function.comp_apply, Bitmap.r2rTernaryOpbL, vcpuMask8_eq, and_mask,
      hmap, RmForm.ternary, RmForm.reg, ternaryByteWrite_eq, Field.read]
  | opw =>
    simp only [Instr.bitmap, Function.comp_apply, Bitmap.r2rTernaryOpw, vcpuMask16_eq, and_mask,
      RmForm.ternary, RmForm.reg, ternaryWrite_eq, Field.read, gpr_setGpr_of_ne hne]
  | opq =>
    -- When the operand is `EDX` itself, its tag is not changed by the first write.
    have hkeep : (b.setGpr gprEdx (b.gpr gprEdx ||| b.gpr src)).gpr src = b.gpr src := by
      by_cases hedx : src = gprEdx
      · rw [hedx, gpr_setGpr_self, BitVec.or_self]
      · exact gpr_setGpr_of_ne hedx ..
    simp only [Instr.bitmap, Function.comp_apply, Bitmap.r2rTernaryOpq, hkeep, RmForm.ternary,
      RmForm.reg, ternaryWrite_eq, Field.read, extract_eq_self hsrc, gpr_setGpr_of_ne hne]

theorem bitmap_m2rTernary (f : MmForm) (src : AddrInt) (hv : b.virt2entry src = some b') :
    (Instr.m2rTernary f src).bitmap b = some (f.ternary ((f.mem src).read b') b') := by
  have hne : gprEax ≠ gprEdx := by decide
  cases f with
  | opb =>
    have hmap := map8l16_getD (fits_extract (virt2bit src) 1 (b'.entry src))
    simp only [Instr.bitmap, Bitmap.withEntry, hv, Option.map_some, Bitmap.m2rTernaryOpb,
      vcpuMask8_eq, and_mask, extract_zero_ushiftRight, hmap, MmForm.ternary, MmForm.mem,
      ternaryByteWrite_eq, Field.read]
  | _ =>
    simp only [Instr.bitmap, Bitmap.withEntry, hv, Option.map_some, Bitmap.m2rTernaryOpw,
      Bitmap.m2rTernaryOpq, vcpuMask16_eq, vcpuMask64_eq, and_mask, extract_zero_ushiftRight,
      MmForm.ternary, MmForm.mem, ternaryWrite_eq, Field.read, gpr_setGpr_of_ne hne]

def WqForm.rr : WqForm → RrForm
  | .opw => .opw
  | .opq => .opq

def WqForm.rm : WqForm → RmForm
  | .opw => .opw
  | .opq => .opq

/-- How the forms with a memory operand compare. -/
def WqForm.memEq : WqForm → AddrInt → AddrInt → Bool
  | .opw, dstVal, mem => dstVal.setWidth 16 == mem.setWidth 16
  | .opq, dstVal, mem => dstVal == mem

def cmpxchgR2rXfer (f : WqForm) (dst src : Reg) (equal : Bool) : Instr :=
  .r2rXfer f.rr (if equal then dst else gprEax) (if equal then src else dst)

def cmpxchgM2rXfer (f : WqForm) (dst : AddrInt) (src : Reg) (equal : Bool) : Instr :=
  if equal then .r2mXfer f.rm dst src else .m2rXfer f.rm gprEax dst

def BitmapState.saveEax (b : BitmapState) : BitmapState := b.setGpr gprScratch (b.gpr gprEax)

theorem setGpr_gprEax (b : BitmapState) : b.setGpr gprScratch (b.gpr gprEax) = b.saveEax := rfl

theorem gpr_saveEax (b : BitmapState) : b.saveEax.gpr gprScratch = b.saveEax.gpr gprEax := by
  have hne : gprEax ≠ gprScratch := by decide
  rw [saveEax, gpr_setGpr_self, gpr_setGpr_of_ne hne]

theorem restore_eax (hb : b.gpr gprScratch = b.gpr gprEax) (x : BitVec 32) :
    (b.setGpr gprEax x).setGpr gprEax ((b.setGpr gprEax x).gpr gprScratch) = b := by
  have hne : gprScratch ≠ gprEax := by decide
  rw [gpr_setGpr_of_ne hne, hb, setGpr, setGpr]
  simp

theorem virt2entry_of_virt2entry {addr : AddrInt} (h : b.virt2entry addr = some b') :
    b'.virt2entry addr = some b' ∧ b'.gpr = b.gpr := by
  rw [virt2entry] at h
  split at h
  · cases h
  · next hlast =>
    rw [virt2entry, if_neg hlast]
    cases hseg : b.stab (segIndex addr) with
    | some seg =>
      rw [hseg] at h
      cases h
      rw [hseg]
      exact ⟨rfl, rfl⟩
    | none =>
      rw [hseg] at h
      cases h
      simp

theorem bitmap_cmpxchgR2r (f : WqForm) (dst src : Reg) (dstVal srcVal : AddrInt) :
    (Instr.cmpxchgR2r f dst src dstVal srcVal).bitmap b =
      (cmpxchgR2rXfer f dst src (dstVal == srcVal)).bitmap b.saveEax := by
  cases f <;> cases heq : dstVal == srcVal <;>
    simp [Instr.bitmap, cmpxchgR2rXfer, complete, heq, Bitmap.cmpxchgR2rOpwFast,
      Bitmap.cmpxchgR2rOpwSlow, Bitmap.cmpxchgR2rOpqFast, Bitmap.cmpxchgR2rOpqSlow, setGpr_gprEax,
      restore_eax (gpr_saveEax b), WqForm.rr, Bitmap.r2rXferOpw, Bitmap.r2rXferOpq]

theorem bitmap_cmpxchgM2r (f : WqForm) (dst : AddrInt) (src : Reg) (dstVal mem : AddrInt)
    (hv : b.saveEax.virt2entry dst = some b') :
    (Instr.cmpxchgM2r f dst src dstVal mem).bitmap b =
      (cmpxchgM2rXfer f dst src (f.memEq dstVal mem)).bitmap b.saveEax := by
  obtain ⟨hv', hgpr⟩ := virt2entry_of_virt2entry hv
  have hsaved : b'.gpr gprScratch = b'.gpr gprEax := by
    rw [hgpr]
    exact gpr_saveEax b
  cases f <;> cases heq : WqForm.memEq _ dstVal mem <;> rw [WqForm.memEq] at heq <;>
    simp [Instr.bitmap, cmpxchgM2rXfer, heq, Bitmap.cmpxchgM2rOpwFast,
      Bitmap.cmpxchgR2mOpwSlow, Bitmap.cmpxchgM2rOpqFast, Bitmap.cmpxchgR2mOpqSlow, setGpr_gprEax,
      restore_eax hsaved, WqForm.rm, Bitmap.r2mXferOpw, Bitmap.r2mXferOpq, Bitmap.m2rXferOpw,
      Bitmap.m2rXferOpq, Bitmap.withEntry, hv, hv']

end TheiaTaint.Engine
