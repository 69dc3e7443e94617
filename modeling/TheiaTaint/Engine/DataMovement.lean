import Mathlib
import TheiaTaint.Engine.Flat

namespace TheiaTaint.Engine

open Tags.Directory

/-- The transfers and the two-operand instructions, without the 32-bit forms that
write a register. -/
inductive Move
  | r2rXfer (f : RrForm) (dst src : Reg)
  | m2rXfer (f : RmForm) (dst : Reg) (src : AddrInt)
  | r2mXfer (f : RmForm) (dst : AddrInt) (src : Reg)
  | r2mXferOpl (dst : AddrInt) (src : Reg)
  | m2mXfer (f : MmForm) (dst src : AddrInt)
  | m2mXferOpl (dst src : AddrInt)
  | r2rBinary (f : RrForm) (dst src : Reg)
  | m2rBinary (f : RmForm) (dst : Reg) (src : AddrInt)
  | r2mBinary (f : RmForm) (dst : AddrInt) (src : Reg)
  | r2mBinaryOpl (dst : AddrInt) (src : Reg)

namespace Move

def handler : Move → Handler
  | .r2rXfer f dst src => .narrow (.r2rXfer f dst src)
  | .m2rXfer f dst src => .narrow (.m2rXfer f dst src)
  | .r2mXfer f dst src => .narrow (.r2mXfer f dst src)
  | .r2mXferOpl dst src => .r2mXferOpl dst src
  | .m2mXfer f dst src => .narrow (.m2mXfer f dst src)
  | .m2mXferOpl dst src => .m2mXferOpl dst src
  | .r2rBinary f dst src => .narrow (.r2rBinary f dst src)
  | .m2rBinary f dst src => .narrow (.m2rBinary f dst src)
  | .r2mBinary f dst src => .narrow (.r2mBinary f dst src)
  | .r2mBinaryOpl dst src => .r2mBinaryOpl dst src

def dst : Move → Field
  | .r2rXfer f dst _ | .r2rBinary f dst _ => f.dst dst
  | .m2rXfer f dst _ | .m2rBinary f dst _ => f.reg dst
  | .r2mXfer f dst _ | .r2mBinary f dst _ => f.mem dst
  | .m2mXfer f dst _ => f.mem dst
  | .r2mXferOpl dst _ | .m2mXferOpl dst _ | .r2mBinaryOpl dst _ => .mem dst 4

def src : Move → Field
  | .r2rXfer f _ src | .r2rBinary f _ src => f.src src
  | .m2rXfer f _ src | .m2rBinary f _ src => f.mem src
  | .r2mXfer f _ src | .r2mBinary f _ src => f.reg src
  | .m2mXfer f _ src => f.mem src
  | .r2mXferOpl _ src | .r2mBinaryOpl _ src => .reg src 0 4
  | .m2mXferOpl _ src => .mem src 4

theorem proper_dst (m : Move) : m.dst.Proper := by
  cases m with
  | r2rXfer f | r2rBinary f => exact f.proper_dst
  | m2rXfer f | m2rBinary f => exact f.proper_reg
  | r2mXfer f | r2mBinary f => exact f.proper_mem
  | m2mXfer f => exact f.proper_mem
  | r2mXferOpl | m2mXferOpl | r2mBinaryOpl => simp [dst, Field.Proper]

theorem size_src (m : Move) : m.src.size = m.dst.size := by
  cases m with
  | r2rXfer f dst src | r2rBinary f dst src => exact f.size_src dst src
  | m2rXfer f dst src | m2rBinary f dst src => exact f.size_mem dst src
  | r2mXfer f dst src | r2mBinary f dst src => exact (f.size_mem src dst).symm
  | m2mXfer f dst src => exact f.size_mem src dst
  | r2mXferOpl | m2mXferOpl | r2mBinaryOpl => rfl

variable {T : Type*} [SemilatticeSup T] [OrderBot T]

/-- The tag of a destination byte, from the old tags of this byte and of the
source byte beside it. -/
def result : Move → T → T → T
  | .r2rXfer .., _, new | .m2rXfer .., _, new | .r2mXfer .., _, new | .r2mXferOpl .., _, new
  | .m2mXfer .., _, new | .m2mXferOpl .., _, new => new
  | .r2rBinary .., old, new | .m2rBinary .., old, new | .r2mBinary .., old, new
  | .r2mBinaryOpl .., old, new => tagCombine old new

/-- The source operand in byte order reaches the destination operand, and no
other byte changes. -/
structure Exact (m : Move) (s s' : FlatState T) : Prop where
  size : m.src.size = m.dst.size
  moved : ∀ i < m.dst.size,
    s'.get (m.dst.loc i) = m.result (s.get (m.dst.loc i)) (s.get (m.src.loc i))
  other : ∀ l, (∀ i < m.dst.size, m.dst.loc i ≠ l) → s'.get l = s.get l

theorem run_eq_write (m : Move) (s : FlatState T) :
    m.handler.run s =
      s.write m.dst fun i ↦ m.result (s.get (m.dst.loc i)) (s.get (m.src.loc i)) := by
  have hsize := m.size_src
  rw [run_flat]
  cases m with
  | r2rXfer | m2rXfer | r2mXfer | m2mXfer => exact runBlocks_xfer hsize
  | r2mXferOpl dst src =>
    rw [handler, Handler.program, m32Tag_eq]
    exact runBlocks_xfer hsize
  | m2mXferOpl dst src =>
    rw [handler, Handler.program, m32Tag_eq, m32Tag_eq]
    exact runBlocks_xfer hsize
  | r2rBinary | r2mBinary => exact runBlocks_combineInto rfl hsize
  | m2rBinary f dst src =>
    refine (runBlocks_combineInto hsize rfl).trans (congrArg _ (funext fun i ↦ ?_))
    exact sup_comm _ _
  | r2mBinaryOpl dst src =>
    rw [handler, Handler.program, m32Tag_eq]
    exact runBlocks_combineInto rfl hsize

/-- The program of a handler is what the code does over the tag directory; over a
memory that tells all addresses apart it moves the operand byte by byte. -/
theorem move_exact (m : Move) (s : FlatState T) :
    Computes m.handler.program (m.handler.run (S := TagState T)) ∧ m.Exact s (m.handler.run s) := by
  refine ⟨computes_run m.handler, ?_⟩
  rw [run_eq_write]
  exact ⟨m.size_src, fun i hi ↦ get_write_loc m.proper_dst hi, fun l hl ↦ get_write_of_ne hl⟩

end Move

end TheiaTaint.Engine
