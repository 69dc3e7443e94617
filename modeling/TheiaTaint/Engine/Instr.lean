import Mathlib
import TheiaTaint.Engine.Custom
import TheiaTaint.Engine.Bitmap

namespace TheiaTaint.Engine

open Tags.Directory

/-- The 8-, 16- and 64-bit forms with two register operands. -/
inductive RrForm
  | opbUl
  | opbLu
  | opbU
  | opbL
  | opw
  | opq

/-- The forms with one register operand, beside which there may be one in memory. -/
inductive RmForm
  | opbU
  | opbL
  | opw
  | opq

/-- The forms whose operands are in memory or implicit. -/
inductive MmForm
  | opb
  | opw
  | opq

inductive WqForm
  | opw
  | opq

/-- The extending forms, from a register and from memory. -/
inductive ZxForm
  | opwbU
  | opwbL
  | opqbU
  | opqbL
  | opqw

inductive ZxMemForm
  | opwb
  | opqb
  | opqw

/-- The instructions whose handlers exist in both builds. A `cmpxchg` carries
the values it compares, and its fast path reads the destination. -/
inductive Instr
  | r2rXfer (f : RrForm) (dst src : Reg)
  | m2rXfer (f : RmForm) (dst : Reg) (src : AddrInt)
  | r2mXfer (f : RmForm) (dst : AddrInt) (src : Reg)
  | m2mXfer (f : MmForm) (dst src : AddrInt)
  | r2rBinary (f : RrForm) (dst src : Reg)
  | m2rBinary (f : RmForm) (dst : Reg) (src : AddrInt)
  | r2mBinary (f : RmForm) (dst : AddrInt) (src : Reg)
  | rClr (f : RmForm) (reg : Reg)
  | movzxR2r (f : ZxForm) (dst src : Reg)
  | movzxM2r (f : ZxMemForm) (dst : Reg) (src : AddrInt)
  | xchgR2r (f : RrForm) (dst src : Reg)
  | xchgM2r (f : RmForm) (dst : Reg) (src : AddrInt)
  | xaddR2r (f : RrForm) (dst src : Reg)
  | xaddR2m (f : RmForm) (src : Reg) (dst : AddrInt)
  | leaR2r (f : WqForm) (dst base index : Reg)
  | r2rTernary (f : RmForm) (src : Reg)
  | m2rTernary (f : MmForm) (src : AddrInt)
  | cmpxchgR2r (f : WqForm) (dst src : Reg) (dstVal srcVal : AddrInt)
  | cmpxchgM2r (f : WqForm) (dst : AddrInt) (src : Reg) (dstVal mem : AddrInt)

/-- Runs the slow path of a `cmpxchg` when the fast path found equal values. -/
def complete {S : Type*} (slow : S → S) (r : S × Bool) : S := if r.2 then slow r.1 else r.1

variable {S T : Type*} [SemilatticeSup T] [OrderBot T] [TagStore S T]

@[simp] def Instr.custom : Instr → S → S
  | .r2rXfer .opbUl dst src => Custom.r2rXferOpbUl dst src
  | .r2rXfer .opbLu dst src => Custom.r2rXferOpbLu dst src
  | .r2rXfer .opbU dst src => Custom.r2rXferOpbU dst src
  | .r2rXfer .opbL dst src => Custom.r2rXferOpbL dst src
  | .r2rXfer .opw dst src => Custom.r2rXferOpw dst src
  | .r2rXfer .opq dst src => Custom.r2rXferOpq dst src
  | .m2rXfer .opbU dst src => Custom.m2rXferOpbU dst src
  | .m2rXfer .opbL dst src => Custom.m2rXferOpbL dst src
  | .m2rXfer .opw dst src => Custom.m2rXferOpw dst src
  | .m2rXfer .opq dst src => Custom.m2rXferOpq dst src
  | .r2mXfer .opbU dst src => Custom.r2mXferOpbU dst src
  | .r2mXfer .opbL dst src => Custom.r2mXferOpbL dst src
  | .r2mXfer .opw dst src => Custom.r2mXferOpw dst src
  | .r2mXfer .opq dst src => Custom.r2mXferOpq dst src
  | .m2mXfer .opb dst src => Custom.m2mXferOpb dst src
  | .m2mXfer .opw dst src => Custom.m2mXferOpw dst src
  | .m2mXfer .opq dst src => Custom.m2mXferOpq dst src
  | .r2rBinary .opbUl dst src => Custom.r2rBinaryOpbUl dst src
  | .r2rBinary .opbLu dst src => Custom.r2rBinaryOpbLu dst src
  | .r2rBinary .opbU dst src => Custom.r2rBinaryOpbU dst src
  | .r2rBinary .opbL dst src => Custom.r2rBinaryOpbL dst src
  | .r2rBinary .opw dst src => Custom.r2rBinaryOpw dst src
  | .r2rBinary .opq dst src => Custom.r2rBinaryOpq dst src
  | .m2rBinary .opbU dst src => Custom.m2rBinaryOpbU dst src
  | .m2rBinary .opbL dst src => Custom.m2rBinaryOpbL dst src
  | .m2rBinary .opw dst src => Custom.m2rBinaryOpw dst src
  | .m2rBinary .opq dst src => Custom.m2rBinaryOpq dst src
  | .r2mBinary .opbU dst src => Custom.r2mBinaryOpbU dst src
  | .r2mBinary .opbL dst src => Custom.r2mBinaryOpbL dst src
  | .r2mBinary .opw dst src => Custom.r2mBinaryOpw dst src
  | .r2mBinary .opq dst src => Custom.r2mBinaryOpq dst src
  | .rClr .opq reg => Custom.rClrq reg
  | .rClr .opw reg => Custom.rClrw reg
  | .rClr .opbU reg => Custom.rClrbU reg
  | .rClr .opbL reg => Custom.rClrbL reg
  | .movzxR2r .opwbU dst src => Custom.movzxR2rOpwbU dst src
  | .movzxR2r .opwbL dst src => Custom.movzxR2rOpwbL dst src
  | .movzxR2r .opqbU dst src => Custom.movzxR2rOpqbU dst src
  | .movzxR2r .opqbL dst src => Custom.movzxR2rOpqbL dst src
  | .movzxR2r .opqw dst src => Custom.movzxR2rOpqw dst src
  | .movzxM2r .opwb dst src => Custom.movzxM2rOpwb dst src
  | .movzxM2r .opqb dst src => Custom.movzxM2rOpqb dst src
  | .movzxM2r .opqw dst src => Custom.movzxM2rOpqw dst src
  | .xchgR2r .opbUl dst src => Custom.xchgR2rOpbUl dst src
  | .xchgR2r .opbLu dst src => Custom.xchgR2rOpbLu dst src
  | .xchgR2r .opbU dst src => Custom.xchgR2rOpbU dst src
  | .xchgR2r .opbL dst src => Custom.xchgR2rOpbL dst src
  | .xchgR2r .opw dst src => Custom.xchgR2rOpw dst src
  | .xchgR2r .opq dst src => Custom.xchgR2rOpq dst src
  | .xchgM2r .opbU dst src => Custom.xchgM2rOpbU dst src
  | .xchgM2r .opbL dst src => Custom.xchgM2rOpbL dst src
  | .xchgM2r .opw dst src => Custom.xchgM2rOpw dst src
  | .xchgM2r .opq dst src => Custom.xchgM2rOpq dst src
  | .xaddR2r .opbUl dst src => Custom.xaddR2rOpbUl dst src
  | .xaddR2r .opbLu dst src => Custom.xaddR2rOpbLu dst src
  | .xaddR2r .opbU dst src => Custom.xaddR2rOpbU dst src
  | .xaddR2r .opbL dst src => Custom.xaddR2rOpbL dst src
  | .xaddR2r .opw dst src => Custom.xaddR2rOpw dst src
  | .xaddR2r .opq dst src => Custom.xaddR2rOpq dst src
  | .xaddR2m .opbU src dst => Custom.xaddR2mOpbU src dst
  | .xaddR2m .opbL src dst => Custom.xaddR2mOpbL src dst
  | .xaddR2m .opw src dst => Custom.xaddR2mOpw src dst
  | .xaddR2m .opq src dst => Custom.xaddR2mOpq src dst
  | .leaR2r .opw dst base index => Custom.leaR2rOpw dst base index
  | .leaR2r .opq dst base index => Custom.leaR2rOpq dst base index
  | .r2rTernary .opbU src => Custom.r2rTernaryOpbU src
  | .r2rTernary .opbL src => Custom.r2rTernaryOpbL src
  | .r2rTernary .opw src => Custom.r2rTernaryOpw src
  | .r2rTernary .opq src => Custom.r2rTernaryOpq src
  | .m2rTernary .opb src => Custom.m2rTernaryOpb src
  | .m2rTernary .opw src => Custom.m2rTernaryOpw src
  | .m2rTernary .opq src => Custom.m2rTernaryOpq src
  | .cmpxchgR2r .opw dst src dstVal srcVal => fun s ↦
    complete (Custom.cmpxchgR2rOpwSlow dst src) (Custom.cmpxchgR2rOpwFast dstVal dst srcVal s)
  | .cmpxchgR2r .opq dst src dstVal srcVal => fun s ↦
    complete (Custom.cmpxchgR2rOpqSlow dst src) (Custom.cmpxchgR2rOpqFast dstVal dst srcVal s)
  | .cmpxchgM2r .opw dst src dstVal mem => fun s ↦
    complete (Custom.cmpxchgR2mOpwSlow dst src)
      (Custom.cmpxchgM2rOpwFast dstVal dst (mem.setWidth 16) s)
  | .cmpxchgM2r .opq dst src dstVal mem => fun s ↦
    complete (Custom.cmpxchgR2mOpqSlow dst src)
      (Custom.cmpxchgM2rOpqFast dstVal dst mem s)

@[simp] def Instr.bitmap : Instr → BitmapState → Option BitmapState
  | .r2rXfer .opbUl dst src => some ∘ Bitmap.r2rXferOpbUl dst src
  | .r2rXfer .opbLu dst src => some ∘ Bitmap.r2rXferOpbLu dst src
  | .r2rXfer .opbU dst src => some ∘ Bitmap.r2rXferOpbU dst src
  | .r2rXfer .opbL dst src => some ∘ Bitmap.r2rXferOpbL dst src
  | .r2rXfer .opw dst src => some ∘ Bitmap.r2rXferOpw dst src
  | .r2rXfer .opq dst src => some ∘ Bitmap.r2rXferOpq dst src
  | .m2rXfer .opbU dst src => Bitmap.m2rXferOpbU dst src
  | .m2rXfer .opbL dst src => Bitmap.m2rXferOpbL dst src
  | .m2rXfer .opw dst src => Bitmap.m2rXferOpw dst src
  | .m2rXfer .opq dst src => Bitmap.m2rXferOpq dst src
  | .r2mXfer .opbU dst src => Bitmap.r2mXferOpbU dst src
  | .r2mXfer .opbL dst src => Bitmap.r2mXferOpbL dst src
  | .r2mXfer .opw dst src => Bitmap.r2mXferOpw dst src
  | .r2mXfer .opq dst src => Bitmap.r2mXferOpq dst src
  | .m2mXfer .opb dst src => Bitmap.m2mXferOpb dst src
  | .m2mXfer .opw dst src => Bitmap.m2mXferOpw dst src
  | .m2mXfer .opq dst src => Bitmap.m2mXferOpq dst src
  | .r2rBinary .opbUl dst src => some ∘ Bitmap.r2rBinaryOpbUl dst src
  | .r2rBinary .opbLu dst src => some ∘ Bitmap.r2rBinaryOpbLu dst src
  | .r2rBinary .opbU dst src => some ∘ Bitmap.r2rBinaryOpbU dst src
  | .r2rBinary .opbL dst src => some ∘ Bitmap.r2rBinaryOpbL dst src
  | .r2rBinary .opw dst src => some ∘ Bitmap.r2rBinaryOpw dst src
  | .r2rBinary .opq dst src => some ∘ Bitmap.r2rBinaryOpq dst src
  | .m2rBinary .opbU dst src => Bitmap.m2rBinaryOpbU dst src
  | .m2rBinary .opbL dst src => Bitmap.m2rBinaryOpbL dst src
  | .m2rBinary .opw dst src => Bitmap.m2rBinaryOpw dst src
  | .m2rBinary .opq dst src => Bitmap.m2rBinaryOpq dst src
  | .r2mBinary .opbU dst src => Bitmap.r2mBinaryOpbU dst src
  | .r2mBinary .opbL dst src => Bitmap.r2mBinaryOpbL dst src
  | .r2mBinary .opw dst src => Bitmap.r2mBinaryOpw dst src
  | .r2mBinary .opq dst src => Bitmap.r2mBinaryOpq dst src
  | .rClr .opq reg => some ∘ Bitmap.rClrq reg
  | .rClr .opw reg => some ∘ Bitmap.rClrw reg
  | .rClr .opbU reg => some ∘ Bitmap.rClrbU reg
  | .rClr .opbL reg => some ∘ Bitmap.rClrbL reg
  | .movzxR2r .opwbU dst src => some ∘ Bitmap.movzxR2rOpwbU dst src
  | .movzxR2r .opwbL dst src => some ∘ Bitmap.movzxR2rOpwbL dst src
  | .movzxR2r .opqbU dst src => some ∘ Bitmap.movzxR2rOpqbU dst src
  | .movzxR2r .opqbL dst src => some ∘ Bitmap.movzxR2rOpqbL dst src
  | .movzxR2r .opqw dst src => some ∘ Bitmap.movzxR2rOpqw dst src
  | .movzxM2r .opwb dst src => Bitmap.movzxM2rOpwb dst src
  | .movzxM2r .opqb dst src => Bitmap.movzxM2rOpqb dst src
  | .movzxM2r .opqw dst src => Bitmap.movzxM2rOpqw dst src
  | .xchgR2r .opbUl dst src => some ∘ Bitmap.xchgR2rOpbUl dst src
  | .xchgR2r .opbLu dst src => some ∘ Bitmap.xchgR2rOpbLu dst src
  | .xchgR2r .opbU dst src => some ∘ Bitmap.xchgR2rOpbU dst src
  | .xchgR2r .opbL dst src => some ∘ Bitmap.xchgR2rOpbL dst src
  | .xchgR2r .opw dst src => some ∘ Bitmap.xchgR2rOpw dst src
  | .xchgR2r .opq dst src => some ∘ Bitmap.xchgR2rOpq dst src
  | .xchgM2r .opbU dst src => Bitmap.xchgM2rOpbU dst src
  | .xchgM2r .opbL dst src => Bitmap.xchgM2rOpbL dst src
  | .xchgM2r .opw dst src => Bitmap.xchgM2rOpw dst src
  | .xchgM2r .opq dst src => Bitmap.xchgM2rOpq dst src
  | .xaddR2r .opbUl dst src => some ∘ Bitmap.xaddR2rOpbUl dst src
  | .xaddR2r .opbLu dst src => some ∘ Bitmap.xaddR2rOpbLu dst src
  | .xaddR2r .opbU dst src => some ∘ Bitmap.xaddR2rOpbU dst src
  | .xaddR2r .opbL dst src => some ∘ Bitmap.xaddR2rOpbL dst src
  | .xaddR2r .opw dst src => some ∘ Bitmap.xaddR2rOpw dst src
  | .xaddR2r .opq dst src => some ∘ Bitmap.xaddR2rOpq dst src
  | .xaddR2m .opbU src dst => Bitmap.xaddR2mOpbU src dst
  | .xaddR2m .opbL src dst => Bitmap.xaddR2mOpbL src dst
  | .xaddR2m .opw src dst => Bitmap.xaddR2mOpw src dst
  | .xaddR2m .opq src dst => Bitmap.xaddR2mOpq src dst
  | .leaR2r .opw dst base index => some ∘ Bitmap.leaR2rOpw dst base index
  | .leaR2r .opq dst base index => some ∘ Bitmap.leaR2rOpq dst base index
  | .r2rTernary .opbU src => some ∘ Bitmap.r2rTernaryOpbU src
  | .r2rTernary .opbL src => some ∘ Bitmap.r2rTernaryOpbL src
  | .r2rTernary .opw src => some ∘ Bitmap.r2rTernaryOpw src
  | .r2rTernary .opq src => some ∘ Bitmap.r2rTernaryOpq src
  | .m2rTernary .opb src => Bitmap.m2rTernaryOpb src
  | .m2rTernary .opw src => Bitmap.m2rTernaryOpw src
  | .m2rTernary .opq src => Bitmap.m2rTernaryOpq src
  | .cmpxchgR2r .opw dst src dstVal srcVal => fun b ↦ some <|
    complete (Bitmap.cmpxchgR2rOpwSlow dst src) (Bitmap.cmpxchgR2rOpwFast dstVal dst srcVal b)
  | .cmpxchgR2r .opq dst src dstVal srcVal => fun b ↦ some <|
    complete (Bitmap.cmpxchgR2rOpqSlow dst src) (Bitmap.cmpxchgR2rOpqFast dstVal dst srcVal b)
  | .cmpxchgM2r .opw dst src dstVal mem => fun b ↦ do
    let r ← Bitmap.cmpxchgM2rOpwFast dstVal dst (mem.setWidth 16) b
    if r.2 then Bitmap.cmpxchgR2mOpwSlow dst src r.1 else some r.1
  | .cmpxchgM2r .opq dst src dstVal mem => fun b ↦ do
    let r ← Bitmap.cmpxchgM2rOpqFast dstVal dst mem b
    if r.2 then Bitmap.cmpxchgR2mOpqSlow dst src r.1 else some r.1

def runCustom (is : List Instr) (s : S) : S :=
  is.foldl (fun s i ↦ i.custom s) s

def runBitmap (is : List Instr) (b : BitmapState) : Option BitmapState :=
  is.foldlM (fun b i ↦ i.bitmap b) b

end TheiaTaint.Engine
