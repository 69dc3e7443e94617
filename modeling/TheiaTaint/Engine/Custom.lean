import Mathlib
import TheiaTaint.Engine.TagState

namespace TheiaTaint.Engine.Custom

open Tags.Directory

variable {S T : Type*} [SemilatticeSup T] [OrderBot T] [TagStore S T]

/-- `u` is the high byte of a register and `l` the low one, that of the destination first. -/
def r2rXferOpbUl (dst src : Reg) : S → S := xfer (r8hTag dst) (r8lTag src)
def r2rXferOpbLu (dst src : Reg) : S → S := xfer (r8lTag dst) (r8hTag src)
def r2rXferOpbU (dst src : Reg) : S → S := xfer (r8hTag dst) (r8hTag src)
def r2rXferOpbL (dst src : Reg) : S → S := xfer (r8lTag dst) (r8lTag src)
def r2rXferOpw (dst src : Reg) : S → S := xfer (r16Tag dst) (r16Tag src)
def r2rXferOpl (dst src : Reg) : S → S := xfer (r32Tag dst) (r32Tag src)
def r2rXferOpq (dst src : Reg) : S → S := xfer (r64Tag dst) (r64Tag src)

def m2rXferOpbU (dst : Reg) (src : AddrInt) : S → S :=
  xfer (r8hTag dst) (m8Tag src)
def m2rXferOpbL (dst : Reg) (src : AddrInt) : S → S :=
  xfer (r8lTag dst) (m8Tag src)
def m2rXferOpw (dst : Reg) (src : AddrInt) : S → S :=
  xfer (r16Tag dst) (m16Tag src)
def m2rXferOpl (dst : Reg) (src : AddrInt) : S → S :=
  xfer (r32Tag dst) (m32Tag src)
def m2rXferOpq (dst : Reg) (src : AddrInt) : S → S :=
  xfer (r64Tag dst) (m64Tag src)

def r2mXferOpbU (dst : AddrInt) (src : Reg) : S → S :=
  xfer (m8Tag dst) (r8hTag src)
def r2mXferOpbL (dst : AddrInt) (src : Reg) : S → S :=
  xfer (m8Tag dst) (r8lTag src)
def r2mXferOpw (dst : AddrInt) (src : Reg) : S → S :=
  xfer (m16Tag dst) (r16Tag src)
def r2mXferOpl (dst : AddrInt) (src : Reg) : S → S :=
  xfer (m32Tag dst) (r32Tag src)
def r2mXferOpq (dst : AddrInt) (src : Reg) : S → S :=
  xfer (m64Tag dst) (r64Tag src)

def m2mXferOpb (dst src : AddrInt) : S → S := xfer (m8Tag dst) (m8Tag src)
def m2mXferOpw (dst src : AddrInt) : S → S := xfer (m16Tag dst) (m16Tag src)
def m2mXferOpl (dst src : AddrInt) : S → S := xfer (m32Tag dst) (m32Tag src)
def m2mXferOpq (dst src : AddrInt) : S → S := xfer (m64Tag dst) (m64Tag src)

/-- The destination keeps its tags and joins those of the source. -/
def r2rBinaryOpbUl (dst src : Reg) : S → S :=
  combineInto (r8hTag dst) (r8hTag dst) (r8lTag src)
def r2rBinaryOpbLu (dst src : Reg) : S → S :=
  combineInto (r8lTag dst) (r8lTag dst) (r8hTag src)
def r2rBinaryOpbU (dst src : Reg) : S → S :=
  combineInto (r8hTag dst) (r8hTag dst) (r8hTag src)
def r2rBinaryOpbL (dst src : Reg) : S → S :=
  combineInto (r8lTag dst) (r8lTag dst) (r8lTag src)
def r2rBinaryOpw (dst src : Reg) : S → S :=
  combineInto (r16Tag dst) (r16Tag dst) (r16Tag src)
def r2rBinaryOpl (dst src : Reg) : S → S :=
  combineInto (r32Tag dst) (r32Tag dst) (r32Tag src)
def r2rBinaryOpq (dst src : Reg) : S → S :=
  combineInto (r64Tag dst) (r64Tag dst) (r64Tag src)

def m2rBinaryOpbU (dst : Reg) (src : AddrInt) : S → S :=
  combineInto (r8hTag dst) (m8Tag src) (r8hTag dst)
def m2rBinaryOpbL (dst : Reg) (src : AddrInt) : S → S :=
  combineInto (r8lTag dst) (m8Tag src) (r8lTag dst)
def m2rBinaryOpw (dst : Reg) (src : AddrInt) : S → S :=
  combineInto (r16Tag dst) (m16Tag src) (r16Tag dst)
def m2rBinaryOpl (dst : Reg) (src : AddrInt) : S → S :=
  combineInto (r32Tag dst) (m32Tag src) (r32Tag dst)
def m2rBinaryOpq (dst : Reg) (src : AddrInt) : S → S :=
  combineInto (r64Tag dst) (m64Tag src) (r64Tag dst)

def r2mBinaryOpbU (dst : AddrInt) (src : Reg) : S → S :=
  combineInto (m8Tag dst) (m8Tag dst) (r8hTag src)
def r2mBinaryOpbL (dst : AddrInt) (src : Reg) : S → S :=
  combineInto (m8Tag dst) (m8Tag dst) (r8lTag src)
def r2mBinaryOpw (dst : AddrInt) (src : Reg) : S → S :=
  combineInto (m16Tag dst) (m16Tag dst) (r16Tag src)
def r2mBinaryOpl (dst : AddrInt) (src : Reg) : S → S :=
  combineInto (m32Tag dst) (m32Tag dst) (r32Tag src)
def r2mBinaryOpq (dst : AddrInt) (src : Reg) : S → S :=
  combineInto (m64Tag dst) (m64Tag dst) (r64Tag src)

def rClrq (reg : Reg) : S → S := clr (r64Tag reg)
def rClrl (reg : Reg) : S → S := clr (r32Tag reg)
def rClrw (reg : Reg) : S → S := clr (r16Tag reg)
def rClrbU (reg : Reg) : S → S := clr (r8hTag reg)
def rClrbL (reg : Reg) : S → S := clr (r8lTag reg)
/-- Clears `EBX`, `EDX`, `ECX` and `EAX`. -/
def rClrl4 : S → S :=
  clr (r64Tag gprEbx ++ r64Tag gprEdx ++ r64Tag gprEcx ++ r64Tag gprEax)
def rClrl2 : S → S := clr (r64Tag gprEdx ++ r64Tag gprEax)
def mClrn (addr : AddrInt) (n : BitVec 32) : S → S :=
  clr ((List.range n.toNat).map fun i ↦ .mem (addr + BitVec.ofNat 64 i))

/-- The bytes above the source operand are cleared. -/
def movzxR2rOpwbU (dst src : Reg) : S → S := extend (r16Tag dst) (r8hTag src)
def movzxR2rOpwbL (dst src : Reg) : S → S := extend (r16Tag dst) (r8lTag src)
def movzxR2rOplbU (dst src : Reg) : S → S := extend (r32Tag dst) (r8hTag src)
def movzxR2rOplbL (dst src : Reg) : S → S := extend (r32Tag dst) (r8lTag src)
def movzxR2rOplw (dst src : Reg) : S → S := extend (r32Tag dst) (r16Tag src)
def movzxR2rOpqbU (dst src : Reg) : S → S := extend (r64Tag dst) (r8hTag src)
def movzxR2rOpqbL (dst src : Reg) : S → S := extend (r64Tag dst) (r8lTag src)
def movzxR2rOpqw (dst src : Reg) : S → S := extend (r64Tag dst) (r16Tag src)

def movzxM2rOpwb (dst : Reg) (src : AddrInt) : S → S :=
  extend (r16Tag dst) (m8Tag src)
def movzxM2rOplb (dst : Reg) (src : AddrInt) : S → S :=
  extend (r32Tag dst) (m8Tag src)
def movzxM2rOplw (dst : Reg) (src : AddrInt) : S → S :=
  extend (r32Tag dst) (m16Tag src)
def movzxM2rOpqb (dst : Reg) (src : AddrInt) : S → S :=
  extend (r64Tag dst) (m8Tag src)
def movzxM2rOpqw (dst : Reg) (src : AddrInt) : S → S :=
  extend (r64Tag dst) (m16Tag src)

/-- Clears like the extension with zeros, although these bytes copy the sign. -/
def movsxR2rOpwbU (dst src : Reg) : S → S := extend (r16Tag dst) (r8hTag src)
def movsxR2rOpwbL (dst src : Reg) : S → S := extend (r16Tag dst) (r8lTag src)
def movsxR2rOplbU (dst src : Reg) : S → S := extend (r32Tag dst) (r8hTag src)
def movsxR2rOplbL (dst src : Reg) : S → S := extend (r32Tag dst) (r8lTag src)
def movsxR2rOplw (dst src : Reg) : S → S := extend (r32Tag dst) (r16Tag src)
def movsxR2rOpqbU (dst src : Reg) : S → S := extend (r64Tag dst) (r8hTag src)
def movsxR2rOpqbL (dst src : Reg) : S → S := extend (r64Tag dst) (r8lTag src)
def movsxR2rOpqw (dst src : Reg) : S → S := extend (r64Tag dst) (r16Tag src)
def movsxdR2rOpql (dst src : Reg) : S → S := extend (r64Tag dst) (r32Tag src)

def movsxM2rOpwb (dst : Reg) (src : AddrInt) : S → S :=
  extend (r16Tag dst) (m8Tag src)
def movsxM2rOplb (dst : Reg) (src : AddrInt) : S → S :=
  extend (r32Tag dst) (m8Tag src)
def movsxM2rOplw (dst : Reg) (src : AddrInt) : S → S :=
  extend (r32Tag dst) (m16Tag src)
def movsxM2rOpqb (dst : Reg) (src : AddrInt) : S → S :=
  extend (r64Tag dst) (m8Tag src)
def movsxM2rOpqw (dst : Reg) (src : AddrInt) : S → S :=
  extend (r64Tag dst) (m16Tag src)
def movsxdM2rOpql (dst : Reg) (src : AddrInt) : S → S :=
  extend (r64Tag dst) (m32Tag src)

/-- Clears bytes 2 and 3 of `EAX`, which the header of the handler fills from `AX`. -/
def cwde : S → S := clr [.reg gprEax 2, .reg gprEax 3]

def cdqe : S → S :=
  clr [.reg gprEax 4, .reg gprEax 5, .reg gprEax 6, .reg gprEax 7]

def xchgR2rOpbUl (dst src : Reg) : S → S := xchg (r8hTag dst) (r8lTag src)
def xchgR2rOpbLu (dst src : Reg) : S → S := xchg (r8lTag dst) (r8hTag src)
def xchgR2rOpbU (dst src : Reg) : S → S := xchg (r8hTag dst) (r8hTag src)
def xchgR2rOpbL (dst src : Reg) : S → S := xchg (r8lTag dst) (r8lTag src)
def xchgR2rOpw (dst src : Reg) : S → S := xchg (r16Tag dst) (r16Tag src)
def xchgR2rOpl (dst src : Reg) : S → S := xchg (r32Tag dst) (r32Tag src)
def xchgR2rOpq (dst src : Reg) : S → S := xchg (r64Tag dst) (r64Tag src)

def xchgM2rOpbU (dst : Reg) (src : AddrInt) : S → S :=
  xchg (r8hTag dst) (m8Tag src)
def xchgM2rOpbL (dst : Reg) (src : AddrInt) : S → S :=
  xchg (r8lTag dst) (m8Tag src)
def xchgM2rOpw (dst : Reg) (src : AddrInt) : S → S :=
  xchg (r16Tag dst) (m16Tag src)
def xchgM2rOpl (dst : Reg) (src : AddrInt) : S → S :=
  xchg (r32Tag dst) (m32Tag src)
def xchgM2rOpq (dst : Reg) (src : AddrInt) : S → S :=
  xchg (r64Tag dst) (m64Tag src)

/-- The destination takes the union and the source the destination's old tags. -/
def xaddR2rOpbUl (dst src : Reg) : S → S := xadd (r8hTag dst) (r8lTag src)
def xaddR2rOpbLu (dst src : Reg) : S → S := xadd (r8lTag dst) (r8hTag src)
def xaddR2rOpbU (dst src : Reg) : S → S := xadd (r8hTag dst) (r8hTag src)
def xaddR2rOpbL (dst src : Reg) : S → S := xadd (r8lTag dst) (r8lTag src)
def xaddR2rOpw (dst src : Reg) : S → S := xadd (r16Tag dst) (r16Tag src)
def xaddR2rOpl (dst src : Reg) : S → S := xadd (r32Tag dst) (r32Tag src)
def xaddR2rOpq (dst src : Reg) : S → S := xadd (r64Tag dst) (r64Tag src)

def xaddR2mOpbU (src : Reg) (dst : AddrInt) : S → S :=
  xaddMem (r8hTag src) (m8Tag dst)
def xaddR2mOpbL (src : Reg) (dst : AddrInt) : S → S :=
  xaddMem (r8lTag src) (m8Tag dst)
def xaddR2mOpw (src : Reg) (dst : AddrInt) : S → S :=
  xaddMem (r16Tag src) (m16Tag dst)
def xaddR2mOpl (src : Reg) (dst : AddrInt) : S → S :=
  xaddMem (r32Tag src) (m32Tag dst)
def xaddR2mOpq (src : Reg) (dst : AddrInt) : S → S :=
  xaddMem (r64Tag src) (m64Tag dst)

def leaR2rOpw (dst base index : Reg) : S → S :=
  combineInto (r16Tag dst) (r16Tag base) (r16Tag index)
def leaR2rOpl (dst base index : Reg) : S → S :=
  combineInto (r32Tag dst) (r32Tag base) (r32Tag index)
def leaR2rOpq (dst base index : Reg) : S → S :=
  combineInto (r64Tag dst) (r64Tag base) (r64Tag index)

def r2rTernaryOpbU (src : Reg) : S → S := ternaryByte (r8hTag src)
def r2rTernaryOpbL (src : Reg) : S → S := ternaryByte (r8lTag src)
def r2rTernaryOpw (src : Reg) : S → S := ternary r16Tag (r16Tag src)
def r2rTernaryOpl (src : Reg) : S → S := ternary r32Tag (r32Tag src)
def r2rTernaryOpq (src : Reg) : S → S := ternary r64Tag (r64Tag src)
def m2rTernaryOpb (src : AddrInt) : S → S := ternaryByte (m8Tag src)
def m2rTernaryOpw (src : AddrInt) : S → S := ternary r16Tag (m16Tag src)
def m2rTernaryOpl (src : AddrInt) : S → S := ternary r32Tag (m32Tag src)
def m2rTernaryOpq (src : AddrInt) : S → S := ternary r64Tag (m64Tag src)

/-- The fast paths also return whether the two values are equal. -/
def cmpxchgR2rOpqFast (dstVal : AddrInt) (src : Reg) (srcVal : AddrInt) (s : S) : S × Bool :=
  (cmpxchgFast r64Tag (r64Tag src) s, dstVal == srcVal)

def cmpxchgR2rOpqSlow (dst src : Reg) : S → S :=
  cmpxchgSlow r64Tag (r64Tag dst) (r64Tag src)

def cmpxchgR2rOplFast (dstVal : AddrInt) (src : Reg) (srcVal : AddrInt) (s : S) : S × Bool :=
  (cmpxchgFast r32Tag (r32Tag src) s, dstVal == srcVal)

def cmpxchgR2rOplSlow (dst src : Reg) : S → S :=
  cmpxchgSlow r32Tag (r32Tag dst) (r32Tag src)

def cmpxchgR2rOpwFast (dstVal : AddrInt) (src : Reg) (srcVal : AddrInt) (s : S) : S × Bool :=
  (cmpxchgFast r16Tag (r16Tag src) s, dstVal == srcVal)

def cmpxchgR2rOpwSlow (dst src : Reg) : S → S :=
  cmpxchgSlow r16Tag (r16Tag dst) (r16Tag src)

def cmpxchgM2rOpqFast (dstVal src : AddrInt) (mem : BitVec 64) (s : S) : S × Bool :=
  (cmpxchgFast r64Tag (m64Tag src) s, dstVal == mem)

def cmpxchgR2mOpqSlow (dst : AddrInt) (src : Reg) : S → S :=
  cmpxchgSlow r64Tag (m64Tag dst) (r64Tag src)

def cmpxchgM2rOplFast (dstVal src : AddrInt) (mem : BitVec 32) (s : S) : S × Bool :=
  (cmpxchgFast r32Tag (m32Tag src) s, dstVal.setWidth 32 == mem)

def cmpxchgR2mOplSlow (dst : AddrInt) (src : Reg) : S → S :=
  cmpxchgSlow r32Tag (m32Tag dst) (r32Tag src)

def cmpxchgM2rOpwFast (dstVal src : AddrInt) (mem : BitVec 16) (s : S) : S × Bool :=
  (cmpxchgFast r16Tag (m16Tag src) s, dstVal.setWidth 16 == mem)

def cmpxchgR2mOpwSlow (dst : AddrInt) (src : Reg) : S → S :=
  cmpxchgSlow r16Tag (m16Tag dst) (r16Tag src)

/-- The repeated stores take `df` for `EFLAGS_DF(eflags) != 0`. -/
def r2mXferOpbn (dst count : AddrInt) (df : Bool) : S → S :=
  fill (repAddr dst count df) count.toNat (r8lTag gprEax)

def r2mXferOpwn (dst count : AddrInt) (df : Bool) : S → S :=
  fill (repAddr dst (count <<< 1) df) (count <<< 1).toNat (r16Tag gprEax)

def r2mXferOpln (dst count : AddrInt) (df : Bool) : S → S :=
  fill (repAddr dst (count <<< 2) df) (count <<< 2).toNat (r32Tag gprEax)

def r2mXferOpqn (dst count : AddrInt) (df : Bool) : S → S :=
  fill (repAddr dst (count <<< 3) df) (count <<< 3).toNat (r64Tag gprEax)

/-- The bit scans from a register write back to their source. -/
def r2rBitscanOpq (_dst src : Reg) : S → S := xfer (r64Tag src) (r64Tag src)
def r2rBitscanOpl (_dst src : Reg) : S → S := xfer (r32Tag src) (r32Tag src)
def r2rBitscanOpw (_dst src : Reg) : S → S := xfer (r16Tag src) (r16Tag src)

/-- The registers of `POPA` and the slot each one has from `addr` on; `ESP` has none. -/
def slots (regs : List Reg) (size : ℕ) (addr : AddrInt) : List (Reg × AddrInt) :=
  (regs.filter fun r ↦ decide (r ≠ gprEsp)).map fun r ↦
    (r, addr + BitVec.ofNat 64 (size * if r < gprEsp then r.val else r.val - 1))

def restored : List Reg := [0, 1, 2, 3, 4, 5, 6, 7]

/-- `PUSHA` is modelled by a loop up to the scratch register. -/
def saved : List Reg := [0, 1, 2, 3, 4, 5, 6, 7, 8, 9, 10, 11, 12, 13, 14, 15]

def m2rRestoreOpw (src : AddrInt) (s : S) : S :=
  (slots restored 2 src).foldl (fun s slot ↦ xfer (r16Tag slot.1) (m16Tag slot.2) s) s

def m2rRestoreOpl (src : AddrInt) (s : S) : S :=
  (slots restored 4 src).foldl (fun s slot ↦ xfer (r32Tag slot.1) (m32Tag slot.2) s) s

def r2mSaveOpw (dst : AddrInt) (s : S) : S :=
  (slots saved 2 dst).foldl (fun s slot ↦ xfer (m16Tag slot.2) (r16Tag slot.1) s) s

def r2mSaveOpl (dst : AddrInt) (s : S) : S :=
  (slots saved 4 dst).foldl (fun s slot ↦ xfer (m32Tag slot.2) (r32Tag slot.1) s) s

end TheiaTaint.Engine.Custom
