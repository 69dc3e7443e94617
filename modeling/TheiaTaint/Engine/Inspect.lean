import Mathlib
import TheiaTaint.Engine.CompareExchange
import TheiaTaint.Engine.Exchange
import TheiaTaint.Engine.SignExtension

namespace TheiaTaint.Engine

open Foundations.Moves Foundations.Assign Tags.Directory ZeroExtension

/-- `MEM_BYTE_LEN` to `MEM_QUAD_LEN`. -/
inductive MemLen
  | byte
  | word
  | long
  | quad

def MemLen.bytes : MemLen → ℕ
  | .byte => 1
  | .word => 2
  | .long => 4
  | .quad => 8

section TagmapClr

variable {T : Type*} [SemilatticeSup T] [OrderBot T]

def tagmapClrb (addr : AddrInt) (s : TagState T) : TagState T := s.set (.mem addr) clearedVal

def tagmapClrw (addr : AddrInt) (s : TagState T) : TagState T :=
  tagmapClrb (addr + 1) (tagmapClrb addr s)

def tagmapClrl (addr : AddrInt) (s : TagState T) : TagState T :=
  tagmapClrw (addr + 2) (tagmapClrw addr s)

def tagmapClrq (addr : AddrInt) (s : TagState T) : TagState T :=
  tagmapClrl (addr + 4) (tagmapClrl addr s)

end TagmapClr

inductive InsertedCall
  | handler (h : Handler)
  | tagmapClr (len : MemLen) (addr : AddrInt)

def InsertedCall.run {T : Type*} [SemilatticeSup T] [OrderBot T] :
    InsertedCall → TagState T → TagState T
  | .handler h => h.run
  | .tagmapClr .byte addr => tagmapClrb addr
  | .tagmapClr .word addr => tagmapClrw addr
  | .tagmapClr .long addr => tagmapClrl addr
  | .tagmapClr .quad addr => tagmapClrq addr

section Ladders

variable (q l w u b : Reg → Handler)

def ladder (reg : PinReg) : Handler :=
  if reg.isGr64 then q reg.reg64Indx
  else if reg.isGr32 then l reg.reg32Indx
  else if reg.isGr16 then w reg.reg16Indx
  else if reg.isUpper8 then u reg.reg8Indx
  else b reg.reg8Indx

/-- For instructions without a byte form. -/
def wideLadder (reg : PinReg) : Handler :=
  if reg.isGr64 then q reg.reg64Indx
  else if reg.isGr32 then l reg.reg32Indx
  else w reg.reg16Indx

/-- The order of the tests for `SMSW`, `STR` and `LAR`. -/
def systemLadder (reg : PinReg) : Handler :=
  if reg.isGr16 then w reg.reg16Indx
  else if reg.isGr32 then l reg.reg32Indx
  else q reg.reg64Indx

def wideR2r (narrow : RrForm → Reg → Reg → Instr) (long : Reg → Reg → Instr32)
    (dst src : PinReg) : Handler :=
  if dst.isGr64 then .narrow (narrow .opq dst.reg64Indx src.reg64Indx)
  else if dst.isGr32 then .long (long dst.reg32Indx src.reg32Indx)
  else .narrow (narrow .opw dst.reg16Indx src.reg16Indx)

end Ladders

def inspectClr : PinReg → Handler :=
  ladder (fun r ↦ .narrow (.rClr .opq r)) (fun r ↦ .long (.rClrl r))
    (fun r ↦ .narrow (.rClr .opw r)) (fun r ↦ .narrow (.rClr .opbU r))
    fun r ↦ .narrow (.rClr .opbL r)

def inspectClrSystem : PinReg → Handler :=
  systemLadder (fun r ↦ .narrow (.rClr .opq r)) (fun r ↦ .long (.rClrl r))
    fun r ↦ .narrow (.rClr .opw r)

def inspectR2mXfer (dst : AddrInt) : PinReg → Handler :=
  ladder (fun r ↦ .narrow (.r2mXfer .opq dst r)) (fun r ↦ .r2mXferOpl dst r)
    (fun r ↦ .narrow (.r2mXfer .opw dst r)) (fun r ↦ .narrow (.r2mXfer .opbU dst r))
    fun r ↦ .narrow (.r2mXfer .opbL dst r)

def inspectR2mBinary (dst : AddrInt) : PinReg → Handler :=
  ladder (fun r ↦ .narrow (.r2mBinary .opq dst r)) (fun r ↦ .r2mBinaryOpl dst r)
    (fun r ↦ .narrow (.r2mBinary .opw dst r)) (fun r ↦ .narrow (.r2mBinary .opbU dst r))
    fun r ↦ .narrow (.r2mBinary .opbL dst r)

/-- `PUSH` of a register. -/
def inspectPush (dst : AddrInt) : PinReg → Handler :=
  wideLadder (fun r ↦ .narrow (.r2mXfer .opq dst r)) (fun r ↦ .r2mXferOpl dst r)
    fun r ↦ .narrow (.r2mXfer .opw dst r)

/-- `POP` into a register, and `CMOVcc` from memory. -/
def inspectLoad (src : AddrInt) : PinReg → Handler :=
  wideLadder (fun r ↦ .narrow (.m2rXfer .opq r src)) (fun r ↦ .long (.m2rXferOpl r src))
    fun r ↦ .narrow (.m2rXfer .opw r src)

def inspectImulMem (src : AddrInt) : PinReg → Handler :=
  wideLadder (fun r ↦ .narrow (.m2rBinary .opq r src)) (fun r ↦ .long (.m2rBinaryOpl r src))
    fun r ↦ .narrow (.m2rBinary .opw r src)

inductive AluOp
  | adc
  | add
  | and
  | or
  | xor
  | sbb
  | sub

/-- The operations that clear a register when it is both operands. -/
def AluOp.clears : AluOp → Bool
  | .xor | .sub | .sbb => true
  | .adc | .add | .and | .or => false

def inspectAlu (op : AluOp) (dst src : PinReg) : Handler :=
  if dst.isGr64 then
    if op.clears ∧ dst = src then .narrow (.rClr .opq dst.reg64Indx)
    else .narrow (.r2rBinary .opq dst.reg64Indx src.reg64Indx)
  else if dst.isGr32 then
    if op.clears ∧ dst = src then .long (.rClrl dst.reg32Indx)
    else .long (.r2rBinaryOpl dst.reg32Indx src.reg32Indx)
  else if dst.isGr16 then
    if op.clears ∧ dst = src then .narrow (.rClr .opw dst.reg16Indx)
    else .narrow (.r2rBinary .opw dst.reg16Indx src.reg16Indx)
  else if op.clears ∧ dst = src then
    if dst.isUpper8 then .narrow (.rClr .opbU dst.reg8Indx)
    else .narrow (.rClr .opbL dst.reg8Indx)
  else if dst.isLower8 ∧ src.isLower8 then
    .narrow (.r2rBinary .opbL dst.reg8Indx src.reg8Indx)
  else if dst.isUpper8 ∧ src.isUpper8 then
    .narrow (.r2rBinary .opbU dst.reg8Indx src.reg8Indx)
  else if dst.isLower8 then
    .narrow (.r2rBinary .opbLu dst.reg8Indx src.reg8Indx)
  else
    .narrow (.r2rBinary .opbUl dst.reg8Indx src.reg8Indx)

def inspectMovzx (dst src : PinReg) : Handler :=
  if dst.isGr16 then
    if src.isUpper8 then .narrow (.movzxR2r .opwbU dst.reg16Indx src.reg8Indx)
    else .narrow (.movzxR2r .opwbL dst.reg16Indx src.reg8Indx)
  else if dst.isGr32 then
    if src.isGr16 then .long (.movzxR2rOplw dst.reg32Indx src.reg16Indx)
    else if src.isUpper8 then .long (.movzxR2rOplbU dst.reg32Indx src.reg8Indx)
    else .long (.movzxR2rOplbL dst.reg32Indx src.reg8Indx)
  else
    if src.isGr16 then .narrow (.movzxR2r .opqw dst.reg64Indx src.reg16Indx)
    else if src.isUpper8 then .narrow (.movzxR2r .opqbU dst.reg64Indx src.reg8Indx)
    else .narrow (.movzxR2r .opqbL dst.reg64Indx src.reg8Indx)

def inspectMovzxMem (readSize : ℕ) (dst : PinReg) (src : AddrInt) : Handler :=
  if dst.isGr16 then .narrow (.movzxM2r .opwb dst.reg16Indx src)
  else if dst.isGr32 then
    if readSize = 2 then .long (.movzxM2rOplw dst.reg32Indx src)
    else .long (.movzxM2rOplb dst.reg32Indx src)
  else
    if readSize = 2 then .narrow (.movzxM2r .opqw dst.reg64Indx src)
    else .narrow (.movzxM2r .opqb dst.reg64Indx src)

/-- The second `if` of `LEAVE` does not follow an `else`. -/
def inspectLeave (regDst regSrc : PinReg) (addr : AddrInt) : List Handler :=
  let quad : List Handler :=
    if regDst.isGr64 then
      [.narrow (.r2rXfer .opq regDst.reg64Indx regSrc.reg64Indx),
        .narrow (.m2rXfer .opq regSrc.reg64Indx addr)]
    else []
  let longOrWord : List Handler :=
    if regDst.isGr32 then
      [.long (.r2rXferOpl regDst.reg32Indx regSrc.reg32Indx),
        .long (.m2rXferOpl regSrc.reg32Indx addr)]
    else
      [.narrow (.r2rXfer .opw regDst.reg16Indx regSrc.reg16Indx),
        .narrow (.m2rXfer .opw regSrc.reg16Indx addr)]
  quad ++ longOrWord

def PinReg.isGr (reg : PinReg) : Bool := reg.isGr64 || reg.isGr32 || reg.isGr16 || reg.isGr8

/-- The default case: `vectorReads` says of each register that is read whether it is one
of the vector registers. -/
def inspectSse (vectorReads : List Bool) (memWrite : Option (AddrInt × BitVec 32))
    (regWrites : List PinReg) : List InsertedCall :=
  if vectorReads.any id then
    (memWrite.toList.map fun m ↦ .handler (.mClrn m.1 m.2)) ++
      (regWrites.filter PinReg.isGr).map fun reg ↦ .handler (inspectClr reg)
  else []

end TheiaTaint.Engine
