import Mathlib
import TheiaTaint.Engine.Inspect
import TheiaTaint.Engine.Registers

namespace TheiaTaint.Engine

open Foundations.History Foundations.Moves Foundations.Assign Tags.Directory ZeroExtension

/-- The instructions whose calls carry out the rule that stands beside them in the
source, with the addresses and the outcome of the test that they are executed with. -/
inductive Ins
  | alu (op : AluOp) (ops : TwoOperands)
  | aluImm (op : AluOp)
  | mov (ops : TwoOperands)
  | movImmReg (dst : PinReg) (hdst : dst.General)
  | movImmMem (len : MemLen) (dst : AddrInt)
  | cmovR2r (taken : Bool) (dst src : PinReg) (hdst : 2 ≤ dst.size) (hsize : src.size = dst.size)
  | cmovM2r (taken : Bool) (dst : PinReg) (hdst : 2 ≤ dst.size) (src : AddrInt)
  | cbw
  | cwd
  | cdq
  | cqo
  | movzxR2r (dst src : PinReg) (hsrc : src.size = 1 ∨ src.size = 2) (hsize : src.size < dst.size)
  | movzxM2r (dst : PinReg) (readSize : ℕ) (hread : readSize = 1 ∨ readSize = 2)
      (hsize : readSize < dst.size) (src : AddrInt)
  | imulR2r (dst src : PinReg) (hdst : 2 ≤ dst.size) (hsize : src.size = dst.size)
  | imulM2r (dst : PinReg) (hdst : 2 ≤ dst.size) (src : AddrInt)
  | setccReg (dst : PinReg) (hdst : dst.size = 1)
  | setccMem (dst : AddrInt)
  | stmxcsr (dst : AddrInt)
  | smswReg (dst : PinReg) (hdst : 2 ≤ dst.size)
  | smswMem (dst : AddrInt)
  | lar (dst : PinReg) (hdst : 2 ≤ dst.size)
  | rdtsc
  | cpuid
  | lahf
  | cmpxchg (v : Values) (ops : Operands)
  | xchg (ops : TwoOperands)
  | xadd (x : Xadd)
  | xlat (src : AddrInt)
  | lods (len : MemLen) (taken : Bool) (src : AddrInt)
  | stos (len : MemLen) (dst : AddrInt)
  | movs (len : MemLen) (taken : Bool) (dst src : AddrInt)
  | salc
  | popReg (dst : PinReg) (hdst : 2 ≤ dst.size) (src : AddrInt)
  | pushReg (src : PinReg) (hsrc : 2 ≤ src.size) (dst : AddrInt)
  | stackMem (len : MemLen) (hlen : 2 ≤ len.bytes) (dst src : AddrInt)
  | pushImm (len : MemLen) (dst : AddrInt)
  | pushf (len : MemLen) (hlen : 2 ≤ len.bytes) (dst : AddrInt)
  | call (len : MemLen) (hlen : 2 ≤ len.bytes) (dst : AddrInt)
  | leave (len : MemLen) (hlen : 2 ≤ len.bytes) (src : AddrInt)
  | sse (vectorReads : List Bool) (memWrite : Option (AddrInt × BitVec 32))
      (regWrites : List PinReg)

namespace PinReg

def dx : PinReg := .gr16 5
def edx : PinReg := .gr32 5
def rdx : PinReg := .gr64 5

/-- The stack pointer at a width. -/
def sp : MemLen → PinReg
  | .quad => .gr64 3
  | .long => .gr32 3
  | .word | .byte => .gr16 3

def bp : MemLen → PinReg
  | .quad => .gr64 2
  | .long => .gr32 2
  | .word | .byte => .gr16 2

/-- `AL` to `RAX`. -/
def accumulatorOf : MemLen → PinReg
  | .quad => rax
  | .long => eax
  | .word => ax
  | .byte => al

end PinReg

/-- The copy between two places in memory, for `MOVS` and for the stack. -/
def inspectM2m (len : MemLen) (dst src : AddrInt) : Handler :=
  match len with
  | .quad => .narrow (.m2mXfer .opq dst src)
  | .long => .m2mXferOpl dst src
  | .word => .narrow (.m2mXfer .opw dst src)
  | .byte => .narrow (.m2mXfer .opb dst src)

def inspectLods (len : MemLen) (src : AddrInt) : Handler :=
  match len with
  | .quad => .narrow (.m2rXfer .opq PinReg.rax.reg64Indx src)
  | .long => .long (.m2rXferOpl PinReg.eax.reg32Indx src)
  | .word => .narrow (.m2rXfer .opw PinReg.ax.reg16Indx src)
  | .byte => .narrow (.m2rXfer .opbL PinReg.al.reg8Indx src)

/-- `STOS` without a `REP` prefix. -/
def inspectStos (len : MemLen) (dst : AddrInt) : Handler :=
  match len with
  | .quad => .narrow (.r2mXfer .opq dst PinReg.rax.reg64Indx)
  | .long => .r2mXferOpl dst PinReg.eax.reg32Indx
  | .word => .narrow (.r2mXfer .opw dst PinReg.ax.reg16Indx)
  | .byte => .narrow (.r2mXfer .opbL dst PinReg.al.reg8Indx)

namespace Ins

/-- The calls that run before the instruction; a predicated one runs when the
instruction does something. -/
def calls : Ins → List InsertedCall
  | .alu op (.rm (.r2r dst src _ _)) => [.handler (inspectAlu op dst src)]
  | .alu _ (.rm (.r2m dst src _)) => [.handler (inspectR2mBinary dst src)]
  | .alu _ (.m2r dst _ src) => [.handler (inspectMem .m2rBinary .m2rBinaryOpl dst src)]
  | .aluImm _ => []
  | .mov (.rm (.r2r dst src _ _)) => (inspectR2r .r2rXfer .r2rXferOpl dst src).toList.map .handler
  | .mov (.rm (.r2m dst src _)) => [.handler (inspectR2mXfer dst src)]
  | .mov (.m2r dst _ src) => [.handler (inspectMem .m2rXfer .m2rXferOpl dst src)]
  | .movImmReg dst _ => [.handler (inspectClr dst)]
  | .movImmMem len dst => [.tagmapClr len dst]
  | .cmovR2r taken dst src _ _ =>
    if taken then [.handler (wideR2r .r2rXfer .r2rXferOpl dst src)] else []
  | .cmovM2r taken dst _ src => if taken then [.handler (inspectLoad src dst)] else []
  | .cbw => [.handler (.narrow (.r2rXfer .opbUl PinReg.ah.reg8Indx PinReg.al.reg8Indx))]
  | .cwd => [.handler (.narrow (.r2rXfer .opw PinReg.dx.reg16Indx PinReg.ax.reg16Indx))]
  | .cdq => [.handler (.long (.r2rXferOpl PinReg.edx.reg32Indx PinReg.eax.reg32Indx))]
  | .cqo => [.handler (.narrow (.r2rXfer .opq PinReg.rdx.reg64Indx PinReg.rax.reg64Indx))]
  | .movzxR2r dst src _ _ => [.handler (inspectMovzx dst src)]
  | .movzxM2r dst readSize _ _ src => [.handler (inspectMovzxMem readSize dst src)]
  | .imulR2r dst src _ _ => [.handler (wideR2r .r2rBinary .r2rBinaryOpl dst src)]
  | .imulM2r dst _ src => [.handler (inspectImulMem src dst)]
  | .setccReg dst _ =>
    if dst.isUpper8 then [.handler (.narrow (.rClr .opbU dst.reg8Indx))]
    else [.handler (.narrow (.rClr .opbL dst.reg8Indx))]
  | .setccMem dst => [.tagmapClr .byte dst]
  | .stmxcsr dst => [.tagmapClr .long dst]
  | .smswReg dst _ => [.handler (inspectClrSystem dst)]
  | .smswMem dst => [.tagmapClr .word dst]
  | .lar dst _ => [.handler (inspectClrSystem dst)]
  | .rdtsc => [.handler .rClrl2]
  | .cpuid => [.handler .rClrl4]
  | .lahf => [.handler (.narrow (.rClr .opbU PinReg.ah.reg8Indx))]
  | .cmpxchg _ _ => [] -- an inserted condition, see `run`
  | .xchg ops => (inspectXchg ops).toList.map .handler
  | .xadd x => x.inspect.toList.map .handler
  | .xlat src => [.handler (.narrow (.m2rXfer .opbL PinReg.al.reg8Indx src))]
  | .lods len taken src => if taken then [.handler (inspectLods len src)] else []
  | .stos len dst => [.handler (inspectStos len dst)]
  | .movs len taken dst src => if taken then [.handler (inspectM2m len dst src)] else []
  | .salc => [.handler (.narrow (.rClr .opbL PinReg.al.reg8Indx))]
  | .popReg dst _ src => [.handler (inspectLoad src dst)]
  | .pushReg src _ dst => [.handler (inspectPush dst src)]
  | .stackMem len _ dst src => [.handler (inspectM2m len dst src)]
  | .pushImm len dst => [.tagmapClr len dst]
  | .pushf len _ dst => [.tagmapClr len dst]
  | .call len _ dst => [.tagmapClr len dst]
  | .leave len _ src => (inspectLeave (.sp len) (.bp len) src).map .handler
  | .sse vectorReads memWrite regWrites => inspectSse vectorReads memWrite regWrites

/-- The tags after the calls of the instruction. -/
def run {T : Type*} [SemilatticeSup T] [OrderBot T] : Ins → TagState T → TagState T
  | .cmpxchg v ops, s =>
    match inspectCmpxchg v ops with
    | some p => p.run s
    | none => s
  | i, s => i.calls.foldl (fun s c ↦ c.run s) s

end Ins

/-- Where the bytes of a destination take their tags from: nowhere, from the bytes of an
operand, or from those of two. -/
inductive Origin
  | clean
  | tags (f : Field)
  | both (f g : Field)
  | zeroExtended (f : Field)

abbrev Rule := List (Field × Origin)

section Rules

variable {T : Type*} [SemilatticeSup T] [OrderBot T]

def Origin.tag (s : TagState T) : Origin → ℕ → T
  | .clean, _ => clearedVal
  | .tags f, i => s.get (f.loc i)
  | .both f g, i => tagCombine (s.get (f.loc i)) (s.get (g.loc i))
  | .zeroExtended f, i => if i < f.size then s.get (f.loc i) else clearedVal

/-- All destinations take the tags that the operands had before. -/
def Rule.apply (r : Rule) (s : TagState T) : TagState T :=
  r.foldl (fun s' w ↦ s'.write w.1 (w.2.tag s)) s

end Rules

namespace Ins

def rule : Ins → Rule
  | .alu op (.rm (.r2r dst src _ _)) =>
    if op.clears ∧ dst = src then [(dst.field, .clean)]
    else [(dst.field, .both dst.field src.field)]
  | .alu _ (.rm (.r2m dst src _)) => [(.mem dst src.size, .both (.mem dst src.size) src.field)]
  | .alu _ (.m2r dst _ src) => [(dst.field, .both (.mem src dst.size) dst.field)]
  | .aluImm _ => []
  | .mov ops => [(ops.dst, .tags ops.src)]
  | .movImmReg dst _ => [(dst.field, .clean)]
  | .movImmMem len dst => [(.mem dst len.bytes, .clean)]
  | .cmovR2r taken dst src _ _ => if taken then [(dst.field, .tags src.field)] else []
  | .cmovM2r taken dst _ src => if taken then [(dst.field, .tags (.mem src dst.size))] else []
  | .cbw => [(PinReg.ah.field, .tags PinReg.al.field)]
  | .cwd => [(PinReg.dx.field, .tags PinReg.ax.field)]
  | .cdq => [(PinReg.edx.field, .tags PinReg.eax.field)]
  | .cqo => [(PinReg.rdx.field, .tags PinReg.rax.field)]
  | .movzxR2r dst src _ _ => [(dst.field, .zeroExtended src.field)]
  | .movzxM2r dst readSize _ _ src => [(dst.field, .zeroExtended (.mem src readSize))]
  | .imulR2r dst src _ _ => [(dst.field, .both dst.field src.field)]
  | .imulM2r dst _ src => [(dst.field, .both (.mem src dst.size) dst.field)]
  | .setccReg dst _ => [(dst.field, .clean)]
  | .setccMem dst => [(.mem dst 1, .clean)]
  | .stmxcsr dst => [(.mem dst 4, .clean)]
  | .smswReg dst _ => [(dst.field, .clean)]
  | .smswMem dst => [(.mem dst 2, .clean)]
  | .lar dst _ => [(dst.field, .clean)]
  | .rdtsc => [(.reg gprEdx 0 8, .clean), (.reg gprEax 0 8, .clean)]
  | .cpuid => [(.reg gprEbx 0 8, .clean), (.reg gprEdx 0 8, .clean), (.reg gprEcx 0 8, .clean),
      (.reg gprEax 0 8, .clean)]
  | .lahf => [(PinReg.ah.field, .clean)]
  | .cmpxchg v ops =>
    if ops.size = 1 then []
    else if ops.equal v then [(ops.dst, .tags ops.src)]
    else [(accField ops.size, .tags ops.dst)]
  | .xchg ops => [(ops.src, .tags ops.dst), (ops.dst, .tags ops.src)]
  | .xadd x => [(x.ops.dst, .both x.ops.dst x.ops.src), (x.ops.src, .tags x.ops.dst)]
  | .xlat src => [(PinReg.al.field, .tags (.mem src 1))]
  | .lods len taken src =>
    if taken then [((PinReg.accumulatorOf len).field, .tags (.mem src len.bytes))] else []
  | .stos len dst => [(.mem dst len.bytes, .tags (PinReg.accumulatorOf len).field)]
  | .movs len taken dst src =>
    if taken then [(.mem dst len.bytes, .tags (.mem src len.bytes))] else []
  | .salc => [(PinReg.al.field, .clean)]
  | .popReg dst _ src => [(dst.field, .tags (.mem src dst.size))]
  | .pushReg src _ dst => [(.mem dst src.size, .tags src.field)]
  | .stackMem len _ dst src => [(.mem dst len.bytes, .tags (.mem src len.bytes))]
  | .pushImm len dst => [(.mem dst len.bytes, .clean)]
  | .pushf len _ dst => [(.mem dst len.bytes, .clean)]
  | .call len _ dst => [(.mem dst len.bytes, .clean)]
  | .leave len _ src =>
    [((PinReg.sp len).field, .tags (PinReg.bp len).field),
      ((PinReg.bp len).field, .tags (.mem src len.bytes))]
  | .sse vectorReads memWrite regWrites =>
    if vectorReads.any id then
      (memWrite.toList.map fun m ↦ (.mem m.1 m.2.toNat, .clean)) ++
        (regWrites.filter PinReg.isGr).map fun reg ↦ (reg.field, .clean)
    else []

end Ins

section Programs

variable {q l w u b : Reg → Handler} {reg dst src : PinReg}

theorem ladder_program (P : Field → List (Block Loc)) (hq : ∀ r, (q r).program = P (.reg r 0 8))
    (hl : ∀ r, (l r).program = P (.reg r 0 4)) (hw : ∀ r, (w r).program = P (.reg r 0 2))
    (hu : ∀ r, (u r).program = P (.reg r 1 1)) (hb : ∀ r, (b r).program = P (.reg r 0 1))
    (hreg : reg.General) : (ladder q l w u b reg).program = P reg.field := by
  cases reg with
  | gr64 r =>
    refine (hq _).trans ?_
    rw [PinReg.reg64Indx_gr64]
    rfl
  | gr32 r => exact hl _
  | gr16 r => exact hw _
  | upper8 r => exact hu _
  | lower8 r => exact hb _
  | invalid | rip | ip | eip => exact absurd rfl hreg

theorem wideLadder_program (P : Field → List (Block Loc))
    (hq : ∀ r, (q r).program = P (.reg r 0 8)) (hl : ∀ r, (l r).program = P (.reg r 0 4))
    (hw : ∀ r, (w r).program = P (.reg r 0 2)) (hreg : 2 ≤ reg.size) :
    (wideLadder q l w reg).program = P reg.field := by
  cases reg with
  | gr64 r =>
    refine (hq _).trans ?_
    rw [PinReg.reg64Indx_gr64]
    rfl
  | gr32 r => exact hl _
  | gr16 r => exact hw _
  | upper8 r | lower8 r | invalid | rip | ip | eip =>
    exact absurd hreg (by simp [PinReg.size, PinReg.field, Field.size])

theorem systemLadder_program (P : Field → List (Block Loc))
    (hq : ∀ r, (q r).program = P (.reg r 0 8)) (hl : ∀ r, (l r).program = P (.reg r 0 4))
    (hw : ∀ r, (w r).program = P (.reg r 0 2)) (hreg : 2 ≤ reg.size) :
    (systemLadder q l w reg).program = P reg.field := by
  cases reg with
  | gr64 r =>
    refine (hq _).trans ?_
    rw [PinReg.reg64Indx_gr64]
    rfl
  | gr32 r => exact hl _
  | gr16 r => exact hw _
  | upper8 r | lower8 r | invalid | rip | ip | eip =>
    exact absurd hreg (by simp [PinReg.size, PinReg.field, Field.size])

theorem wideR2r_program (narrow : RrForm → Reg → Reg → Instr) (long : Reg → Reg → Instr32)
    (shape : List Loc → List Loc → List (Block Loc))
    (hnarrow : ∀ f dst src, (narrow f dst src).program = shape (f.dst dst).locs (f.src src).locs)
    (hlong : ∀ dst src, (long dst src).program = shape (r32Tag dst) (r32Tag src))
    (hdst : 2 ≤ dst.size) (hsize : src.size = dst.size) :
    (wideR2r narrow long dst src).program = shape dst.field.locs src.field.locs := by
  cases dst with
  | gr64 r =>
    obtain ⟨r', rfl⟩ := PinReg.eq_gr64 hsize
    refine (hnarrow _ _ _).trans ?_
    rw [PinReg.reg64Indx_gr64, PinReg.reg64Indx_gr64]
    rfl
  | gr32 r =>
    obtain ⟨r', rfl⟩ := PinReg.eq_gr32 hsize
    exact hlong _ _
  | gr16 r =>
    obtain ⟨r', rfl⟩ := PinReg.eq_gr16 hsize
    exact hnarrow _ _ _
  | upper8 r | lower8 r | invalid | rip | ip | eip =>
    exact absurd hdst (by simp [PinReg.size, PinReg.field, Field.size])

theorem inspectClr_program (hreg : reg.General) :
    (inspectClr reg).program = [Shape.clr reg.field.locs] :=
  ladder_program (fun f ↦ [Shape.clr f.locs]) (fun _ ↦ rfl) (fun _ ↦ rfl) (fun _ ↦ rfl)
    (fun _ ↦ rfl) (fun _ ↦ rfl) hreg

theorem inspectClrSystem_program (hreg : 2 ≤ reg.size) :
    (inspectClrSystem reg).program = [Shape.clr reg.field.locs] :=
  systemLadder_program (fun f ↦ [Shape.clr f.locs]) (fun _ ↦ rfl) (fun _ ↦ rfl) (fun _ ↦ rfl) hreg

theorem inspectR2mXfer_program (addr : AddrInt) (hreg : reg.General) :
    (inspectR2mXfer addr reg).program =
      [Shape.xfer (Field.mem addr reg.size).locs reg.field.locs] := by
  apply ladder_program (fun f ↦ [Shape.xfer (Field.mem addr f.size).locs f.locs]) _ _ _ _ _ hreg
  · exact fun _ ↦ rfl
  · intro r
    rw [Handler.program, m32Tag_eq]
    rfl
  · exact fun _ ↦ rfl
  · exact fun _ ↦ rfl
  · exact fun _ ↦ rfl

theorem inspectR2mBinary_program (addr : AddrInt) (hreg : reg.General) :
    (inspectR2mBinary addr reg).program =
      [Shape.combineInto (Field.mem addr reg.size).locs (Field.mem addr reg.size).locs
        reg.field.locs] := by
  apply ladder_program (fun f ↦ [Shape.combineInto (Field.mem addr f.size).locs
    (Field.mem addr f.size).locs f.locs]) _ _ _ _ _ hreg
  · exact fun _ ↦ rfl
  · intro r
    rw [Handler.program, m32Tag_eq]
    rfl
  · exact fun _ ↦ rfl
  · exact fun _ ↦ rfl
  · exact fun _ ↦ rfl

theorem inspectPush_program (addr : AddrInt) (hreg : 2 ≤ reg.size) :
    (inspectPush addr reg).program =
      [Shape.xfer (Field.mem addr reg.size).locs reg.field.locs] := by
  apply wideLadder_program (fun f ↦ [Shape.xfer (Field.mem addr f.size).locs f.locs]) _ _ _ hreg
  · exact fun _ ↦ rfl
  · intro r
    rw [Handler.program, m32Tag_eq]
    rfl
  · exact fun _ ↦ rfl

theorem inspectLoad_program (addr : AddrInt) (hreg : 2 ≤ reg.size) :
    (inspectLoad addr reg).program =
      [Shape.xfer reg.field.locs (Field.mem addr reg.size).locs] := by
  apply wideLadder_program (fun f ↦ [Shape.xfer f.locs (Field.mem addr f.size).locs]) _ _ _ hreg
  · exact fun _ ↦ rfl
  · intro r
    rw [Handler.program, Instr32.program, m32Tag_eq]
    rfl
  · exact fun _ ↦ rfl

theorem inspectImulMem_program (addr : AddrInt) (hreg : 2 ≤ reg.size) :
    (inspectImulMem addr reg).program =
      [Shape.combineInto reg.field.locs (Field.mem addr reg.size).locs reg.field.locs] := by
  apply wideLadder_program
    (fun f ↦ [Shape.combineInto f.locs (Field.mem addr f.size).locs f.locs]) _ _ _ hreg
  · exact fun _ ↦ rfl
  · intro r
    rw [Handler.program, Instr32.program, m32Tag_eq]
    rfl
  · exact fun _ ↦ rfl

theorem inspectAlu_program (op : AluOp) (hdst : dst.General) (hsize : src.size = dst.size) :
    (inspectAlu op dst src).program =
      if op.clears ∧ dst = src then [Shape.clr dst.field.locs]
      else [Shape.combineInto dst.field.locs dst.field.locs src.field.locs] := by
  by_cases hclear : op.clears ∧ dst = src
  · rw [if_pos hclear]
    obtain ⟨hop, rfl⟩ := hclear
    cases dst with
    | gr64 r =>
      simp only [inspectAlu, hop, PinReg.reg64Indx_gr64]
      rfl
    | gr32 r | gr16 r | lower8 r | upper8 r =>
      simp only [inspectAlu, hop]
      rfl
    | invalid | rip | ip | eip => exact absurd rfl hdst
  · rw [if_neg hclear]
    cases dst with
    | gr64 r =>
      obtain ⟨r', rfl⟩ := PinReg.eq_gr64 hsize
      simp only [inspectAlu, if_neg hclear, PinReg.reg64Indx_gr64]
      rfl
    | gr32 r =>
      obtain ⟨r', rfl⟩ := PinReg.eq_gr32 hsize
      simp only [inspectAlu, if_neg hclear]
      rfl
    | gr16 r =>
      obtain ⟨r', rfl⟩ := PinReg.eq_gr16 hsize
      simp only [inspectAlu, if_neg hclear]
      rfl
    | lower8 r | upper8 r =>
      obtain ⟨r', rfl⟩ | ⟨r', rfl⟩ := PinReg.eq_gr8 hsize
      all_goals
        simp only [inspectAlu, if_neg hclear]
        rfl
    | invalid | rip | ip | eip => exact absurd rfl hdst

theorem inspectMovzx_program (hsrc : src.size = 1 ∨ src.size = 2) (hsize : src.size < dst.size) :
    (inspectMovzx dst src).program = [Shape.extend dst.field.locs src.field.locs] := by
  cases dst with
  | gr16 r =>
    have hone : src.size = 1 := by
      have hlt : src.size < 2 := hsize
      omega
    obtain ⟨r', rfl⟩ | ⟨r', rfl⟩ := PinReg.eq_gr8 hone <;> rfl
  | gr32 r =>
    obtain hone | htwo := hsrc
    · obtain ⟨r', rfl⟩ | ⟨r', rfl⟩ := PinReg.eq_gr8 hone <;> rfl
    · obtain ⟨r', rfl⟩ := PinReg.eq_gr16 htwo
      rfl
  | gr64 r =>
    obtain hone | htwo := hsrc
    · obtain ⟨r', rfl⟩ | ⟨r', rfl⟩ := PinReg.eq_gr8 hone
      all_goals
        simp only [inspectMovzx, Handler.program, Instr.program, PinReg.reg64Indx_gr64]
        rfl
    · obtain ⟨r', rfl⟩ := PinReg.eq_gr16 htwo
      simp only [inspectMovzx, Handler.program, Instr.program, PinReg.reg64Indx_gr64]
      rfl
  | upper8 r | lower8 r | invalid | rip | ip | eip =>
    simp only [PinReg.size, PinReg.field, Field.size] at hsize hsrc
    omega

theorem inspectMovzxMem_program {readSize : ℕ} (hread : readSize = 1 ∨ readSize = 2)
    (hsize : readSize < dst.size) (addr : AddrInt) :
    (inspectMovzxMem readSize dst addr).program =
      [Shape.extend dst.field.locs (Field.mem addr readSize).locs] := by
  cases dst with
  | gr16 r =>
    obtain rfl : readSize = 1 := by
      have hlt : readSize < 2 := hsize
      omega
    rfl
  | gr32 r =>
    obtain rfl | rfl := hread
    · exact congrArg (fun ls ↦ [Shape.extend (r32Tag r.castSucc) ls]) (m8Tag_eq addr)
    · exact congrArg (fun ls ↦ [Shape.extend (r32Tag r.castSucc) ls]) (m16Tag_eq addr)
  | gr64 r =>
    obtain rfl | rfl := hread
    all_goals
      simp only [inspectMovzxMem, Handler.program, Instr.program, PinReg.reg64Indx_gr64]
      rfl
  | upper8 r | lower8 r | invalid | rip | ip | eip =>
    simp only [PinReg.size, PinReg.field, Field.size] at hsize
    omega

theorem inspectM2m_program (len : MemLen) (addr addr' : AddrInt) :
    (inspectM2m len addr addr').program =
      [Shape.xfer (Field.mem addr len.bytes).locs (Field.mem addr' len.bytes).locs] := by
  cases len with
  | quad | word | byte => rfl
  | long =>
    rw [inspectM2m, Handler.program, m32Tag_eq, m32Tag_eq]
    rfl

theorem inspectLods_program (len : MemLen) (addr : AddrInt) :
    (inspectLods len addr).program =
      [Shape.xfer (PinReg.accumulatorOf len).field.locs (Field.mem addr len.bytes).locs] := by
  cases len with
  | quad =>
    have hrax : PinReg.rax.reg64Indx = gprEax := PinReg.reg64Indx_gr64 7
    rw [inspectLods, hrax]
    rfl
  | word | byte => rfl
  | long =>
    rw [inspectLods, Handler.program, Instr32.program, m32Tag_eq]
    rfl

theorem inspectStos_program (len : MemLen) (addr : AddrInt) :
    (inspectStos len addr).program =
      [Shape.xfer (Field.mem addr len.bytes).locs (PinReg.accumulatorOf len).field.locs] := by
  cases len with
  | quad =>
    have hrax : PinReg.rax.reg64Indx = gprEax := PinReg.reg64Indx_gr64 7
    rw [inspectStos, hrax]
    rfl
  | word | byte => rfl
  | long =>
    rw [inspectStos, Handler.program, m32Tag_eq]
    rfl

end Programs

end TheiaTaint.Engine
