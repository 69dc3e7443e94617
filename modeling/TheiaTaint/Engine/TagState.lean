import Mathlib
import TheiaTaint.Foundations.Bytes
import TheiaTaint.Foundations.Moves
import TheiaTaint.Tags.Directory

namespace TheiaTaint.Engine

open Foundations.History Foundations.Moves Tags.Directory

/-- An index into `vcpu.gpr`, whose last entry is the scratch register. -/
abbrev Reg := Fin 17

def gprEdi : Reg := 0
def gprEsi : Reg := 1
def gprEbp : Reg := 2
def gprEsp : Reg := 3
def gprEbx : Reg := 4
def gprEdx : Reg := 5
def gprEcx : Reg := 6
def gprEax : Reg := 7
def gprScratch : Reg := 16

/-- The tags of a thread and of memory, in the build with custom tags. -/
structure TagState (T : Type*) where
  gpr : Reg → Fin 8 → T
  tagDir : TagDir T

inductive Loc
  | reg (r : Reg) (i : Fin 8)
  | mem (addr : AddrInt)
deriving DecidableEq

/-- What tells two bytes apart in the tag state. -/
inductive Cell
  | reg (r : Reg) (i : Fin 8)
  | mem (addr : BitVec 32)
deriving DecidableEq

def Loc.cell : Loc → Cell
  | .reg r i => .reg r i
  | .mem addr => .mem (low32 addr)

variable {T : Type*} [SemilatticeSup T] [OrderBot T]

def TagState.get (s : TagState T) : Loc → T
  | .reg r i => s.gpr r i
  | .mem addr => tagDirGetb s.tagDir addr

def TagState.set (s : TagState T) (l : Loc) (tag : T) : TagState T :=
  match l with
  | .reg r i => { s with gpr := Function.update s.gpr r (Function.update (s.gpr r) i tag) }
  | .mem addr => { s with tagDir := tagDirSetb s.tagDir addr tag }

omit [SemilatticeSup T] [OrderBot T] in
theorem update_gpr (gpr : Reg → Fin 8 → T) (r r' : Reg) (i i' : Fin 8) (tag : T) :
    Function.update gpr r (Function.update (gpr r) i tag) r' i' =
      if Loc.reg r i = Loc.reg r' i' then tag else gpr r' i' := by
  by_cases hr : r = r'
  · subst hr
    by_cases hi : i = i'
    · simp [hi]
    · simp [hi, Function.update_of_ne (Ne.symm hi)]
  · simp [hr, Function.update_of_ne (Ne.symm hr)]

theorem aliased : Aliased TagState.get (TagState.set (T := T)) Loc.cell where
  get_set s l t l' := by
    cases l with
    | reg r i =>
      cases l' with
      | reg r' i' => simp [TagState.get, TagState.set, Loc.cell, update_gpr]
      | mem addr => simp [TagState.get, TagState.set, Loc.cell]
    | mem addr =>
      cases l' with
      | reg r i => simp [TagState.get, TagState.set, Loc.cell]
      | mem addr' => simp [TagState.get, TagState.set, Loc.cell, getb_setb]

/-- What the handlers ask of the tags: to tell and to replace the one of a byte. The directory
may take two addresses for one. -/
class TagStore (S : Type*) (T : outParam Type*) where
  get : S → Loc → T
  set : S → Loc → T → S

instance : TagStore (TagState T) T := ⟨TagState.get, TagState.set⟩

@[simp] theorem tagStore_get (s : TagState T) : TagStore.get s = s.get := rfl

@[simp] theorem tagStore_set (s : TagState T) : TagStore.set s = s.set := rfl

def combine (ts us : List T) : List T := List.zipWith tagCombine ts us

def clear (ls : List Loc) : List T := List.replicate ls.length clearedVal

/-- `RTAG[r][0]` and `RTAG[r][1]`, the two byte registers. -/
def r8lTag (r : Reg) : List Loc := [.reg r 0]
def r8hTag (r : Reg) : List Loc := [.reg r 1]
def r16Tag (r : Reg) : List Loc := [.reg r 0, .reg r 1]
def r32Tag (r : Reg) : List Loc := [.reg r 0, .reg r 1, .reg r 2, .reg r 3]
def r64Tag (r : Reg) : List Loc :=
  [.reg r 0, .reg r 1, .reg r 2, .reg r 3, .reg r 4, .reg r 5, .reg r 6, .reg r 7]

def m8Tag (addr : AddrInt) : List Loc := [.mem addr]
def m16Tag (addr : AddrInt) : List Loc := [.mem addr, .mem (addr + 1)]
def m32Tag (addr : AddrInt) : List Loc :=
  [.mem addr, .mem (addr + 1), .mem (addr + 2), .mem (addr + 3)]
def m64Tag (addr : AddrInt) : List Loc :=
  [.mem addr, .mem (addr + 1), .mem (addr + 2), .mem (addr + 3), .mem (addr + 4),
    .mem (addr + 5), .mem (addr + 6), .mem (addr + 7)]

section Shapes

variable {S : Type*} [TagStore S T]

def loadTags (s : S) (ls : List Loc) : List T := Foundations.Moves.load TagStore.get s ls

def storeTags (s : S) (ls : List Loc) (tags : List T) : S :=
  Foundations.Moves.store TagStore.set s ls tags

def xfer (dst src : List Loc) (s : S) : S := storeTags s dst (loadTags s src)

/-- The low tags come from the source, the tags of the extension are cleared. -/
def extend (dst src : List Loc) (s : S) : S :=
  storeTags s dst (loadTags s src ++ List.replicate (dst.length - src.length) clearedVal)

def combineInto (dst lhs rhs : List Loc) (s : S) : S :=
  storeTags s dst (combine (loadTags s lhs) (loadTags s rhs))

def clr (dst : List Loc) (s : S) : S := storeTags s dst (clear dst)

def xchg (dst src : List Loc) (s : S) : S :=
  let srcTags := loadTags s src
  let tmpTags := loadTags s dst
  storeTags (storeTags s src tmpTags) dst srcTags

def xadd (dst src : List Loc) (s : S) : S :=
  let srcTags := loadTags s src
  let dstTags := loadTags s dst
  storeTags (storeTags s dst (combine dstTags srcTags)) src dstTags

/-- The forms with a memory destination write the register first. -/
def xaddMem (src dst : List Loc) (s : S) : S :=
  let srcTags := loadTags s src
  let dstTags := loadTags s dst
  storeTags (storeTags s src dstTags) dst (combine srcTags dstTags)

/-- `EDX` and `EAX` each take the tags of the operand. -/
def ternary (rTag : Reg → List Loc) (src : List Loc) (s : S) : S :=
  let tmpTag := loadTags s src
  let dst1Tag := loadTags s (rTag gprEdx)
  let dst2Tag := loadTags s (rTag gprEax)
  storeTags (storeTags s (rTag gprEdx) (combine dst1Tag tmpTag)) (rTag gprEax)
    (combine dst2Tag tmpTag)

/-- Both bytes of `AX` take the tag of the one-byte operand. -/
def ternaryByte (src : List Loc) (s : S) : S :=
  let tmpTag := loadTags s src
  storeTags s (r16Tag gprEax) (combine (loadTags s (r16Tag gprEax)) (tmpTag ++ tmpTag))

def cmpxchgFast (rTag : Reg → List Loc) (src : List Loc) (s : S) : S :=
  xfer (rTag gprEax) src (xfer (rTag gprScratch) (rTag gprEax) (clr (r64Tag gprScratch) s))

def cmpxchgSlow (rTag : Reg → List Loc) (dst src : List Loc) (s : S) : S :=
  xfer dst src (xfer (rTag gprEax) (rTag gprScratch) s)

/-- `num` bytes from `addr` take the tags of the operand in turn. -/
def fill (addr : AddrInt) (num : ℕ) (src : List Loc) (s : S) : S :=
  let srcTag := loadTags s src
  storeTags s ((List.range num).map fun i ↦ .mem (addr + BitVec.ofNat 64 i))
    ((List.range num).map fun i ↦ srcTag.getD (i % src.length) clearedVal)

end Shapes

/-- The destination of a repeated store, which runs down when `DF` is set. -/
def repAddr (dst num : AddrInt) (df : Bool) : AddrInt := if df then dst - num + 1 else dst

end TheiaTaint.Engine
