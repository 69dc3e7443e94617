import Mathlib
import TheiaTaint.Foundations.Assign
import TheiaTaint.Engine.Handlers
import TheiaTaint.Engine.Refinement

namespace TheiaTaint.Engine

open Foundations.Moves Foundations.Assign Tags.Directory ZeroExtension

-- The shapes of the handlers as assignments to places.
namespace Shape

def places (ls : List Loc) : List (Expr Loc) := ls.map .place

def bots (n : ℕ) : List (Expr Loc) := List.replicate n .bot

def xfer (dst src : List Loc) : Block Loc := dst.zip (places src)

def extend (dst src : List Loc) : Block Loc :=
  dst.zip (places src ++ bots (dst.length - src.length))

def combineInto (dst lhs rhs : List Loc) : Block Loc :=
  dst.zip (List.zipWith .sup (places lhs) (places rhs))

def clr (dst : List Loc) : Block Loc := dst.zip (bots dst.length)

def xchg (dst src : List Loc) : Block Loc := xfer src dst ++ xfer dst src

def xadd (dst src : List Loc) : Block Loc := combineInto dst dst src ++ xfer src dst

def xaddMem (src dst : List Loc) : Block Loc := xfer src dst ++ combineInto dst src dst

def ternary (rTag : Reg → List Loc) (src : List Loc) : Block Loc :=
  combineInto (rTag gprEdx) (rTag gprEdx) src ++ combineInto (rTag gprEax) (rTag gprEax) src

def ternaryByte (src : List Loc) : Block Loc :=
  combineInto (r16Tag gprEax) (r16Tag gprEax) (src ++ src)

def fill (addr : AddrInt) (num : ℕ) (src : List Loc) : Block Loc :=
  ((List.range num).map fun i ↦ Loc.mem (addr + BitVec.ofNat 64 i)).zip
    ((List.range num).map fun i ↦ (places src).getD (i % src.length) .bot)

def cmpxchgFast (rTag : Reg → List Loc) (src : List Loc) : List (Block Loc) :=
  [clr (r64Tag gprScratch), xfer (rTag gprScratch) (rTag gprEax), xfer (rTag gprEax) src]

def cmpxchgSlow (rTag : Reg → List Loc) (dst src : List Loc) : List (Block Loc) :=
  [xfer (rTag gprEax) (rTag gprScratch), xfer dst src]

/-- Both paths; the fast one leaves `compared` in the accumulator. -/
def cmpxchg (rTag : Reg → List Loc) (dst src compared : List Loc) (equal : Bool) :
    List (Block Loc) :=
  cmpxchgFast rTag compared ++ if equal then cmpxchgSlow rTag dst src else []

end Shape

def Instr.program : Instr → List (Block Loc)
  | .r2rXfer f dst src => [Shape.xfer (f.dst dst).locs (f.src src).locs]
  | .m2rXfer f dst src => [Shape.xfer (f.reg dst).locs (f.mem src).locs]
  | .r2mXfer f dst src => [Shape.xfer (f.mem dst).locs (f.reg src).locs]
  | .m2mXfer f dst src => [Shape.xfer (f.mem dst).locs (f.mem src).locs]
  | .r2rBinary f dst src =>
    [Shape.combineInto (f.dst dst).locs (f.dst dst).locs (f.src src).locs]
  | .m2rBinary f dst src =>
    [Shape.combineInto (f.reg dst).locs (f.mem src).locs (f.reg dst).locs]
  | .r2mBinary f dst src =>
    [Shape.combineInto (f.mem dst).locs (f.mem dst).locs (f.reg src).locs]
  | .rClr f reg => [Shape.clr (f.reg reg).locs]
  | .movzxR2r f dst src => [Shape.extend (f.dst dst).locs (f.src src).locs]
  | .movzxM2r f dst src => [Shape.extend (f.dst dst).locs (f.src src).locs]
  | .xchgR2r f dst src => [Shape.xchg (f.dst dst).locs (f.src src).locs]
  | .xchgM2r f dst src => [Shape.xchg (f.reg dst).locs (f.mem src).locs]
  | .xaddR2r f dst src => [Shape.xadd (f.dst dst).locs (f.src src).locs]
  | .xaddR2m f src dst => [Shape.xaddMem (f.reg src).locs (f.mem dst).locs]
  | .leaR2r f dst base index =>
    [Shape.combineInto (f.reg dst).locs (f.reg base).locs (f.reg index).locs]
  | .r2rTernary .opbU src => [Shape.ternaryByte (r8hTag src)]
  | .r2rTernary .opbL src => [Shape.ternaryByte (r8lTag src)]
  | .r2rTernary .opw src => [Shape.ternary r16Tag (r16Tag src)]
  | .r2rTernary .opq src => [Shape.ternary r64Tag (r64Tag src)]
  | .m2rTernary .opb src => [Shape.ternaryByte (m8Tag src)]
  | .m2rTernary .opw src => [Shape.ternary r16Tag (m16Tag src)]
  | .m2rTernary .opq src => [Shape.ternary r64Tag (m64Tag src)]
  | .cmpxchgR2r f dst src dstVal srcVal =>
    Shape.cmpxchg f.rTag (f.rr.dst dst).locs (f.rr.src src).locs (f.rr.src dst).locs
      (dstVal == srcVal)
  | .cmpxchgM2r f dst src dstVal mem =>
    Shape.cmpxchg f.rTag (f.rm.mem dst).locs (f.rm.reg src).locs (f.rm.mem dst).locs
      (f.memEq dstVal mem)

def ZeroExtension.Instr32.program : Instr32 → List (Block Loc)
  | .r2rXferOpl dst src => [Shape.xfer (r32Tag dst) (r32Tag src)]
  | .m2rXferOpl dst src => [Shape.xfer (r32Tag dst) (m32Tag src)]
  | .r2rBinaryOpl dst src => [Shape.combineInto (r32Tag dst) (r32Tag dst) (r32Tag src)]
  | .m2rBinaryOpl dst src => [Shape.combineInto (r32Tag dst) (m32Tag src) (r32Tag dst)]
  | .rClrl reg => [Shape.clr (r32Tag reg)]
  | .leaR2rOpl dst base index => [Shape.combineInto (r32Tag dst) (r32Tag base) (r32Tag index)]
  | .movzxR2rOplbU dst src => [Shape.extend (r32Tag dst) (r8hTag src)]
  | .movzxR2rOplbL dst src => [Shape.extend (r32Tag dst) (r8lTag src)]
  | .movzxR2rOplw dst src => [Shape.extend (r32Tag dst) (r16Tag src)]
  | .movzxM2rOplb dst src => [Shape.extend (r32Tag dst) (m8Tag src)]
  | .movzxM2rOplw dst src => [Shape.extend (r32Tag dst) (m16Tag src)]
  | .movsxR2rOplbU dst src => [Shape.extend (r32Tag dst) (r8hTag src)]
  | .movsxR2rOplbL dst src => [Shape.extend (r32Tag dst) (r8lTag src)]
  | .movsxR2rOplw dst src => [Shape.extend (r32Tag dst) (r16Tag src)]
  | .movsxM2rOplb dst src => [Shape.extend (r32Tag dst) (m8Tag src)]
  | .movsxM2rOplw dst src => [Shape.extend (r32Tag dst) (m16Tag src)]
  | .xchgR2rOpl dst src => [Shape.xchg (r32Tag dst) (r32Tag src)]
  | .xchgM2rOpl dst src => [Shape.xchg (r32Tag dst) (m32Tag src)]
  | .xaddR2rOpl dst src => [Shape.xadd (r32Tag dst) (r32Tag src)]
  | .xaddR2mOpl src dst => [Shape.xaddMem (r32Tag src) (m32Tag dst)]
  | .r2rTernaryOpl src => [Shape.ternary r32Tag (r32Tag src)]
  | .m2rTernaryOpl src => [Shape.ternary r32Tag (m32Tag src)]

def Handler.program : Handler → List (Block Loc)
  | .narrow i => i.program
  | .long i => i.program
  | .r2mXferOpl dst src => [Shape.xfer (m32Tag dst) (r32Tag src)]
  | .m2mXferOpl dst src => [Shape.xfer (m32Tag dst) (m32Tag src)]
  | .r2mBinaryOpl dst src => [Shape.combineInto (m32Tag dst) (m32Tag dst) (r32Tag src)]
  | .rClrl4 => [Shape.clr (r64Tag gprEbx ++ r64Tag gprEdx ++ r64Tag gprEcx ++ r64Tag gprEax)]
  | .rClrl2 => [Shape.clr (r64Tag gprEdx ++ r64Tag gprEax)]
  | .mClrn addr n => [Shape.clr ((List.range n.toNat).map fun i ↦ .mem (addr + BitVec.ofNat 64 i))]
  | .movsxR2rOpwbU dst src => [Shape.extend (r16Tag dst) (r8hTag src)]
  | .movsxR2rOpwbL dst src => [Shape.extend (r16Tag dst) (r8lTag src)]
  | .movsxR2rOpqbU dst src => [Shape.extend (r64Tag dst) (r8hTag src)]
  | .movsxR2rOpqbL dst src => [Shape.extend (r64Tag dst) (r8lTag src)]
  | .movsxR2rOpqw dst src => [Shape.extend (r64Tag dst) (r16Tag src)]
  | .movsxdR2rOpql dst src => [Shape.extend (r64Tag dst) (r32Tag src)]
  | .movsxM2rOpwb dst src => [Shape.extend (r16Tag dst) (m8Tag src)]
  | .movsxM2rOpqb dst src => [Shape.extend (r64Tag dst) (m8Tag src)]
  | .movsxM2rOpqw dst src => [Shape.extend (r64Tag dst) (m16Tag src)]
  | .movsxdM2rOpql dst src => [Shape.extend (r64Tag dst) (m32Tag src)]
  | .cwde => [Shape.clr [.reg gprEax 2, .reg gprEax 3]]
  | .cdqe => [Shape.clr [.reg gprEax 4, .reg gprEax 5, .reg gprEax 6, .reg gprEax 7]]
  | .cmpxchgR2rOpqFast _ src _ => Shape.cmpxchgFast r64Tag (r64Tag src)
  | .cmpxchgR2rOpqSlow dst src => Shape.cmpxchgSlow r64Tag (r64Tag dst) (r64Tag src)
  | .cmpxchgR2rOplFast _ src _ => Shape.cmpxchgFast r32Tag (r32Tag src)
  | .cmpxchgR2rOplSlow dst src => Shape.cmpxchgSlow r32Tag (r32Tag dst) (r32Tag src)
  | .cmpxchgR2rOpwFast _ src _ => Shape.cmpxchgFast r16Tag (r16Tag src)
  | .cmpxchgR2rOpwSlow dst src => Shape.cmpxchgSlow r16Tag (r16Tag dst) (r16Tag src)
  | .cmpxchgM2rOpqFast _ src _ => Shape.cmpxchgFast r64Tag (m64Tag src)
  | .cmpxchgR2mOpqSlow dst src => Shape.cmpxchgSlow r64Tag (m64Tag dst) (r64Tag src)
  | .cmpxchgM2rOplFast _ src _ => Shape.cmpxchgFast r32Tag (m32Tag src)
  | .cmpxchgR2mOplSlow dst src => Shape.cmpxchgSlow r32Tag (m32Tag dst) (r32Tag src)
  | .cmpxchgM2rOpwFast _ src _ => Shape.cmpxchgFast r16Tag (m16Tag src)
  | .cmpxchgR2mOpwSlow dst src => Shape.cmpxchgSlow r16Tag (m16Tag dst) (r16Tag src)
  | .r2mXferOpbn dst count df => [Shape.fill (repAddr dst count df) count.toNat (r8lTag gprEax)]
  | .r2mXferOpwn dst count df =>
    [Shape.fill (repAddr dst (count <<< 1) df) (count <<< 1).toNat (r16Tag gprEax)]
  | .r2mXferOpln dst count df =>
    [Shape.fill (repAddr dst (count <<< 2) df) (count <<< 2).toNat (r32Tag gprEax)]
  | .r2mXferOpqn dst count df =>
    [Shape.fill (repAddr dst (count <<< 3) df) (count <<< 3).toNat (r64Tag gprEax)]
  | .r2rBitscanOpq _ src => [Shape.xfer (r64Tag src) (r64Tag src)]
  | .r2rBitscanOpl _ src => [Shape.xfer (r32Tag src) (r32Tag src)]
  | .r2rBitscanOpw _ src => [Shape.xfer (r16Tag src) (r16Tag src)]
  | .m2rRestoreOpw src =>
    (Custom.slots Custom.restored 2 src).map fun slot ↦ Shape.xfer (r16Tag slot.1) (m16Tag slot.2)
  | .m2rRestoreOpl src =>
    (Custom.slots Custom.restored 4 src).map fun slot ↦ Shape.xfer (r32Tag slot.1) (m32Tag slot.2)
  | .r2mSaveOpw dst =>
    (Custom.slots Custom.saved 2 dst).map fun slot ↦ Shape.xfer (m16Tag slot.2) (r16Tag slot.1)
  | .r2mSaveOpl dst =>
    (Custom.slots Custom.saved 4 dst).map fun slot ↦ Shape.xfer (m32Tag slot.2) (r32Tag slot.1)

variable {S T : Type*} [SemilatticeSup T] [OrderBot T] [TagStore S T]

/-- The program does to the tags what the handler does. -/
def Computes (bs : List (Block Loc)) (f : S → S) : Prop :=
  ∀ s, f s = runBlocks TagStore.get TagStore.set bs s

section Shapes

variable (f : Loc → T)

theorem map_eval_places (ls : List Loc) : (Shape.places ls).map (Expr.eval f) = ls.map f :=
  map_eval_place f ls

theorem map_eval_bots (n : ℕ) : (Shape.bots n).map (Expr.eval f) = List.replicate n clearedVal :=
  List.map_replicate

theorem map_eval_combine (ls ks : List Loc) :
    (List.zipWith Expr.sup (Shape.places ls) (Shape.places ks)).map (Expr.eval f) =
      combine (ls.map f) (ks.map f) := by
  rw [map_eval_sup, map_eval_places, map_eval_places]
  rfl

end Shapes

theorem computes_xfer (dst src : List Loc) :
    Computes [Shape.xfer dst src] (xfer (S := S) dst src) := by
  intro s
  rw [runBlocks_singleton, Shape.xfer, assign_zip, map_eval_places]
  rfl

theorem computes_extend (dst src : List Loc) :
    Computes [Shape.extend dst src] (extend (S := S) dst src) := by
  intro s
  rw [runBlocks_singleton, Shape.extend, assign_zip, List.map_append, map_eval_places,
    map_eval_bots]
  rfl

theorem computes_combineInto (dst lhs rhs : List Loc) :
    Computes [Shape.combineInto dst lhs rhs] (combineInto (S := S) dst lhs rhs) := by
  intro s
  rw [runBlocks_singleton, Shape.combineInto, assign_zip, map_eval_combine]
  rfl

theorem computes_clr (dst : List Loc) : Computes [Shape.clr dst] (clr (S := S) dst) := by
  intro s
  rw [runBlocks_singleton, Shape.clr, assign_zip, map_eval_bots]
  rfl

theorem computes_xchg (dst src : List Loc) :
    Computes [Shape.xchg dst src] (xchg (S := S) dst src) := by
  intro s
  rw [runBlocks_singleton, Shape.xchg, Shape.xfer, Shape.xfer, assign_zip_append,
    map_eval_places, map_eval_places]
  rfl

theorem computes_xadd (dst src : List Loc) :
    Computes [Shape.xadd dst src] (xadd (S := S) dst src) := by
  intro s
  rw [runBlocks_singleton, Shape.xadd, Shape.combineInto, Shape.xfer, assign_zip_append,
    map_eval_combine, map_eval_places]
  rfl

theorem computes_xaddMem (src dst : List Loc) :
    Computes [Shape.xaddMem src dst] (xaddMem (S := S) src dst) := by
  intro s
  rw [runBlocks_singleton, Shape.xaddMem, Shape.combineInto, Shape.xfer, assign_zip_append,
    map_eval_combine, map_eval_places]
  rfl

theorem computes_ternary (rTag : Reg → List Loc) (src : List Loc) :
    Computes [Shape.ternary rTag src] (ternary (S := S) rTag src) := by
  intro s
  rw [runBlocks_singleton, Shape.ternary, Shape.combineInto, Shape.combineInto, assign_zip_append,
    map_eval_combine, map_eval_combine]
  rfl

theorem computes_ternaryByte (src : List Loc) :
    Computes [Shape.ternaryByte src] (ternaryByte (S := S) src) := by
  intro s
  rw [runBlocks_singleton, Shape.ternaryByte, Shape.combineInto, assign_zip, map_eval_combine,
    List.map_append]
  rfl

theorem computes_fill (addr : AddrInt) (num : ℕ) (src : List Loc) :
    Computes [Shape.fill addr num src] (fill (S := S) addr num src) := by
  intro s
  have hvalue (i : ℕ) : ((Shape.places src).getD (i % src.length) .bot).eval (TagStore.get s) =
      (loadTags s src).getD (i % src.length) clearedVal := by
    rw [loadTags, load, ← map_eval_places (TagStore.get s) src]
    exact (List.getD_map _ _ _).symm
  rw [runBlocks_singleton, Shape.fill, assign_zip, List.map_map]
  exact congrArg (storeTags s _) (List.map_congr_left fun i _ ↦ (hvalue i).symm)

theorem Computes.append {bs cs : List (Block Loc)} {f g : S → S}
    (hf : Computes bs f) (hg : Computes cs g) : Computes (bs ++ cs) (g ∘ f) := by
  intro s
  rw [runBlocks, List.foldl_append, ← runBlocks, ← runBlocks, ← hf s, ← hg (f s)]
  rfl

theorem computes_nil : Computes [] (id : S → S) := fun _ ↦ rfl

theorem computes_cmpxchgFast (rTag : Reg → List Loc) (src : List Loc) :
    Computes (Shape.cmpxchgFast rTag src) (cmpxchgFast (S := S) rTag src) := by
  have hsave := (computes_clr (S := S) (r64Tag gprScratch)).append
    (computes_xfer (rTag gprScratch) (rTag gprEax))
  exact hsave.append (computes_xfer (rTag gprEax) src)

theorem computes_cmpxchgSlow (rTag : Reg → List Loc) (dst src : List Loc) :
    Computes (Shape.cmpxchgSlow rTag dst src) (cmpxchgSlow (S := S) rTag dst src) :=
  (computes_xfer (rTag gprEax) (rTag gprScratch)).append (computes_xfer dst src)

theorem computes_cmpxchg (rTag : Reg → List Loc) (dst src compared : List Loc) (equal : Bool) :
    Computes (Shape.cmpxchg rTag dst src compared equal) fun s : S ↦
      complete (cmpxchgSlow rTag dst src) (cmpxchgFast rTag compared s, equal) := by
  cases equal with
  | false => exact (computes_cmpxchgFast rTag compared).append computes_nil
  | true => exact (computes_cmpxchgFast rTag compared).append (computes_cmpxchgSlow rTag dst src)

theorem computes_foldl {A : Type*} (f : A → S → S) (b : A → Block Loc)
    (h : ∀ a, Computes [b a] (f a)) (as : List A) :
    Computes (as.map b) fun s ↦ as.foldl (fun s a ↦ f a s) s := by
  induction as with
  | nil => exact computes_nil
  | cons a as ih => exact (h a).append ih

theorem computes_custom (i : Instr) : Computes i.program (i.custom (S := S)) := by
  intro s
  cases i with
  | r2rXfer f dst src =>
    rw [custom_r2rXfer]
    exact computes_xfer _ _ s
  | m2rXfer f dst src =>
    rw [custom_m2rXfer]
    exact computes_xfer _ _ s
  | r2mXfer f dst src =>
    rw [custom_r2mXfer]
    exact computes_xfer _ _ s
  | m2mXfer f dst src =>
    rw [custom_m2mXfer]
    exact computes_xfer _ _ s
  | r2rBinary f dst src =>
    rw [custom_r2rBinary]
    exact computes_combineInto _ _ _ s
  | m2rBinary f dst src =>
    rw [custom_m2rBinary]
    exact computes_combineInto _ _ _ s
  | r2mBinary f dst src =>
    rw [custom_r2mBinary]
    exact computes_combineInto _ _ _ s
  | rClr f reg =>
    rw [custom_rClr]
    exact computes_clr _ s
  | movzxR2r f dst src =>
    rw [custom_movzxR2r]
    exact computes_extend _ _ s
  | movzxM2r f dst src =>
    rw [custom_movzxM2r]
    exact computes_extend _ _ s
  | xchgR2r f dst src =>
    rw [custom_xchgR2r]
    exact computes_xchg _ _ s
  | xchgM2r f dst src =>
    rw [custom_xchgM2r]
    exact computes_xchg _ _ s
  | xaddR2r f dst src =>
    rw [custom_xaddR2r]
    exact computes_xadd _ _ s
  | xaddR2m f src dst =>
    rw [custom_xaddR2m]
    exact computes_xaddMem _ _ s
  | leaR2r f dst base index =>
    rw [custom_leaR2r]
    exact computes_combineInto _ _ _ s
  | r2rTernary f src =>
    cases f with
    | opbU | opbL => exact computes_ternaryByte _ s
    | opw | opq => exact computes_ternary _ _ s
  | m2rTernary f src =>
    cases f with
    | opb => exact computes_ternaryByte _ s
    | opw | opq => exact computes_ternary _ _ s
  | cmpxchgR2r f dst src dstVal srcVal =>
    rw [custom_cmpxchgR2r]
    exact computes_cmpxchg _ _ _ _ _ s
  | cmpxchgM2r f dst src dstVal mem =>
    rw [custom_cmpxchgM2r]
    exact computes_cmpxchg _ _ _ _ _ s

theorem computes_instr32 (i : Instr32) : Computes i.program (i.run (S := S)) := by
  cases i with
  | r2rXferOpl | m2rXferOpl => exact computes_xfer _ _
  | r2rBinaryOpl | m2rBinaryOpl | leaR2rOpl => exact computes_combineInto _ _ _
  | rClrl => exact computes_clr _
  | movzxR2rOplbU | movzxR2rOplbL | movzxR2rOplw | movzxM2rOplb | movzxM2rOplw
  | movsxR2rOplbU | movsxR2rOplbL | movsxR2rOplw | movsxM2rOplb | movsxM2rOplw =>
    exact computes_extend _ _
  | xchgR2rOpl | xchgM2rOpl => exact computes_xchg _ _
  | xaddR2rOpl => exact computes_xadd _ _
  | xaddR2mOpl => exact computes_xaddMem _ _
  | r2rTernaryOpl | m2rTernaryOpl => exact computes_ternary _ _

/-- Every handler does what its program says. -/
theorem computes_run (h : Handler) : Computes h.program (h.run (S := S)) := by
  cases h with
  | narrow i => exact computes_custom i
  | long i => exact computes_instr32 i
  | r2mXferOpl | m2mXferOpl | r2rBitscanOpq | r2rBitscanOpl | r2rBitscanOpw =>
    exact computes_xfer _ _
  | r2mBinaryOpl => exact computes_combineInto _ _ _
  | rClrl4 | rClrl2 | mClrn | cwde | cdqe => exact computes_clr _
  | movsxR2rOpwbU | movsxR2rOpwbL | movsxR2rOpqbU | movsxR2rOpqbL | movsxR2rOpqw
  | movsxdR2rOpql | movsxM2rOpwb | movsxM2rOpqb | movsxM2rOpqw | movsxdM2rOpql =>
    exact computes_extend _ _
  | cmpxchgR2rOpqFast | cmpxchgR2rOplFast | cmpxchgR2rOpwFast | cmpxchgM2rOpqFast
  | cmpxchgM2rOplFast | cmpxchgM2rOpwFast => exact computes_cmpxchgFast _ _
  | cmpxchgR2rOpqSlow | cmpxchgR2rOplSlow | cmpxchgR2rOpwSlow | cmpxchgR2mOpqSlow
  | cmpxchgR2mOplSlow | cmpxchgR2mOpwSlow => exact computes_cmpxchgSlow _ _ _
  | r2mXferOpbn | r2mXferOpwn | r2mXferOpln | r2mXferOpqn => exact computes_fill _ _ _
  | m2rRestoreOpw | m2rRestoreOpl | r2mSaveOpw | r2mSaveOpl =>
    exact computes_foldl _ _ (fun _ ↦ computes_xfer _ _) _

theorem preserves_run {p : T → Prop} (hp : Closed p) (h : Handler) : Preserves p h.run := by
  intro s hs l
  rw [computes_run h s]
  exact forall_get_runBlocks aliased hp.bot hp.sup hs h.program l

end TheiaTaint.Engine
