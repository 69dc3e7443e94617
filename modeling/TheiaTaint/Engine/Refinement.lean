import Mathlib
import TheiaTaint.Engine.BitmapForms
import TheiaTaint.Engine.Related

namespace TheiaTaint.Engine

open Foundations.BitField Foundations.Moves Tags.Directory BitmapState

variable {T : Type*} [SemilatticeSup T] [OrderBot T]

section Shapes

variable {s : TagState T} {b : BitmapState} (h : Related s b) {d f g : Field}
include h

theorem related_xfer (hd : d.Within) (hf : f.Within) (hmap : d.Mapped b) (hsize : f.size = d.size) :
    Related (xfer d.locs f.locs s) (d.write b (f.read b)) :=
  related_store h hd hmap (hsize ▸ matches_load h hf)

theorem related_combineInto (hd : d.Within) (hf : f.Within) (hg : g.Within) (hmap : d.Mapped b)
    (hfsize : f.size = d.size) (hgsize : g.size = d.size) :
    Related (combineInto d.locs f.locs g.locs s) (d.write b (f.read b ||| g.read b)) :=
  related_store h hd hmap
    (Matches.combine (hfsize ▸ matches_load h hf) (hgsize ▸ matches_load h hg))

theorem related_extend (hd : d.Within) (hf : f.Within) (hmap : d.Mapped b)
    (hsize : f.size ≤ d.size) :
    Related (extend d.locs f.locs s) (d.write b (f.read b)) := by
  refine related_store h hd hmap ?_
  have hsum : f.size + (d.locs.length - f.locs.length) = d.size := by
    rw [Field.length_locs, Field.length_locs, Nat.add_sub_cancel' hsize]
  exact hsum ▸ (matches_load h hf).extend _

theorem related_clr (hd : d.Within) (hmap : d.Mapped b) :
    Related (clr d.locs s) (d.write b 0) := by
  refine related_store h hd hmap ?_
  have hclear := matches_clear (T := T) d.locs
  rwa [Field.length_locs] at hclear

/-- The bitmap build writes the destination first, which makes no difference
where the operands are the same or apart. -/
theorem related_xchg (hd : d.Within) (hf : f.Within) (hdmap : d.Mapped b) (hfmap : f.Mapped b)
    (hsize : f.size = d.size)
    (halign : ∀ i j, i < f.size → j < d.size → f.loc i = d.loc j → i = j) :
    Related (xchg d.locs f.locs s) (f.write (d.write b (f.read b)) (d.read b)) := by
  have hload : ∀ (f : Field) (i : ℕ) (hi : i < (loadTags s f.locs).length),
      (loadTags s f.locs)[i] = s.get (f.loc i) := by
    intro f i hi
    simp [loadTags, load, Field.locs]
  refine related_store_swap h hf hd hfmap hdmap (hsize ▸ matches_load h hd)
    (hsize ▸ matches_load h hf) fun i j hi hj hij ↦ ?_
  have hi' : i < f.size := by simpa [loadTags, hsize] using hi
  have hj' : j < d.size := by simpa [loadTags, hsize] using hj
  obtain rfl := halign i j hi' hj' hij
  rw [hload, hload, hij]

theorem related_xadd (hd : d.Within) (hf : f.Within) (hdmap : d.Mapped b) (hfmap : f.Mapped b)
    (hsize : f.size = d.size) :
    Related (xadd d.locs f.locs s) (f.write (d.write b (d.read b ||| f.read b)) (d.read b)) := by
  have hstored := related_combineInto h hd hd hf hdmap rfl hsize
  exact related_store hstored hf (mapped_write hfmap _) (hsize ▸ matches_load h hd)

theorem related_xaddMem (hd : d.Within) (hf : f.Within) (hdmap : d.Mapped b) (hfmap : f.Mapped b)
    (hsize : f.size = d.size) (hapart : ∀ i j, f.loc i ≠ d.loc j) :
    Related (xaddMem f.locs d.locs s) (f.write (d.write b (f.read b ||| d.read b)) (d.read b)) :=
  related_store_swap h hf hd hfmap hdmap (hsize ▸ matches_load h hd)
    (Matches.combine (hsize ▸ matches_load h hf) (matches_load h hd))
    fun i j _ _ hij ↦ absurd hij (hapart i j)

theorem related_ternary {rTag : Reg → List Loc} {n : ℕ} (hn : n ≤ 8)
    (hrTag : ∀ r, rTag r = (Field.reg r 0 n).locs) (hf : f.Within) (hsize : f.size = n) :
    Related (ternary rTag f.locs s) (ternaryWrite n (f.read b) b) := by
  have hreg : ∀ r : Reg, r ≠ gprScratch → (Field.reg r 0 n).Within := fun r hr ↦
    ⟨hr, (Nat.zero_add n).trans_le hn⟩
  have hdx := hreg gprEdx (by decide)
  have hax := hreg gprEax (by decide)
  simp only [ternary, hrTag]
  refine related_store (related_store h hdx trivial ?_) hax trivial ?_
  · exact (matches_load h hdx).combine (hsize ▸ matches_load h hf)
  · exact (matches_load h hax).combine (hsize ▸ matches_load h hf)

theorem related_ternaryByte (hf : f.Within) (hsize : f.size = 1) :
    Related (ternaryByte f.locs s) (ternaryByteWrite (f.read b) b) := by
  have hax : (Field.reg gprEax 0 2).Within := ⟨by decide, by decide⟩
  have hdouble := (hsize ▸ matches_load h hf : Matches _ 1 _).double
  exact related_store h hax trivial ((matches_load h hax).combine hdouble)

end Shapes

theorem m8Tag_eq (addr : AddrInt) : m8Tag addr = (Field.mem addr 1).locs := by
  simp [m8Tag, Field.locs, Field.size, Field.loc]

theorem m16Tag_eq (addr : AddrInt) : m16Tag addr = (Field.mem addr 2).locs := by
  simp [m16Tag, Field.locs, Field.size, Field.loc, List.range_succ]

theorem m32Tag_eq (addr : AddrInt) : m32Tag addr = (Field.mem addr 4).locs := by
  simp [m32Tag, Field.locs, Field.size, Field.loc, List.range_succ]

theorem m64Tag_eq (addr : AddrInt) : m64Tag addr = (Field.mem addr 8).locs := by
  simp [m64Tag, Field.locs, Field.size, Field.loc, List.range_succ]

def Instr.InRange : Instr → Prop
  | .r2rXfer _ dst src => dst ≠ gprScratch ∧ src ≠ gprScratch
  | .m2rXfer _ dst src => dst ≠ gprScratch ∧ InSegment src
  | .r2mXfer _ dst src => InSegment dst ∧ src ≠ gprScratch
  | .m2mXfer _ dst src => InSegment dst ∧ InSegment src
  | .r2rBinary _ dst src => dst ≠ gprScratch ∧ src ≠ gprScratch
  | .m2rBinary _ dst src => dst ≠ gprScratch ∧ InSegment src
  | .r2mBinary _ dst src => InSegment dst ∧ src ≠ gprScratch
  | .rClr _ reg => reg ≠ gprScratch
  | .movzxR2r _ dst src => dst ≠ gprScratch ∧ src ≠ gprScratch
  | .movzxM2r _ dst src => dst ≠ gprScratch ∧ InSegment src
  | .xchgR2r _ dst src => dst ≠ gprScratch ∧ src ≠ gprScratch
  | .xchgM2r _ dst src => dst ≠ gprScratch ∧ InSegment src
  | .xaddR2r _ dst src => dst ≠ gprScratch ∧ src ≠ gprScratch
  | .xaddR2m _ src dst => src ≠ gprScratch ∧ InSegment dst
  | .leaR2r _ dst base index => dst ≠ gprScratch ∧ base ≠ gprScratch ∧ index ≠ gprScratch
  | .r2rTernary _ src => src ≠ gprScratch
  | .m2rTernary _ src => InSegment src
  | .cmpxchgR2r _ dst src _ _ => dst ≠ gprScratch ∧ src ≠ gprScratch
  | .cmpxchgM2r _ dst src _ _ => InSegment dst ∧ src ≠ gprScratch

instance (addr : AddrInt) : Decidable (InSegment addr) := inferInstanceAs (Decidable (_ ∧ _))

instance (i : Instr) : Decidable i.InRange :=
  match i with
  | .r2rXfer .. | .m2rXfer .. | .r2mXfer .. | .m2mXfer .. | .r2rBinary .. | .m2rBinary ..
  | .r2mBinary .. | .movzxR2r .. | .movzxM2r .. | .xchgR2r .. | .xchgM2r .. | .xaddR2r ..
  | .xaddR2m .. | .leaR2r .. | .cmpxchgR2r .. | .cmpxchgM2r .. =>
    inferInstanceAs (Decidable (_ ∧ _))
  | .rClr .. | .r2rTernary .. => inferInstanceAs (Decidable (_ ≠ _))
  | .m2rTernary _ src => inferInstanceAs (Decidable (InSegment src))

section Custom

variable {S : Type*} [TagStore S T] (s : S)

theorem custom_r2rXfer (f : RrForm) (dst src : Reg) :
    (Instr.r2rXfer f dst src).custom s = xfer (f.dst dst).locs (f.src src).locs s := by
  cases f <;> rfl

theorem custom_m2rXfer (f : RmForm) (dst : Reg) (src : AddrInt) :
    (Instr.m2rXfer f dst src).custom s = xfer (f.reg dst).locs (f.mem src).locs s := by
  cases f <;> simp only [RmForm.mem, ← m8Tag_eq, ← m16Tag_eq, ← m64Tag_eq] <;> rfl

theorem custom_r2mXfer (f : RmForm) (dst : AddrInt) (src : Reg) :
    (Instr.r2mXfer f dst src).custom s = xfer (f.mem dst).locs (f.reg src).locs s := by
  cases f <;> simp only [RmForm.mem, ← m8Tag_eq, ← m16Tag_eq, ← m64Tag_eq] <;> rfl

theorem custom_m2mXfer (f : MmForm) (dst src : AddrInt) :
    (Instr.m2mXfer f dst src).custom s = xfer (f.mem dst).locs (f.mem src).locs s := by
  cases f <;> simp only [MmForm.mem, ← m8Tag_eq, ← m16Tag_eq, ← m64Tag_eq] <;> rfl

theorem custom_r2rBinary (f : RrForm) (dst src : Reg) :
    (Instr.r2rBinary f dst src).custom s =
      combineInto (f.dst dst).locs (f.dst dst).locs (f.src src).locs s := by
  cases f <;> rfl

theorem custom_m2rBinary (f : RmForm) (dst : Reg) (src : AddrInt) :
    (Instr.m2rBinary f dst src).custom s =
      combineInto (f.reg dst).locs (f.mem src).locs (f.reg dst).locs s := by
  cases f <;> simp only [RmForm.mem, ← m8Tag_eq, ← m16Tag_eq, ← m64Tag_eq] <;> rfl

theorem custom_r2mBinary (f : RmForm) (dst : AddrInt) (src : Reg) :
    (Instr.r2mBinary f dst src).custom s =
      combineInto (f.mem dst).locs (f.mem dst).locs (f.reg src).locs s := by
  cases f <;> simp only [RmForm.mem, ← m8Tag_eq, ← m16Tag_eq, ← m64Tag_eq] <;> rfl

theorem custom_rClr (f : RmForm) (reg : Reg) :
    (Instr.rClr f reg).custom s = clr (f.reg reg).locs s := by
  cases f <;> rfl

theorem custom_movzxR2r (f : ZxForm) (dst src : Reg) :
    (Instr.movzxR2r f dst src).custom s = extend (f.dst dst).locs (f.src src).locs s := by
  cases f <;> rfl

theorem custom_movzxM2r (f : ZxMemForm) (dst : Reg) (src : AddrInt) :
    (Instr.movzxM2r f dst src).custom s = extend (f.dst dst).locs (f.src src).locs s := by
  cases f <;> simp only [ZxMemForm.src, ← m8Tag_eq, ← m16Tag_eq] <;> rfl

theorem custom_xchgR2r (f : RrForm) (dst src : Reg) :
    (Instr.xchgR2r f dst src).custom s = xchg (f.dst dst).locs (f.src src).locs s := by
  cases f <;> rfl

theorem custom_xchgM2r (f : RmForm) (dst : Reg) (src : AddrInt) :
    (Instr.xchgM2r f dst src).custom s = xchg (f.reg dst).locs (f.mem src).locs s := by
  cases f <;> simp only [RmForm.mem, ← m8Tag_eq, ← m16Tag_eq, ← m64Tag_eq] <;> rfl

theorem custom_xaddR2r (f : RrForm) (dst src : Reg) :
    (Instr.xaddR2r f dst src).custom s = xadd (f.dst dst).locs (f.src src).locs s := by
  cases f <;> rfl

theorem custom_xaddR2m (f : RmForm) (src : Reg) (dst : AddrInt) :
    (Instr.xaddR2m f src dst).custom s = xaddMem (f.reg src).locs (f.mem dst).locs s := by
  cases f <;> simp only [RmForm.mem, ← m8Tag_eq, ← m16Tag_eq, ← m64Tag_eq] <;> rfl

theorem custom_leaR2r (f : WqForm) (dst base index : Reg) :
    (Instr.leaR2r f dst base index).custom s =
      combineInto (f.reg dst).locs (f.reg base).locs (f.reg index).locs s := by
  cases f <;> rfl

end Custom

def Follows (i : Instr) (s : TagState T) (b : BitmapState) : Prop :=
  ∃ b', i.bitmap b = some b' ∧ Related (i.custom s) b'

section Steps

variable {s : TagState T} {b : BitmapState} (h : Related s b) {dst src : Reg} {addr : AddrInt}
include h

theorem follows_r2rXfer (f : RrForm) (hdst : dst ≠ gprScratch) (hsrc : src ≠ gprScratch) :
    Follows (.r2rXfer f dst src) s b := by
  refine ⟨_, bitmap_r2rXfer f dst src (h.fits hdst) (h.fits hsrc), ?_⟩
  rw [custom_r2rXfer]
  exact related_xfer h (f.within_dst hdst) (f.within_src hsrc) f.mapped_dst (f.size_src dst src)

theorem follows_m2rXfer (f : RmForm) (hdst : dst ≠ gprScratch) (haddr : InSegment addr) :
    Follows (.m2rXfer f dst addr) s b := by
  obtain ⟨b', hv, h', -, -⟩ := related_virt2entry h haddr
  refine ⟨_, bitmap_m2rXfer f dst addr hv (h'.fits hdst), ?_⟩
  rw [custom_m2rXfer]
  exact related_xfer h' (f.within_reg hdst) (f.within_mem haddr) f.mapped_reg (f.size_mem dst addr)

theorem follows_r2mXfer (f : RmForm) (haddr : InSegment addr) (hsrc : src ≠ gprScratch) :
    Follows (.r2mXfer f addr src) s b := by
  obtain ⟨b', hv, h', hmap, -⟩ := related_virt2entry h haddr
  refine ⟨_, bitmap_r2mXfer f addr src hv, ?_⟩
  rw [custom_r2mXfer]
  exact related_xfer h' (f.within_mem haddr) (f.within_reg hsrc) (f.mapped_mem hmap)
    (f.size_mem src addr).symm

theorem follows_m2mXfer (f : MmForm) {addr' : AddrInt} (hdst : InSegment addr)
    (hsrc : InSegment addr') : Follows (.m2mXfer f addr addr') s b := by
  obtain ⟨b₁, hv₁, h₁, -, -⟩ := related_virt2entry h hsrc
  obtain ⟨b₂, hv₂, h₂, hmap, -⟩ := related_virt2entry h₁ hdst
  refine ⟨_, bitmap_m2mXfer f addr addr' hv₁ hv₂, ?_⟩
  rw [custom_m2mXfer]
  exact related_xfer h₂ (f.within_mem hdst) (f.within_mem hsrc) (f.mapped_mem hmap)
    (f.size_mem addr' addr)

theorem follows_r2rBinary (f : RrForm) (hdst : dst ≠ gprScratch) (hsrc : src ≠ gprScratch) :
    Follows (.r2rBinary f dst src) s b := by
  refine ⟨_, bitmap_r2rBinary f dst src (h.fits hsrc), ?_⟩
  rw [custom_r2rBinary]
  exact related_combineInto h (f.within_dst hdst) (f.within_dst hdst) (f.within_src hsrc)
    f.mapped_dst rfl (f.size_src dst src)

theorem follows_m2rBinary (f : RmForm) (hdst : dst ≠ gprScratch) (haddr : InSegment addr) :
    Follows (.m2rBinary f dst addr) s b := by
  obtain ⟨b', hv, h', -, -⟩ := related_virt2entry h haddr
  refine ⟨_, bitmap_m2rBinary f dst addr hv, ?_⟩
  rw [custom_m2rBinary]
  exact related_combineInto h' (f.within_reg hdst) (f.within_mem haddr) (f.within_reg hdst)
    f.mapped_reg (f.size_mem dst addr) rfl

theorem follows_r2mBinary (f : RmForm) (haddr : InSegment addr) (hsrc : src ≠ gprScratch) :
    Follows (.r2mBinary f addr src) s b := by
  obtain ⟨b', hv, h', hmap, -⟩ := related_virt2entry h haddr
  refine ⟨_, bitmap_r2mBinary f addr src hv, ?_⟩
  rw [custom_r2mBinary]
  exact related_combineInto h' (f.within_mem haddr) (f.within_mem haddr) (f.within_reg hsrc)
    (f.mapped_mem hmap) rfl (f.size_mem src addr).symm

theorem follows_rClr (f : RmForm) (hdst : dst ≠ gprScratch) : Follows (.rClr f dst) s b := by
  refine ⟨_, bitmap_rClr f dst (h.fits hdst), ?_⟩
  rw [custom_rClr]
  exact related_clr h (f.within_reg hdst) f.mapped_reg

theorem follows_movzxR2r (f : ZxForm) (hdst : dst ≠ gprScratch) (hsrc : src ≠ gprScratch) :
    Follows (.movzxR2r f dst src) s b := by
  refine ⟨_, bitmap_movzxR2r f dst src (h.fits hdst), ?_⟩
  rw [custom_movzxR2r]
  exact related_extend h (f.within_dst hdst) (f.within_src hsrc) f.mapped_dst
    (f.size_src_le dst src)

theorem follows_movzxM2r (f : ZxMemForm) (hdst : dst ≠ gprScratch) (haddr : InSegment addr) :
    Follows (.movzxM2r f dst addr) s b := by
  obtain ⟨b', hv, h', -, -⟩ := related_virt2entry h haddr
  refine ⟨_, bitmap_movzxM2r f dst addr hv (h'.fits hdst), ?_⟩
  rw [custom_movzxM2r]
  exact related_extend h' (f.within_dst hdst) (f.within_src haddr) f.mapped_dst
    (f.size_src_le dst addr)

theorem follows_xchgR2r (f : RrForm) (hdst : dst ≠ gprScratch) (hsrc : src ≠ gprScratch) :
    Follows (.xchgR2r f dst src) s b := by
  refine ⟨_, bitmap_xchgR2r f dst src (h.fits hdst) (h.fits hsrc), ?_⟩
  rw [custom_xchgR2r]
  exact related_xchg h (f.within_dst hdst) (f.within_src hsrc) f.mapped_dst f.mapped_src
    (f.size_src dst src) fun i j hi hj hij ↦ f.loc_align hdst hi hj hij

theorem follows_xchgM2r (f : RmForm) (hdst : dst ≠ gprScratch) (haddr : InSegment addr) :
    Follows (.xchgM2r f dst addr) s b := by
  obtain ⟨b', hv, h', hmap, -⟩ := related_virt2entry h haddr
  refine ⟨_, bitmap_xchgM2r f dst addr hv (h'.fits hdst), ?_⟩
  rw [custom_xchgM2r]
  exact related_xchg h' (f.within_reg hdst) (f.within_mem haddr) f.mapped_reg (f.mapped_mem hmap)
    (f.size_mem dst addr) fun i j _ _ hij ↦ absurd hij.symm (f.loc_ne dst addr j i)

theorem follows_xaddR2r (f : RrForm) (hdst : dst ≠ gprScratch) (hsrc : src ≠ gprScratch) :
    Follows (.xaddR2r f dst src) s b := by
  refine ⟨_, bitmap_xaddR2r f dst src (h.fits hdst) (h.fits hsrc), ?_⟩
  rw [custom_xaddR2r]
  exact related_xadd h (f.within_dst hdst) (f.within_src hsrc) f.mapped_dst f.mapped_src
    (f.size_src dst src)

theorem follows_xaddR2m (f : RmForm) (hsrc : src ≠ gprScratch) (haddr : InSegment addr) :
    Follows (.xaddR2m f src addr) s b := by
  obtain ⟨b', hv, h', hmap, -⟩ := related_virt2entry h haddr
  refine ⟨_, bitmap_xaddR2m f src addr hv (h'.fits hsrc), ?_⟩
  rw [custom_xaddR2m]
  exact related_xaddMem h' (f.within_mem haddr) (f.within_reg hsrc) (f.mapped_mem hmap)
    f.mapped_reg (f.size_mem src addr).symm (f.loc_ne src addr)

theorem follows_leaR2r (f : WqForm) {base index : Reg} (hdst : dst ≠ gprScratch)
    (hbase : base ≠ gprScratch) (hindex : index ≠ gprScratch) :
    Follows (.leaR2r f dst base index) s b := by
  refine ⟨_, bitmap_leaR2r f dst base index (h.fits hdst) (h.fits hbase) (h.fits hindex), ?_⟩
  rw [custom_leaR2r]
  exact related_combineInto h (f.within_reg hdst) (f.within_reg hbase) (f.within_reg hindex)
    f.mapped_reg (f.size_reg base dst) (f.size_reg index dst)

theorem follows_r2rTernary (f : RmForm) (hsrc : src ≠ gprScratch) :
    Follows (.r2rTernary f src) s b := by
  refine ⟨_, bitmap_r2rTernary f src (h.fits hsrc), ?_⟩
  have hin := f.within_reg hsrc
  have hle := Field.size_le hin
  cases f with
  | opbU => exact related_ternaryByte h hin rfl
  | opbL => exact related_ternaryByte h hin rfl
  | opw => exact related_ternary h hle (fun _ ↦ rfl) hin rfl
  | opq => exact related_ternary h hle (fun _ ↦ rfl) hin rfl

theorem follows_m2rTernary (f : MmForm) (haddr : InSegment addr) :
    Follows (.m2rTernary f addr) s b := by
  obtain ⟨b', hv, h', -, -⟩ := related_virt2entry h haddr
  refine ⟨_, bitmap_m2rTernary f addr hv, ?_⟩
  have hin := f.within_mem haddr
  have hle := Field.size_le hin
  cases f with
  | opb =>
    rw [Instr.custom, Custom.m2rTernaryOpb, m8Tag_eq]
    exact related_ternaryByte h' hin rfl
  | opw =>
    rw [Instr.custom, Custom.m2rTernaryOpw, m16Tag_eq]
    exact related_ternary h' hle (fun _ ↦ rfl) hin rfl
  | opq =>
    rw [Instr.custom, Custom.m2rTernaryOpq, m64Tag_eq]
    exact related_ternary h' hle (fun _ ↦ rfl) hin rfl

theorem related_saveEax : Related s b.saveEax where
  agree l hl := by
    rw [h.agree l hl]
    cases l with
    | reg r i => rw [bit, bit, saveEax, gpr_setGpr_of_ne hl]
    | mem addr => rfl
  small r hr := by
    rw [saveEax, gpr_setGpr_of_ne hr]
    exact h.small r hr

end Steps

section Cmpxchg

variable {s s' : TagState T}

theorem SameTags.store (h : SameTags s s') (ls : List Loc) (ts : List T) :
    SameTags (storeTags s ls ts) (storeTags s' ls ts) := by
  induction ls generalizing s s' ts with
  | nil =>
    rw [storeTags, storeTags, store_nil, store_nil]
    exact h
  | cons k ls ih =>
    cases ts with
    | nil => exact h
    | cons t ts =>
      refine ih (fun l hl ↦ ?_) ts
      rw [tagStore_set, tagStore_set, aliased.get_set, aliased.get_set, h l hl]

theorem SameTags.load (h : SameTags s s') {f : Field} (hf : f.Within) :
    loadTags s f.locs = loadTags s' f.locs := by
  refine List.map_congr_left fun l hl ↦ ?_
  obtain ⟨i, hi, rfl⟩ := Field.mem_locs.1 hl
  exact h _ (Field.visible_loc hf hi)

theorem SameTags.xfer (h : SameTags s s') {f : Field} (hf : f.Within) (ls : List Loc) :
    SameTags (xfer ls f.locs s) (xfer ls f.locs s') := by
  rw [Engine.xfer, Engine.xfer, h.load hf]
  exact h.store ls _

theorem sameTags_store_scratch (o n : ℕ) (ts : List T) :
    SameTags (storeTags s (Field.reg gprScratch o n).locs ts) s := by
  intro l hl
  refine get_store_of_forall_ne aliased (fun k hk hkl ↦ ?_) s ts
  obtain ⟨i, -, rfl⟩ := Field.mem_locs.1 hk
  cases l with
  | reg r j => exact hl (Cell.reg.inj hkl).1.symm
  | mem addr => exact Cell.noConfusion hkl

theorem nodup_cell_reg {r : Reg} {o n : ℕ} (h : o + n ≤ 8) :
    ((Field.reg r o n).locs.map Loc.cell).Nodup := by
  have hproper : (Field.reg r o n).Proper := h
  rw [Field.locs, List.map_map]
  refine List.Nodup.map_on ?_ List.nodup_range
  intro i hi j hj hij
  rw [List.mem_range] at hi hj
  refine Field.loc_inj hproper hi hj ?_
  exact congrArg (Loc.reg r) (Cell.reg.inj hij).2

variable {rTag : Reg → List Loc} {n : ℕ} (hrTag : ∀ r, rTag r = (Field.reg r 0 n).locs)
include hrTag

theorem sameTags_save : SameTags (xfer (rTag gprScratch) (rTag gprEax) (clr (r64Tag gprScratch) s))
    s := by
  have hclr : SameTags (clr (r64Tag gprScratch) s) s := sameTags_store_scratch 0 8 _
  intro l hl
  rw [xfer, hrTag gprScratch, sameTags_store_scratch 0 n _ l hl, hclr l hl]

theorem sameTags_cmpxchgFast {f : Field} (hf : f.Within) :
    SameTags (cmpxchgFast rTag f.locs s) (xfer (rTag gprEax) f.locs s) :=
  (sameTags_save hrTag).xfer hf _

theorem sameTags_restore (hn : n ≤ 8) (ls : List Loc) :
    SameTags (xfer (rTag gprEax) (rTag gprScratch) (cmpxchgFast rTag ls s)) s := by
  have hax : (Field.reg gprEax 0 n).Within := ⟨by decide, (Nat.zero_add n).trans_le hn⟩
  have hsave := sameTags_save hrTag (s := s)
  have hclr : SameTags (clr (r64Tag gprScratch) s) s := sameTags_store_scratch 0 8 _
  have hsaved : loadTags (cmpxchgFast rTag ls s) (rTag gprScratch) = loadTags s (rTag gprEax) := by
    have hne : ∀ k ∈ rTag gprScratch, ∀ l ∈ rTag gprEax, l.cell ≠ k.cell := by
      rw [hrTag, hrTag]
      intro k hk l hl hkl
      obtain ⟨i, -, rfl⟩ := Field.mem_locs.1 hk
      obtain ⟨j, -, rfl⟩ := Field.mem_locs.1 hl
      exact absurd (Cell.reg.inj hkl).1 (by decide)
    have hfast := load_store_of_forall_ne aliased hne
      (xfer (rTag gprScratch) (rTag gprEax) (clr (r64Tag gprScratch) s))
    refine (hfast _).trans ?_
    rw [hrTag, hrTag]
    refine (load_store_self aliased (nodup_cell_reg ((Nat.zero_add n).trans_le hn)) ?_ _).trans ?_
    · rw [loadTags, length_load, Field.length_locs, Field.length_locs]
      rfl
    · exact hclr.load hax
  intro l hl
  rw [xfer, hsaved]
  rcases exists_cell_or_forall_ne Loc.cell (rTag gprEax) l with ⟨i, hi, hcell⟩ | hne
  · have hnodup : ((rTag gprEax).map Loc.cell).Nodup := by
      rw [hrTag]
      exact nodup_cell_reg ((Nat.zero_add n).trans_le hn)
    have hvisible : ∀ k ∈ rTag gprEax, k.Visible := by
      rw [hrTag]
      intro k hk
      obtain ⟨j, hj, rfl⟩ := Field.mem_locs.1 hk
      exact Field.visible_loc hax hj
    have hlen : (rTag gprEax).length = (loadTags s (rTag gprEax)).length :=
      (length_load ..).symm
    have hget := get_store_getElem aliased hnodup hlen (cmpxchgFast rTag ls s) hi hcell
    refine hget.trans ?_
    rw [← Loc.eq_of_cell_eq (hvisible _ (List.getElem_mem hi)) hl hcell]
    simp [loadTags, load]
  · have hrestore := get_store_of_forall_ne aliased hne (cmpxchgFast rTag ls s)
    have hfast := get_store_of_forall_ne aliased hne
      (xfer (rTag gprScratch) (rTag gprEax) (clr (r64Tag gprScratch) s))
    exact (hrestore _).trans ((hfast _).trans (hsave l hl))

theorem sameTags_complete (hn : n ≤ 8) {d f g : Field} (hf : f.Within) (hg : g.Within)
    (equal : Bool) :
    SameTags (complete (cmpxchgSlow rTag d.locs g.locs) (cmpxchgFast rTag f.locs s, equal))
      (if equal then xfer d.locs g.locs s else xfer (rTag gprEax) f.locs s) := by
  cases equal with
  | true => exact (sameTags_restore hrTag hn f.locs).xfer hg d.locs
  | false => exact sameTags_cmpxchgFast hrTag hf

end Cmpxchg

def WqForm.size : WqForm → ℕ
  | .opw => 2
  | .opq => 8

def WqForm.rTag : WqForm → Reg → List Loc
  | .opw => r16Tag
  | .opq => r64Tag

theorem WqForm.size_le (f : WqForm) : f.size ≤ 8 := by
  cases f <;> decide

theorem WqForm.rTag_eq (f : WqForm) (r : Reg) : f.rTag r = (Field.reg r 0 f.size).locs := by
  cases f <;> rfl

theorem WqForm.rTag_eq_dst (f : WqForm) (r : Reg) : f.rTag r = (f.rr.dst r).locs := by
  cases f <;> rfl

theorem WqForm.rTag_eq_reg (f : WqForm) (r : Reg) : f.rTag r = (f.rm.reg r).locs := by
  cases f <;> rfl

section Runs

variable {s : TagState T} {b : BitmapState}

theorem custom_cmpxchgR2r {S : Type*} [TagStore S T] (s : S) (f : WqForm) (dst src : Reg)
    (dstVal srcVal : AddrInt) :
    (Instr.cmpxchgR2r f dst src dstVal srcVal).custom s =
      complete (cmpxchgSlow f.rTag (f.rr.dst dst).locs (f.rr.src src).locs)
        (cmpxchgFast f.rTag (f.rr.src dst).locs s, dstVal == srcVal) := by
  cases f <;> rfl

theorem custom_cmpxchgM2r {S : Type*} [TagStore S T] (s : S) (f : WqForm) (dst : AddrInt)
    (src : Reg) (dstVal mem : AddrInt) :
    (Instr.cmpxchgM2r f dst src dstVal mem).custom s =
      complete (cmpxchgSlow f.rTag (f.rm.mem dst).locs (f.rm.reg src).locs)
        (cmpxchgFast f.rTag (f.rm.mem dst).locs s, f.memEq dstVal mem) := by
  cases f <;> simp only [WqForm.rm, RmForm.mem, ← m16Tag_eq, ← m64Tag_eq] <;> rfl

theorem sameTags_cmpxchgR2r (f : WqForm) {dst src : Reg} (hdst : dst ≠ gprScratch)
    (hsrc : src ≠ gprScratch) (dstVal srcVal : AddrInt) :
    SameTags ((Instr.cmpxchgR2r f dst src dstVal srcVal).custom s)
      ((cmpxchgR2rXfer f dst src (dstVal == srcVal)).custom s) := by
  have hdst' := f.rr.within_src hdst
  have hsrc' := f.rr.within_src hsrc
  rw [custom_cmpxchgR2r, cmpxchgR2rXfer, custom_r2rXfer]
  generalize (dstVal == srcVal) = equal
  have hcomplete := sameTags_complete f.rTag_eq f.size_le (s := s) (d := f.rr.dst dst) hdst' hsrc' equal
  cases equal with
  | true => exact hcomplete
  | false =>
    rw [WqForm.rTag_eq_dst f gprEax] at hcomplete
    exact hcomplete

theorem sameTags_cmpxchgM2r (f : WqForm) {dst : AddrInt} {src : Reg} (hdst : InSegment dst)
    (hsrc : src ≠ gprScratch) (dstVal mem : AddrInt) :
    SameTags ((Instr.cmpxchgM2r f dst src dstVal mem).custom s)
      ((cmpxchgM2rXfer f dst src (f.memEq dstVal mem)).custom s) := by
  rw [custom_cmpxchgM2r, cmpxchgM2rXfer]
  generalize f.memEq dstVal mem = equal
  have hcomplete := sameTags_complete f.rTag_eq f.size_le (s := s) (d := f.rm.mem dst)
    (f.rm.within_mem hdst) (f.rm.within_reg hsrc) equal
  cases equal with
  | true =>
    rw [if_pos rfl, custom_r2mXfer]
    exact hcomplete
  | false =>
    rw [WqForm.rTag_eq_reg f gprEax] at hcomplete
    rw [if_neg Bool.false_ne_true, custom_m2rXfer]
    exact hcomplete

theorem follows_cmpxchgR2r (h : Related s b) (f : WqForm) {dst src : Reg}
    (hdst : dst ≠ gprScratch) (hsrc : src ≠ gprScratch) (dstVal srcVal : AddrInt) :
    Follows (.cmpxchgR2r f dst src dstVal srcVal) s b := by
  have hxfer : Follows (cmpxchgR2rXfer f dst src (dstVal == srcVal)) s b.saveEax := by
    refine follows_r2rXfer (related_saveEax h) f.rr ?_ ?_
    · split
      · exact hdst
      · decide
    · split
      · exact hsrc
      · exact hdst
  obtain ⟨b', hb', h'⟩ := hxfer
  exact ⟨b', (bitmap_cmpxchgR2r f dst src dstVal srcVal).trans hb',
    (sameTags_cmpxchgR2r f hdst hsrc dstVal srcVal).related h'⟩

theorem follows_cmpxchgM2r (h : Related s b) (f : WqForm) {dst : AddrInt} {src : Reg}
    (hdst : InSegment dst) (hsrc : src ≠ gprScratch) (dstVal mem : AddrInt) :
    Follows (.cmpxchgM2r f dst src dstVal mem) s b := by
  have hsaved := related_saveEax h
  have hxfer : Follows (cmpxchgM2rXfer f dst src (f.memEq dstVal mem)) s b.saveEax := by
    rw [cmpxchgM2rXfer]
    split
    · exact follows_r2mXfer hsaved f.rm hdst hsrc
    · exact follows_m2rXfer hsaved f.rm (by decide) hdst
  obtain ⟨b', hb', h'⟩ := hxfer
  obtain ⟨b'', hv, -, -, -⟩ := related_virt2entry hsaved hdst
  exact ⟨b', (bitmap_cmpxchgM2r f dst src dstVal mem hv).trans hb',
    (sameTags_cmpxchgM2r f hdst hsrc dstVal mem).related h'⟩

theorem follows_of_inRange (h : Related s b) (i : Instr) (hi : i.InRange) : Follows i s b := by
  cases i with
  | r2rXfer f dst src => exact follows_r2rXfer h f hi.1 hi.2
  | m2rXfer f dst src => exact follows_m2rXfer h f hi.1 hi.2
  | r2mXfer f dst src => exact follows_r2mXfer h f hi.1 hi.2
  | m2mXfer f dst src => exact follows_m2mXfer h f hi.1 hi.2
  | r2rBinary f dst src => exact follows_r2rBinary h f hi.1 hi.2
  | m2rBinary f dst src => exact follows_m2rBinary h f hi.1 hi.2
  | r2mBinary f dst src => exact follows_r2mBinary h f hi.1 hi.2
  | rClr f reg => exact follows_rClr h f hi
  | movzxR2r f dst src => exact follows_movzxR2r h f hi.1 hi.2
  | movzxM2r f dst src => exact follows_movzxM2r h f hi.1 hi.2
  | xchgR2r f dst src => exact follows_xchgR2r h f hi.1 hi.2
  | xchgM2r f dst src => exact follows_xchgM2r h f hi.1 hi.2
  | xaddR2r f dst src => exact follows_xaddR2r h f hi.1 hi.2
  | xaddR2m f src dst => exact follows_xaddR2m h f hi.1 hi.2
  | leaR2r f dst base index => exact follows_leaR2r h f hi.1 hi.2.1 hi.2.2
  | r2rTernary f src => exact follows_r2rTernary h f hi
  | m2rTernary f src => exact follows_m2rTernary h f hi
  | cmpxchgR2r f dst src v w => exact follows_cmpxchgR2r h f hi.1 hi.2 v w
  | cmpxchgM2r f dst src v w => exact follows_cmpxchgM2r h f hi.1 hi.2 v w

/-- Runs of the two builds from related states end in related states. -/
theorem related_run (is : List Instr) (his : ∀ i ∈ is, i.InRange) (h : Related s b) :
    ∃ b', runBitmap is b = some b' ∧ Related (runCustom is s) b' := by
  induction is generalizing s b with
  | nil => exact ⟨b, rfl, h⟩
  | cons i is ih =>
    obtain ⟨b₁, hb₁, h₁⟩ := follows_of_inRange h i (his i List.mem_cons_self)
    obtain ⟨b', hb', h'⟩ := ih (fun j hj ↦ his j (List.mem_cons_of_mem i hj)) h₁
    refine ⟨b', ?_, h'⟩
    rw [runBitmap, List.foldlM_cons, hb₁]
    exact hb'

theorem related_run_tagged_ah :
    let is : List Instr := [.r2mXfer .opw 0x3FFF7 gprEax, .m2rBinary .opbU gprEdx 0x3FFF8]
    ∃ b', runBitmap is ((Field.reg gprEax 1 1).write .cleared 1) = some b' ∧
      Related (runCustom is (storeTags (TagState.cleared : TagState (Finset ℕ))
        (Field.reg gprEax 1 1).locs [{3}])) b' := by
  have htag : Matches [({3} : Finset ℕ)] (Field.reg gprEax 1 1).size 1 := by
    refine ⟨rfl, (fits_iff_toNat_lt 1 _).2 (by decide), fun i hi ↦ ?_⟩
    obtain rfl := Nat.lt_one_iff.1 hi
    simp
  have hah : (Field.reg gprEax 1 1).Within := ⟨by decide, by decide⟩
  exact related_run _ (by decide) (related_store related_cleared hah trivial htag)

end Runs

end TheiaTaint.Engine
