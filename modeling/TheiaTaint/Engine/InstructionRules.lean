import Mathlib
import TheiaTaint.Engine.InstructionFlow

namespace TheiaTaint.Engine

open Foundations.History Foundations.Moves Foundations.Assign Tags.Directory ZeroExtension

variable {T : Type*} [SemilatticeSup T] [OrderBot T]

def SameOffScratch (s s' : TagState T) : Prop := ∀ l : Loc, l.Kept → s.get l = s'.get l

section Fits

def Field.Kept (f : Field) : Prop := ∀ i < f.size, (f.loc i).Kept

theorem PinReg.kept_field (reg : PinReg) : reg.field.Kept :=
  fun _ hi j ↦ reg.field_loc_ne_scratch hi j

theorem Field.kept_mem (addr : AddrInt) (n : ℕ) : (Field.mem addr n).Kept :=
  fun _ _ _ ↦ Loc.noConfusion

theorem Operands.kept_dst (ops : Operands) : ops.dst.Kept := by
  intro i hi
  rw [ops.size_dst] at hi
  exact ops.dst_loc_ne_scratch hi

/-- An operand that is read has the bytes that are written, and none of them is in the
scratch register. -/
def Origin.Fits (d : Field) : Origin → Prop
  | .clean => True
  | .tags f => f.size = d.size ∧ f.Kept
  | .both f g => (f.size = d.size ∧ f.Kept) ∧ g.size = d.size ∧ g.Kept
  | .zeroExtended f => f.size ≤ d.size ∧ f.Kept

def Origin.block (d : Field) : Origin → Block Loc
  | .clean => Shape.clr d.locs
  | .tags f => Shape.xfer d.locs f.locs
  | .both f g => Shape.combineInto d.locs f.locs g.locs
  | .zeroExtended f => Shape.extend d.locs f.locs

theorem Origin.tag_congr {s s' : TagState T} (h : SameOffScratch s s') {d : Field} {o : Origin}
    (ho : o.Fits d) {i : ℕ} (hi : i < d.size) : o.tag s i = o.tag s' i := by
  cases o with
  | clean => rfl
  | tags f => exact h _ (ho.2 i (ho.1.symm ▸ hi))
  | both f g =>
    have hf := h _ (ho.1.2 i (ho.1.1.symm ▸ hi))
    have hg := h _ (ho.2.2 i (ho.2.1.symm ▸ hi))
    rw [Origin.tag, Origin.tag, hf, hg]
  | zeroExtended f =>
    by_cases hlt : i < f.size
    · rw [Origin.tag, Origin.tag, if_pos hlt, if_pos hlt]
      exact h _ (ho.2 i hlt)
    · rw [Origin.tag, Origin.tag, if_neg hlt, if_neg hlt]

end Fits

section Same

variable {s s' s'' : TagState T} {d : Field} {tag u : ℕ → T}

theorem SameOffScratch.refl (s : TagState T) : SameOffScratch s s := fun _ _ ↦ rfl

theorem SameOffScratch.of_eq (h : s = s') : SameOffScratch s s' := h ▸ .refl s

theorem SameOffScratch.symm (h : SameOffScratch s s') : SameOffScratch s' s :=
  fun l hl ↦ (h l hl).symm

theorem SameOffScratch.trans (h : SameOffScratch s s') (h' : SameOffScratch s' s'') :
    SameOffScratch s s'' := fun l hl ↦ (h l hl).trans (h' l hl)

theorem SameOffScratch.write (h : SameOffScratch s s') (htag : ∀ i < d.size, tag i = u i) :
    SameOffScratch (s.write d tag) (s'.write d u) := by
  intro l hl
  have hwrite : s.write d tag = s.write d u := FieldBlocks.write_congr htag
  rw [hwrite, TagState.write, TagState.write, FieldBlocks.write, FieldBlocks.write,
    ← writeAll_zip, ← writeAll_zip, aliased.get_writeAll, aliased.get_writeAll, h l hl]

theorem sameOffScratch_write_scratch (s : TagState T) (o n : ℕ) (tag : ℕ → T) :
    SameOffScratch (s.write (.reg gprScratch o n) tag) s := by
  intro l hl
  apply get_write_of_loc_ne
  intro i _ hloc
  exact hl _ hloc.symm

theorem SameOffScratch.foldl_write {u u' : TagState T} (h : SameOffScratch s s') {r : Rule}
    (hr : ∀ w ∈ r, w.2.Fits w.1) (hu : SameOffScratch u u') :
    SameOffScratch (r.foldl (fun s₁ w ↦ s₁.write w.1 (w.2.tag s)) u)
      (r.foldl (fun s₁ w ↦ s₁.write w.1 (w.2.tag s')) u') := by
  induction r generalizing u u' with
  | nil => exact hu
  | cons w r ih =>
    have hw := hr w List.mem_cons_self
    apply ih fun w' hw' ↦ hr w' (List.mem_cons_of_mem w hw')
    exact hu.write fun i hi ↦ Origin.tag_congr h hw hi

theorem SameOffScratch.apply (h : SameOffScratch s s') {r : Rule}
    (hr : ∀ w ∈ r, w.2.Fits w.1) : SameOffScratch (r.apply s) (r.apply s') :=
  h.foldl_write hr h

end Same

section Calls

variable {s : TagState T} {h : Handler} {d f : Field} {o : Origin}

theorem run_of_block (hp : h.program = [o.block d]) (ho : o.Fits d) :
    h.run s = s.write d (o.tag s) := by
  cases o with
  | clean => exact run_of_clr hp
  | tags f => exact run_of_xfer hp ho.1
  | both f g => exact run_of_combineInto hp ho.1.1 ho.2.1
  | zeroExtended f => exact run_of_extend hp ho.1

theorem same_of_block (hp : h.program = [o.block d]) (hfits : ∀ w ∈ [(d, o)], w.2.Fits w.1) :
    SameOffScratch (h.run s) (Rule.apply [(d, o)] s) := by
  rw [run_of_block hp (hfits _ List.mem_cons_self)]
  exact .refl _

/-- The operands cleared by one call, or by one call each. -/
def cleanAll (fs : List Field) (s : TagState T) : TagState T :=
  fs.foldl (fun s f ↦ s.write f fun _ ↦ clearedVal) s

theorem apply_clean (fs : List Field) (s : TagState T) :
    Rule.apply (fs.map fun f ↦ (f, .clean)) s = cleanAll fs s := by
  rw [Rule.apply, List.foldl_map]
  rfl

theorem store_append (ls ks : List Loc) (ts us : List T) (hlen : ls.length = ts.length) :
    store TagState.set s (ls ++ ks) (ts ++ us) =
      store TagState.set (store TagState.set s ls ts) ks us := by
  rw [← writeAll_zip, ← writeAll_zip, ← writeAll_zip, List.zip_append hlen, writeAll, writeAll,
    writeAll, List.foldl_append]

theorem write_clean (s : TagState T) (f : Field) :
    s.write f (fun _ ↦ clearedVal) =
      store TagState.set s f.locs (List.replicate f.locs.length clearedVal) := by
  rw [TagState.write, FieldBlocks.write, List.map_const', List.length_range, Field.length_locs]

theorem store_clean (fs : List Field) (s : TagState T) :
    store TagState.set s (fs.flatMap Field.locs)
      (List.replicate (fs.flatMap Field.locs).length clearedVal) = cleanAll fs s := by
  induction fs generalizing s with
  | nil => rfl
  | cons f fs ih =>
    have hlen : f.locs.length = (List.replicate f.locs.length (clearedVal : T)).length :=
      List.length_replicate.symm
    rw [List.flatMap_cons, List.length_append, List.replicate_add, store_append _ _ _ _ hlen, ih,
      ← write_clean]
    rfl

theorem run_of_clrAll (fs : List Field) (hp : h.program = [Shape.clr (fs.flatMap Field.locs)]) :
    h.run s = cleanAll fs s := by
  rw [computes_run h s, hp, runBlocks_singleton, Shape.clr, assign_zip, map_eval_bots]
  exact store_clean fs s

theorem tagmapClr_run (len : MemLen) (addr : AddrInt) (s : TagState T) :
    (InsertedCall.tagmapClr len addr).run s = s.write (.mem addr len.bytes) fun _ ↦ clearedVal := by
  rw [write_clean]
  cases len with
  | byte =>
    rw [MemLen.bytes, ← m8Tag_eq]
    rfl
  | word =>
    rw [MemLen.bytes, ← m16Tag_eq]
    rfl
  | long =>
    rw [MemLen.bytes, ← m32Tag_eq]
    simp [InsertedCall.run, tagmapClrl, tagmapClrw, tagmapClrb, m32Tag, store, BitVec.add_assoc]
  | quad =>
    rw [MemLen.bytes, ← m64Tag_eq]
    simp [InsertedCall.run, tagmapClrq, tagmapClrl, tagmapClrw, tagmapClrb, m64Tag, store,
      BitVec.add_assoc]

end Calls

section RuleFits

variable {w : Field × Origin}

theorem fits_singleton {d : Field} {o : Origin} (h : o.Fits d) :
    ∀ w ∈ [(d, o)], w.2.Fits w.1 := by
  intro w hw
  rw [List.mem_singleton.1 hw]
  exact h

theorem fits_pair {d e : Field} {o p : Origin} (h : o.Fits d) (h' : p.Fits e) :
    ∀ w ∈ [(d, o), (e, p)], w.2.Fits w.1 := by
  intro w hw
  obtain rfl | hw := List.mem_cons.1 hw
  · exact h
  · exact fits_singleton h' w hw

theorem fits_clean (fs : List Field) : ∀ w ∈ fs.map fun f ↦ (f, Origin.clean), w.2.Fits w.1 := by
  intro w hw
  obtain ⟨f, -, rfl⟩ := List.mem_map.1 hw
  trivial

theorem fits_nil : ∀ w ∈ ([] : Rule), w.2.Fits w.1 := fun _ hw ↦ absurd hw List.not_mem_nil

theorem PinReg.accumulatorOf_size (len : MemLen) : (accumulatorOf len).size = len.bytes := by
  cases len <;> rfl

theorem PinReg.sp_size {len : MemLen} (hlen : 2 ≤ len.bytes) : (sp len).size = len.bytes := by
  cases len with
  | byte => exact absurd hlen (by decide)
  | word | long | quad => rfl

theorem PinReg.bp_size {len : MemLen} (hlen : 2 ≤ len.bytes) : (bp len).size = len.bytes := by
  cases len with
  | byte => exact absurd hlen (by decide)
  | word | long | quad => rfl

theorem TwoOperands.fits_alu (op : AluOp) (ops : TwoOperands) :
    ∀ w ∈ (Ins.alu op ops).rule, w.2.Fits w.1 := by
  cases ops with
  | rm ops =>
    cases ops with
    | r2r dst src hdst hsize =>
      rw [Ins.rule]
      split
      · exact fits_singleton trivial
      · exact fits_singleton ⟨⟨rfl, dst.kept_field⟩, hsize, src.kept_field⟩
    | r2m dst src hsrc => exact fits_singleton ⟨⟨rfl, Field.kept_mem _ _⟩, rfl, src.kept_field⟩
  | m2r dst hdst src => exact fits_singleton ⟨⟨rfl, Field.kept_mem _ _⟩, rfl, dst.kept_field⟩

theorem TwoOperands.fits_mov (ops : TwoOperands) : ∀ w ∈ (Ins.mov ops).rule, w.2.Fits w.1 := by
  cases ops with
  | rm ops => exact fits_singleton ⟨ops.size_dst.symm, ops.reg.kept_field⟩
  | m2r dst hdst src => exact fits_singleton ⟨rfl, Field.kept_mem _ _⟩

theorem TwoOperands.fits_xchg (ops : TwoOperands) :
    ∀ w ∈ (Ins.xchg ops).rule, w.2.Fits w.1 := by
  cases ops with
  | rm ops =>
    exact fits_pair ⟨ops.size_dst, ops.kept_dst⟩ ⟨ops.size_dst.symm, ops.reg.kept_field⟩
  | m2r dst hdst src => exact fits_pair ⟨rfl, dst.kept_field⟩ ⟨rfl, Field.kept_mem _ _⟩

theorem fits_cmpxchg (v : Values) (ops : Operands) :
    ∀ w ∈ (Ins.cmpxchg v ops).rule, w.2.Fits w.1 := by
  rw [Ins.rule]
  split
  · exact fits_nil
  · split
    · exact fits_singleton ⟨ops.size_dst.symm, ops.reg.kept_field⟩
    · exact fits_singleton ⟨ops.size_dst, ops.kept_dst⟩

theorem fits_sse (vectorReads : List Bool) (memWrite : Option (AddrInt × BitVec 32))
    (regWrites : List PinReg) :
    ∀ w ∈ (Ins.sse vectorReads memWrite regWrites).rule, w.2.Fits w.1 := by
  rw [Ins.rule]
  split
  · intro w hw
    obtain hw | hw := List.mem_append.1 hw
    · obtain ⟨m, -, rfl⟩ := List.mem_map.1 hw
      trivial
    · obtain ⟨reg, -, rfl⟩ := List.mem_map.1 hw
      trivial
  · exact fits_nil

theorem Ins.rule_fits (i : Ins) : ∀ w ∈ i.rule, w.2.Fits w.1 := by
  cases i with
  | alu op ops => exact ops.fits_alu op
  | mov ops => exact ops.fits_mov
  | aluImm => exact fits_nil
  | movImmReg | movImmMem | setccReg | setccMem | stmxcsr | smswReg | smswMem | lar | lahf | salc
  | pushImm | pushf | call => exact fits_singleton trivial
  | rdtsc => exact fits_clean [.reg gprEdx 0 8, .reg gprEax 0 8]
  | cpuid =>
    exact fits_clean [.reg gprEbx 0 8, .reg gprEdx 0 8, .reg gprEcx 0 8, .reg gprEax 0 8]
  | cmovR2r taken dst src hdst hsize =>
    cases taken with
    | false => exact fits_nil
    | true => exact fits_singleton ⟨hsize, src.kept_field⟩
  | cmovM2r taken dst hdst src =>
    cases taken with
    | false => exact fits_nil
    | true => exact fits_singleton ⟨rfl, Field.kept_mem _ _⟩
  | cbw => exact fits_singleton ⟨rfl, PinReg.al.kept_field⟩
  | cwd => exact fits_singleton ⟨rfl, PinReg.ax.kept_field⟩
  | cdq => exact fits_singleton ⟨rfl, PinReg.eax.kept_field⟩
  | cqo => exact fits_singleton ⟨rfl, PinReg.rax.kept_field⟩
  | movzxR2r dst src hsrc hsize => exact fits_singleton ⟨hsize.le, src.kept_field⟩
  | movzxM2r dst readSize hread hsize src =>
    exact fits_singleton ⟨hsize.le, Field.kept_mem _ _⟩
  | imulR2r dst src hdst hsize =>
    exact fits_singleton ⟨⟨rfl, dst.kept_field⟩, hsize, src.kept_field⟩
  | imulM2r dst hdst src => exact fits_singleton ⟨⟨rfl, Field.kept_mem _ _⟩, rfl, dst.kept_field⟩
  | cmpxchg v ops => exact fits_cmpxchg v ops
  | xchg ops => exact ops.fits_xchg
  | xadd x =>
    exact fits_pair ⟨⟨rfl, x.ops.kept_dst⟩, x.ops.size_dst.symm, x.ops.reg.kept_field⟩
      ⟨x.ops.size_dst, x.ops.kept_dst⟩
  | xlat src => exact fits_singleton ⟨rfl, Field.kept_mem _ _⟩
  | lods len taken src =>
    cases taken with
    | false => exact fits_nil
    | true =>
      exact fits_singleton ⟨(PinReg.accumulatorOf_size len).symm, Field.kept_mem _ _⟩
  | stos len dst =>
    exact fits_singleton ⟨PinReg.accumulatorOf_size len, PinReg.kept_field _⟩
  | movs len taken dst src =>
    cases taken with
    | false => exact fits_nil
    | true => exact fits_singleton ⟨rfl, Field.kept_mem _ _⟩
  | popReg dst hdst src => exact fits_singleton ⟨rfl, Field.kept_mem _ _⟩
  | pushReg src hsrc dst => exact fits_singleton ⟨rfl, src.kept_field⟩
  | stackMem len hlen dst src => exact fits_singleton ⟨rfl, Field.kept_mem _ _⟩
  | leave len hlen src =>
    have hsize : (PinReg.bp len).size = (PinReg.sp len).size :=
      (PinReg.bp_size hlen).trans (PinReg.sp_size hlen).symm
    exact fits_pair ⟨hsize, PinReg.kept_field _⟩
      ⟨(PinReg.bp_size hlen).symm, Field.kept_mem _ _⟩
  | sse vectorReads memWrite regWrites => exact fits_sse vectorReads memWrite regWrites

end RuleFits

section Exchanges

variable {s : TagState T}

theorem get_write_congr {s' : TagState T} {d : Field} {tag : ℕ → T} {l : Loc}
    (h : s.get l = s'.get l) : (s.write d tag).get l = (s'.write d tag).get l := by
  rw [TagState.write, TagState.write, FieldBlocks.write, FieldBlocks.write, ← writeAll_zip,
    ← writeAll_zip, aliased.get_writeAll, aliased.get_writeAll, h]

theorem get_write_reg_of_mem {addr : AddrInt} {n : ℕ} {tag : ℕ → T} (r : Reg) (j : Fin 8) :
    (s.write (.mem addr n) tag).get (.reg r j) = s.get (.reg r j) := by
  apply FieldBlocks.get_write_of_ne aliased
  intro i _
  exact Cell.noConfusion

theorem PinReg.exists_field (reg : PinReg) : ∃ r o n, reg.field = .reg r o n := by
  cases reg <;> exact ⟨_, _, _, rfl⟩

theorem write_comm (reg : PinReg) (addr : AddrInt) (n : ℕ) (tag u : ℕ → T) :
    SameOffScratch ((s.write (.mem addr n) u).write reg.field tag)
      ((s.write reg.field tag).write (.mem addr n) u) := by
  obtain ⟨r, o, m, hreg⟩ := reg.exists_field
  rw [hreg]
  intro l _
  cases l with
  | reg r' j =>
    rw [get_write_reg_of_mem]
    exact get_write_congr (get_write_reg_of_mem r' j)
  | mem addr' =>
    rw [get_write_mem_of_reg]
    exact (get_write_congr (get_write_mem_of_reg addr')).symm

theorem run_of_xchg {h : Handler} {d f : Field} (hp : h.program = [Shape.xchg d.locs f.locs])
    (hf : f.size = d.size) :
    h.run s = (s.write f fun i ↦ s.get (d.loc i)).write d fun i ↦ s.get (f.loc i) := by
  rw [computes_run h s, hp]
  exact FieldBlocks.runBlocks_xchg hf

theorem same_xchg (ops : TwoOperands) (s : TagState T) :
    SameOffScratch ((Ins.xchg ops).run s) ((Ins.xchg ops).rule.apply s) := by
  cases ops with
  | rm ops =>
    cases ops with
    | r2r dst src hdst hsize =>
      obtain ⟨h, hh, hprogram⟩ := inspectR2r_program .xchgR2r .xchgR2rOpl
        (fun d f ↦ [Shape.xchg d f]) (fun _ _ _ ↦ rfl) (fun _ _ ↦ rfl) hdst hsize
      have hrun : (Ins.xchg (.rm (.r2r dst src hdst hsize))).run s = h.run s := by
        simp only [Ins.run, Ins.calls, inspectXchg, hh]
        rfl
      exact .of_eq (hrun.trans (run_of_xchg hprogram hsize))
    | r2m dst src hsrc =>
      have hprogram := inspectMem_program .xchgM2r .xchgM2rOpl
        (fun d f ↦ [Shape.xchg d f]) (fun _ _ _ ↦ rfl) (fun _ _ ↦ rfl) hsrc dst
      exact .trans (.of_eq (run_of_xchg hprogram rfl)) (write_comm src dst src.size _ _)
  | m2r dst hdst src =>
    have hprogram := inspectMem_program .xchgM2r .xchgM2rOpl
      (fun d f ↦ [Shape.xchg d f]) (fun _ _ _ ↦ rfl) (fun _ _ ↦ rfl) hdst src
    exact .of_eq (run_of_xchg hprogram rfl)

theorem run_of_xadd {h : Handler} {d f : Field} (hp : h.program = [Shape.xadd d.locs f.locs])
    (hf : f.size = d.size) :
    h.run s = (s.write d fun i ↦ tagCombine (s.get (d.loc i)) (s.get (f.loc i))).write f
      fun i ↦ s.get (d.loc i) := by
  rw [computes_run h s, hp]
  exact FieldBlocks.runBlocks_xadd hf

theorem run_of_xaddMem {h : Handler} {d f : Field}
    (hp : h.program = [Shape.xaddMem f.locs d.locs]) (hf : f.size = d.size) :
    h.run s = (s.write f fun i ↦ s.get (d.loc i)).write d
      fun i ↦ tagCombine (s.get (d.loc i)) (s.get (f.loc i)) := by
  rw [computes_run h s, hp]
  refine (FieldBlocks.runBlocks_xaddMem hf).trans (FieldBlocks.write_congr fun i _ ↦ ?_)
  exact sup_comm _ _

theorem same_xadd (x : Xadd) (s : TagState T) :
    SameOffScratch ((Ins.xadd x).run s) ((Ins.xadd x).rule.apply s) := by
  obtain ⟨ops, hapart⟩ := x
  cases ops with
  | r2r dst src hdst hsize =>
    obtain ⟨h, hh, hprogram⟩ := inspectR2r_program .xaddR2r .xaddR2rOpl
      (fun d f ↦ [Shape.xadd d f]) (fun _ _ _ ↦ rfl) (fun _ _ ↦ rfl) hdst hsize
    have hrun : (Ins.xadd ⟨.r2r dst src hdst hsize, hapart⟩).run s = h.run s := by
      simp only [Ins.run, Ins.calls, Xadd.inspect, hh]
      rfl
    exact .of_eq (hrun.trans (run_of_xadd hprogram hsize))
  | r2m dst src hsrc =>
    have hprogram := inspectMem_program .xaddR2m .xaddR2mOpl
      (fun f d ↦ [Shape.xaddMem f d]) (fun _ _ _ ↦ rfl) (fun _ _ ↦ rfl) hsrc dst
    exact .trans (.of_eq (run_of_xaddMem hprogram rfl)) (write_comm src dst src.size _ _).symm

/-- The state in which the fast path has saved the accumulator. -/
def saved (n : ℕ) (s : TagState T) : TagState T :=
  let s₁ := s.write (.reg gprScratch 0 8) fun _ ↦ clearedVal
  s₁.write (.reg gprScratch 0 n) fun i ↦ s₁.get ((accField n).loc i)

theorem same_saved (n : ℕ) (s : TagState T) : SameOffScratch (saved n s) s :=
  (sameOffScratch_write_scratch _ 0 n _).trans (sameOffScratch_write_scratch _ 0 8 _)

theorem get_saved_scratch {n : ℕ} (hn : n ≤ 8) {i : ℕ} (hi : i < n) :
    (saved n s).get ((Field.reg gprScratch 0 n).loc i) = s.get ((accField n).loc i) := by
  rw [saved, get_write_reg_loc ((Nat.zero_add n).trans_le hn) hi]
  exact sameOffScratch_write_scratch s 0 8 _ _ (kept_accField n i)

theorem runBlocks_fast {n : ℕ} {d : Field} (hsize : d.size = n) :
    runBlocks TagState.get TagState.set (fastBlocks n d) s =
      (saved n s).write (accField n) fun i ↦ (saved n s).get (d.loc i) := by
  have hclear : ∀ s : TagState T, runBlocks TagState.get TagState.set
      [Shape.clr (Field.reg gprScratch 0 8).locs] s =
        s.write (.reg gprScratch 0 8) fun _ ↦ clearedVal := fun _ ↦ FieldBlocks.runBlocks_clr
  have hsave : ∀ s : TagState T, runBlocks TagState.get TagState.set
      [Shape.xfer (Field.reg gprScratch 0 n).locs (accField n).locs] s =
        s.write (.reg gprScratch 0 n) fun i ↦ s.get ((accField n).loc i) :=
    fun _ ↦ FieldBlocks.runBlocks_xfer rfl
  have hload : ∀ s : TagState T, runBlocks TagState.get TagState.set
      [Shape.xfer (accField n).locs d.locs] s =
        s.write (accField n) fun i ↦ s.get (d.loc i) :=
    fun _ ↦ FieldBlocks.runBlocks_xfer hsize
  have hsteps : runBlocks TagState.get TagState.set (fastBlocks n d) s =
      runBlocks TagState.get TagState.set [Shape.xfer (accField n).locs d.locs]
        (runBlocks TagState.get TagState.set
          [Shape.xfer (Field.reg gprScratch 0 n).locs (accField n).locs]
          (runBlocks TagState.get TagState.set
            [Shape.clr (Field.reg gprScratch 0 8).locs] s)) := rfl
  rw [hsteps, hclear, hsave, hload]
  rfl

/-- The state in which the slow path has given the accumulator back. -/
def restored (n : ℕ) (s : TagState T) : TagState T :=
  s.write (accField n) fun i ↦ s.get ((Field.reg gprScratch 0 n).loc i)

theorem same_restored {n : ℕ} (hn : n ≤ 8) (tag : ℕ → T) :
    SameOffScratch (restored n ((saved n s).write (accField n) tag)) s := by
  intro l hl
  by_cases hacc : ∃ i < n, (accField n).loc i = l
  · obtain ⟨i, hi, rfl⟩ := hacc
    have hapart : gprEax ≠ gprScratch := by decide
    rw [restored, accField, get_write_reg_loc ((Nat.zero_add n).trans_le hn) hi, Field.loc,
      get_write_other_reg hapart]
    exact get_saved_scratch hn hi
  · push Not at hacc
    rw [restored, accField, get_write_of_loc_ne hacc, get_write_of_loc_ne hacc]
    exact same_saved n s l hl

theorem runBlocks_slow {n : ℕ} {d f : Field} (hsize : f.size = d.size) :
    runBlocks TagState.get TagState.set (slowBlocks n d f) s =
      (restored n s).write d fun i ↦ (restored n s).get (f.loc i) := by
  have hrestore : runBlocks TagState.get TagState.set
      [Shape.xfer (accField n).locs (Field.reg gprScratch 0 n).locs] s = restored n s :=
    FieldBlocks.runBlocks_xfer rfl
  have hsteps : runBlocks TagState.get TagState.set (slowBlocks n d f) s =
      runBlocks TagState.get TagState.set [Shape.xfer d.locs f.locs]
        (runBlocks TagState.get TagState.set
          [Shape.xfer (accField n).locs (Field.reg gprScratch 0 n).locs] s) := rfl
  rw [hsteps, hrestore]
  exact FieldBlocks.runBlocks_xfer hsize

theorem same_cmpxchg (v : Values) (ops : Operands) (s : TagState T) :
    SameOffScratch ((Ins.cmpxchg v ops).run s) ((Ins.cmpxchg v ops).rule.apply s) := by
  by_cases hsize : ops.size = 1
  · rw [Ins.run, inspectCmpxchg_eq_none v ops hsize, Ins.rule, if_pos hsize]
    exact .refl s
  · obtain ⟨p, hp, hequal, hfast, hslow⟩ := inspectCmpxchg_program (T := T) v ops hsize
    have hn : ops.size ≤ 8 := ops.reg.size_le
    have hrun : (Ins.cmpxchg v ops).run s =
        runBlocks TagState.get TagState.set (p.program (ops.equal v)) s := by
      rw [Ins.run, hp]
      exact IfThen.computes hequal s
    rw [hrun, IfThen.program, hfast, Ins.rule, if_neg hsize]
    cases ops.equal v with
    | false =>
      rw [if_neg Bool.false_ne_true, if_neg Bool.false_ne_true, List.append_nil,
        runBlocks_fast ops.size_dst]
      apply (same_saved ops.size s).write
      intro i hi
      exact same_saved ops.size s _ (ops.dst_loc_ne_scratch hi)
    | true =>
      have hsizes : ops.src.size = ops.dst.size := ops.size_dst.symm
      rw [if_pos rfl, if_pos rfl, hslow, runBlocks, List.foldl_append, ← runBlocks, ← runBlocks,
        runBlocks_fast ops.size_dst, runBlocks_slow hsizes]
      apply (same_restored hn _).write
      intro i hi
      rw [ops.size_dst] at hi
      exact same_restored hn _ _ (ops.src_loc_ne_scratch hi)

theorem run_of_moves {h h' : Handler} {r : Reg} {o n m : ℕ} {f e : Field} {addr : AddrInt}
    (hp : h.program = [Shape.xfer (Field.reg r o n).locs f.locs])
    (hp' : h'.program = [Shape.xfer e.locs (Field.mem addr m).locs]) (hf : f.size = n)
    (he : m = e.size) :
    h'.run (h.run s) = Rule.apply [(.reg r o n, .tags f), (e, .tags (.mem addr m))] s := by
  rw [run_of_xfer hp hf, run_of_xfer hp' he]
  apply FieldBlocks.write_congr
  intro i _
  exact get_write_mem_of_reg _

theorem same_of_scratch {h : Handler} {o n : ℕ} {f : Field}
    (hp : h.program = [Shape.xfer (Field.reg gprScratch o n).locs f.locs]) (hf : f.size = n) :
    SameOffScratch (h.run s) s := by
  rw [run_of_xfer hp hf]
  exact sameOffScratch_write_scratch s o n _

/-- The word form that `LEAVE` inserts after the quad form works on the scratch register. -/
theorem same_leave {len : MemLen} (hlen : 2 ≤ len.bytes) (src : AddrInt) (s : TagState T) :
    SameOffScratch ((Ins.leave len hlen src).run s) ((Ins.leave len hlen src).rule.apply s) := by
  cases len with
  | byte => exact absurd hlen (by decide)
  | word =>
    have hcopy : (Handler.narrow (.r2rXfer .opw gprEsp gprEbp)).program =
        [Shape.xfer (Field.reg gprEsp 0 2).locs (Field.reg gprEbp 0 2).locs] := rfl
    have hload : (Handler.narrow (.m2rXfer .opw gprEbp src)).program =
        [Shape.xfer (Field.reg gprEbp 0 2).locs (Field.mem src 2).locs] := rfl
    exact .of_eq (run_of_moves hcopy hload rfl rfl)
  | long =>
    have hcopy : (Handler.long (.r2rXferOpl gprEsp gprEbp)).program =
        [Shape.xfer (Field.reg gprEsp 0 4).locs (Field.reg gprEbp 0 4).locs] := rfl
    have hload : (Handler.long (.m2rXferOpl gprEbp src)).program =
        [Shape.xfer (Field.reg gprEbp 0 4).locs (Field.mem src 4).locs] := by
      rw [← m32Tag_eq]
      rfl
    exact .of_eq (run_of_moves hcopy hload rfl rfl)
  | quad =>
    have hsp : (PinReg.sp .quad).reg64Indx = gprEsp := PinReg.reg64Indx_gr64 3
    have hbp : (PinReg.bp .quad).reg64Indx = gprEbp := PinReg.reg64Indx_gr64 2
    have hcopy : (Handler.narrow (.r2rXfer .opq gprEsp gprEbp)).program =
        [Shape.xfer (Field.reg gprEsp 0 8).locs (Field.reg gprEbp 0 8).locs] := rfl
    have hload : (Handler.narrow (.m2rXfer .opq gprEbp src)).program =
        [Shape.xfer (Field.reg gprEbp 0 8).locs (Field.mem src 8).locs] := rfl
    have hcopyWord : (Handler.narrow (.r2rXfer .opw gprScratch gprScratch)).program =
        [Shape.xfer (Field.reg gprScratch 0 2).locs (Field.reg gprScratch 0 2).locs] := rfl
    have hloadWord : (Handler.narrow (.m2rXfer .opw gprScratch src)).program =
        [Shape.xfer (Field.reg gprScratch 0 2).locs (Field.mem src 2).locs] := rfl
    simp only [Ins.run, Ins.calls, inspectLeave, hsp, hbp]
    apply (same_of_scratch hloadWord rfl).trans
    apply (same_of_scratch hcopyWord rfl).trans
    exact .of_eq (run_of_moves hcopy hload rfl rfl)

theorem foldl_clears {α : Type*} (c : α → InsertedCall) (f : α → Field) (xs : List α)
    (h : ∀ x ∈ xs, ∀ s : TagState T, (c x).run s = s.write (f x) fun _ ↦ clearedVal)
    (s : TagState T) :
    (xs.map c).foldl (fun s c ↦ c.run s) s = cleanAll (xs.map f) s := by
  induction xs generalizing s with
  | nil => rfl
  | cons x xs ih =>
    have hx := h x List.mem_cons_self s
    rw [List.map_cons, List.foldl_cons, ih fun y hy ↦ h y (List.mem_cons_of_mem x hy), hx]
    rfl

theorem PinReg.general_of_isGr {reg : PinReg} (h : reg.isGr = true) : reg.General := by
  cases reg with
  | gr64 r | gr32 r | gr16 r | lower8 r | upper8 r => simp [General, size, field, Field.size]
  | invalid | rip | ip | eip => cases h

theorem same_sse (vectorReads : List Bool) (memWrite : Option (AddrInt × BitVec 32))
    (regWrites : List PinReg) (s : TagState T) :
    SameOffScratch ((Ins.sse vectorReads memWrite regWrites).run s)
      ((Ins.sse vectorReads memWrite regWrites).rule.apply s) := by
  have hmem : ∀ m ∈ memWrite.toList, ∀ s : TagState T,
      (InsertedCall.handler (.mClrn m.1 m.2)).run s =
        s.write (.mem m.1 m.2.toNat) fun _ ↦ clearedVal := by
    intro m _ s
    have hclear : (Handler.mClrn m.1 m.2).program =
        [Shape.clr (Field.mem m.1 m.2.toNat).locs] := rfl
    exact run_of_clr hclear
  have hreg : ∀ reg ∈ regWrites.filter PinReg.isGr, ∀ s : TagState T,
      (InsertedCall.handler (inspectClr reg)).run s = s.write reg.field fun _ ↦ clearedVal := by
    intro reg hmem s
    exact run_of_clr (inspectClr_program (PinReg.general_of_isGr (List.mem_filter.1 hmem).2))
  apply SameOffScratch.of_eq
  simp only [Ins.run, Ins.calls, inspectSse, Ins.rule]
  by_cases hvector : vectorReads.any id = true
  · rw [if_pos hvector, if_pos hvector, List.foldl_append, foldl_clears _ _ _ hmem,
      foldl_clears _ _ _ hreg, Rule.apply, List.foldl_append, cleanAll, cleanAll, List.foldl_map,
      List.foldl_map, List.foldl_map, List.foldl_map]
    rfl
  · rw [if_neg hvector, if_neg hvector]
    rfl

end Exchanges

theorem same_alu (op : AluOp) (ops : TwoOperands) (s : TagState T) :
    SameOffScratch ((Ins.alu op ops).run s) ((Ins.alu op ops).rule.apply s) := by
  have hfits := ops.fits_alu op
  cases ops with
  | rm ops =>
    cases ops with
    | r2r dst src hdst hsize =>
      have hprogram := inspectAlu_program op hdst hsize
      rw [Ins.rule] at hfits ⊢
      by_cases hclear : op.clears ∧ dst = src
      · rw [if_pos hclear] at hprogram hfits ⊢
        exact same_of_block hprogram hfits
      · rw [if_neg hclear] at hprogram hfits ⊢
        exact same_of_block hprogram hfits
    | r2m dst src hsrc => exact same_of_block (inspectR2mBinary_program dst hsrc) hfits
  | m2r dst hdst src =>
    have hprogram := inspectMem_program .m2rBinary .m2rBinaryOpl
      (fun d f ↦ [Shape.combineInto d f d]) (fun _ _ _ ↦ rfl) (fun _ _ ↦ rfl) hdst src
    exact same_of_block hprogram hfits

theorem same_mov (ops : TwoOperands) (s : TagState T) :
    SameOffScratch ((Ins.mov ops).run s) ((Ins.mov ops).rule.apply s) := by
  have hfits := ops.fits_mov
  cases ops with
  | rm ops =>
    cases ops with
    | r2r dst src hdst hsize =>
      obtain ⟨h, hh, hprogram⟩ := inspectR2r_program .r2rXfer .r2rXferOpl
        (fun d f ↦ [Shape.xfer d f]) (fun _ _ _ ↦ rfl) (fun _ _ ↦ rfl) hdst hsize
      have hrun : (Ins.mov (.rm (.r2r dst src hdst hsize))).run s = h.run s := by
        simp only [Ins.run, Ins.calls, hh]
        rfl
      rw [hrun]
      exact same_of_block hprogram hfits
    | r2m dst src hsrc => exact same_of_block (inspectR2mXfer_program dst hsrc) hfits
  | m2r dst hdst src =>
    have hprogram := inspectMem_program .m2rXfer .m2rXferOpl
      (fun d f ↦ [Shape.xfer d f]) (fun _ _ _ ↦ rfl) (fun _ _ ↦ rfl) hdst src
    exact same_of_block hprogram hfits

theorem run_of_call {i : Ins} {h : Handler} (s : TagState T) (hi : ∀ v ops, i ≠ .cmpxchg v ops)
    (hcalls : i.calls = [.handler h]) : i.run s = h.run s := by
  rw [Ins.run, hcalls]
  · rfl
  · exact hi

theorem same_of_call {i : Ins} {h : Handler} {d : Field} {o : Origin} (s : TagState T)
    (hi : ∀ v ops, i ≠ .cmpxchg v ops) (hcalls : i.calls = [.handler h])
    (hrule : i.rule = [(d, o)]) (hp : h.program = [o.block d]) :
    SameOffScratch (i.run s) (i.rule.apply s) := by
  have hfits := i.rule_fits
  rw [hrule] at hfits ⊢
  rw [run_of_call s hi hcalls]
  exact same_of_block hp hfits

theorem same_of_clearing {i : Ins} {h : Handler} (s : TagState T)
    (hi : ∀ v ops, i ≠ .cmpxchg v ops) (hcalls : i.calls = [.handler h]) (fs : List Field)
    (hrule : i.rule = fs.map fun f ↦ (f, .clean))
    (hp : h.program = [Shape.clr (fs.flatMap Field.locs)]) :
    SameOffScratch (i.run s) (i.rule.apply s) := by
  rw [run_of_call s hi hcalls, hrule, apply_clean]
  exact .of_eq (run_of_clrAll fs hp)

theorem same_rule (i : Ins) (s : TagState T) : SameOffScratch (i.run s) (i.rule.apply s) := by
  have hfits := i.rule_fits
  cases i with
  | alu op ops => exact same_alu op ops s
  | mov ops => exact same_mov ops s
  | aluImm => exact .refl s
  | movImmReg dst hdst => exact same_of_block (inspectClr_program hdst) hfits
  | movImmMem len dst => exact .of_eq (tagmapClr_run len dst s)
  | cmovR2r taken dst src hdst hsize =>
    have hprogram := wideR2r_program .r2rXfer .r2rXferOpl
      (fun d f ↦ [Shape.xfer d f]) (fun _ _ _ ↦ rfl) (fun _ _ ↦ rfl) hdst hsize
    cases taken with
    | false => exact .refl s
    | true => exact same_of_block hprogram hfits
  | cmovM2r taken dst hdst src =>
    cases taken with
    | false => exact .refl s
    | true => exact same_of_block (inspectLoad_program src hdst) hfits
  | cbw => exact same_of_call s (fun _ _ ↦ Ins.noConfusion) rfl rfl rfl
  | cwd => exact same_of_call s (fun _ _ ↦ Ins.noConfusion) rfl rfl rfl
  | cdq => exact same_of_call s (fun _ _ ↦ Ins.noConfusion) rfl rfl rfl
  | cqo =>
    apply same_of_call s (fun _ _ ↦ Ins.noConfusion) rfl rfl
    rw [PinReg.rdx, PinReg.rax, PinReg.reg64Indx_gr64, PinReg.reg64Indx_gr64]
    rfl
  | movzxR2r dst src hsrc hsize => exact same_of_block (inspectMovzx_program hsrc hsize) hfits
  | movzxM2r dst readSize hread hsize src =>
    exact same_of_block (inspectMovzxMem_program hread hsize src) hfits
  | imulR2r dst src hdst hsize =>
    have hprogram := wideR2r_program .r2rBinary .r2rBinaryOpl
      (fun d f ↦ [Shape.combineInto d d f]) (fun _ _ _ ↦ rfl) (fun _ _ ↦ rfl) hdst hsize
    exact same_of_block hprogram hfits
  | imulM2r dst hdst src => exact same_of_block (inspectImulMem_program src hdst) hfits
  | setccReg dst hdst =>
    obtain ⟨r, rfl⟩ | ⟨r, rfl⟩ := PinReg.eq_gr8 hdst <;>
      exact same_of_call s (fun _ _ ↦ Ins.noConfusion) rfl rfl rfl
  | setccMem dst => exact .of_eq (tagmapClr_run .byte dst s)
  | stmxcsr dst => exact .of_eq (tagmapClr_run .long dst s)
  | smswReg dst hdst | lar dst hdst => exact same_of_block (inspectClrSystem_program hdst) hfits
  | smswMem dst => exact .of_eq (tagmapClr_run .word dst s)
  | rdtsc =>
    exact same_of_clearing s (fun _ _ ↦ Ins.noConfusion) rfl [.reg gprEdx 0 8, .reg gprEax 0 8]
      rfl rfl
  | cpuid =>
    exact same_of_clearing s (fun _ _ ↦ Ins.noConfusion) rfl
      [.reg gprEbx 0 8, .reg gprEdx 0 8, .reg gprEcx 0 8, .reg gprEax 0 8] rfl rfl
  | lahf => exact same_of_call s (fun _ _ ↦ Ins.noConfusion) rfl rfl rfl
  | cmpxchg v ops => exact same_cmpxchg v ops s
  | xchg ops => exact same_xchg ops s
  | xadd x => exact same_xadd x s
  | xlat src => exact same_of_call s (fun _ _ ↦ Ins.noConfusion) rfl rfl rfl
  | lods len taken src =>
    cases taken with
    | false => exact .refl s
    | true => exact same_of_block (inspectLods_program len src) hfits
  | stos len dst => exact same_of_block (inspectStos_program len dst) hfits
  | movs len taken dst src =>
    cases taken with
    | false => exact .refl s
    | true => exact same_of_block (inspectM2m_program len dst src) hfits
  | salc => exact same_of_call s (fun _ _ ↦ Ins.noConfusion) rfl rfl rfl
  | popReg dst hdst src => exact same_of_block (inspectLoad_program src hdst) hfits
  | pushReg src hsrc dst => exact same_of_block (inspectPush_program dst hsrc) hfits
  | stackMem len hlen dst src => exact same_of_block (inspectM2m_program len dst src) hfits
  | pushImm len dst => exact .of_eq (tagmapClr_run len dst s)
  | pushf len hlen dst | call len hlen dst => exact .of_eq (tagmapClr_run len dst s)
  | leave len hlen src => exact same_leave hlen src s
  | sse vectorReads memWrite regWrites => exact same_sse vectorReads memWrite regWrites s

/-- What the instructions of a run insert, one after the other. -/
def runIns (is : List Ins) (s : TagState T) : TagState T := is.foldl (fun s i ↦ i.run s) s

def followRules (is : List Ins) (s : TagState T) : TagState T :=
  is.foldl (fun s i ↦ i.rule.apply s) s

theorem same_followRules (is : List Ins) (s s' : TagState T) (h : SameOffScratch s s') :
    SameOffScratch (runIns is s) (followRules is s') := by
  induction is generalizing s s' with
  | nil => exact h
  | cons i is ih =>
    apply ih (i.run s) (i.rule.apply s')
    exact (same_rule i s).trans (h.apply i.rule_fits)

end TheiaTaint.Engine
