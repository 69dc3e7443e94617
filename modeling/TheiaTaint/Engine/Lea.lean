import Mathlib
import TheiaTaint.Engine.Registers

namespace TheiaTaint.Engine

open Foundations.Moves Foundations.Assign Tags.Directory

/-- The four tests are made one after the other; in the last one the 16-bit call is also
made for a 64-bit destination. -/
def inspectLea (dst base indx : PinReg) : List Handler :=
  let none : List Handler :=
    if base = .invalid ∧ indx = .invalid then
      if dst.isGr64 then
        [.narrow (.rClr .opq dst.reg64Indx)]
      else if dst.isGr32 then
        [.long (.rClrl dst.reg32Indx)]
      else
        [.narrow (.rClr .opw dst.reg16Indx)]
    else []
  let baseOnly : List Handler :=
    if base ≠ .invalid ∧ indx = .invalid then
      if dst.isGr64 then
        if base = .rip then
          [.narrow (.rClr .opq dst.reg64Indx)]
        else
          [.narrow (.r2rXfer .opq dst.reg64Indx base.reg64Indx)]
      else if dst.isGr32 then
        if base = .eip then
          [.long (.rClrl dst.reg32Indx)]
        else
          [.long (.r2rXferOpl dst.reg32Indx base.reg32Indx)]
      else
        if base = .ip then
          [.narrow (.rClr .opw dst.reg16Indx)]
        else
          [.narrow (.r2rXfer .opw dst.reg16Indx base.reg16Indx)]
    else []
  let indexOnly : List Handler :=
    if base = .invalid ∧ indx ≠ .invalid then
      if dst.isGr64 then
        [.narrow (.r2rXfer .opq dst.reg64Indx indx.reg64Indx)]
      else if dst.isGr32 then
        [.long (.r2rXferOpl dst.reg32Indx indx.reg32Indx)]
      else
        [.narrow (.r2rXfer .opw dst.reg16Indx indx.reg16Indx)]
    else []
  let quad : List Handler :=
    if dst.isGr64 then
      [.narrow (.leaR2r .opq dst.reg64Indx base.reg64Indx indx.reg64Indx)]
    else []
  let longOrWord : List Handler :=
    if dst.isGr32 then
      [.long (.leaR2rOpl dst.reg32Indx base.reg32Indx indx.reg32Indx)]
    else
      [.narrow (.leaR2r .opw dst.reg16Indx base.reg16Indx indx.reg16Indx)]
  let both : List Handler :=
    if base ≠ .invalid ∧ indx ≠ .invalid then quad ++ longOrWord else []
  none ++ baseOnly ++ indexOnly ++ both

/-- The sizes of an address and of the destination. -/
inductive GrSize
  | opw
  | opl
  | opq
deriving DecidableEq

namespace GrSize

def bytes : GrSize → ℕ
  | .opw => 2
  | .opl => 4
  | .opq => 8

def reg : GrSize → Fin 16 → PinReg
  | .opw => .gr16
  | .opl => .gr32
  | .opq => .gr64

def instPtr : GrSize → PinReg
  | .opw => .ip
  | .opl => .eip
  | .opq => .rip

def indx : GrSize → PinReg → Reg
  | .opw => PinReg.reg16Indx
  | .opl => PinReg.reg32Indx
  | .opq => PinReg.reg64Indx

def field (w : GrSize) (r : Reg) : Field := .reg r 0 w.bytes

def clr : GrSize → Reg → Handler
  | .opw, r => .narrow (.rClr .opw r)
  | .opl, r => .long (.rClrl r)
  | .opq, r => .narrow (.rClr .opq r)

def xfer : GrSize → Reg → Reg → Handler
  | .opw, dst, src => .narrow (.r2rXfer .opw dst src)
  | .opl, dst, src => .long (.r2rXferOpl dst src)
  | .opq, dst, src => .narrow (.r2rXfer .opq dst src)

def lea : GrSize → Reg → Reg → Reg → Handler
  | .opw, dst, base, index => .narrow (.leaR2r .opw dst base index)
  | .opl, dst, base, index => .long (.leaR2rOpl dst base index)
  | .opq, dst, base, index => .narrow (.leaR2r .opq dst base index)

theorem bytes_le (w : GrSize) : w.bytes ≤ 8 := by
  cases w <;> decide

theorem reg_ne_invalid (w : GrSize) (r : Fin 16) : w.reg r ≠ .invalid := by
  cases w <;> exact PinReg.noConfusion

theorem instPtr_ne_invalid (w : GrSize) : w.instPtr ≠ .invalid := by
  cases w <;> exact PinReg.noConfusion

theorem reg_ne_instPtr (w w' : GrSize) (r : Fin 16) : w.reg r ≠ w'.instPtr := by
  cases w <;> cases w' <;> exact PinReg.noConfusion

theorem instPtr_inj {w w' : GrSize} : w.instPtr = w'.instPtr ↔ w = w' := by
  cases w <;> cases w' <;> decide

/-- A register of another size is taken for the scratch register. -/
theorem indx_reg (w w' : GrSize) (r : Fin 16) :
    w.indx (w'.reg r) = if w' = w then r.castSucc else gprScratch := by
  cases w with
  | opw => cases w' <;> simp [indx, reg, PinReg.reg16Indx]
  | opl => cases w' <;> simp [indx, reg, PinReg.reg32Indx]
  | opq =>
    rw [indx]
    cases w' with
    | opq => rw [reg, PinReg.reg64Indx_gr64, if_pos rfl]
    | opw | opl => rw [reg, PinReg.reg64Indx_of_not_gr64 rfl, if_neg GrSize.noConfusion]

theorem indx_instPtr (w w' : GrSize) : w.indx w'.instPtr = gprScratch := by
  cases w with
  | opw => cases w' <;> simp [indx, instPtr, PinReg.reg16Indx]
  | opl => cases w' <;> simp [indx, instPtr, PinReg.reg32Indx]
  | opq =>
    have hnot : w'.instPtr.isGr64 = false := by
      cases w' <;> rfl
    rw [indx, PinReg.reg64Indx_of_not_gr64 hnot]

end GrSize

/-- The registers of an address. -/
inductive Address
  | none
  | instPtr
  | base (r : Fin 16)
  | index (r : Fin 16)
  | both (r r' : Fin 16)

structure Lea where
  size : GrSize
  dst : Fin 16
  addrSize : GrSize
  address : Address

namespace Lea

def baseReg (x : Lea) : PinReg :=
  match x.address with
  | .none | .index _ => .invalid
  | .instPtr => x.addrSize.instPtr
  | .base r | .both r _ => x.addrSize.reg r

def indexReg (x : Lea) : PinReg :=
  match x.address with
  | .none | .instPtr | .base _ => .invalid
  | .index r | .both _ r => x.addrSize.reg r

def inspect (x : Lea) : List Handler := inspectLea (x.size.reg x.dst) x.baseReg x.indexReg

end Lea

section Ladder

variable (w : GrSize) (d : Fin 16) {base index : PinReg}

theorem inspectLea_none :
    inspectLea (w.reg d) .invalid .invalid = [w.clr (w.indx (w.reg d))] := by
  cases w <;> rfl

theorem inspectLea_base (hbase : base ≠ .invalid) :
    inspectLea (w.reg d) base .invalid =
      [if base = w.instPtr then w.clr (w.indx (w.reg d))
        else w.xfer (w.indx (w.reg d)) (w.indx base)] := by
  by_cases hip : base = w.instPtr
  · rw [if_pos hip, hip]
    cases w <;> rfl
  · rw [if_neg hip]
    cases w <;> rw [GrSize.instPtr] at hip <;>
      simp [inspectLea, hbase, hip, GrSize.reg, GrSize.xfer, GrSize.indx, PinReg.isGr64,
        PinReg.isGr32]

theorem inspectLea_index (hindex : index ≠ .invalid) :
    inspectLea (w.reg d) .invalid index = [w.xfer (w.indx (w.reg d)) (w.indx index)] := by
  cases w <;>
    simp [inspectLea, hindex, GrSize.reg, GrSize.xfer, GrSize.indx, PinReg.isGr64, PinReg.isGr32]

theorem inspectLea_both (hbase : base ≠ .invalid) (hindex : index ≠ .invalid) :
    inspectLea (w.reg d) base index =
      w.lea (w.indx (w.reg d)) (w.indx base) (w.indx index) ::
        if w = .opq then
          [GrSize.lea .opw (w.reg d).reg16Indx base.reg16Indx index.reg16Indx]
        else [] := by
  cases w <;>
    simp [inspectLea, hbase, hindex, GrSize.reg, GrSize.lea, GrSize.indx, PinReg.isGr64,
      PinReg.isGr32]

end Ladder

variable {T : Type*} [SemilatticeSup T] [OrderBot T] {s : TagState T}

theorem run_clr (w : GrSize) (r : Reg) :
    (w.clr r).run s = s.write (w.field r) fun _ ↦ clearedVal := by
  apply run_of_clr
  cases w <;> rfl

theorem run_xfer (w : GrSize) (dst src : Reg) :
    (w.xfer dst src).run s = s.write (w.field dst) fun i ↦ s.get ((w.field src).loc i) := by
  apply run_of_xfer
  · cases w <;> rfl
  · rfl

theorem run_lea (w : GrSize) (dst base index : Reg) :
    (w.lea dst base index).run s =
      s.write (w.field dst) fun i ↦
        tagCombine (s.get ((w.field base).loc i)) (s.get ((w.field index).loc i)) := by
  apply run_of_combineInto
  · cases w <;> rfl
  · rfl
  · rfl

namespace Lea

/-- Byte `i` of an address register, which has none beyond its size. -/
def byte (x : Lea) (s : TagState T) (r : Fin 16) (i : ℕ) : T :=
  if i < x.addrSize.bytes then s.get ((x.addrSize.field r.castSucc).loc i) else clearedVal

/-- The union of byte `i` of the address registers. -/
def union (x : Lea) (s : TagState T) (i : ℕ) : T :=
  match x.address with
  | .none | .instPtr => clearedVal
  | .base r | .index r => x.byte s r i
  | .both r r' => tagCombine (x.byte s r i) (x.byte s r' i)

def scratch (s : TagState T) (i : ℕ) : T := s.get ((Field.reg gprScratch 0 8).loc i)

/-- What the inserted calls write to byte `i` of the destination. -/
def tag (x : Lea) (s : TagState T) (i : ℕ) : T :=
  if x.addrSize = x.size then
    x.union s i
  else
    match x.address with
    | .none => clearedVal
    | _ => scratch s i

/-- The destination takes the union, and no other general register changes. -/
structure Exact (x : Lea) (s s' : TagState T) : Prop where
  dst : ∀ i < x.size.bytes, s'.get ((x.size.field x.dst.castSucc).loc i) = x.union s i
  other : ∀ r, r ≠ gprScratch → r ≠ x.dst.castSucc → ∀ j : Fin 8,
    s'.get (.reg r j) = s.get (.reg r j)

/-- There is no address register, the address has the size of the destination, or the
scratch register happens to hold the union. -/
def Agrees (x : Lea) (s : TagState T) : Prop :=
  x.address = .none ∨ x.addrSize = x.size ∨ ∀ i < x.size.bytes, scratch s i = x.union s i

theorem indx_dst (x : Lea) : x.size.indx (x.size.reg x.dst) = x.dst.castSucc := by
  rw [GrSize.indx_reg, if_pos rfl]

theorem get_indx_reg (x : Lea) (s : TagState T) (r : Fin 16) {i : ℕ} (hi : i < x.size.bytes) :
    s.get ((x.size.field (x.size.indx (x.addrSize.reg r))).loc i) =
      if x.addrSize = x.size then x.byte s r i else scratch s i := by
  rw [GrSize.indx_reg]
  split
  · next hsize => rw [byte, hsize, if_pos hi]
  · rfl

theorem runAll_inspect (x : Lea) (s : TagState T) (hone : ∀ r r', x.address ≠ .both r r') :
    runAll x.inspect s = s.write (x.size.field x.dst.castSucc) (x.tag s) := by
  have hread := x.get_indx_reg s
  obtain ⟨w, d, a, address⟩ := x
  have hdst : w.indx (w.reg d) = d.castSucc := indx_dst ⟨w, d, a, address⟩
  cases address with
  | none =>
    change runAll (inspectLea (w.reg d) .invalid .invalid) s = _
    rw [inspectLea_none, hdst]
    refine (run_clr w _).trans (FieldBlocks.write_congr ?_)
    intro i _
    simp [tag, union]
  | instPtr =>
    change runAll (inspectLea (w.reg d) a.instPtr .invalid) s = _
    rw [inspectLea_base w d a.instPtr_ne_invalid, hdst]
    by_cases hsize : a = w
    · rw [if_pos (GrSize.instPtr_inj.2 hsize)]
      refine (run_clr w _).trans (FieldBlocks.write_congr ?_)
      intro i _
      simp [tag, union, hsize]
    · rw [if_neg fun h ↦ hsize (GrSize.instPtr_inj.1 h), GrSize.indx_instPtr]
      refine (run_xfer w _ _).trans (FieldBlocks.write_congr ?_)
      intro i _
      simp [tag, hsize, scratch, GrSize.field, Field.loc]
  | base r =>
    change runAll (inspectLea (w.reg d) (a.reg r) .invalid) s = _
    rw [inspectLea_base w d (a.reg_ne_invalid r), hdst, if_neg (a.reg_ne_instPtr w r)]
    refine (run_xfer w _ _).trans (FieldBlocks.write_congr ?_)
    intro i hi
    exact hread r hi
  | index r =>
    change runAll (inspectLea (w.reg d) .invalid (a.reg r)) s = _
    rw [inspectLea_index w d (a.reg_ne_invalid r), hdst]
    refine (run_xfer w _ _).trans (FieldBlocks.write_congr ?_)
    intro i hi
    exact hread r hi
  | both r r' => exact absurd rfl (hone r r')

theorem get_runAll (x : Lea) (s : TagState T) {r : Reg} (hr : r ≠ gprScratch) (j : Fin 8) :
    (runAll x.inspect s).get (.reg r j) =
      (s.write (x.size.field x.dst.castSucc) (x.tag s)).get (.reg r j) := by
  by_cases hboth : ∃ b b', x.address = .both b b'
  · have hread := x.get_indx_reg s
    obtain ⟨w, d, a, address⟩ := x
    obtain ⟨b, b', rfl⟩ := hboth
    have hdst : w.indx (w.reg d) = d.castSucc := indx_dst ⟨w, d, a, .both b b'⟩
    have hfirst : (w.lea (w.indx (w.reg d)) (w.indx (a.reg b)) (w.indx (a.reg b'))).run s =
        s.write (w.field d.castSucc) (tag ⟨w, d, a, .both b b'⟩ s) := by
      rw [hdst]
      refine (run_lea w _ _ _).trans (FieldBlocks.write_congr ?_)
      intro i hi
      have hb := hread b hi
      have hb' := hread b' hi
      simp only at hb hb'
      rw [hb, hb']
      by_cases hsize : a = w
      · simp [tag, union, hsize]
      · simp [tag, hsize, tagCombine]
    change (runAll (inspectLea (w.reg d) (a.reg b) (a.reg b')) s).get _ = _
    rw [inspectLea_both w d (a.reg_ne_invalid b) (a.reg_ne_invalid b'), runAll, List.foldl_cons,
      hfirst]
    by_cases hq : w = .opq
    · -- the call for a 16-bit destination only reaches the scratch register
      subst hq
      have hscratch : (GrSize.reg .opq d).reg16Indx = gprScratch := rfl
      rw [if_pos rfl, List.foldl_cons, List.foldl_nil, hscratch, run_lea]
      exact get_write_other_reg hr.symm j
    · rw [if_neg hq, List.foldl_nil]
  · push Not at hboth
    rw [runAll_inspect x s hboth]

theorem tag_eq_union_iff (x : Lea) (s : TagState T) :
    (∀ i < x.size.bytes, x.tag s i = x.union s i) ↔ x.Agrees s := by
  by_cases hsize : x.addrSize = x.size
  · refine iff_of_true ?_ (.inr (.inl hsize))
    intro i _
    rw [tag, if_pos hsize]
  · cases haddr : x.address with
    | none =>
      refine iff_of_true ?_ (.inl haddr)
      intro i _
      rw [tag, union, if_neg hsize, haddr]
    | instPtr | base r | index r | both r r' =>
      simp [Agrees, tag, haddr, hsize]

theorem get_dst (x : Lea) (s : TagState T) {i : ℕ} (hi : i < x.size.bytes) :
    (runAll x.inspect s).get ((x.size.field x.dst.castSucc).loc i) = x.tag s i := by
  have hbytes : 0 + x.size.bytes ≤ 8 := (Nat.zero_add _).trans_le x.size.bytes_le
  rw [GrSize.field, Field.loc, get_runAll x s (PinReg.castSucc_ne_gprScratch x.dst)]
  exact get_write_reg_loc hbytes hi

/-- An address register of the destination's size is read as the union demands, one of
another size as the scratch register. -/
theorem lea_iff (x : Lea) (s : TagState T) : x.Exact s (runAll x.inspect s) ↔ x.Agrees s := by
  rw [← tag_eq_union_iff]
  constructor
  · intro h i hi
    rw [← get_dst x s hi, h.dst i hi]
  · intro h
    refine ⟨?_, ?_⟩
    · intro i hi
      rw [get_dst x s hi, h i hi]
    · intro r hr hne j
      rw [get_runAll x s hr, GrSize.field, get_write_other_reg hne.symm]

/-- `lea eax, [rdi]` takes the tags of the scratch register for those of `RDI`. -/
theorem lea_reads_scratch :
    ¬ ∀ (x : Lea) (s : TagState (Finset ℕ)), x.Exact s (runAll x.inspect s) := by
  intro h
  let x : Lea := ⟨.opl, 7, .opq, .base 0⟩
  let s : TagState (Finset ℕ) :=
    { gpr := fun r j ↦ if r = gprEdi ∧ j = 0 then {1} else ∅, tagDir := emptyDir }
  have hdst := (h x s).dst 0 (by decide)
  rw [get_dst x s (by decide)] at hdst
  exact absurd hdst (by decide)

end Lea

end TheiaTaint.Engine
