import Mathlib
import TheiaTaint.Engine.Registers

namespace TheiaTaint.Engine

open Foundations.Moves Foundations.Assign Tags.Directory

/-- The calls for `MOVSX` between registers. -/
def inspectMovsx (regDst regSrc : PinReg) : Handler :=
  if regDst.isGr16 then
    if regSrc.isUpper8 then .movsxR2rOpwbU regDst.reg16Indx regSrc.reg8Indx
    else .movsxR2rOpwbL regDst.reg16Indx regSrc.reg8Indx
  else if regDst.isGr32 then
    if regSrc.isGr16 then .long (.movsxR2rOplw regDst.reg32Indx regSrc.reg16Indx)
    else if regSrc.isUpper8 then .long (.movsxR2rOplbU regDst.reg32Indx regSrc.reg8Indx)
    else .long (.movsxR2rOplbL regDst.reg32Indx regSrc.reg8Indx)
  else
    if regSrc.isGr16 then .movsxR2rOpqw regDst.reg64Indx regSrc.reg16Indx
    else if regSrc.isUpper8 then .movsxR2rOpqbU regDst.reg64Indx regSrc.reg8Indx
    else .movsxR2rOpqbL regDst.reg64Indx regSrc.reg8Indx

def inspectMovsxd (regDst regSrc : PinReg) : Handler :=
  .movsxdR2rOpql regDst.reg64Indx regSrc.reg32Indx

/-- The instructions that fill the upper half of the accumulator from its lower half. -/
inductive Extension
  | cbw
  | cwde
  | cdqe

namespace Extension

/-- The call for the encoding without operands. -/
def inspect : Extension → Handler
  | .cbw => .narrow (.r2rXfer .opbUl PinReg.ah.reg8Indx PinReg.al.reg8Indx)
  | .cwde => .cwde
  | .cdqe => .cdqe

/-- The call for `MOVSX AX, AL`, `MOVSX EAX, AX` or `MOVSXD RAX, EAX`. -/
def inspectExplicit : Extension → Handler
  | .cbw => inspectMovsx .ax .al
  | .cwde => inspectMovsx .eax .ax
  | .cdqe => inspectMovsxd .rax .eax

def dst : Extension → PinReg
  | .cbw => .ax
  | .cwde => .eax
  | .cdqe => .rax

def src : Extension → PinReg
  | .cbw => .al
  | .cwde => .ax
  | .cdqe => .eax

variable {T : Type*} [SemilatticeSup T] [OrderBot T]

/-- Both encodings leave the same tags, and none changes outside the destination. -/
structure Agree (e : Extension) (s : TagState T) : Prop where
  same : ∀ l, (e.inspect.run s).get l = (e.inspectExplicit.run s).get l
  other : ∀ l, (∀ i < e.dst.size, e.dst.field.loc i ≠ l) →
    (e.inspect.run s).get l = s.get l ∧ (e.inspectExplicit.run s).get l = s.get l

/-- What the encoding without operands writes to the extension. -/
def fill (e : Extension) (s : TagState T) : T :=
  match e with
  | .cbw => s.gpr gprEax 0
  | .cwde | .cdqe => clearedVal

variable {s : TagState T}

theorem run_inspect (e : Extension) (s : TagState T) :
    e.inspect.run s = s.write (.reg gprEax e.src.size e.src.size) fun _ ↦ e.fill s := by
  cases e with
  | cbw =>
    have hprogram : Extension.cbw.inspect.program =
        [Shape.xfer (Field.reg gprEax 1 1).locs (Field.reg gprEax 0 1).locs] := rfl
    refine (run_of_xfer hprogram rfl).trans (FieldBlocks.write_congr fun i hi ↦ ?_)
    have hzero : i = 0 := Nat.lt_one_iff.1 hi
    subst hzero
    rfl
  | cwde =>
    have hprogram : Extension.cwde.inspect.program = [Shape.clr (Field.reg gprEax 2 2).locs] := rfl
    exact run_of_clr hprogram
  | cdqe =>
    have hprogram : Extension.cdqe.inspect.program = [Shape.clr (Field.reg gprEax 4 4).locs] := rfl
    exact run_of_clr hprogram

theorem run_inspectExplicit (e : Extension) (s : TagState T) :
    e.inspectExplicit.run s =
      s.write (.reg gprEax 0 (e.src.size + e.src.size)) fun i ↦
        if i < e.src.size then s.get ((Field.reg gprEax 0 e.src.size).loc i) else clearedVal := by
  have hprogram : e.inspectExplicit.program =
      [Shape.extend (Field.reg gprEax 0 (e.src.size + e.src.size)).locs
        (Field.reg gprEax 0 e.src.size).locs] := by
    cases e with
    | cbw | cwde => rfl
    | cdqe =>
      rw [inspectExplicit, inspectMovsxd, PinReg.rax, PinReg.reg64Indx_gr64]
      rfl
  exact run_of_extend hprogram (Nat.le_add_left _ _)

theorem get_write_low {r : Reg} {n : ℕ} (hn : n + n ≤ 8) (t : T) (l : Loc) :
    (s.write (.reg r 0 (n + n)) fun i ↦
        if i < n then s.get ((Field.reg r 0 n).loc i) else t).get l =
      (s.write (.reg r n n) fun _ ↦ t).get l := by
  by_cases hwhole : ∃ i < n + n, (Field.reg r 0 (n + n)).loc i = l
  · obtain ⟨i, hi, rfl⟩ := hwhole
    rw [get_write_reg_loc (by omega) hi]
    by_cases hlow : i < n
    · rw [if_pos hlow]
      refine (get_write_of_loc_ne fun j hj hloc ↦ ?_).symm
      have hval : (n + j) % 8 = (0 + i) % 8 := congrArg Fin.val (Loc.reg.inj hloc).2
      omega
    · have hloc : (Field.reg r 0 (n + n)).loc i = (Field.reg r n n).loc (i - n) := by
        rw [Field.loc, Field.loc, Nat.zero_add, Nat.add_sub_cancel' (not_lt.1 hlow)]
      rw [if_neg hlow, hloc, get_write_reg_loc hn (by omega)]
  · push Not at hwhole
    rw [get_write_of_loc_ne hwhole, get_write_of_loc_ne]
    intro j hj hloc
    refine hwhole (n + j) (by omega) ?_
    rw [← hloc, Field.loc, Field.loc, Nat.zero_add]

theorem size_src_le (e : Extension) : e.src.size + e.src.size ≤ 8 := by
  cases e <;> decide

theorem get_inspectExplicit (e : Extension) (l : Loc) :
    (e.inspectExplicit.run s).get l =
      (s.write (.reg gprEax e.src.size e.src.size) fun _ ↦ clearedVal).get l := by
  rw [run_inspectExplicit]
  exact get_write_low e.size_src_le _ l

theorem same_iff (e : Extension) (s : TagState T) :
    (∀ l, (e.inspect.run s).get l = (e.inspectExplicit.run s).get l) ↔ e.fill s = clearedVal := by
  simp only [get_inspectExplicit, run_inspect]
  constructor
  · intro h
    have hle := e.size_src_le
    have hpos : 0 < e.src.size := by cases e <;> decide
    have hfirst := h ((Field.reg gprEax e.src.size e.src.size).loc 0)
    rwa [get_write_reg_loc hle hpos, get_write_reg_loc hle hpos] at hfirst
  · intro h l
    rw [h]

theorem get_write_upper (e : Extension) {tag : ℕ → T} {l : Loc}
    (hl : ∀ i < e.dst.size, e.dst.field.loc i ≠ l) :
    (s.write (.reg gprEax e.src.size e.src.size) tag).get l = s.get l := by
  have hdst : e.dst.field = .reg gprEax 0 (e.src.size + e.src.size) := by
    cases e <;> rfl
  have hsize : e.dst.size = e.src.size + e.src.size := by
    cases e <;> rfl
  refine get_write_of_loc_ne fun i hi hloc ↦ ?_
  refine hl (e.src.size + i) ?_ ?_
  · rw [hsize]
    exact Nat.add_lt_add_left hi _
  · rw [← hloc, hdst, Field.loc, Field.loc, Nat.zero_add]

/-- `CBW` copies the tag of `AL` where `MOVSX` clears, the other two clear as well. -/
theorem extensions_agree_iff (e : Extension) (s : TagState T) :
    e.Agree s ↔ (e = .cbw → s.gpr gprEax 0 = clearedVal) := by
  have hfill : e.fill s = clearedVal ↔ (e = .cbw → s.gpr gprEax 0 = clearedVal) := by
    cases e with
    | cbw => exact (true_imp_iff).symm.trans (imp_congr_left (iff_of_true trivial rfl))
    | cwde | cdqe => exact iff_of_true rfl fun h ↦ nomatch h
  rw [← hfill, ← same_iff]
  constructor
  · intro h
    exact h.same
  · intro h
    refine ⟨h, fun l hl ↦ ⟨?_, ?_⟩⟩
    · rw [run_inspect, e.get_write_upper hl]
    · rw [get_inspectExplicit, e.get_write_upper hl]

/-- `AL` has a tag, and `CBW` copies it to `AH`. -/
theorem cbw_copies : ¬ ∀ (e : Extension) (s : TagState (Finset ℕ)), e.Agree s := by
  intro h
  have hsame := (h .cbw ⟨fun _ _ ↦ {1}, emptyDir⟩).same (.reg gprEax 1)
  exact absurd hsame (by decide)

end Extension

end TheiaTaint.Engine
