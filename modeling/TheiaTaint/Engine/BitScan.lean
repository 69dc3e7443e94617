import Mathlib
import TheiaTaint.Engine.Multiply

namespace TheiaTaint.Engine

open Foundations.Moves Tags.Directory

section Handlers

variable {T : Type*} [SemilatticeSup T] [OrderBot T]

/-- `vcpu.gpr` has 17 rows. A write to a row outside of them has no result here. -/
def gprRow (rTag : Reg → List Loc) (row : AddrInt) : Option (List Loc) :=
  if h : row.toNat < 17 then some (rTag ⟨row.toNat, h⟩) else none

/-- The loop writes to `RTAG[src]`, where `src` is the address. -/
def m2rBitscan (rTag : Reg → List Loc) (mTag : AddrInt → List Loc) (_dst : Reg) (src : AddrInt)
    (s : TagState T) : Option (TagState T) :=
  (gprRow rTag src).map fun row ↦ xfer row (mTag src) s

def m2rBitscanOpq : Reg → AddrInt → TagState T → Option (TagState T) := m2rBitscan r64Tag m64Tag
def m2rBitscanOpl : Reg → AddrInt → TagState T → Option (TagState T) := m2rBitscan r32Tag m32Tag
def m2rBitscanOpw : Reg → AddrInt → TagState T → Option (TagState T) := m2rBitscan r16Tag m16Tag

def inspectBitscan (regDst : PinReg) (src : RmOperand) (s : TagState T) : Option (TagState T) :=
  match src with
  | .mem addr =>
    if regDst.isGr64 then m2rBitscanOpq regDst.reg64Indx addr s
    else if regDst.isGr32 then m2rBitscanOpl regDst.reg32Indx addr s
    else m2rBitscanOpw regDst.reg16Indx addr s
  | .reg regSrc =>
    if regDst.isGr64 then
      some ((Handler.r2rBitscanOpq regDst.reg64Indx regSrc.reg64Indx).run s)
    else if regDst.isGr32 then
      some ((Handler.r2rBitscanOpl regDst.reg32Indx regSrc.reg32Indx).run s)
    else
      some ((Handler.r2rBitscanOpw regDst.reg16Indx regSrc.reg16Indx).run s)

end Handlers

def RmOperand.field (n : ℕ) : RmOperand → Field
  | .mem addr => .mem addr n
  | .reg r => r.field

structure BitScan where
  dst : PinReg
  src : RmOperand
  wide : 2 ≤ dst.size
  size : (src.field dst.size).size = dst.size

namespace BitScan

variable (b : BitScan)

def srcField : Field := b.src.field b.dst.size

variable {T : Type*} [SemilatticeSup T] [OrderBot T]

def union (s : TagState T) : T :=
  (Finset.range b.dst.size).sup fun i ↦ s.get (b.srcField.loc i)

/-- The lowest byte of the destination has the tags of the source, the others have none, and
nothing else has changed. -/
structure Collapsed (s s' : TagState T) : Prop where
  lowest : s'.get (b.dst.field.loc 0) = b.union s
  cleared : ∀ i, 0 < i → i < b.dst.size → s'.get (b.dst.field.loc i) = clearedVal
  other : ∀ l, (∀ i < b.dst.size, b.dst.field.loc i ≠ l) → s'.get l = s.get l

def Exact (s : TagState T) : Prop :=
  ∃ s', inspectBitscan b.dst b.src s = some s' ∧ b.Collapsed s s'

/-- The destination has the tags of a finished scan already. -/
structure Settled (s : TagState T) : Prop where
  lowest : s.get (b.dst.field.loc 0) = b.union s
  cleared : ∀ i, 0 < i → i < b.dst.size → s.get (b.dst.field.loc i) = clearedVal

/-- An address that is the index of a register. Of the destination it takes the place of,
only the lowest byte of memory may have a tag; any other register has the tags of memory. -/
structure SmallAddress (addr : AddrInt) (s : TagState T) : Prop where
  small : addr.toNat < 17
  same : b.dst.field = .reg ⟨addr.toNat, small⟩ 0 b.dst.size →
    ∀ i, 0 < i → i < b.dst.size → s.get (b.srcField.loc i) = clearedVal
  other : b.dst.field ≠ .reg ⟨addr.toNat, small⟩ 0 b.dst.size →
    b.Settled s ∧ ∀ i < b.dst.size,
      s.get ((Field.reg ⟨addr.toNat, small⟩ 0 b.dst.size).loc i) = s.get (b.srcField.loc i)

def Harmless (s : TagState T) : Prop :=
  match b.src with
  | .reg _ => b.Settled s
  | .mem addr => b.SmallAddress addr s

variable {s s' : TagState T}

theorem dst_cases :
    (∃ r, b.dst = .gr64 r) ∨ (∃ r, b.dst = .gr32 r) ∨ ∃ r, b.dst = .gr16 r := by
  have hwide := b.wide
  cases hdst : b.dst with
  | gr64 r => exact .inl ⟨r, rfl⟩
  | gr32 r => exact .inr (.inl ⟨r, rfl⟩)
  | gr16 r => exact .inr (.inr ⟨r, rfl⟩)
  | lower8 | upper8 =>
    rw [hdst] at hwide
    exact absurd hwide (show ¬ 2 ≤ 1 by decide)
  | invalid | rip | ip | eip =>
    rw [hdst] at hwide
    exact absurd hwide (show ¬ 2 ≤ 0 by decide)

theorem exists_dst_field : ∃ r, b.dst.field = .reg r 0 b.dst.size := by
  rcases b.dst_cases with ⟨r, hdst⟩ | ⟨r, hdst⟩ | ⟨r, hdst⟩ <;>
  · rw [hdst]
    exact ⟨_, rfl⟩

theorem get_write_self {r : Reg} {o n : ℕ} (h : o + n ≤ 8) (l : Loc) :
    (s.write (.reg r o n) fun i ↦ s.get ((Field.reg r o n).loc i)).get l = s.get l := by
  by_cases hl : ∃ i < n, (Field.reg r o n).loc i = l
  · obtain ⟨i, hi, rfl⟩ := hl
    exact get_write_reg_loc h hi
  · push Not at hl
    exact get_write_of_loc_ne hl

theorem inspect_reg {r : PinReg} (hsrc : b.src = .reg r) :
    ∃ s', inspectBitscan b.dst b.src s = some s' ∧ ∀ l, s'.get l = s.get l := by
  have hsize : r.size = b.dst.size := by
    have hfield := b.size
    rwa [hsrc] at hfield
  have hself : ∀ {h : Handler} (r' : Fin 16) (n : ℕ), n ≤ 8 →
      h.program = [Shape.xfer (Field.reg r'.castSucc 0 n).locs (Field.reg r'.castSucc 0 n).locs] →
        ∀ l, (h.run s).get l = s.get l := by
    intro h r' n hn hprogram l
    rw [run_of_xfer hprogram rfl]
    exact get_write_self ((Nat.zero_add n).trans_le hn) l
  rw [hsrc]
  rcases b.dst_cases with ⟨r', hdst⟩ | ⟨r', hdst⟩ | ⟨r', hdst⟩
  · rw [hdst] at hsize ⊢
    obtain ⟨r, rfl⟩ := PinReg.eq_gr64 hsize
    refine ⟨_, rfl, hself r 8 le_rfl ?_⟩
    rw [PinReg.reg64Indx_gr64 r]
    rfl
  · rw [hdst] at hsize ⊢
    obtain ⟨r, rfl⟩ := PinReg.eq_gr32 hsize
    exact ⟨_, rfl, hself r 4 (by decide) rfl⟩
  · rw [hdst] at hsize ⊢
    obtain ⟨r, rfl⟩ := PinReg.eq_gr16 hsize
    exact ⟨_, rfl, hself r 2 (by decide) rfl⟩

theorem inspect_mem_of_small {addr : AddrInt} (hsrc : b.src = .mem addr) (h : addr.toNat < 17) :
    inspectBitscan b.dst b.src s =
      some (s.write (.reg ⟨addr.toNat, h⟩ 0 b.dst.size) fun i ↦ s.get (b.srcField.loc i)) := by
  have hfield : b.srcField = .mem addr b.dst.size := by
    rw [srcField, hsrc]
    rfl
  have hrun : ∀ {n : ℕ} {rTag : Reg → List Loc} {mTag : AddrInt → List Loc} (r : Reg),
      (∀ r, rTag r = (Field.reg r 0 n).locs) → mTag addr = (Field.mem addr n).locs →
        m2rBitscan rTag mTag r addr s =
          some (s.write (.reg ⟨addr.toNat, h⟩ 0 n) fun i ↦ s.get ((Field.mem addr n).loc i)) := by
    intro n rTag mTag r hr hm
    rw [m2rBitscan, gprRow, dif_pos h, Option.map_some, hr, hm, computes_xfer]
    exact congrArg some (FieldBlocks.runBlocks_xfer rfl)
  rw [hfield, hsrc]
  rcases b.dst_cases with ⟨r, hdst⟩ | ⟨r, hdst⟩ | ⟨r, hdst⟩
  · rw [hdst]
    exact hrun (PinReg.gr64 r).reg64Indx (fun _ ↦ rfl) (m64Tag_eq addr)
  · rw [hdst]
    exact hrun (PinReg.gr32 r).reg32Indx (fun _ ↦ rfl) (m32Tag_eq addr)
  · rw [hdst]
    exact hrun (PinReg.gr16 r).reg16Indx (fun _ ↦ rfl) (m16Tag_eq addr)

theorem inspect_mem_eq_none {addr : AddrInt} (hsrc : b.src = .mem addr) (h : ¬ addr.toNat < 17) :
    inspectBitscan b.dst b.src s = none := by
  have hnone : ∀ {rTag : Reg → List Loc} {mTag : AddrInt → List Loc} (r : Reg),
      m2rBitscan rTag mTag r addr s = none := by
    intro rTag mTag r
    rw [m2rBitscan, gprRow, dif_neg h]
    rfl
  rw [hsrc, inspectBitscan]
  split_ifs <;> exact hnone _

theorem collapsed_iff_settled (hsame : ∀ l, s'.get l = s.get l) :
    b.Collapsed s s' ↔ b.Settled s := by
  constructor
  · intro h
    refine ⟨?_, fun i hpos hi ↦ ?_⟩
    · rw [← hsame, h.lowest]
    · rw [← hsame, h.cleared i hpos hi]
  · intro h
    refine ⟨?_, fun i hpos hi ↦ ?_, fun l _ ↦ hsame l⟩
    · rw [hsame, h.lowest]
    · rw [hsame, h.cleared i hpos hi]

theorem union_eq_lowest
    (h : ∀ i, 0 < i → i < b.dst.size → s.get (b.srcField.loc i) = clearedVal) :
    b.union s = s.get (b.srcField.loc 0) := by
  have hpos : 0 < b.dst.size := Nat.zero_lt_two.trans_le b.wide
  refine le_antisymm (Finset.sup_le fun i hi ↦ ?_) ?_
  · rcases Nat.eq_zero_or_pos i with rfl | hi0
    · exact le_rfl
    · rw [h i hi0 (Finset.mem_range.1 hi)]
      exact bot_le
  · exact Finset.le_sup (f := fun i ↦ s.get (b.srcField.loc i)) (Finset.mem_range.2 hpos)

theorem collapsed_write_dst_iff {r : Reg} (hd : b.dst.field = .reg r 0 b.dst.size) :
    b.Collapsed s (s.write (.reg r 0 b.dst.size) fun i ↦ s.get (b.srcField.loc i)) ↔
      ∀ i, 0 < i → i < b.dst.size → s.get (b.srcField.loc i) = clearedVal := by
  have hsize : 0 + b.dst.size ≤ 8 := (Nat.zero_add _).trans_le b.dst.size_le
  have hwritten : ∀ i < b.dst.size,
      (s.write (.reg r 0 b.dst.size) fun i ↦ s.get (b.srcField.loc i)).get (b.dst.field.loc i) =
        s.get (b.srcField.loc i) := by
    intro i hi
    rw [hd]
    exact get_write_reg_loc hsize hi
  constructor
  · intro h i hpos hi
    rw [← hwritten i hi, h.cleared i hpos hi]
  · intro h
    refine ⟨?_, fun i hpos hi ↦ ?_, fun l hl ↦ ?_⟩
    · rw [hwritten 0 (Nat.zero_lt_two.trans_le b.wide), b.union_eq_lowest h]
    · rw [hwritten i hi, h i hpos hi]
    · rw [hd] at hl
      exact get_write_of_loc_ne hl

theorem collapsed_write_other_iff {r : Reg} (hne : b.dst.field ≠ .reg r 0 b.dst.size) :
    b.Collapsed s (s.write (.reg r 0 b.dst.size) fun i ↦ s.get (b.srcField.loc i)) ↔
      b.Settled s ∧ ∀ i < b.dst.size,
        s.get ((Field.reg r 0 b.dst.size).loc i) = s.get (b.srcField.loc i) := by
  have hsize : 0 + b.dst.size ≤ 8 := (Nat.zero_add _).trans_le b.dst.size_le
  obtain ⟨d, hd⟩ := b.exists_dst_field
  have hdr : d ≠ r := by
    rintro rfl
    exact hne hd
  have hkept : ∀ i, (s.write (.reg r 0 b.dst.size) fun i ↦ s.get (b.srcField.loc i)).get
      (b.dst.field.loc i) = s.get (b.dst.field.loc i) := by
    intro i
    rw [hd]
    exact get_write_other_reg hdr.symm _
  have happart : ∀ i, ∀ j < b.dst.size,
      b.dst.field.loc j ≠ (Field.reg r 0 b.dst.size).loc i := by
    intro i j _ hloc
    rw [hd] at hloc
    exact hdr (Loc.reg.inj hloc).1
  constructor
  · intro h
    refine ⟨⟨?_, fun i hpos hi ↦ ?_⟩, fun i hi ↦ ?_⟩
    · rw [← hkept, h.lowest]
    · rw [← hkept, h.cleared i hpos hi]
    · rw [← h.other _ (happart i), get_write_reg_loc hsize hi]
  · rintro ⟨hsettled, hsame⟩
    refine (b.collapsed_iff_settled fun l ↦ ?_).2 hsettled
    have hself := get_write_self (s := s) (r := r) hsize l
    rw [← hself]
    exact congrArg (TagState.get · l) (FieldBlocks.write_congr fun i hi ↦ (hsame i hi).symm)

theorem collapsed_write_iff {r : Reg} :
    b.Collapsed s (s.write (.reg r 0 b.dst.size) fun i ↦ s.get (b.srcField.loc i)) ↔
      (b.dst.field = .reg r 0 b.dst.size →
        ∀ i, 0 < i → i < b.dst.size → s.get (b.srcField.loc i) = clearedVal) ∧
      (b.dst.field ≠ .reg r 0 b.dst.size →
        b.Settled s ∧ ∀ i < b.dst.size,
          s.get ((Field.reg r 0 b.dst.size).loc i) = s.get (b.srcField.loc i)) := by
  by_cases hd : b.dst.field = .reg r 0 b.dst.size
  · rw [b.collapsed_write_dst_iff hd, imp_iff_right hd,
      iff_true_intro fun hne ↦ absurd hd hne, and_true]
  · rw [b.collapsed_write_other_iff hd, imp_iff_right hd,
      iff_true_intro fun h ↦ absurd h hd, true_and]

/-- The scans never look at their destination, and only a small address is an index. -/
theorem bitscan_exact_iff (s : TagState T) : b.Exact s ↔ b.Harmless s := by
  cases hsrc : b.src with
  | reg r =>
    have hharmless : b.Harmless s = b.Settled s := by
      rw [Harmless, hsrc]
    obtain ⟨s', hrun, hsame⟩ := b.inspect_reg (s := s) hsrc
    simp only [Exact, hharmless, hrun, Option.some.injEq, exists_eq_left']
    exact b.collapsed_iff_settled hsame
  | mem addr =>
    have hharmless : b.Harmless s = b.SmallAddress addr s := by
      rw [Harmless, hsrc]
    rw [Exact, hharmless]
    by_cases h : addr.toNat < 17
    · simp only [b.inspect_mem_of_small hsrc h, Option.some.injEq, exists_eq_left',
        b.collapsed_write_iff]
      constructor
      · rintro ⟨hsame, hother⟩
        exact ⟨h, hsame, hother⟩
      · rintro ⟨_, hsame, hother⟩
        exact ⟨hsame, hother⟩
    · simp only [b.inspect_mem_eq_none hsrc h, reduceCtorEq, false_and, exists_false, false_iff]
      intro hsmall
      exact h hsmall.small

end BitScan

/-- `BSF RAX, [0x1000]`. -/
def scanFromMemory : BitScan := ⟨.gr64 7, .mem 0x1000, by decide, rfl⟩

theorem bitscan_leaves_registers : ¬ ∀ (b : BitScan) (s : TagState (Finset ℕ)), b.Exact s := by
  intro h
  obtain ⟨s', hrun, -⟩ := h scanFromMemory ⟨fun _ _ ↦ ∅, emptyDir⟩
  have hsrc : scanFromMemory.src = .mem 0x1000 := rfl
  rw [scanFromMemory.inspect_mem_eq_none hsrc (by decide)] at hrun
  cases hrun

end TheiaTaint.Engine
