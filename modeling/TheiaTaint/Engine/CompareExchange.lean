import Mathlib
import TheiaTaint.Engine.Dispatch

namespace TheiaTaint.Engine

open Foundations.Assign Tags.Directory

/-- The values that a fast path is given: of a register, extended with zeros, and of
memory from an address on. -/
structure Values where
  reg : PinReg → AddrInt
  mem : AddrInt → BitVec 64
  fits : ∀ r : PinReg, r.General → (reg r).toNat < 2 ^ (8 * r.size)

/-- An inserted condition and the call made when it holds. -/
structure IfThen where
  fast : Handler
  slow : Handler

/-- A one-byte `CMPXCHG` is only logged. -/
def inspectCmpxchg (v : Values) : Operands → Option IfThen
  | .r2r dst src _ _ =>
    if dst.isGr64 then
      some ⟨.cmpxchgR2rOpqFast (v.reg .rax) dst.reg64Indx (v.reg dst),
        .cmpxchgR2rOpqSlow dst.reg64Indx src.reg64Indx⟩
    else if dst.isGr32 then
      some ⟨.cmpxchgR2rOplFast (v.reg .eax) dst.reg32Indx (v.reg dst),
        .cmpxchgR2rOplSlow dst.reg32Indx src.reg32Indx⟩
    else if dst.isGr16 then
      some ⟨.cmpxchgR2rOpwFast (v.reg .ax) dst.reg16Indx (v.reg dst),
        .cmpxchgR2rOpwSlow dst.reg16Indx src.reg16Indx⟩
    else
      none
  | .r2m dst src _ =>
    if src.isGr64 then
      some ⟨.cmpxchgM2rOpqFast (v.reg .rax) dst (v.mem dst),
        .cmpxchgR2mOpqSlow dst src.reg64Indx⟩
    else if src.isGr32 then
      some ⟨.cmpxchgM2rOplFast (v.reg .eax) dst ((v.mem dst).setWidth 32),
        .cmpxchgR2mOplSlow dst src.reg32Indx⟩
    else if src.isGr16 then
      some ⟨.cmpxchgM2rOpwFast (v.reg .ax) dst ((v.mem dst).setWidth 16),
        .cmpxchgR2mOpwSlow dst src.reg16Indx⟩
    else
      none

/-- `AX`, `EAX` or `RAX`. -/
def accumulator (n : ℕ) : PinReg :=
  if n = 8 then .rax else if n = 4 then .eax else .ax

def accField (n : ℕ) : Field := .reg gprEax 0 n

def Operands.dstVal (v : Values) : Operands → BitVec 64
  | .r2r dst _ _ _ => v.reg dst
  | .r2m dst _ _ => v.mem dst

/-- The accumulator and the destination have the same value. -/
def Operands.equal (v : Values) (ops : Operands) : Bool :=
  (v.reg (accumulator ops.size)).setWidth (8 * ops.size) ==
    (ops.dstVal v).setWidth (8 * ops.size)

theorem setWidth_beq {x y : BitVec 64} {n : ℕ} (hx : x.toNat < 2 ^ n) (hy : y.toNat < 2 ^ n) :
    (x.setWidth n == y.setWidth n) = (x == y) := by
  rw [Bool.eq_iff_iff, beq_iff_eq, beq_iff_eq, BitVec.toNat_eq, BitVec.toNat_eq,
    BitVec.toNat_setWidth, BitVec.toNat_setWidth, Nat.mod_eq_of_lt hx, Nat.mod_eq_of_lt hy]

section Programs

variable {S T : Type*} [SemilatticeSup T] [OrderBot T]

/-- What a fast path returns. -/
def Handler.returned [TagStore S T] (s : S) : Handler → Bool
  | .cmpxchgR2rOpqFast dstVal src srcVal => (Custom.cmpxchgR2rOpqFast dstVal src srcVal s).2
  | .cmpxchgR2rOplFast dstVal src srcVal => (Custom.cmpxchgR2rOplFast dstVal src srcVal s).2
  | .cmpxchgR2rOpwFast dstVal src srcVal => (Custom.cmpxchgR2rOpwFast dstVal src srcVal s).2
  | .cmpxchgM2rOpqFast dstVal src mem => (Custom.cmpxchgM2rOpqFast dstVal src mem s).2
  | .cmpxchgM2rOplFast dstVal src mem => (Custom.cmpxchgM2rOplFast dstVal src mem s).2
  | .cmpxchgM2rOpwFast dstVal src mem => (Custom.cmpxchgM2rOpwFast dstVal src mem s).2
  | _ => false

/-- The comparison does not read the tags. -/
theorem returned_eq {S' T' : Type*} [SemilatticeSup T'] [OrderBot T'] [TagStore S T]
    [TagStore S' T'] (h : Handler) (s : S) (s' : S') : h.returned s = h.returned s' := by
  cases h <;> rfl

def IfThen.run [TagStore S T] (p : IfThen) (s : S) : S :=
  if p.fast.returned s then p.slow.run (p.fast.run s) else p.fast.run s

def IfThen.program (p : IfThen) (equal : Bool) : List (Block Loc) :=
  p.fast.program ++ if equal then p.slow.program else []

theorem IfThen.computes [TagStore S T] {p : IfThen} {equal : Bool}
    (h : ∀ s : S, p.fast.returned s = equal) : Computes (p.program equal) (p.run (S := S)) := by
  intro s
  rw [run, h s, program]
  cases equal with
  | false => exact ((computes_run p.fast).append computes_nil) s
  | true => exact ((computes_run p.fast).append (computes_run p.slow)) s

/-- The fast path on fields: the accumulator is saved in the scratch register and takes
the destination's tags. -/
def fastBlocks (n : ℕ) (d : Field) : List (Block Loc) :=
  [Shape.clr (Field.reg gprScratch 0 8).locs,
    Shape.xfer (Field.reg gprScratch 0 n).locs (accField n).locs,
    Shape.xfer (accField n).locs d.locs]

def slowBlocks (n : ℕ) (d f : Field) : List (Block Loc) :=
  [Shape.xfer (accField n).locs (Field.reg gprScratch 0 n).locs, Shape.xfer d.locs f.locs]

theorem inspectCmpxchg_program (v : Values) (ops : Operands) (hsize : ops.size ≠ 1) :
    ∃ p, inspectCmpxchg v ops = some p ∧ (∀ s : TagState T, p.fast.returned s = ops.equal v) ∧
      p.fast.program = fastBlocks ops.size ops.dst ∧
      p.slow.program = slowBlocks ops.size ops.dst ops.src := by
  cases ops with
  | r2r dst src hdst hsrc =>
    have hequal : ∀ acc : PinReg, dst.General → acc.size = dst.size →
        ((v.reg acc).setWidth (8 * dst.size) == (v.reg dst).setWidth (8 * dst.size)) =
          (v.reg acc == v.reg dst) := by
      intro acc hdst hacc
      have hgeneral : acc.General := by
        rw [PinReg.General, hacc]
        exact hdst
      exact setWidth_beq (hacc ▸ v.fits acc hgeneral) (v.fits dst hdst)
    cases dst with
    | gr64 r =>
      obtain ⟨r', rfl⟩ := PinReg.eq_gr64 hsrc
      refine ⟨_, rfl, fun s ↦ (hequal .rax hdst rfl).symm, ?_, ?_⟩
      · rw [Handler.program, PinReg.reg64Indx_gr64]
        rfl
      · rw [Handler.program, PinReg.reg64Indx_gr64, PinReg.reg64Indx_gr64]
        rfl
    | gr32 r =>
      obtain ⟨r', rfl⟩ := PinReg.eq_gr32 hsrc
      exact ⟨_, rfl, fun s ↦ (hequal .eax hdst rfl).symm, rfl, rfl⟩
    | gr16 r =>
      obtain ⟨r', rfl⟩ := PinReg.eq_gr16 hsrc
      exact ⟨_, rfl, fun s ↦ (hequal .ax hdst rfl).symm, rfl, rfl⟩
    | lower8 r | upper8 r => exact absurd hsrc hsize
    | invalid | rip | ip | eip => exact absurd rfl hdst
  | r2m dst src hsrc =>
    cases src with
    | gr64 r =>
      refine ⟨_, rfl, fun s ↦ rfl, ?_, ?_⟩
      · rw [Handler.program, m64Tag_eq]
        rfl
      · rw [Handler.program, m64Tag_eq, PinReg.reg64Indx_gr64]
        rfl
    | gr32 r =>
      refine ⟨_, rfl, fun s ↦ rfl, ?_, ?_⟩
      · rw [Handler.program, m32Tag_eq]
        rfl
      · rw [Handler.program, m32Tag_eq]
        rfl
    | gr16 r =>
      refine ⟨_, rfl, fun s ↦ rfl, ?_, ?_⟩
      · rw [Handler.program, m16Tag_eq]
        rfl
      · rw [Handler.program, m16Tag_eq]
        rfl
    | lower8 r | upper8 r => exact absurd rfl hsize
    | invalid | rip | ip | eip => exact absurd rfl hsrc

theorem inspectCmpxchg_eq_none (v : Values) (ops : Operands) (hsize : ops.size = 1) :
    inspectCmpxchg v ops = none := by
  cases ops with
  | r2r dst src hdst hsrc =>
    obtain ⟨r, rfl⟩ | ⟨r, rfl⟩ := PinReg.eq_gr8 (hsrc.symm.trans hsize) <;> rfl
  | r2m dst src hsrc =>
    obtain ⟨r, rfl⟩ | ⟨r, rfl⟩ := PinReg.eq_gr8 hsize <;> rfl

theorem runBlocks_cons (b : Block Loc) (bs : List (Block Loc)) (s : FlatState T) :
    runBlocks FlatState.get FlatState.set (b :: bs) s =
      runBlocks FlatState.get FlatState.set bs
        (runBlocks FlatState.get FlatState.set [b] s) := rfl

theorem runBlocks_append (bs cs : List (Block Loc)) (s : FlatState T) :
    runBlocks FlatState.get FlatState.set (bs ++ cs) s =
      runBlocks FlatState.get FlatState.set cs
        (runBlocks FlatState.get FlatState.set bs s) := List.foldl_append

/-- A byte outside the scratch register. -/
def Loc.Kept (l : Loc) : Prop := ∀ j, l ≠ .reg gprScratch j

theorem kept_accField (n i : ℕ) : ((accField n).loc i).Kept := by
  intro j h
  exact absurd (Loc.reg.inj h).1 (by decide)

section Paths

variable {n : ℕ} {d f : Field} {s : FlatState T}

/-- After the fast path the scratch register holds the accumulator, which holds the
destination. -/
theorem get_fastBlocks (hn : n ≤ 8) (hsize : d.size = n) (hd : ∀ i < n, (d.loc i).Kept) :
    let s' := runBlocks FlatState.get FlatState.set (fastBlocks n d) s
    (∀ i < n, s'.get ((Field.reg gprScratch 0 n).loc i) = s.get ((accField n).loc i)) ∧
      (∀ i < n, s'.get ((accField n).loc i) = s.get (d.loc i)) ∧
      ∀ l : Loc, l.Kept → (∀ i < n, (accField n).loc i ≠ l) → s'.get l = s.get l := by
  have hclear : (runBlocks FlatState.get FlatState.set
      [Shape.clr (Field.reg gprScratch 0 8).locs] s) =
        s.write (.reg gprScratch 0 8) fun _ ↦ clearedVal := runBlocks_clr
  have hacc : (accField n).Proper := (Nat.zero_add n).trans_le hn
  have hsave : (accField n).size = (Field.reg gprScratch 0 n).size := rfl
  have hscratch : (Field.reg gprScratch 0 n).Proper := (Nat.zero_add n).trans_le hn
  have hkept : ∀ m (l : Loc), l.Kept →
      ∀ i < (Field.reg gprScratch 0 m).size, (Field.reg gprScratch 0 m).loc i ≠ l := by
    intro m l hl i _ h
    exact hl _ h.symm
  simp only [fastBlocks]
  rw [runBlocks_cons, hclear, runBlocks_cons, runBlocks_xfer hsave, runBlocks_xfer hsize]
  generalize hs₁ : s.write (.reg gprScratch 0 8) (fun _ ↦ clearedVal) = s₁
  have h₁ : ∀ l : Loc, l.Kept → s₁.get l = s.get l := by
    intro l hl
    rw [← hs₁, get_write_of_ne (hkept 8 l hl)]
  generalize hs₂ : s₁.write (.reg gprScratch 0 n) (fun i ↦ s₁.get ((accField n).loc i)) = s₂
  have h₂ : ∀ l : Loc, l.Kept → s₂.get l = s.get l := by
    intro l hl
    rw [← hs₂, get_write_of_ne (hkept n l hl), h₁ l hl]
  refine ⟨?_, ?_, ?_⟩
  · intro i hi
    have hne : ∀ j < (accField n).size,
        (accField n).loc j ≠ (Field.reg gprScratch 0 n).loc i := by
      intro j _
      exact kept_accField n j _
    rw [get_write_of_ne hne, ← hs₂, get_write_loc hscratch hi, h₁ _ (kept_accField n i)]
  · intro i hi
    rw [get_write_loc hacc hi, h₂ _ (hd i hi)]
  · intro l hl hne
    have hne' : ∀ i < (accField n).size, (accField n).loc i ≠ l := hne
    rw [get_write_of_ne hne', h₂ l hl]

theorem get_slowBlocks (hn : n ≤ 8) (hdp : d.Proper) (hdsize : d.size = n) (hfsize : f.size = n)
    {s₀ : FlatState T}
    (hsaved : ∀ i < n, s.get ((Field.reg gprScratch 0 n).loc i) = s₀.get ((accField n).loc i))
    (hother : ∀ l : Loc, l.Kept → (∀ i < n, (accField n).loc i ≠ l) → s.get l = s₀.get l)
    (hf : ∀ i < n, (f.loc i).Kept) :
    let s' := runBlocks FlatState.get FlatState.set (slowBlocks n d f) s
    (∀ i < n, s'.get (d.loc i) = s₀.get (f.loc i)) ∧
      ∀ l : Loc, l.Kept → (∀ i < n, d.loc i ≠ l) → s'.get l = s₀.get l := by
  have hacc : (accField n).Proper := (Nat.zero_add n).trans_le hn
  have hscratch : (Field.reg gprScratch 0 n).size = (accField n).size := rfl
  simp only [slowBlocks]
  rw [runBlocks_cons, runBlocks_xfer hscratch, runBlocks_xfer (hfsize.trans hdsize.symm)]
  generalize hs₁ : s.write (accField n) (fun i ↦ s.get ((Field.reg gprScratch 0 n).loc i)) = s₁
  have h₁ : ∀ l : Loc, l.Kept → s₁.get l = s₀.get l := by
    intro l hl
    by_cases hin : ∃ i < n, (accField n).loc i = l
    · obtain ⟨i, hi, rfl⟩ := hin
      rw [← hs₁, get_write_loc hacc hi, hsaved i hi]
    · push Not at hin
      have hne : ∀ i < (accField n).size, (accField n).loc i ≠ l := hin
      rw [← hs₁, get_write_of_ne hne, hother l hl hin]
  refine ⟨?_, ?_⟩
  · intro i hi
    rw [get_write_loc hdp (hdsize ▸ hi), h₁ _ (hf i hi)]
  · intro l hl hne
    rw [get_write_of_ne (hdsize ▸ hne), h₁ l hl]

end Paths

/-- Equal values move the source to the destination, unequal ones the destination to the
accumulator, and nothing else changes outside the scratch register. -/
structure CompareExchanged (ops : Operands) (equal : Bool) (s s' : FlatState T) : Prop where
  stored : equal = true → ∀ i < ops.size, s'.get (ops.dst.loc i) = s.get (ops.src.loc i)
  accKept : equal = true → ∀ i < ops.size,
    (∀ j < ops.size, ops.dst.loc j ≠ (accField ops.size).loc i) →
      s'.get ((accField ops.size).loc i) = s.get ((accField ops.size).loc i)
  loaded : equal = false → ∀ i < ops.size,
    s'.get ((accField ops.size).loc i) = s.get (ops.dst.loc i)
  dstKept : equal = false → ∀ i < ops.size, s'.get (ops.dst.loc i) = s.get (ops.dst.loc i)
  other : ∀ l : Loc, l.Kept → (∀ i < ops.size, ops.dst.loc i ≠ l) →
    (∀ i < ops.size, (accField ops.size).loc i ≠ l) → s'.get l = s.get l

theorem dst_loc_align (ops : Operands) (hsize : ops.size ≠ 1) {i j : ℕ} (hi : i < ops.size)
    (hj : j < ops.size) (hij : (accField ops.size).loc i = ops.dst.loc j) : i = j := by
  cases ops with
  | r2r dst src hdst hsrc =>
    have hacc : (accumulator src.size).field = accField src.size := by
      cases src with
      | lower8 r | upper8 r => exact absurd rfl hsize
      | gr64 r | gr32 r | gr16 r => rfl
      | invalid | rip | ip | eip => exact absurd hsrc.symm hdst
    have haccSize : (accumulator src.size).size = dst.size := by
      rw [PinReg.size, hacc]
      exact hsrc
    have hsrc' : src.size = dst.size := hsrc
    refine PinReg.field_loc_align haccSize (hsrc' ▸ hi) (hsrc' ▸ hj) ?_
    rw [hacc]
    exact hij
  | r2m dst src => cases hij

theorem compareExchanged (ops : Operands) (hsize : ops.size ≠ 1) (equal : Bool)
    (s : FlatState T) {p : IfThen} (hfast : p.fast.program = fastBlocks ops.size ops.dst)
    (hslow : p.slow.program = slowBlocks ops.size ops.dst ops.src) :
    CompareExchanged ops equal s
      (runBlocks FlatState.get FlatState.set (p.program equal) s) := by
  have hn : ops.size ≤ 8 := ops.reg.size_le
  have hdst : ∀ i < ops.size, (ops.dst.loc i).Kept := fun i hi ↦ ops.dst_loc_ne_scratch hi
  have hsrc : ∀ i < ops.size, (ops.src.loc i).Kept := fun i hi ↦ ops.src_loc_ne_scratch hi
  obtain ⟨hsaved, hloaded, hother⟩ := get_fastBlocks (s := s) hn ops.size_dst hdst
  rw [IfThen.program, hfast, hslow, runBlocks_append]
  generalize hs₁ : runBlocks FlatState.get FlatState.set (fastBlocks ops.size ops.dst) s = s₁
  rw [hs₁] at hsaved hloaded hother
  cases equal with
  | true =>
    obtain ⟨hstored, hkept⟩ := get_slowBlocks (s := s₁) hn ops.proper_dst ops.size_dst rfl hsaved
      hother hsrc
    rw [if_pos rfl]
    refine ⟨fun _ ↦ hstored, ?_, Bool.noConfusion, Bool.noConfusion, ?_⟩
    · intro _ i _ hne
      exact hkept _ (kept_accField _ i) hne
    · intro l hl hne _
      exact hkept l hl hne
  | false =>
    refine ⟨Bool.noConfusion, Bool.noConfusion, fun _ ↦ hloaded, ?_, ?_⟩
    · intro _ i hi
      by_cases hin : ∃ j < ops.size, (accField ops.size).loc j = ops.dst.loc i
      · obtain ⟨j, hj, hji⟩ := hin
        obtain rfl := dst_loc_align ops hsize hj hi hji
        rw [← hji]
        exact (hloaded j hj).trans (congrArg s.get hji.symm)
      · push Not at hin
        exact hother _ (hdst i hi) hin
    · intro l hl _ hne
      exact hother l hl hne

/-- The inserted pair of a `CMPXCHG` compares and exchanges the tags with the values; the
one-byte form has no call. -/
theorem cmpxchg_exact (v : Values) (ops : Operands) (s : FlatState T) :
    (ops.size = 1 ∧ inspectCmpxchg v ops = none) ∨
      ∃ p, inspectCmpxchg v ops = some p ∧
        (∀ s : TagState T, p.fast.returned s = ops.equal v) ∧
        Computes (p.program (ops.equal v)) (p.run (S := TagState T)) ∧
        CompareExchanged ops (ops.equal v) s (p.run s) := by
  by_cases hsize : ops.size = 1
  · exact .inl ⟨hsize, inspectCmpxchg_eq_none v ops hsize⟩
  · obtain ⟨p, hp, hequal, hfast, hslow⟩ := inspectCmpxchg_program (T := T) v ops hsize
    have hflat : ∀ s : FlatState T, p.fast.returned s = ops.equal v := fun s ↦
      (returned_eq p.fast s TagState.cleared).trans (hequal _)
    have hrun : p.run s = runBlocks FlatState.get FlatState.set (p.program (ops.equal v)) s :=
      IfThen.computes hflat s
    refine .inr ⟨p, hp, hequal, IfThen.computes hequal, ?_⟩
    rw [hrun]
    exact compareExchanged ops hsize (ops.equal v) s hfast hslow

end Programs

/-- `DX` holds nine, all other registers and the memory at `0x1000` five. -/
def sampleValues : Values where
  reg r := if r = .gr16 5 then 9 else 5
  mem addr := if addr = 0x1000 then 5 else 0
  fits r hr := by
    have hle : (if r = .gr16 5 then (9 : BitVec 64) else 5).toNat < 2 ^ 8 := by
      split <;> decide
    exact hle.trans_le (Nat.pow_le_pow_right two_pos (Nat.le_mul_of_pos_right 8 hr.bot_lt))

/-- The two low bytes of a register and the memory below `0x1002` have tags of their own. -/
def sampleTags : FlatState (Finset ℕ) where
  gpr r i := if i < 2 then {10 * r.val + i.val} else ∅
  mem addr := if addr.toNat < 0x1002 then {addr.toNat} else ∅

/-- `cmpxchg [0x1000], cx` finds equal values and `cmpxchg dx, cx` unequal ones. -/
theorem cmpxchg_exact_sampleValues :
    (∃ p, inspectCmpxchg sampleValues (.r2m 0x1000 (.gr16 6) (by decide)) = some p ∧
      (p.run sampleTags).mem 0x1001 = {61}) ∧
    ∃ p, inspectCmpxchg sampleValues (.r2r (.gr16 5) (.gr16 6) (by decide) rfl) = some p ∧
      (p.run sampleTags).gpr gprEax 1 = {51} := by
  constructor
  · obtain ⟨h, -⟩ | ⟨p, hp, -, -, hexact⟩ := cmpxchg_exact sampleValues
      (.r2m 0x1000 (.gr16 6) (by decide)) sampleTags
    · exact absurd h (by decide)
    · exact ⟨p, hp, (hexact.stored (by decide) 1 (by decide)).trans (by decide)⟩
  · obtain ⟨h, -⟩ | ⟨p, hp, -, -, hexact⟩ := cmpxchg_exact sampleValues
      (.r2r (.gr16 5) (.gr16 6) (by decide) rfl) sampleTags
    · exact absurd h (by decide)
    · exact ⟨p, hp, (hexact.loaded (by decide) 1 (by decide)).trans (by decide)⟩

end TheiaTaint.Engine
