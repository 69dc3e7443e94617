import Mathlib
import TheiaTaint.Engine.Registers

namespace TheiaTaint.Engine

open Foundations.Moves Foundations.Assign Tags.Directory

/-- The one-operand `MUL`, `DIV`, `IDIV` and `IMUL`. -/
inductive OneOperand
  | div
  | idiv
  | mul
  | imul

inductive RmOperand
  | mem (addr : AddrInt)
  | reg (r : PinReg)

/-- The switch is on the size that the instruction writes to memory. -/
def ternaryMem (writeSize : ℕ) (addr : AddrInt) : Handler :=
  match writeSize with
  | 8 => .narrow (.m2rTernary .opq addr)
  | 4 => .long (.m2rTernaryOpl addr)
  | 2 => .narrow (.m2rTernary .opw addr)
  | _ => .narrow (.m2rTernary .opb addr)

def ternaryReg (reg : PinReg) : Handler :=
  if reg.isGr64 then
    .narrow (.r2rTernary .opq reg.reg64Indx)
  else if reg.isGr32 then
    .long (.r2rTernaryOpl reg.reg32Indx)
  else if reg.isGr16 then
    .narrow (.r2rTernary .opw reg.reg16Indx)
  else if reg.isUpper8 then
    .narrow (.r2rTernary .opbU reg.reg8Indx)
  else
    .narrow (.r2rTernary .opbL reg.reg8Indx)

def inspectDiv (writeSize : ℕ) : RmOperand → Handler
  | .mem addr => ternaryMem writeSize addr
  | .reg r => ternaryReg r

/-- The form with one explicit operand. -/
def inspectImul (writeSize : ℕ) : RmOperand → Handler
  | .mem addr => ternaryMem writeSize addr
  | .reg r => ternaryReg r

def OneOperand.inspect (writeSize : ℕ) : OneOperand → RmOperand → Handler
  | .div | .idiv | .mul => inspectDiv writeSize
  | .imul => inspectImul writeSize

/-- `INS_MemoryWriteSize` of an instruction that only reads memory. -/
def readOnly : ℕ := 0

/-- A register with no byte in `RAX` or `RDX`. -/
structure OutsideReg where
  reg : PinReg
  general : reg.General
  apart : ∀ i < reg.size, ∀ j, reg.field.loc i ≠ .reg gprEax j ∧ reg.field.loc i ≠ .reg gprEdx j

/-- `AX`, `DX:AX`, `EDX:EAX` or `RDX:RAX`. -/
def accPair (w : ℕ) : List Field :=
  if w = 1 then [.reg gprEax 0 2] else [.reg gprEdx 0 w, .reg gprEax 0 w]

variable {T : Type*} [SemilatticeSup T] [OrderBot T] {s : TagState T}

def SamePair (w : ℕ) (s s' : TagState T) : Prop :=
  ∀ f ∈ accPair w, ∀ i < f.size, s.get (f.loc i) = s'.get (f.loc i)

theorem general_field {reg : PinReg} (h : reg.General) :
    ∃ r o, reg.field = .reg r o reg.size ∧ o + reg.size ≤ 8 := by
  cases reg with
  | gr64 r | gr32 r | gr16 r | lower8 r | upper8 r =>
    exact ⟨_, _, rfl, by simp [PinReg.size, PinReg.field, Field.size]⟩
  | invalid | rip | ip | eip => exact absurd rfl h

theorem ternaryReg_program {reg : PinReg} (h : reg.General) :
    (ternaryReg reg).program =
      [if reg.size = 1 then Shape.ternaryByte reg.field.locs
        else Shape.ternary (fun r ↦ (Field.reg r 0 reg.size).locs) reg.field.locs] := by
  cases reg with
  | gr64 r =>
    have hternary : ternaryReg (.gr64 r) = .narrow (.r2rTernary .opq r.castSucc) := by
      rw [← PinReg.reg64Indx_gr64]
      rfl
    rw [hternary]
    rfl
  | gr32 r | gr16 r | lower8 r | upper8 r => rfl
  | invalid | rip | ip | eip => exact absurd rfl h

theorem get_ternaryReg {reg : PinReg} (h : reg.General) (s : TagState T) :
    ∀ f ∈ accPair reg.size, ∀ i < f.size, ((ternaryReg reg).run s).get (f.loc i) =
      tagCombine (s.get (f.loc i)) (s.get (reg.field.loc (if reg.size = 1 then 0 else i))) := by
  have hsize : 0 + reg.size ≤ 8 := (Nat.zero_add _).trans_le reg.size_le
  have hne : gprEax ≠ gprEdx := by decide
  rw [computes_run, ternaryReg_program h]
  intro f hf i hi
  by_cases hone : reg.size = 1
  · rw [accPair, if_pos hone, List.mem_singleton] at hf
    subst hf
    rw [if_pos hone, if_pos hone, FieldBlocks.runBlocks_ternaryByte hone]
    exact get_write_reg_loc (by decide) hi
  · rw [accPair, if_neg hone] at hf
    have hfield : reg.field.size = reg.size := rfl
    rw [if_neg hone, if_neg hone, FieldBlocks.runBlocks_ternary (fun _ ↦ rfl) hfield]
    rcases List.mem_pair.1 hf with rfl | rfl
    · refine (get_write_other_reg hne _).trans ?_
      exact get_write_reg_loc hsize hi
    · exact get_write_reg_loc hsize hi

theorem get_load (x : OutsideReg) (addr : AddrInt) (s : TagState T) :
    let s' := (inspectMem .m2rXfer .m2rXferOpl x.reg addr).run s
    (∀ i < x.reg.size, s'.get (x.reg.field.loc i) = s.get ((Field.mem addr x.reg.size).loc i)) ∧
      ∀ f ∈ accPair x.reg.size, ∀ i, s'.get (f.loc i) = s.get (f.loc i) := by
  have hprogram := inspectMem_program .m2rXfer .m2rXferOpl
    (fun d f ↦ [Shape.xfer d f]) (fun _ _ _ ↦ rfl) (fun _ _ ↦ rfl) x.general addr
  have hrun := run_of_xfer (s := s) hprogram rfl
  obtain ⟨r, o, hfield, ho⟩ := general_field x.general
  have hapart := x.apart
  simp only [hrun]
  rw [hfield] at hapart ⊢
  refine ⟨?_, ?_⟩
  · intro i hi
    exact get_write_reg_loc ho hi
  · intro f hf i
    have hreg : ∃ n, f = .reg gprEax 0 n ∨ f = .reg gprEdx 0 n := by
      rw [accPair] at hf
      split at hf
      · exact ⟨2, .inl (List.mem_singleton.1 hf)⟩
      · exact ⟨_, (List.mem_pair.1 hf).symm⟩
    obtain ⟨n, rfl | rfl⟩ := hreg
    · apply get_write_reg_of_ne
      intro k hk
      exact (hapart k hk _).1
    · apply get_write_reg_of_ne
      intro k hk
      exact (hapart k hk _).2

/-- The memory form of an operand that is only read is the one-byte handler. -/
theorem run_ternaryMem (addr : AddrInt) (s : TagState T) :
    (ternaryMem readOnly addr).run s =
      s.write (.reg gprEax 0 2) fun i ↦
        tagCombine (s.get ((Field.reg gprEax 0 2).loc i)) (s.get ((Field.mem addr 1).loc 0)) := by
  have hprogram : (ternaryMem readOnly addr).program =
      [Shape.ternaryByte (Field.mem addr 1).locs] := by
    rw [← m8Tag_eq]
    rfl
  rw [computes_run, hprogram]
  exact FieldBlocks.runBlocks_ternaryByte rfl

section Agreement

variable (addr : AddrInt)

def memTag (s : TagState T) (i : ℕ) : T := s.get ((Field.mem addr 8).loc i)
def eaxTag (s : TagState T) (i : ℕ) : T := s.get ((Field.reg gprEax 0 8).loc i)
def edxTag (s : TagState T) (i : ℕ) : T := s.get ((Field.reg gprEdx 0 8).loc i)

/-- The operand is one byte, or the tags that the one-byte handler leaves out are in the
pair already. -/
def PairAgrees (w : ℕ) (s : TagState T) : Prop :=
  w = 1 ∨ (∀ i < w, memTag addr s i ≤ edxTag s i) ∧
    eaxTag s 1 ⊔ memTag addr s 0 = eaxTag s 1 ⊔ memTag addr s 1 ∧
      ∀ i, 2 ≤ i → i < w → memTag addr s i ≤ eaxTag s i

/-- Loads the operand into the register and runs the register form on it. -/
def viaRegister (op : OneOperand) (x : OutsideReg) (s : TagState T) : TagState T :=
  (op.inspect readOnly (.reg x.reg)).run ((inspectMem .m2rXfer .m2rXferOpl x.reg addr).run s)

theorem inspect_mem (op : OneOperand) :
    op.inspect readOnly (.mem addr) = ternaryMem readOnly addr := by
  cases op <;> rfl

theorem inspect_reg (op : OneOperand) (r : PinReg) :
    op.inspect readOnly (.reg r) = ternaryReg r := by
  cases op <;> rfl

theorem get_viaRegister (op : OneOperand) (x : OutsideReg) (s : TagState T) :
    ∀ f ∈ accPair x.reg.size, ∀ i < f.size, (viaRegister addr op x s).get (f.loc i) =
      tagCombine (s.get (f.loc i)) (memTag addr s (if x.reg.size = 1 then 0 else i)) := by
  intro f hf i hi
  obtain ⟨hloaded, hkept⟩ := get_load x addr s
  have hbyte : (if x.reg.size = 1 then 0 else i) < x.reg.size := by
    split
    · next hone => omega
    · next hone =>
      rw [accPair, if_neg hone] at hf
      rcases List.mem_pair.1 hf with rfl | rfl <;> exact hi
  rw [viaRegister, inspect_reg, get_ternaryReg x.general _ f hf i hi, hkept f hf i,
    hloaded _ hbyte]
  rfl

section OneByte

variable (s : TagState T)

theorem get_edx_oneByte (i : ℕ) :
    ((ternaryMem readOnly addr).run s).get ((Field.reg gprEdx 0 8).loc i) = edxTag s i := by
  have hne : gprEax ≠ gprEdx := by decide
  rw [run_ternaryMem]
  exact get_write_other_reg hne _

theorem get_eax_oneByte {i : ℕ} (hi : i < 8) :
    ((ternaryMem readOnly addr).run s).get ((Field.reg gprEax 0 8).loc i) =
      if i < 2 then eaxTag s i ⊔ memTag addr s 0 else eaxTag s i := by
  rw [run_ternaryMem]
  split
  · next hlt => exact get_write_reg_loc (by decide) hlt
  · next hge =>
    apply get_write_reg_of_ne
    intro k hk hloc
    have hval : (0 + k) % 8 = (0 + i) % 8 := congrArg Fin.val (Loc.reg.inj hloc).2
    omega

end OneByte

theorem samePair_of_oneByte (op : OneOperand) (x : OutsideReg) (s : TagState T)
    (hone : x.reg.size = 1) :
    SamePair x.reg.size ((op.inspect readOnly (.mem addr)).run s) (viaRegister addr op x s) := by
  intro f hf i hi
  rw [inspect_mem, get_viaRegister addr op x s f hf i hi, if_pos hone]
  rw [accPair, if_pos hone, List.mem_singleton] at hf
  subst hf
  have hi' : i < 2 := hi
  refine (get_eax_oneByte addr s (by omega)).trans ?_
  rw [if_pos hi']
  rfl

theorem samePair_iff_tags (op : OneOperand) (x : OutsideReg) (s : TagState T)
    (hone : x.reg.size ≠ 1) :
    SamePair x.reg.size ((op.inspect readOnly (.mem addr)).run s) (viaRegister addr op x s) ↔
      (∀ i < x.reg.size, edxTag s i = edxTag s i ⊔ memTag addr s i) ∧
        ∀ i < x.reg.size, (if i < 2 then eaxTag s i ⊔ memTag addr s 0 else eaxTag s i) =
          eaxTag s i ⊔ memTag addr s i := by
  have hvia := get_viaRegister addr op x s
  have hle := x.reg.size_le
  have hpair : accPair x.reg.size = [.reg gprEdx 0 x.reg.size, .reg gprEax 0 x.reg.size] :=
    if_neg hone
  simp only [hone, if_false] at hvia
  have hdx : ∀ i < x.reg.size, (viaRegister addr op x s).get ((Field.reg gprEdx 0 8).loc i) =
      edxTag s i ⊔ memTag addr s i := by
    intro i hi
    exact hvia (.reg gprEdx 0 x.reg.size) (by simp [hpair]) i hi
  have hax : ∀ i < x.reg.size, (viaRegister addr op x s).get ((Field.reg gprEax 0 8).loc i) =
      eaxTag s i ⊔ memTag addr s i := by
    intro i hi
    exact hvia (.reg gprEax 0 x.reg.size) (by simp [hpair]) i hi
  rw [inspect_mem, SamePair, hpair]
  constructor
  · intro h
    refine ⟨fun i hi ↦ ?_, fun i hi ↦ ?_⟩
    · rw [← hdx i hi, ← get_edx_oneByte addr s i]
      exact h (.reg gprEdx 0 x.reg.size) (by simp) i hi
    · rw [← hax i hi, ← get_eax_oneByte addr s (by omega)]
      exact h (.reg gprEax 0 x.reg.size) (by simp) i hi
  · rintro ⟨hedx, heax⟩ f hf i hi
    rcases List.mem_pair.1 hf with rfl | rfl
    · exact (get_edx_oneByte addr s i).trans ((hedx i hi).trans (hdx i hi).symm)
    · have hi' : i < x.reg.size := hi
      exact (get_eax_oneByte addr s (by omega)).trans ((heax i hi).trans (hax i hi).symm)

theorem pairAgrees_iff {w : ℕ} (hw : 2 ≤ w) (s : TagState T) :
    PairAgrees addr w s ↔ (∀ i < w, edxTag s i = edxTag s i ⊔ memTag addr s i) ∧
      ∀ i < w, (if i < 2 then eaxTag s i ⊔ memTag addr s 0 else eaxTag s i) =
        eaxTag s i ⊔ memTag addr s i := by
  rw [PairAgrees, or_iff_right (by omega)]
  refine and_congr (forall₂_congr fun i _ ↦ sup_eq_left.symm.trans eq_comm) ?_
  constructor
  · rintro ⟨hone, heax⟩ i hi
    by_cases h2 : i < 2
    · rw [if_pos h2]
      interval_cases i
      · rfl
      · exact hone
    · rw [if_neg h2, sup_eq_left.2 (heax i (by omega) hi)]
  · intro h
    refine ⟨h 1 (by omega), fun i h2 hi ↦ ?_⟩
    have hval := h i hi
    rw [if_neg (by omega)] at hval
    exact sup_eq_left.1 hval.symm

/-- The one-byte handler does what the register form does exactly when it leaves nothing
out. -/
theorem samePair_iff (op : OneOperand) (x : OutsideReg) (s : TagState T) :
    SamePair x.reg.size ((op.inspect readOnly (.mem addr)).run s) (viaRegister addr op x s) ↔
      PairAgrees addr x.reg.size s := by
  by_cases hone : x.reg.size = 1
  · exact iff_of_true (samePair_of_oneByte addr op x s hone) (.inl hone)
  · have hpos : x.reg.size ≠ 0 := x.general
    rw [samePair_iff_tags addr op x s hone, pairAgrees_iff addr (by omega)]

/-- `mul dword ptr [0]` drops the tag of byte 3. -/
theorem memory_operand_is_one_byte :
    ¬ ∀ (op : OneOperand) (x : OutsideReg) (addr : AddrInt) (s : TagState (Finset ℕ)),
      SamePair x.reg.size ((op.inspect readOnly (.mem addr)).run s) (viaRegister addr op x s) := by
  intro h
  let x : OutsideReg := ⟨.gr32 0, by unfold PinReg.General; decide, by decide⟩
  let s : TagState (Finset ℕ) :=
    { gpr := fun _ _ ↦ ∅, tagDir := tagDirSetb emptyDir 3 {1} }
  have hmem : Field.reg gprEdx 0 4 ∈ accPair x.reg.size := List.mem_cons_self
  have hbyte := h .mul x 0 s (.reg gprEdx 0 4) hmem 3 (by decide)
  have hcode := get_edx_oneByte 0 s 3
  have hvia := get_viaRegister 0 .mul x s (.reg gprEdx 0 4) hmem 3 (by decide)
  exact absurd (hcode.symm.trans (hbyte.trans hvia)) (by decide)

end Agreement

end TheiaTaint.Engine
