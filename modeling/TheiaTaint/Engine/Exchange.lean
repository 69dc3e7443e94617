import Mathlib
import TheiaTaint.Engine.Dispatch

namespace TheiaTaint.Engine

open Tags.Directory ZeroExtension

/-- The operands of `XADD` at distinct locations. -/
structure Xadd where
  ops : Operands
  apart : ∀ i < ops.size, ∀ j < ops.size, ops.dst.loc i ≠ ops.src.loc j

def inspectXchg : TwoOperands → Option Handler
  | .rm (.r2r dst src _ _) => inspectR2r .xchgR2r .xchgR2rOpl dst src
  | .rm (.r2m dst src _) => some (inspectMem .xchgM2r .xchgM2rOpl src dst)
  | .m2r dst _ src => some (inspectMem .xchgM2r .xchgM2rOpl dst src)

def Xadd.inspect (x : Xadd) : Option Handler :=
  match x.ops with
  | .r2r dst src _ _ => inspectR2r .xaddR2r .xaddR2rOpl dst src
  | .r2m dst src _ => some (inspectMem .xaddR2m .xaddR2mOpl src dst)

variable {T : Type*}

/-- The two operands trade their tags byte for byte, and no other byte changes. -/
structure Swapped (d f : Field) (s s' : FlatState T) : Prop where
  dst : ∀ i < d.size, s'.get (d.loc i) = s.get (f.loc i)
  src : ∀ i < d.size, s'.get (f.loc i) = s.get (d.loc i)
  other : ∀ l, (∀ i < d.size, d.loc i ≠ l) → (∀ i < d.size, f.loc i ≠ l) → s'.get l = s.get l

theorem Swapped.symm {d f : Field} {s s' : FlatState T} (h : Swapped d f s s')
    (hsize : f.size = d.size) : Swapped f d s s' := by
  refine ⟨?_, ?_, ?_⟩
  · intro i hi
    exact h.src i (hsize ▸ hi)
  · intro i hi
    exact h.dst i (hsize ▸ hi)
  · intro l hf hd
    exact h.other l (fun i hi ↦ hd i (hsize ▸ hi)) fun i hi ↦ hf i (hsize ▸ hi)

theorem Swapped.twice {d f : Field} {s s' s'' : FlatState T} (h : Swapped d f s s')
    (h' : Swapped d f s' s'') : s'' = s := by
  apply FlatState.ext_get
  intro l
  by_cases hd : ∃ i < d.size, d.loc i = l
  · obtain ⟨i, hi, rfl⟩ := hd
    rw [h'.dst i hi, h.src i hi]
  · by_cases hf : ∃ i < d.size, f.loc i = l
    · obtain ⟨i, hi, rfl⟩ := hf
      rw [h'.src i hi, h.dst i hi]
    · push Not at hd hf
      rw [h'.other l hd hf, h.other l hd hf]

/-- The destination takes the union of both tags, the source the destination's old
ones, and no other byte changes. -/
structure Added [Max T] (d f : Field) (s s' : FlatState T) : Prop where
  dst : ∀ i < d.size, s'.get (d.loc i) = s.get (d.loc i) ⊔ s.get (f.loc i)
  src : ∀ i < d.size, s'.get (f.loc i) = s.get (d.loc i)
  other : ∀ l, (∀ i < d.size, d.loc i ≠ l) → (∀ i < d.size, f.loc i ≠ l) → s'.get l = s.get l

section Writes

variable {s : FlatState T} {d f : Field}

/-- Writing the second operand and then the first exchanges them when they are the same
or apart. -/
theorem swapped_write (hd : d.Proper) (hf : f.Proper) (hsize : f.size = d.size)
    (halign : ∀ i < d.size, ∀ j < d.size, f.loc i = d.loc j → i = j) :
    Swapped d f s ((s.write f fun i ↦ s.get (d.loc i)).write d fun i ↦ s.get (f.loc i)) := by
  refine ⟨?_, ?_, ?_⟩
  · intro i hi
    exact get_write_loc hd hi
  · intro i hi
    by_cases hmeet : ∃ j < d.size, d.loc j = f.loc i
    · obtain ⟨j, hj, hji⟩ := hmeet
      obtain rfl := halign i hi j hj hji.symm
      rw [← hji, get_write_loc hd hi, hji]
    · push Not at hmeet
      rw [get_write_of_ne hmeet, get_write_loc hf (hsize ▸ hi)]
  · intro l hld hlf
    rw [get_write_of_ne hld, get_write_of_ne (hsize ▸ hlf)]

theorem added_write [SemilatticeSup T] (hd : d.Proper) (hf : f.Proper) (hsize : f.size = d.size)
    (hapart : ∀ i < d.size, ∀ j < d.size, d.loc i ≠ f.loc j) :
    Added d f s ((s.write d fun i ↦ tagCombine (s.get (d.loc i)) (s.get (f.loc i))).write f
      fun i ↦ s.get (d.loc i)) := by
  refine ⟨?_, ?_, ?_⟩
  · intro i hi
    have hne : ∀ j < f.size, f.loc j ≠ d.loc i := by
      intro j hj
      exact (hapart i hi j (hsize ▸ hj)).symm
    rw [get_write_of_ne hne, get_write_loc hd hi]
  · intro i hi
    exact get_write_loc hf (hsize ▸ hi)
  · intro l hld hlf
    rw [get_write_of_ne (hsize ▸ hlf), get_write_of_ne hld]

theorem added_writeMem [SemilatticeSup T] (hd : d.Proper) (hf : f.Proper)
    (hsize : f.size = d.size) (hapart : ∀ i < d.size, ∀ j < d.size, d.loc i ≠ f.loc j) :
    Added d f s ((s.write f fun i ↦ s.get (d.loc i)).write d
      fun i ↦ tagCombine (s.get (f.loc i)) (s.get (d.loc i))) := by
  refine ⟨?_, ?_, ?_⟩
  · intro i hi
    rw [get_write_loc hd hi]
    exact sup_comm _ _
  · intro i hi
    rw [get_write_of_ne fun j hj ↦ hapart j hj i hi, get_write_loc hf (hsize ▸ hi)]
  · intro l hld hlf
    rw [get_write_of_ne hld, get_write_of_ne (hsize ▸ hlf)]

end Writes

variable [SemilatticeSup T] [OrderBot T]

theorem inspectMem_xchg {reg : PinReg} (hreg : reg.General) (addr : AddrInt) (s : FlatState T) :
    Swapped reg.field (.mem addr reg.size) s
      ((inspectMem .xchgM2r .xchgM2rOpl reg addr).run s) := by
  have hprogram := inspectMem_program .xchgM2r .xchgM2rOpl
    (fun d f ↦ [Shape.xchg d f]) (fun _ _ _ ↦ rfl) (fun _ _ ↦ rfl) hreg addr
  have hmem : (Field.mem addr reg.size).Proper := reg.size_le.trans (by decide)
  have hsize : (Field.mem addr reg.size).size = reg.field.size := rfl
  rw [run_flat, hprogram, runBlocks_xchg hsize]
  refine swapped_write reg.proper_field hmem rfl ?_
  intro i _ j _ hij
  exact absurd hij.symm (reg.field_loc_ne_mem j _)

theorem inspectXchg_swapped (ops : TwoOperands) (s : FlatState T) :
    ∃ h, inspectXchg ops = some h ∧ Swapped ops.dst ops.src s (h.run s) := by
  cases ops with
  | rm ops =>
    cases ops with
    | r2r dst src hdst hsize =>
      obtain ⟨h, hh, hprogram⟩ := inspectR2r_program .xchgR2r .xchgR2rOpl
        (fun d f ↦ [Shape.xchg d f]) (fun _ _ _ ↦ rfl) (fun _ _ ↦ rfl) hdst hsize
      refine ⟨h, hh, ?_⟩
      rw [run_flat, hprogram, runBlocks_xchg hsize]
      refine swapped_write dst.proper_field src.proper_field hsize ?_
      intro i hi j hj hij
      exact PinReg.field_loc_align hsize hi hj hij
    | r2m dst src hsrc => exact ⟨_, rfl, (inspectMem_xchg hsrc dst s).symm rfl⟩
  | m2r dst hdst src => exact ⟨_, rfl, inspectMem_xchg hdst src s⟩

theorem inspectXadd_added (x : Xadd) (s : FlatState T) :
    ∃ h, x.inspect = some h ∧ Added x.ops.dst x.ops.src s (h.run s) := by
  obtain ⟨ops, hapart⟩ := x
  have hapart' : ∀ i < ops.dst.size, ∀ j < ops.dst.size, ops.dst.loc i ≠ ops.src.loc j := by
    rwa [ops.size_dst]
  cases ops with
  | r2r dst src hdst hsize =>
    obtain ⟨h, hh, hprogram⟩ := inspectR2r_program .xaddR2r .xaddR2rOpl
      (fun d f ↦ [Shape.xadd d f]) (fun _ _ _ ↦ rfl) (fun _ _ ↦ rfl) hdst hsize
    refine ⟨h, hh, ?_⟩
    rw [run_flat, hprogram, runBlocks_xadd hsize]
    exact added_write dst.proper_field src.proper_field hsize hapart'
  | r2m dst src hsrc =>
    have hprogram := inspectMem_program .xaddR2m .xaddR2mOpl
      (fun f d ↦ [Shape.xaddMem f d]) (fun _ _ _ ↦ rfl) (fun _ _ ↦ rfl) hsrc dst
    have hmem : (Field.mem dst src.size).Proper := src.size_le.trans (by decide)
    have hsize : src.field.size = (Field.mem dst src.size).size := rfl
    refine ⟨_, rfl, ?_⟩
    rw [run_flat, hprogram, runBlocks_xaddMem hsize]
    exact added_writeMem hmem src.proper_field rfl hapart'

/-- The inserted handlers of `XCHG` exchange their operands, so that two of them cancel,
and those of `XADD` exchange and join them. -/
theorem exchange_exact (s : FlatState T) :
    (∀ ops : TwoOperands, ∃ h, inspectXchg ops = some h ∧
      Computes h.program (h.run (S := TagState T)) ∧
      Swapped ops.dst ops.src s (h.run s) ∧ h.run (h.run s) = s) ∧
    ∀ x : Xadd, ∃ h, x.inspect = some h ∧ Computes h.program (h.run (S := TagState T)) ∧
      Added x.ops.dst x.ops.src s (h.run s) := by
  constructor
  · intro ops
    obtain ⟨h, hh, hswap⟩ := inspectXchg_swapped ops s
    obtain ⟨h', hh', hswap'⟩ := inspectXchg_swapped ops (h.run s)
    obtain rfl : h' = h := Option.some.inj (hh'.symm.trans hh)
    exact ⟨h', hh, computes_run h', hswap, hswap.twice hswap'⟩
  · intro x
    obtain ⟨h, hh, hadd⟩ := inspectXadd_added x s
    exact ⟨h, hh, computes_run h, hadd⟩

/-- `xadd ah, al`, on the two halves of one register. -/
def sampleXadd : Xadd where
  ops := .r2r (.upper8 3) (.lower8 7) (by decide) rfl
  apart := by decide

/-- `AL` is tagged with one, `AH` with two and the memory at `0x1000` with three. -/
def exchangedTags : FlatState (Finset ℕ) where
  gpr r i := if r = gprEax ∧ i = 0 then {1} else if r = gprEax ∧ i = 1 then {2} else ∅
  mem addr := if addr = 0x1000 then {3} else ∅

theorem exchange_exact_sampleXadd :
    (∃ h, inspectXchg (.m2r (.upper8 3) (by decide) 0x1000) = some h ∧
      (h.run exchangedTags).get (.mem 0x1000) = {2} ∧
      h.run (h.run exchangedTags) = exchangedTags) ∧
    ∃ h, sampleXadd.inspect = some h ∧ (h.run exchangedTags).gpr gprEax 1 = {1, 2} ∧
      (h.run exchangedTags).gpr gprEax 0 = {2} := by
  obtain ⟨hxchg, hxadd⟩ := exchange_exact exchangedTags
  constructor
  · obtain ⟨h, hh, -, hswapped, htwice⟩ := hxchg (.m2r (.upper8 3) (by decide) 0x1000)
    exact ⟨h, hh, (hswapped.src 0 (by decide)).trans (by decide), htwice⟩
  · obtain ⟨h, hh, -, hadded⟩ := hxadd sampleXadd
    exact ⟨h, hh, (hadded.dst 0 (by decide)).trans (by decide),
      (hadded.src 0 (by decide)).trans (by decide)⟩

end TheiaTaint.Engine
