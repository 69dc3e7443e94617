import Mathlib
import TheiaTaint.Engine.RepeatedStore

namespace TheiaTaint.Engine

open Foundations.Moves Foundations.Assign Tags.Directory

/-- The two widths, of which the 32-bit one is `PUSHAD` and `POPAD`. -/
inductive PushForm
  | opw
  | opl

namespace PushForm

def size : PushForm → ℕ
  | .opw => 2
  | .opl => 4

def save (f : PushForm) (dst : AddrInt) : Handler :=
  match f with
  | .opw => .r2mSaveOpw dst
  | .opl => .r2mSaveOpl dst

def restore (f : PushForm) (src : AddrInt) : Handler :=
  match f with
  | .opw => .m2rRestoreOpw src
  | .opl => .m2rRestoreOpl src

variable {T : Type*} (f : PushForm) (addr : AddrInt)

/-- Byte `j` of slot `k`. -/
def slot (k j : ℕ) : AddrInt := addr + BitVec.ofNat 64 (f.size * k + j)

/-- The part of register `k` that has a slot. -/
def reg (k : ℕ) : Field := .reg (Fin.ofNat 17 k) 0 f.size

/-- Each of the eight registers is in the slot with its number, and only the slots have
changed. -/
structure Saved (s s' : FlatState T) : Prop where
  slots : ∀ k < 8, ∀ j < f.size, s'.mem (f.slot addr k j) = s.get ((f.reg k).loc j)
  other : ∀ l, (∀ i < 8 * f.size, Loc.mem (addr + BitVec.ofNat 64 i) ≠ l) → s'.get l = s.get l

/-- Each register but `SP` has what its slot holds, and nothing else has changed. -/
structure Restored (s s' : FlatState T) : Prop where
  slots : ∀ k < 8, k ≠ 3 → ∀ j < f.size, s'.get ((f.reg k).loc j) = s.mem (f.slot addr k j)
  other : ∀ l, (∀ k < 8, k ≠ 3 → ∀ j < f.size, (f.reg k).loc j ≠ l) → s'.get l = s.get l

/-- The handlers have no slot for `SP`, and the later registers, `R8` to `R15` with them, one
slot too early. None of this shows in the tags. -/
structure Harmless (s : FlatState T) : Prop where
  saved : ∀ k, 3 ≤ k → k < 8 → ∀ j < f.size, s.get ((f.reg (k + 1)).loc j) = s.get ((f.reg k).loc j)
  above : ∀ k, 8 ≤ k → k < 15 → ∀ j < f.size,
    s.mem (f.slot addr k j) = s.get ((f.reg (k + 1)).loc j)
  restored : ∀ k, 3 ≤ k → k < 7 → ∀ j < f.size,
    s.mem (f.slot addr k j) = s.mem (f.slot addr (k + 1) j)

variable [SemilatticeSup T] [OrderBot T]

structure Exact (s : FlatState T) : Prop where
  save : f.Saved addr s ((f.save addr).run s)
  restore : f.Restored addr s ((f.restore addr).run s)
  roundTrip : ∀ r i, ((f.restore addr).run ((f.save addr).run s)).gpr r i = s.gpr r i

/-- The register that the handlers have in a slot. -/
def slotReg (k : ℕ) : ℕ := if k < 3 then k else k + 1

/-- The assignments to the first slots, of which each writes one. -/
def saves (n : ℕ) : List (Block Loc) :=
  (List.range n).map fun k ↦
    Shape.xfer (Field.mem (f.slot addr k 0) f.size).locs (f.reg (slotReg k)).locs

def restores (n : ℕ) : List (Block Loc) :=
  (List.range n).map fun k ↦
    Shape.xfer (f.reg (slotReg k)).locs (Field.mem (f.slot addr k 0) f.size).locs

theorem slots_saved (n : ℕ) : Custom.slots Custom.saved n addr =
    (List.range 15).map fun k ↦ (Fin.ofNat 17 (slotReg k), addr + BitVec.ofNat 64 (n * k + 0)) :=
  rfl

theorem slots_restored (n : ℕ) : Custom.slots Custom.restored n addr =
    (List.range 7).map fun k ↦ (Fin.ofNat 17 (slotReg k), addr + BitVec.ofNat 64 (n * k + 0)) :=
  rfl

theorem program_save : (f.save addr).program = f.saves addr 15 := by
  cases f with
  | opw =>
    simp only [save, Handler.program, slots_saved, List.map_map, m16Tag_eq]
    rfl
  | opl =>
    simp only [save, Handler.program, slots_saved, List.map_map, m32Tag_eq]
    rfl

theorem program_restore : (f.restore addr).program = f.restores addr 7 := by
  cases f with
  | opw =>
    simp only [restore, Handler.program, slots_restored, List.map_map, m16Tag_eq]
    rfl
  | opl =>
    simp only [restore, Handler.program, slots_restored, List.map_map, m32Tag_eq]
    rfl

theorem size_pos : 0 < f.size := by
  cases f <;> decide

theorem size_le : f.size ≤ 4 := by
  cases f <;> decide

theorem reg_proper (k : ℕ) : (f.reg k).Proper := by
  cases f <;> exact Nat.le_of_ble_eq_true rfl

theorem slot_add (k i j : ℕ) : f.slot addr k i + BitVec.ofNat 64 j = f.slot addr k (i + j) := by
  rw [slot, slot, BitVec.add_assoc, ← BitVec.ofNat_add, Nat.add_assoc]

theorem mul_add_lt {f : PushForm} {k n j : ℕ} (hk : k < n) (hj : j < f.size) :
    f.size * k + j < f.size * n := by
  have hsucc : f.size * (k + 1) ≤ f.size * n := Nat.mul_le_mul_left _ hk
  rw [Nat.mul_succ] at hsucc
  omega

theorem runBlocks_saves {n : ℕ} (hn : n ≤ 15) (s : FlatState T) :
    runBlocks FlatState.get FlatState.set (f.saves addr n) s =
      s.write (.mem addr (f.size * n)) fun o ↦
        s.get ((f.reg (slotReg (o / f.size))).loc (o % f.size)) := by
  induction n with
  | zero => rfl
  | succ n ih =>
    have hpos := f.size_pos
    have hle := f.size_le
    have hbound : f.size * n + f.size ≤ 2 ^ 64 := by
      have hmul : f.size * n ≤ 4 * 15 := Nat.mul_le_mul hle (by omega)
      omega
    rw [saves, List.range_succ, List.map_append, runBlocks, List.foldl_append, ← runBlocks,
      ← runBlocks, ← saves, ih (by omega), List.map_singleton]
    have hxfer := runBlocks_xfer (d := .mem (f.slot addr n 0) f.size) (f := f.reg (slotReg n)) rfl
      (s := s.write (.mem addr (f.size * n)) fun o ↦
        s.get ((f.reg (slotReg (o / f.size))).loc (o % f.size)))
    have hslot : f.slot addr n 0 = addr + BitVec.ofNat 64 (f.size * n) := rfl
    rw [hxfer, hslot, write_write hbound (by omega)]
    refine write_congr fun o ho ↦ ?_
    by_cases hlt : o < f.size * n
    · rw [if_pos hlt]
    · obtain ⟨j, rfl⟩ := Nat.exists_eq_add_of_le (not_lt.1 hlt)
      have hj : j < f.size := Nat.lt_of_add_lt_add_left ho
      rw [if_neg hlt, Nat.add_sub_cancel_left, Nat.mul_add_div hpos, Nat.div_eq_of_lt hj,
        Nat.mul_add_mod, Nat.mod_eq_of_lt hj]
      exact get_write_reg _ _

theorem slotReg_lt {k n : ℕ} (hk : k < n) : slotReg k < n + 1 := by
  rw [slotReg]
  split_ifs <;> omega

theorem slotReg_inj {k n : ℕ} (h : slotReg k = slotReg n) : k = n := by
  rw [slotReg, slotReg] at h
  split_ifs at h <;> omega

theorem reg_loc_inj {k n i j : ℕ} (hk : k < 17) (hn : n < 17) (hi : i < f.size) (hj : j < f.size)
    (h : (f.reg k).loc i = (f.reg n).loc j) : k = n ∧ i = j := by
  have hle := f.size_le
  obtain ⟨hreg, hbyte⟩ := Loc.reg.inj h
  have hkn : k % 17 = n % 17 := congrArg Fin.val hreg
  have hij : (0 + i) % 8 = (0 + j) % 8 := congrArg Fin.val hbyte
  omega

theorem get_restores {n : ℕ} (hn : n ≤ 7) (s : FlatState T) :
    (∀ k < n, ∀ j < f.size,
      (runBlocks FlatState.get FlatState.set (f.restores addr n) s).get
        ((f.reg (slotReg k)).loc j) = s.mem (f.slot addr k j)) ∧
      ∀ l, (∀ k < n, ∀ j < f.size, (f.reg (slotReg k)).loc j ≠ l) →
        (runBlocks FlatState.get FlatState.set (f.restores addr n) s).get l = s.get l := by
  induction n with
  | zero => exact ⟨fun k hk ↦ absurd hk (Nat.not_lt_zero k), fun l _ ↦ rfl⟩
  | succ n ih =>
    obtain ⟨hslots, hother⟩ := ih (by omega)
    rw [restores, List.range_succ, List.map_append, runBlocks, List.foldl_append, ← runBlocks,
      ← runBlocks, ← restores, List.map_singleton]
    generalize runBlocks FlatState.get FlatState.set (f.restores addr n) s = s₁ at hslots hother
    have hxfer := runBlocks_xfer (s := s₁) (d := f.reg (slotReg n))
      (f := .mem (f.slot addr n 0) f.size) rfl
    rw [hxfer]
    refine ⟨fun k hk j hj ↦ ?_, fun l hl ↦ ?_⟩
    · rcases Nat.lt_succ_iff_lt_or_eq.1 hk with hlt | rfl
      · rw [get_write_of_ne, hslots k hlt j hj]
        intro i hi hloc
        have hn' := slotReg_lt (Nat.lt_succ_self n)
        have hk' := slotReg_lt hlt
        have hreg := f.reg_loc_inj (by omega) (by omega) hi hj hloc
        exact hlt.ne' (slotReg_inj hreg.1)
      · rw [get_write_loc (f.reg_proper _) hj]
        refine (hother _ fun i hi m hm hloc ↦ Loc.noConfusion hloc).trans ?_
        rw [Field.loc, slot_add, Nat.zero_add]
        rfl
    · rw [get_write_of_ne fun i hi ↦ hl n (Nat.lt_succ_self n) i hi]
      exact hother l fun k hk ↦ hl k (Nat.lt_succ_of_lt hk)

variable {f addr} {s : FlatState T}

theorem get_save_slot {k j : ℕ} (hk : k < 15) (hj : j < f.size) :
    ((f.save addr).run s).mem (f.slot addr k j) = s.get ((f.reg (slotReg k)).loc j) := by
  have hle := f.size_le
  have hlt := mul_add_lt hk hj
  have hproper : (Field.mem addr (f.size * 15)).Proper := by
    have hmul : f.size * 15 ≤ 4 * 15 := Nat.mul_le_mul_right 15 hle
    exact hmul.trans (by decide)
  rw [run_flat, program_save, runBlocks_saves _ _ le_rfl]
  refine (get_write_loc hproper hlt).trans ?_
  rw [Nat.mul_add_div f.size_pos, Nat.div_eq_of_lt hj, Nat.mul_add_mod, Nat.mod_eq_of_lt hj,
    Nat.add_zero]

theorem get_save_of_ne {l : Loc} (hl : ∀ k < 15, ∀ j < f.size, Loc.mem (f.slot addr k j) ≠ l) :
    ((f.save addr).run s).get l = s.get l := by
  rw [run_flat, program_save, runBlocks_saves _ _ le_rfl]
  refine get_write_of_ne fun o ho ↦ ?_
  have ho' : o < f.size * 15 := ho
  have hslot := hl (o / f.size) (Nat.div_lt_of_lt_mul ho') (o % f.size) (Nat.mod_lt o f.size_pos)
  rwa [slot, Nat.div_add_mod] at hslot

theorem get_restore_reg {k j : ℕ} (hk : k < 7) (hj : j < f.size) :
    ((f.restore addr).run s).get ((f.reg (slotReg k)).loc j) = s.mem (f.slot addr k j) := by
  rw [run_flat, program_restore]
  exact (f.get_restores addr le_rfl s).1 k hk j hj

theorem get_restore_of_ne {l : Loc}
    (hl : ∀ k < 7, ∀ j < f.size, (f.reg (slotReg k)).loc j ≠ l) :
    ((f.restore addr).run s).get l = s.get l := by
  rw [run_flat, program_restore]
  exact (f.get_restores addr le_rfl s).2 l hl

/-- The slots are addressed without a wrap. -/
theorem slot_inj {k n i j : ℕ} (hk : k < 15) (hn : n < 15) (hi : i < f.size) (hj : j < f.size)
    (h : f.slot addr k i = f.slot addr n j) : k = n ∧ i = j := by
  have hle := f.size_le
  have hki := mul_add_lt hk hi
  have hnj := mul_add_lt hn hj
  have hsum : f.size * k + i = f.size * n + j := by
    have hoff := congrArg BitVec.toNat ((BitVec.add_right_inj addr).1 h)
    rw [BitVec.toNat_ofNat, BitVec.toNat_ofNat, Nat.mod_eq_of_lt (by omega),
      Nat.mod_eq_of_lt (by omega)] at hoff
    exact hoff
  have hdiv := congrArg (· / f.size) hsum
  simp only [Nat.mul_add_div f.size_pos, Nat.div_eq_of_lt hi, Nat.div_eq_of_lt hj,
    Nat.add_zero] at hdiv
  subst hdiv
  exact ⟨rfl, Nat.add_left_cancel hsum⟩

theorem slotReg_of_lt {k : ℕ} (hk : k < 3) : slotReg k = k := if_pos hk

theorem slotReg_of_le {k : ℕ} (hk : 3 ≤ k) : slotReg k = k + 1 := if_neg (not_lt.2 hk)

theorem forall_block_iff (p : AddrInt → Prop) :
    (∀ i < 8 * f.size, p (addr + BitVec.ofNat 64 i)) ↔
      ∀ k < 8, ∀ j < f.size, p (f.slot addr k j) := by
  constructor
  · intro h k hk j hj
    refine h _ ?_
    rw [Nat.mul_comm 8]
    exact mul_add_lt hk hj
  · intro h i hi
    rw [Nat.mul_comm 8] at hi
    have hslot := h (i / f.size) (Nat.div_lt_of_lt_mul hi) (i % f.size) (Nat.mod_lt i f.size_pos)
    rwa [slot, Nat.div_add_mod] at hslot

theorem saved_iff : f.Saved addr s ((f.save addr).run s) ↔
    (∀ k, 3 ≤ k → k < 8 → ∀ j < f.size,
        s.get ((f.reg (k + 1)).loc j) = s.get ((f.reg k).loc j)) ∧
      ∀ k, 8 ≤ k → k < 15 → ∀ j < f.size,
        s.mem (f.slot addr k j) = s.get ((f.reg (k + 1)).loc j) := by
  constructor
  · intro h
    refine ⟨fun k hk hk8 j hj ↦ ?_, fun k hk hk15 j hj ↦ ?_⟩
    · rw [← h.slots k hk8 j hj, get_save_slot (by omega) hj, slotReg_of_le hk]
    · have hout : ∀ i < 8 * f.size, Loc.mem (addr + BitVec.ofNat 64 i) ≠
          .mem (f.slot addr k j) := by
        refine (forall_block_iff fun a ↦ Loc.mem a ≠ .mem (f.slot addr k j)).2 ?_
        intro n hn i hi hloc
        have hslot := slot_inj (by omega) hk15 hi hj (Loc.mem.inj hloc)
        omega
      rw [← slotReg_of_le (show 3 ≤ k by omega), ← get_save_slot hk15 hj]
      exact (h.other _ hout).symm
  · rintro ⟨hsaved, habove⟩
    refine ⟨fun k hk j hj ↦ ?_, fun l hl ↦ ?_⟩
    · rw [get_save_slot (by omega) hj]
      by_cases h3 : k < 3
      · rw [slotReg_of_lt h3]
      · rw [slotReg_of_le (not_lt.1 h3), hsaved k (not_lt.1 h3) hk j hj]
    · by_cases hblock : ∃ k < 15, ∃ j < f.size, Loc.mem (f.slot addr k j) = l
      · obtain ⟨k, hk, j, hj, rfl⟩ := hblock
        have hk8 : 8 ≤ k := by
          by_contra hlt
          exact (forall_block_iff fun a ↦ Loc.mem a ≠ .mem (f.slot addr k j)).1 hl k
            (not_le.1 hlt) j hj rfl
        refine (get_save_slot hk hj).trans ?_
        rw [slotReg_of_le (by omega)]
        exact (habove k hk8 hk j hj).symm
      · push Not at hblock
        exact get_save_of_ne hblock

theorem restored_iff : f.Restored addr s ((f.restore addr).run s) ↔
    ∀ k, 3 ≤ k → k < 7 → ∀ j < f.size,
      s.mem (f.slot addr k j) = s.mem (f.slot addr (k + 1) j) := by
  constructor
  · intro h k hk hk7 j hj
    rw [← h.slots (k + 1) (by omega) (by omega) j hj, ← slotReg_of_le hk, get_restore_reg hk7 hj]
  · intro h
    refine ⟨fun k hk hne j hj ↦ ?_, fun l hl ↦ ?_⟩
    · by_cases h3 : k < 3
      · have hrestored : ((f.restore addr).run s).get ((f.reg (slotReg k)).loc j) =
            s.mem (f.slot addr k j) := get_restore_reg (by omega) hj
        rwa [slotReg_of_lt h3] at hrestored
      · obtain ⟨n, rfl⟩ := Nat.exists_eq_add_of_le' (show 1 ≤ k by omega)
        have hrestored : ((f.restore addr).run s).get ((f.reg (slotReg n)).loc j) =
            s.mem (f.slot addr n j) := get_restore_reg (by omega) hj
        rw [slotReg_of_le (by omega)] at hrestored
        exact hrestored.trans (h n (by omega) (by omega) j hj)
    · refine get_restore_of_ne fun k hk j hj ↦ ?_
      have hlt := slotReg_lt hk
      have hne : slotReg k ≠ 3 := by
        rw [slotReg]
        split_ifs <;> omega
      exact hl (slotReg k) hlt hne j hj

/-- Both handlers have the same registers in the same slots. -/
theorem restore_save (r : Reg) (i : Fin 8) :
    ((f.restore addr).run ((f.save addr).run s)).gpr r i = s.gpr r i := by
  change ((f.restore addr).run ((f.save addr).run s)).get (.reg r i) = s.get (.reg r i)
  by_cases hreg : ∃ k < 7, ∃ j < f.size, (f.reg (slotReg k)).loc j = .reg r i
  · obtain ⟨k, hk, j, hj, hloc⟩ := hreg
    rw [← hloc, get_restore_reg hk hj, get_save_slot (by omega) hj]
  · push Not at hreg
    rw [get_restore_of_ne hreg]
    exact get_save_of_ne fun k _ j _ ↦ Loc.noConfusion

/-- The handlers undo each other always, and use the right slots only by chance. -/
theorem push_exact_iff (f : PushForm) (addr : AddrInt) (s : FlatState T) :
    f.Exact addr s ↔ f.Harmless addr s := by
  constructor
  · intro h
    obtain ⟨hsaved, habove⟩ := saved_iff.1 h.save
    exact ⟨hsaved, habove, restored_iff.1 h.restore⟩
  · intro h
    exact ⟨saved_iff.2 ⟨h.saved, h.above⟩, restored_iff.2 h.restored, restore_save⟩

/-- `R9` has a tag, which `PUSHA` leaves above the sixteen bytes it pushes. -/
theorem pusha_leaves_block :
    ¬ ∀ (f : PushForm) (addr : AddrInt) (s : FlatState (Finset ℕ)), f.Exact addr s := by
  intro h
  have hexact := h .opw 0 ⟨fun r _ ↦ if r = 9 then {1} else ∅, fun _ ↦ ∅⟩
  have habove := (saved_iff.1 hexact.save).2 8 (by decide) (by decide) 0 (by decide)
  exact absurd habove (by decide)

end PushForm

end TheiaTaint.Engine
