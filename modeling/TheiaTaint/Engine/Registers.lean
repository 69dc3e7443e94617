import Mathlib
import TheiaTaint.Engine.Dispatch

namespace TheiaTaint.Engine

open Foundations.Moves Foundations.Assign Tags.Directory

variable {T : Type*} [SemilatticeSup T] [OrderBot T] {s : TagState T}

def TagState.write (s : TagState T) (d : Field) (tag : ℕ → T) : TagState T :=
  FieldBlocks.write TagState.set s d tag

section Write

variable {r : Reg} {o n : ℕ} {tag : ℕ → T}

theorem get_write_reg_loc (h : o + n ≤ 8) {i : ℕ} (hi : i < n) :
    (s.write (.reg r o n) tag).get ((Field.reg r o n).loc i) = tag i :=
  FieldBlocks.get_write_loc aliased (nodup_cell_reg h) hi

theorem get_write_reg_of_ne {r' : Reg} {j : Fin 8}
    (hne : ∀ i < n, (Field.reg r o n).loc i ≠ .reg r' j) :
    (s.write (.reg r o n) tag).get (.reg r' j) = s.get (.reg r' j) := by
  apply FieldBlocks.get_write_of_ne aliased
  intro i hi hcell
  obtain ⟨hr, hj⟩ := Cell.reg.inj hcell
  exact hne i hi (congrArg₂ Loc.reg hr hj)

theorem get_write_other_reg {r' : Reg} (hr : r ≠ r') (j : Fin 8) :
    (s.write (.reg r o n) tag).get (.reg r' j) = s.get (.reg r' j) := by
  apply get_write_reg_of_ne
  intro i _ hloc
  exact hr (Loc.reg.inj hloc).1

theorem get_write_mem_of_reg (addr : AddrInt) :
    (s.write (.reg r o n) tag).get (.mem addr) = s.get (.mem addr) := by
  apply FieldBlocks.get_write_of_ne aliased
  intro i _
  exact Cell.noConfusion

theorem get_write_of_loc_ne {l : Loc} (hne : ∀ i < n, (Field.reg r o n).loc i ≠ l) :
    (s.write (.reg r o n) tag).get l = s.get l := by
  cases l with
  | reg r' j => exact get_write_reg_of_ne hne
  | mem addr => exact get_write_mem_of_reg addr

end Write

section Run

variable {h : Handler} {d f g : Field}

theorem run_of_clr (hp : h.program = [Shape.clr d.locs]) :
    h.run s = s.write d fun _ ↦ clearedVal := by
  rw [computes_run h s, hp]
  exact FieldBlocks.runBlocks_clr

theorem run_of_xfer (hp : h.program = [Shape.xfer d.locs f.locs]) (hf : f.size = d.size) :
    h.run s = s.write d fun i ↦ s.get (f.loc i) := by
  rw [computes_run h s, hp]
  exact FieldBlocks.runBlocks_xfer hf

theorem run_of_extend (hp : h.program = [Shape.extend d.locs f.locs]) (hf : f.size ≤ d.size) :
    h.run s = s.write d fun i ↦ if i < f.size then s.get (f.loc i) else clearedVal := by
  rw [computes_run h s, hp]
  exact FieldBlocks.runBlocks_extend hf

theorem run_of_combineInto (hp : h.program = [Shape.combineInto d.locs f.locs g.locs])
    (hf : f.size = d.size) (hg : g.size = d.size) :
    h.run s = s.write d fun i ↦ tagCombine (s.get (f.loc i)) (s.get (g.loc i)) := by
  rw [computes_run h s, hp]
  exact FieldBlocks.runBlocks_combineInto hf hg

end Run

/-- The inserted calls one after the other. -/
def runAll (hs : List Handler) (s : TagState T) : TagState T := hs.foldl (fun s h ↦ h.run s) s

end TheiaTaint.Engine
