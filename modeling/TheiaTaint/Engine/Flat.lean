import Mathlib
import TheiaTaint.Engine.FieldBlocks

namespace TheiaTaint.Engine

open Foundations.History Foundations.Moves Foundations.Assign Tags.Directory

/-- The tags of a thread over a memory that tells all addresses apart. -/
structure FlatState (T : Type*) where
  gpr : Reg → Fin 8 → T
  mem : AddrInt → T

variable {T : Type*}

namespace FlatState

def get (s : FlatState T) : Loc → T
  | .reg r i => s.gpr r i
  | .mem addr => s.mem addr

def set (s : FlatState T) (l : Loc) (tag : T) : FlatState T :=
  match l with
  | .reg r i => { s with gpr := Function.update s.gpr r (Function.update (s.gpr r) i tag) }
  | .mem addr => { s with mem := Function.update s.mem addr tag }

theorem ext_get {s s' : FlatState T} (h : ∀ l, s.get l = s'.get l) : s = s' := by
  obtain ⟨gpr, mem⟩ := s
  obtain ⟨gpr', mem'⟩ := s'
  have hgpr : gpr = gpr' := funext₂ fun r i ↦ h (.reg r i)
  have hmem : mem = mem' := funext fun addr ↦ h (.mem addr)
  rw [hgpr, hmem]

end FlatState

theorem flat_aliased : Aliased FlatState.get (FlatState.set (T := T)) id where
  get_set s l t l' := by
    cases l with
    | reg r i =>
      cases l' with
      | reg r' i' => simp [FlatState.get, FlatState.set, update_gpr]
      | mem addr => simp [FlatState.get, FlatState.set]
    | mem addr =>
      cases l' with
      | reg r i => simp [FlatState.get, FlatState.set]
      | mem addr' =>
        have hmem := aliased_update.get_set s.mem addr t addr'
        simpa [FlatState.get, FlatState.set] using hmem

/-- What a handler leaves in the bytes of one operand. -/
def FlatState.write (s : FlatState T) (d : Field) (tag : ℕ → T) : FlatState T :=
  store FlatState.set s d.locs ((List.range d.size).map tag)

section Write

variable {s : FlatState T} {d : Field} {tag : ℕ → T}

theorem get_write_loc (hd : d.Proper) {i : ℕ} (hi : i < d.size) :
    (s.write d tag).get (d.loc i) = tag i := by
  have hnodup : (d.locs.map id).Nodup := by
    rw [List.map_id]
    exact Field.nodup_locs hd
  exact FieldBlocks.get_write_loc flat_aliased hnodup hi

theorem get_write_of_ne {l : Loc} (hl : ∀ i < d.size, d.loc i ≠ l) :
    (s.write d tag).get l = s.get l :=
  FieldBlocks.get_write_of_ne flat_aliased hl

theorem write_congr {u : ℕ → T} (h : ∀ i < d.size, tag i = u i) : s.write d tag = s.write d u :=
  FieldBlocks.write_congr h

end Write

instance : TagStore (FlatState T) T := ⟨FlatState.get, FlatState.set⟩

variable [SemilatticeSup T] [OrderBot T]

theorem run_flat (h : Handler) (s : FlatState T) :
    h.run s = runBlocks FlatState.get FlatState.set h.program s := computes_run h s

variable {s : FlatState T} {d : Field}

theorem runBlocks_xfer {f : Field} (hf : f.size = d.size) :
    runBlocks FlatState.get FlatState.set [Shape.xfer d.locs f.locs] s =
      s.write d fun i ↦ s.get (f.loc i) :=
  FieldBlocks.runBlocks_xfer hf

theorem runBlocks_clr :
    runBlocks FlatState.get FlatState.set [Shape.clr d.locs] s =
      s.write d fun _ ↦ clearedVal :=
  FieldBlocks.runBlocks_clr

theorem runBlocks_combineInto {f g : Field} (hf : f.size = d.size) (hg : g.size = d.size) :
    runBlocks FlatState.get FlatState.set [Shape.combineInto d.locs f.locs g.locs] s =
      s.write d fun i ↦ tagCombine (s.get (f.loc i)) (s.get (g.loc i)) :=
  FieldBlocks.runBlocks_combineInto hf hg

theorem runBlocks_xchg {f : Field} (hf : f.size = d.size) :
    runBlocks FlatState.get FlatState.set [Shape.xchg d.locs f.locs] s =
      (s.write f fun i ↦ s.get (d.loc i)).write d fun i ↦ s.get (f.loc i) :=
  FieldBlocks.runBlocks_xchg hf

theorem runBlocks_xadd {f : Field} (hf : f.size = d.size) :
    runBlocks FlatState.get FlatState.set [Shape.xadd d.locs f.locs] s =
      (s.write d fun i ↦ tagCombine (s.get (d.loc i)) (s.get (f.loc i))).write f
        fun i ↦ s.get (d.loc i) :=
  FieldBlocks.runBlocks_xadd hf

theorem runBlocks_xaddMem {f : Field} (hf : f.size = d.size) :
    runBlocks FlatState.get FlatState.set [Shape.xaddMem f.locs d.locs] s =
      (s.write f fun i ↦ s.get (d.loc i)).write d
        fun i ↦ tagCombine (s.get (f.loc i)) (s.get (d.loc i)) :=
  FieldBlocks.runBlocks_xaddMem hf

theorem runBlocks_fill {f : Field} (hf : 0 < f.size) (a : AddrInt) (n : ℕ) :
    runBlocks FlatState.get FlatState.set [Shape.fill a n f.locs] s =
      s.write (.mem a n) fun i ↦ s.get (f.loc (i % f.size)) :=
  FieldBlocks.runBlocks_fill hf a n

end TheiaTaint.Engine
