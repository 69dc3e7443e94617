import Mathlib
import TheiaTaint.Engine.Program

namespace TheiaTaint.Engine.FieldBlocks

open Foundations.History Foundations.Moves Foundations.Assign Tags.Directory

variable {S C T : Type*} [DecidableEq C] {get : S → Loc → T} {set : S → Loc → T → S}
  {cell : Loc → C}

/-- What a handler leaves in the bytes of one operand. -/
def write (set : S → Loc → T → S) (s : S) (d : Field) (tag : ℕ → T) : S :=
  store set s d.locs ((List.range d.size).map tag)

section Write

variable {s : S} {d : Field} {tag : ℕ → T}

theorem get_write_loc (h : Aliased get set cell) (hd : (d.locs.map cell).Nodup) {i : ℕ}
    (hi : i < d.size) : get (write set s d tag) (d.loc i) = tag i := by
  have hlen : d.locs.length = ((List.range d.size).map tag).length := by simp
  have hi' : i < d.locs.length := by rwa [Field.length_locs]
  have hloc : d.locs[i] = d.loc i := by simp [Field.locs]
  rw [write, get_store_getElem h hd hlen s hi' (congrArg cell hloc)]
  simp

theorem get_write_of_ne (h : Aliased get set cell) {l : Loc}
    (hl : ∀ i < d.size, cell (d.loc i) ≠ cell l) : get (write set s d tag) l = get s l := by
  apply get_store_of_forall_ne h
  intro k hk
  obtain ⟨i, hi, rfl⟩ := Field.mem_locs.1 hk
  exact hl i hi

theorem write_congr {u : ℕ → T} (h : ∀ i < d.size, tag i = u i) :
    write set s d tag = write set s d u :=
  congrArg (store set s _) (List.map_congr_left fun i hi ↦ h i (List.mem_range.1 hi))

theorem map_get_locs (s : S) (f : Field) :
    f.locs.map (get s) = (List.range f.size).map fun i ↦ get s (f.loc i) := by
  rw [Field.locs, List.map_map]
  rfl

end Write

variable [SemilatticeSup T] [OrderBot T] {s : S} {d f g : Field}

theorem runBlocks_xfer (hf : f.size = d.size) :
    runBlocks get set [Shape.xfer d.locs f.locs] s = write set s d fun i ↦ get s (f.loc i) := by
  rw [runBlocks_singleton, Shape.xfer, assign_zip, map_eval_places, map_get_locs, hf]
  rfl

theorem runBlocks_clr :
    runBlocks get set [Shape.clr d.locs] s = write set s d fun _ ↦ clearedVal := by
  rw [runBlocks_singleton, Shape.clr, assign_zip, map_eval_bots, Field.length_locs, write,
    List.map_const', List.length_range]

theorem runBlocks_extend (hf : f.size ≤ d.size) :
    runBlocks get set [Shape.extend d.locs f.locs] s =
      write set s d fun i ↦ if i < f.size then get s (f.loc i) else clearedVal := by
  have hlen : d.size = f.size + (d.size - f.size) := (Nat.add_sub_cancel' hf).symm
  rw [runBlocks_singleton, Shape.extend, assign_zip, List.map_append, map_eval_places,
    map_eval_bots, map_get_locs, write, Field.length_locs, Field.length_locs]
  congr 1
  nth_rewrite 2 [hlen]
  rw [List.range_add, List.map_append, List.map_map]
  congr 1
  · exact List.map_congr_left fun i hi ↦ (if_pos (List.mem_range.1 hi)).symm
  · have hclear : ((fun i ↦ if i < f.size then get s (f.loc i) else clearedVal) ∘ (f.size + ·)) =
        fun _ ↦ (clearedVal : T) :=
      funext fun i ↦ if_neg (show ¬ f.size + i < f.size by omega)
    rw [hclear, List.map_const', List.length_range]

omit [OrderBot T] in
theorem map_combine (hf : f.size = d.size) (hg : g.size = d.size) :
    combine (f.locs.map (get s)) (g.locs.map (get s)) =
      (List.range d.size).map fun i ↦ tagCombine (get s (f.loc i)) (get s (g.loc i)) := by
  rw [map_get_locs, map_get_locs, hf, hg, combine, List.zipWith_map, List.zipWith_self]

theorem runBlocks_combineInto (hf : f.size = d.size) (hg : g.size = d.size) :
    runBlocks get set [Shape.combineInto d.locs f.locs g.locs] s =
      write set s d fun i ↦ tagCombine (get s (f.loc i)) (get s (g.loc i)) := by
  rw [runBlocks_singleton, Shape.combineInto, assign_zip, map_eval_combine, map_combine hf hg]
  rfl

theorem runBlocks_xchg (hf : f.size = d.size) :
    runBlocks get set [Shape.xchg d.locs f.locs] s =
      write set (write set s f fun i ↦ get s (d.loc i)) d fun i ↦ get s (f.loc i) := by
  rw [runBlocks_singleton, Shape.xchg, Shape.xfer, Shape.xfer, assign_zip_append,
    map_eval_places, map_eval_places, map_get_locs, map_get_locs, write, write, hf]

theorem runBlocks_xadd (hf : f.size = d.size) :
    runBlocks get set [Shape.xadd d.locs f.locs] s =
      write set (write set s d fun i ↦ tagCombine (get s (d.loc i)) (get s (f.loc i))) f
        fun i ↦ get s (d.loc i) := by
  rw [runBlocks_singleton, Shape.xadd, Shape.combineInto, Shape.xfer, assign_zip_append,
    map_eval_combine, map_eval_places, map_combine rfl hf, map_get_locs, write, write, hf]

theorem runBlocks_xaddMem (hf : f.size = d.size) :
    runBlocks get set [Shape.xaddMem f.locs d.locs] s =
      write set (write set s f fun i ↦ get s (d.loc i)) d
        fun i ↦ tagCombine (get s (f.loc i)) (get s (d.loc i)) := by
  rw [runBlocks_singleton, Shape.xaddMem, Shape.combineInto, Shape.xfer, assign_zip_append,
    map_eval_combine, map_eval_places, map_combine hf rfl, map_get_locs, write, write, hf]

theorem runBlocks_ternary {n : ℕ} {rTag : Reg → List Loc}
    (hrTag : ∀ r, rTag r = (Field.reg r 0 n).locs) (hf : f.size = n) :
    runBlocks get set [Shape.ternary rTag f.locs] s =
      write set (write set s (.reg gprEdx 0 n)
          fun i ↦ tagCombine (get s ((Field.reg gprEdx 0 n).loc i)) (get s (f.loc i)))
        (.reg gprEax 0 n)
        fun i ↦ tagCombine (get s ((Field.reg gprEax 0 n).loc i)) (get s (f.loc i)) := by
  have hdx : f.size = (Field.reg gprEdx 0 n).size := hf
  have hax : f.size = (Field.reg gprEax 0 n).size := hf
  rw [runBlocks_singleton, Shape.ternary, hrTag, hrTag, Shape.combineInto, Shape.combineInto,
    assign_zip_append, map_eval_combine, map_eval_combine, map_combine rfl hdx,
    map_combine rfl hax]
  rfl

theorem runBlocks_ternaryByte (hf : f.size = 1) :
    runBlocks get set [Shape.ternaryByte f.locs] s =
      write set s (.reg gprEax 0 2)
        fun i ↦ tagCombine (get s ((Field.reg gprEax 0 2).loc i)) (get s (f.loc 0)) := by
  have hlocs : f.locs = [f.loc 0] := by
    rw [Field.locs, hf]
    rfl
  rw [runBlocks_singleton, Shape.ternaryByte, Shape.combineInto, assign_zip, map_eval_combine,
    hlocs]
  rfl

theorem runBlocks_fill (hf : 0 < f.size) (a : AddrInt) (n : ℕ) :
    runBlocks get set [Shape.fill a n f.locs] s =
      write set s (.mem a n) fun i ↦ get s (f.loc (i % f.size)) := by
  have hvalue : ∀ i, ((Shape.places f.locs).getD (i % f.locs.length) .bot).eval (get s) =
      get s (f.loc (i % f.size)) := by
    intro i
    have hi : i % f.size < f.size := Nat.mod_lt i hf
    simp [Shape.places, Field.locs, hi, Expr.eval]
  rw [runBlocks_singleton, Shape.fill, assign_zip, List.map_map]
  exact congrArg (store set s _) (List.map_congr_left fun i _ ↦ hvalue i)

end TheiaTaint.Engine.FieldBlocks
