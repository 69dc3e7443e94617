import Mathlib
import TheiaTaint.Foundations.Moves

namespace TheiaTaint.Foundations.Assign

open History Moves

/-- A value computed from the values of places. -/
inductive Expr (L : Type*)
  | bot
  | place (l : L)
  | sup (a b : Expr L)

abbrev Block (L : Type*) := List (L × Expr L)

variable {S L C T : Type*} [Max T] [Bot T]

def Expr.eval (f : L → T) : Expr L → T
  | .bot => ⊥
  | .place l => f l
  | .sup a b => a.eval f ⊔ b.eval f

/-- All values are computed before the first one is written. -/
def assign (get : S → L → T) (set : S → L → T → S) (b : Block L) (s : S) : S :=
  writeAll set s (b.map fun w ↦ (w.1, w.2.eval (get s)))

def runBlocks (get : S → L → T) (set : S → L → T → S) (bs : List (Block L)) (s : S) : S :=
  bs.foldl (fun s b ↦ assign get set b s) s

variable {get : S → L → T} {set : S → L → T → S}

@[simp] theorem runBlocks_singleton (b : Block L) (s : S) :
    runBlocks get set [b] s = assign get set b s := rfl

theorem assign_zip (ls : List L) (es : List (Expr L)) (s : S) :
    assign get set (ls.zip es) s = store set s ls (es.map (Expr.eval (get s))) := by
  have hzip : (ls.zip es).map (fun w ↦ (w.1, w.2.eval (get s))) =
      ls.zip (es.map (Expr.eval (get s))) := by
    rw [List.zip_map_right]
    rfl
  rw [assign, hzip, writeAll_zip]

/-- The second half of a block still reads the state before the first half. -/
theorem assign_zip_append (ls : List L) (es : List (Expr L)) (ks : List L) (fs : List (Expr L))
    (s : S) : assign get set (ls.zip es ++ ks.zip fs) s =
      store set (store set s ls (es.map (Expr.eval (get s)))) ks
        (fs.map (Expr.eval (get s))) := by
  rw [← assign_zip ls es, ← writeAll_zip, List.zip_map_right, assign, assign, List.map_append,
    writeAll, writeAll, List.foldl_append]
  rfl

theorem map_eval_place (f : L → T) (ls : List L) :
    (ls.map Expr.place).map (Expr.eval f) = ls.map f := by
  rw [List.map_map]
  rfl

theorem map_eval_sup (f : L → T) (es fs : List (Expr L)) :
    (List.zipWith Expr.sup es fs).map (Expr.eval f) =
      List.zipWith (fun t u ↦ t ⊔ u) (es.map (Expr.eval f)) (fs.map (Expr.eval f)) := by
  rw [List.map_zipWith, List.zipWith_map]
  rfl

section Closed

variable [DecidableEq C] {cell : L → C} {p : T → Prop}

theorem Expr.forall_eval (hbot : p ⊥) (hsup : ∀ t u, p t → p u → p (t ⊔ u)) {f : L → T}
    (hf : ∀ l, p (f l)) (e : Expr L) : p (e.eval f) := by
  induction e with
  | bot => exact hbot
  | place l => exact hf l
  | sup a b iha ihb => exact hsup _ _ iha ihb

theorem forall_get_assign (h : Aliased get set cell) (hbot : p ⊥)
    (hsup : ∀ t u, p t → p u → p (t ⊔ u)) {s : S} (hs : ∀ l, p (get s l)) (b : Block L) (l : L) :
    p (get (assign get set b s) l) := by
  refine h.forall_get_writeAll hs (fun w hw ↦ ?_) l
  obtain ⟨v, -, rfl⟩ := List.mem_map.1 hw
  exact v.2.forall_eval hbot hsup hs

theorem forall_get_runBlocks (h : Aliased get set cell) (hbot : p ⊥)
    (hsup : ∀ t u, p t → p u → p (t ⊔ u)) {s : S} (hs : ∀ l, p (get s l)) (bs : List (Block L))
    (l : L) : p (get (runBlocks get set bs s) l) := by
  induction bs generalizing s with
  | nil => exact hs l
  | cons b bs ih => exact ih (forall_get_assign h hbot hsup hs b)

end Closed

end TheiaTaint.Foundations.Assign
