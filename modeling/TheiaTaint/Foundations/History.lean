import Mathlib

namespace TheiaTaint.Foundations.History

variable {S K L V : Type*}

/-- The value carried by the last entry whose key satisfies `p`. -/
def lastWhere (p : K → Bool) (ws : List (K × V)) : Option V :=
  ((ws.filter fun w ↦ p w.1).getLast?).map Prod.snd

@[simp] theorem lastWhere_nil (p : K → Bool) : lastWhere p ([] : List (K × V)) = none := rfl

theorem lastWhere_concat (p : K → Bool) (ws : List (K × V)) (w : K × V) :
    lastWhere p (ws ++ [w]) = if p w.1 then some w.2 else lastWhere p ws := by
  cases hp : p w.1 <;> simp [lastWhere, hp]

/-- A keyed store in which a write is seen by exactly the keys that share
its line. -/
structure Aliased [DecidableEq L] (get : S → K → V) (set : S → K → V → S) (line : K → L) : Prop where
  get_set : ∀ s a v b, get (set s a v) b = if line a = line b then v else get s b

def writeAll (set : S → K → V → S) (s : S) (ws : List (K × V)) : S :=
  ws.foldl (fun s w ↦ set s w.1 w.2) s

theorem writeAll_concat (set : S → K → V → S) (s : S) (ws : List (K × V)) (w : K × V) :
    writeAll set s (ws ++ [w]) = set (writeAll set s ws) w.1 w.2 := by
  simp [writeAll]

theorem aliased_update [DecidableEq K] :
    Aliased (fun (f : K → V) k ↦ f k) Function.update id where
  get_set f a v b := by
    by_cases hab : a = b
    · simp [hab]
    · simp [hab, Function.update_of_ne (Ne.symm hab)]

variable [DecidableEq L] {get : S → K → V} {set : S → K → V → S} {line : K → L}

theorem Aliased.get_writeAll (h : Aliased get set line) (s : S) (ws : List (K × V)) (b : K) :
    get (writeAll set s ws) b =
      (lastWhere (fun a ↦ decide (line a = line b)) ws).getD (get s b) := by
  induction ws using List.reverseRecOn with
  | nil => rfl
  | append_singleton ws w ih =>
    rw [writeAll_concat, h.get_set, lastWhere_concat, ih]
    by_cases hl : line w.1 = line b <;> simp [hl]

theorem Aliased.get_writeAll_const (h : Aliased get set line) (s : S) (ks : List K) (v : V)
    (b : K) [inst : Decidable (∃ k ∈ ks, line k = line b)] :
    get (writeAll set s (ks.map fun k ↦ (k, v))) b =
      if ∃ k ∈ ks, line k = line b then v else get s b := by
  classical
  induction ks generalizing s inst with
  | nil => simp [writeAll]
  | cons k ks ih =>
    rw [List.map_cons, writeAll, List.foldl_cons, ← writeAll, ih, h.get_set]
    by_cases hk : line k = line b <;> simp [hk]

/-- What holds of every value stored before and of every value written holds after. -/
theorem Aliased.forall_get_writeAll (h : Aliased get set line) {p : V → Prop} {s : S}
    (hs : ∀ k, p (get s k)) {ws : List (K × V)} (hws : ∀ w ∈ ws, p w.2) (k : K) :
    p (get (writeAll set s ws) k) := by
  induction ws generalizing s with
  | nil => exact hs k
  | cons w ws ih =>
    have hw := hws w List.mem_cons_self
    refine ih (fun k' ↦ ?_) fun w' hw' ↦ hws w' (List.mem_cons_of_mem w hw')
    rw [h.get_set]
    split
    · exact hw
    · exact hs k'

section Partial

variable {α β : Type*} {f : α → Option β} {l : List α} {ys : List β}

theorem mapM_eq_some_iff : l.mapM f = some ys ↔ l.map f = ys.map some := by
  induction l generalizing ys with
  | nil =>
    rw [List.mapM_nil, Option.pure_def, Option.some.injEq, List.map_nil, eq_comm, eq_comm (a := []),
      List.map_eq_nil_iff]
  | cons x l ih =>
    rw [List.mapM_cons, Option.bind_eq_bind, Option.bind_eq_some_iff]
    constructor
    · rintro ⟨y, hy, h⟩
      rw [Option.bind_eq_bind, Option.bind_eq_some_iff] at h
      obtain ⟨zs, hzs, h⟩ := h
      rw [Option.pure_def, Option.some.injEq] at h
      rw [← h, List.map_cons, List.map_cons, hy, ih.1 hzs]
    · intro h
      cases ys with
      | nil => simp at h
      | cons y ys =>
        rw [List.map_cons, List.map_cons, List.cons.injEq] at h
        exact ⟨y, h.1, by simp [ih.2 h.2]⟩

theorem exists_map_eq {P : α → Prop} {g : α → β} {ys : List β}
    (h : ∀ y ∈ ys, ∃ x, P x ∧ g x = y) : ∃ xs : List α, xs.map g = ys ∧ ∀ x ∈ xs, P x := by
  induction ys with
  | nil => exact ⟨[], rfl, by simp⟩
  | cons y ys ih =>
    obtain ⟨x, hx, rfl⟩ := h y List.mem_cons_self
    obtain ⟨xs, rfl, hxs⟩ := ih fun z hz ↦ h z (List.mem_cons_of_mem _ hz)
    refine ⟨x :: xs, rfl, fun z hz ↦ ?_⟩
    rcases List.mem_cons.1 hz with rfl | hz
    · exact hx
    · exact hxs z hz

end Partial

end TheiaTaint.Foundations.History
