import Mathlib
import TheiaTaint.Foundations.History

namespace TheiaTaint.Foundations.Moves

open Foundations.History

variable {S L C T : Type*}

def load (get : S → L → T) (s : S) (ls : List L) : List T := ls.map (get s)

/-- Writes values to places from left to right. -/
def store (set : S → L → T → S) : S → List L → List T → S
  | s, l :: ls, t :: ts => store set (set s l t) ls ts
  | s, _, _ => s

@[simp] theorem length_load (get : S → L → T) (s : S) (ls : List L) :
    (load get s ls).length = ls.length := List.length_map _

@[simp] theorem store_nil (set : S → L → T → S) (s : S) (ts : List T) : store set s [] ts = s := by
  cases ts <;> rfl

theorem writeAll_zip (set : S → L → T → S) (s : S) (ls : List L) (ts : List T) :
    writeAll set s (ls.zip ts) = store set s ls ts := by
  induction ls generalizing s ts with
  | nil => rw [store_nil]; rfl
  | cons l ls ih =>
    cases ts with
    | nil => rfl
    | cons t ts => exact ih (set s l t) ts

variable [DecidableEq C] {get : S → L → T} {set : S → L → T → S} {cell : L → C}

theorem get_store_of_forall_ne (h : Aliased get set cell) {ls : List L} {l : L}
    (hl : ∀ l' ∈ ls, cell l' ≠ cell l) (s : S) (ts : List T) :
    get (store set s ls ts) l = get s l := by
  induction ls generalizing s ts with
  | nil => rw [store_nil]
  | cons l' ls ih =>
    cases ts with
    | nil => rfl
    | cons t ts =>
      rw [store, ih (fun k hk ↦ hl k (List.mem_cons_of_mem l' hk)), h.get_set,
        if_neg (hl l' List.mem_cons_self)]

theorem get_store_getElem (h : Aliased get set cell) {ls : List L} {ts : List T}
    (hnodup : (ls.map cell).Nodup) (hlen : ls.length = ts.length) (s : S) {i : ℕ}
    (hi : i < ls.length) {l : L} (hl : cell ls[i] = cell l) :
    get (store set s ls ts) l = ts[i] := by
  induction ls generalizing s ts i with
  | nil => exact absurd hi (Nat.not_lt_zero i)
  | cons l' ls ih =>
    cases ts with
    | nil => cases hlen
    | cons t ts =>
      rw [List.map_cons, List.nodup_cons] at hnodup
      have hlen' : ls.length = ts.length := Nat.succ.inj hlen
      cases i with
      | zero =>
        have hne : ∀ k ∈ ls, cell k ≠ cell l := by
          intro k hk hkl
          refine hnodup.1 ?_
          rw [show cell l' = cell k from hl.trans hkl.symm]
          exact List.mem_map_of_mem hk
        rw [store, get_store_of_forall_ne h hne, h.get_set]
        exact if_pos hl
      | succ i =>
        rw [store]
        exact ih hnodup.2 hlen' _ (Nat.lt_of_succ_lt_succ hi) hl

theorem load_store_self (h : Aliased get set cell) {ls : List L} {ts : List T}
    (hnodup : (ls.map cell).Nodup) (hlen : ls.length = ts.length) (s : S) :
    load get (store set s ls ts) ls = ts := by
  refine List.ext_getElem (by rw [length_load, hlen]) fun i hi hi' ↦ ?_
  have hls : i < ls.length := by rwa [hlen]
  rw [show (load get (store set s ls ts) ls)[i] = get (store set s ls ts) ls[i] by simp [load]]
  exact get_store_getElem h hnodup hlen s hls rfl

theorem load_store_of_forall_ne (h : Aliased get set cell) {ls ks : List L}
    (hne : ∀ k ∈ ks, ∀ l ∈ ls, cell l ≠ cell k) (s : S) (ts : List T) :
    load get (store set s ls ts) ks = load get s ks :=
  List.map_congr_left fun k hk ↦ get_store_of_forall_ne h (hne k hk) s ts

theorem exists_cell_or_forall_ne (cell : L → C) (ls : List L) (l : L) :
    (∃ i, ∃ hi : i < ls.length, cell ls[i] = cell l) ∨ ∀ k ∈ ls, cell k ≠ cell l := by
  by_cases hl : ∃ k ∈ ls, cell k = cell l
  · obtain ⟨k, hk, hkl⟩ := hl
    obtain ⟨i, hi, rfl⟩ := List.mem_iff_getElem.1 hk
    exact .inl ⟨i, hi, hkl⟩
  · exact .inr fun k hk hkl ↦ hl ⟨k, hk, hkl⟩

/-- Two stores may change places when they agree where they meet. -/
theorem get_store_comm (h : Aliased get set cell) {ls ks : List L} {ts us : List T}
    (hls : (ls.map cell).Nodup) (hks : (ks.map cell).Nodup) (hts : ls.length = ts.length)
    (hus : ks.length = us.length)
    (hagree : ∀ (i j : ℕ) (hi : i < ls.length) (hj : j < ks.length),
      cell ls[i] = cell ks[j] → ts[i] = us[j]) (s : S) (l : L) :
    get (store set (store set s ls ts) ks us) l = get (store set (store set s ks us) ls ts) l := by
  rcases exists_cell_or_forall_ne cell ls l with ⟨i, hi, hil⟩ | hls'
  · rw [get_store_getElem h hls hts (store set s ks us) hi hil]
    rcases exists_cell_or_forall_ne cell ks l with ⟨j, hj, hjl⟩ | hks'
    · rw [get_store_getElem h hks hus _ hj hjl]
      exact (hagree i j hi hj (hil.trans hjl.symm)).symm
    · rw [get_store_of_forall_ne h hks', get_store_getElem h hls hts s hi hil]
  · rw [get_store_of_forall_ne h hls']
    rcases exists_cell_or_forall_ne cell ks l with ⟨j, hj, hjl⟩ | hks'
    · rw [get_store_getElem h hks hus _ hj hjl, get_store_getElem h hks hus _ hj hjl]
    · rw [get_store_of_forall_ne h hks', get_store_of_forall_ne h hks',
        get_store_of_forall_ne h hls']

end TheiaTaint.Foundations.Moves
