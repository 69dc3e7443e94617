import Mathlib

namespace TheiaTaint.Foundations.Keyed

variable {R K : Type*} [DecidableEq K] {key : R → K}

/-- A table whose rows are told apart by a primary key. -/
structure Table (key : R → K) where
  rows : List R
  nodup : (rows.map key).Nodup

namespace Table

def empty : Table key := ⟨[], List.nodup_nil⟩

def lookup (t : Table key) (k : K) : Option R := t.rows.find? fun r ↦ decide (key r = k)

def select (t : Table key) (p : R → Bool) : List R := t.rows.filter p

/-- `INSERT` of one row; a key that is taken makes it fail. -/
def insert (t : Table key) (r : R) : Option (Table key) :=
  if h : key r ∈ t.rows.map key then none
  else some ⟨t.rows ++ [r], by
    rw [List.map_append]
    exact t.nodup.append (List.nodup_singleton _) (by simpa using h)⟩

/-- `UPDATE` of the rows that satisfy `p`, by a change that keeps the key. -/
def update (t : Table key) (p : R → Bool) (f : R → R) (hf : ∀ r, key (f r) = key r) : Table key :=
  ⟨t.rows.map fun r ↦ if p r then f r else r, by
    have hkey : (t.rows.map fun r ↦ if p r then f r else r).map key = t.rows.map key := by
      rw [List.map_map]
      refine List.map_congr_left fun r _ ↦ ?_
      cases hp : p r <;> simp [hp, hf]
    exact hkey ▸ t.nodup⟩

@[simp] theorem lookup_empty (k : K) : (empty : Table key).lookup k = none := rfl

theorem lookup_eq_none_iff (t : Table key) (k : K) : t.lookup k = none ↔ k ∉ t.rows.map key := by
  simp [lookup, List.find?_eq_none]

end Table

end TheiaTaint.Foundations.Keyed
