import Mathlib
import TheiaTaint.Foundations.Strings

namespace TheiaTaint.Database.Sql

open Foundations.Strings

def quote : Char := Char.ofNat 39

/-- A text that means itself between quotes in a statement. -/
structure Literal where
  text : Text
  unquoted : quote ∉ text

theorem Literal.ext_text {a b : Literal} : a.text = b.text ↔ a = b := by
  rw [Literal.mk.injEq]

instance : DecidableEq Literal := fun _ _ ↦ decidable_of_iff _ Literal.ext_text

theorem splitOn_join_quote {ts : List Text} (h : ∀ t ∈ ts, quote ∉ t) (hne : ts ≠ []) :
    (join quote ts).splitOn quote = ts :=
  List.splitOn_intercalate quote h hne

/-- Storing a text in a `VARCHAR(n)`: surplus blanks are cut, any other surplus is an error. -/
def varchar (n : ℕ) (t : Text) : Option Text :=
  if t.length ≤ n then some t
  else if (t.drop n).all (· == ' ') then some (t.take n)
  else none

theorem varchar_eq_some_self {n : ℕ} {t : Text} : varchar n t = some t ↔ t.length ≤ n := by
  constructor
  · intro h
    by_contra hlen
    rw [varchar, if_neg hlen] at h
    split at h
    · rw [Option.some.injEq] at h
      have hlt := congrArg List.length h
      rw [List.length_take] at hlt
      omega
    · cases h
  · intro h
    rw [varchar, if_pos h]

theorem varchar_length {n : ℕ} {t s : Text} (h : varchar n t = some s) : s.length ≤ n := by
  rw [varchar] at h
  split at h
  · rename_i hlen
    cases h
    exact hlen
  · split at h
    · cases h
      exact List.length_take_le n t
    · cases h

end TheiaTaint.Database.Sql
