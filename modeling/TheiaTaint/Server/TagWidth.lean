import Mathlib
import TheiaTaint.Server.Replay

namespace TheiaTaint.Server.TagWidth

open Replay

/-- The narrowest of the four widths that holds a size, or the widest if none does. -/
structure IsNarrowest (n k : ℕ) : Prop where
  mem : k ∈ [8, 16, 32, 64]
  holds : n < 2 ^ k ∨ k = 64
  least : ∀ j ∈ [8, 16, 32, 64], n < 2 ^ j → k ≤ j

theorem isNarrowest_iff {n k : ℕ} : IsNarrowest n k ↔
    k = if n < 2 ^ 8 then 8 else if n < 2 ^ 16 then 16 else if n < 2 ^ 32 then 32 else 64 := by
  constructor
  · rintro ⟨hmem, hholds, hleast⟩
    have h8 := hleast 8 (by decide)
    have h16 := hleast 16 (by decide)
    have h32 := hleast 32 (by decide)
    simp only [List.mem_cons, List.not_mem_nil, or_false] at hmem
    rcases hmem with rfl | rfl | rfl | rfl <;> split_ifs <;> omega
  · rintro rfl
    refine ⟨?_, ?_, ?_⟩
    · split_ifs <;> decide
    · split_ifs <;> omega
    · intro j hj hn
      simp only [List.mem_cons, List.not_mem_nil, or_false] at hj
      rcases hj with rfl | rfl | rfl | rfl <;> split_ifs <;> omega

/-- A subject to be replayed for an event that reads, with the event's size. -/
structure ReadSubject extends Subject where
  reads : eventType ∈ ["EVENT_READ".toList, "EVENT_RECV".toList]
  pos : 1 ≤ eventSize

theorem ReadSubject.width_eq (s : ReadSubject) : libdftWidth s.toSubject =
    if s.eventSize < 10 then 8 else if s.eventSize < 18 then 16 else if s.eventSize < 34 then 32
    else 64 := by
  have h8 : 2 ^^^ 8 = 10 := by decide
  have h16 : 2 ^^^ 16 = 18 := by decide
  have h32 : 2 ^^^ 32 = 34 := by decide
  have hpos := s.pos
  simp only [libdftWidth, if_pos s.reads, h8, h16, h32, Set.mem_Ico]
  split_ifs <;> omega

theorem ReadSubject.width_mono {s t : ReadSubject} (h : s.eventSize ≤ t.eventSize) :
    libdftWidth s.toSubject ≤ libdftWidth t.toSubject := by
  rw [s.width_eq, t.width_eq]
  split_ifs <;> omega

/-- The bounds are far too low, so only sizes below the first of them and those for
which the widest library is right get the narrowest. -/
theorem tag_width_iff (s : ReadSubject) :
    (IsNarrowest s.eventSize (libdftWidth s.toSubject) ↔ s.eventSize < 10 ∨ 2 ^ 32 ≤ s.eventSize) ∧
      ∀ t : ReadSubject, s.eventSize ≤ t.eventSize →
        libdftWidth s.toSubject ≤ libdftWidth t.toSubject := by
  refine ⟨?_, fun t ↦ ReadSubject.width_mono⟩
  rw [isNarrowest_iff, s.width_eq]
  split_ifs <;> omega

def tenByteRead : ReadSubject where
  pid := 1
  path := []
  uuid := []
  localPrincipal := []
  logdir := none
  eventSize := 10
  eventType := "EVENT_READ".toList
  reads := List.mem_cons_self
  pos := by decide

theorem ten_bytes_get_sixteen_bits :
    ¬ ∀ s : ReadSubject, IsNarrowest s.eventSize (libdftWidth s.toSubject) := by
  intro h
  have hten := isNarrowest_iff.1 (h tenByteRead)
  rw [tenByteRead.width_eq] at hten
  exact absurd hten (by decide)

end TheiaTaint.Server.TagWidth
