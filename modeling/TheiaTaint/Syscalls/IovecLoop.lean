import Mathlib
import TheiaTaint.Syscalls.PostHooks

namespace TheiaTaint.Syscalls

open Tags.Directory

def totalLen (vs : List Iovec) : ℕ := (vs.map fun v ↦ v.len.toNat).sum

/-- The intervals of the first `tot` bytes of an I/O vector. -/
def firstBytes : List Iovec → ℕ → List Clear
  | [], _ => []
  | v :: vs, tot =>
    if tot = 0 then []
    else ⟨v.base, BitVec.ofNat 64 (min v.len.toNat tot)⟩ :: firstBytes vs (tot - v.len.toNat)

/-- From element `i` on, the program can read the elements that begin before byte `tot`. -/
def Readable (mem : Memory) (iov : AddrInt) (i : ℕ) (vs : List Iovec) (tot : ℕ) : Prop :=
  ∀ j v, vs[j]? = some v → totalLen (vs.take j) < tot → mem.iovec iov (i + j) = some v

/-- From element `i` on, the I/O vector begins with these elements. -/
def HasIovecs (mem : Memory) (iov : AddrInt) : ℕ → List Iovec → Prop
  | _, [] => True
  | i, v :: vs => mem.iovec iov i = some v ∧ HasIovecs mem iov (i + 1) vs

/-- What the two loops over an I/O vector have in common. -/
structure IovecLoop (mem : Memory) (iov : AddrInt)
    (loop : ℕ → ℕ → BitVec 64 → Option (List Clear)) : Prop where
  zero : ∀ n i, loop n i 0 = some []
  succ : ∀ n i {tot v}, tot ≠ 0 → mem.iovec iov i = some v →
    loop (n + 1) i tot = (loop n (i + 1) (BitVec.ofNat 64 (tot.toNat - v.len.toNat))).map
      fun rest ↦ ⟨v.base, BitVec.ofNat 64 (min v.len.toNat tot.toNat)⟩ :: rest

variable {mem : Memory} {iov : AddrInt} {i tot : ℕ} {v : Iovec} {vs : List Iovec}

theorem totalLen_cons (v : Iovec) (vs : List Iovec) :
    totalLen (v :: vs) = v.len.toNat + totalLen vs := by
  rw [totalLen, List.map_cons, List.sum_cons, ← totalLen]

theorem Readable.head (h : Readable mem iov i (v :: vs) tot) (htot : tot ≠ 0) :
    mem.iovec iov i = some v :=
  h 0 v rfl (Nat.pos_of_ne_zero htot)

theorem Readable.tail (h : Readable mem iov i (v :: vs) tot) :
    Readable mem iov (i + 1) vs (tot - v.len.toNat) := by
  intro j u hu hj
  have hlt : totalLen ((v :: vs).take (j + 1)) < tot := by
    rw [List.take_succ_cons, totalLen_cons]
    omega
  have hindex : i + 1 + j = i + (j + 1) := by omega
  rw [hindex]
  exact h (j + 1) u hu hlt

theorem readable_nil : Readable mem iov i [] tot := by
  intro j v hv
  cases hv

theorem Readable.cons (hv : mem.iovec iov i = some v)
    (h : Readable mem iov (i + 1) vs (tot - v.len.toNat)) : Readable mem iov i (v :: vs) tot := by
  intro j u hu hj
  cases j with
  | zero =>
    rw [List.getElem?_cons_zero, Option.some.injEq] at hu
    exact hu ▸ hv
  | succ j =>
    rw [List.take_succ_cons, totalLen_cons] at hj
    have hindex : i + (j + 1) = i + 1 + j := by omega
    rw [hindex]
    exact h j u hu (by omega)

theorem toNat_rest (tot len : BitVec 64) :
    (BitVec.ofNat 64 (tot.toNat - len.toNat)).toNat = tot.toNat - len.toNat := by
  rw [BitVec.toNat_ofNat]
  exact Nat.mod_eq_of_lt (by omega)

theorem firstBytes_cons {tot : BitVec 64} (htot : tot ≠ 0) (v : Iovec) (vs : List Iovec) :
    firstBytes (v :: vs) tot.toNat =
      ⟨v.base, BitVec.ofNat 64 (min v.len.toNat tot.toNat)⟩ ::
        firstBytes vs (tot.toNat - v.len.toNat) :=
  if_neg fun h ↦ htot (BitVec.eq_of_toNat_eq h)

/-- Such a loop stops with the element that holds the last byte, or after the last element. -/
theorem IovecLoop.of_readable {loop : ℕ → ℕ → BitVec 64 → Option (List Clear)}
    (h : IovecLoop mem iov loop) {tot : BitVec 64} (hread : Readable mem iov i vs tot.toNat)
    (hstop : tot.toNat ≤ totalLen vs ∨ ∀ i tot, loop 0 i tot = some []) :
    loop vs.length i tot = some (firstBytes vs tot.toNat) := by
  induction vs generalizing i tot with
  | nil =>
    rcases hstop with htot | hstop
    · have hzero : tot = 0 := BitVec.eq_of_toNat_eq (Nat.le_zero.1 htot)
      rw [hzero]
      exact h.zero _ _
    · exact hstop i tot
  | cons v vs ih =>
    rw [totalLen_cons] at hstop
    by_cases hzero : tot = 0
    · rw [hzero]
      exact h.zero _ _
    · have hne : tot.toNat ≠ 0 := fun h ↦ hzero (BitVec.eq_of_toNat_eq h)
      have hrest := hread.tail
      rw [← toNat_rest] at hrest
      have hstop' : (BitVec.ofNat 64 (tot.toNat - v.len.toNat)).toNat ≤ totalLen vs ∨
          ∀ i tot, loop 0 i tot = some [] := by
        rw [toNat_rest]
        exact hstop.imp_left fun htot ↦ by omega
      rw [List.length_cons, h.succ _ _ hzero (hread.head hne), ih hrest hstop', toNat_rest,
        firstBytes_cons hzero]
      rfl

theorem processVmReadvLoop_zero {fuel : ℕ} :
    processVmReadvLoop mem iov (fuel + 1) i 0 = some [] := by
  rw [processVmReadvLoop, if_neg (by decide)]

theorem processVmReadvLoop_succ {fuel : ℕ} {tot : BitVec 64} (htot : tot ≠ 0)
    (hv : mem.iovec iov i = some v) :
    processVmReadvLoop mem iov (fuel + 1) i tot =
      (processVmReadvLoop mem iov fuel (i + 1) (BitVec.ofNat 64 (tot.toNat - v.len.toNat))).map
        fun rest ↦ ⟨v.base, BitVec.ofNat 64 (min v.len.toNat tot.toNat)⟩ :: rest := by
  have hpos : 0 < tot := by
    rw [BitVec.lt_def]
    exact Nat.pos_of_ne_zero fun h ↦ htot (BitVec.eq_of_toNat_eq h)
  rw [processVmReadvLoop, if_pos hpos, hv, Option.bind_eq_bind, Option.bind_some]
  by_cases hlt : v.len < tot
  · have hlt' : v.len.toNat < tot.toNat := BitVec.lt_def.1 hlt
    have hrest : BitVec.ofNat 64 (tot.toNat - v.len.toNat) = tot - v.len := by
      refine BitVec.eq_of_toNat_eq ?_
      rw [BitVec.toNat_sub_of_le hlt'.le, BitVec.toNat_ofNat]
      exact Nat.mod_eq_of_lt (by omega)
    rw [if_pos hlt, hrest, Nat.min_eq_left hlt'.le, BitVec.ofNat_toNat, BitVec.setWidth_eq,
      Option.map_eq_bind]
    rfl
  · have hle : tot.toNat ≤ v.len.toNat := not_lt.1 fun h ↦ hlt (BitVec.lt_def.2 h)
    rw [if_neg hlt, Nat.sub_eq_zero_of_le hle, Nat.min_eq_right hle, BitVec.ofNat_toNat,
      BitVec.setWidth_eq, Option.map_eq_bind]
    rfl

theorem processVmReadvLoop_isIovecLoop (mem : Memory) (iov : AddrInt) :
    IovecLoop mem iov fun n ↦ processVmReadvLoop mem iov (n + 1) where
  zero _ _ := processVmReadvLoop_zero
  succ _ _ _ _ htot hv := processVmReadvLoop_succ htot hv

theorem iovecLoop_zero {count : ℕ} : iovecLoop mem iov count i 0 = some [] := by
  cases count with
  | zero => rfl
  | succ count => rw [iovecLoop, if_pos rfl]

theorem iovecLoop_succ {count : ℕ} {tot : BitVec 64} (htot : tot ≠ 0)
    (hv : mem.iovec iov i = some v) :
    iovecLoop mem iov (count + 1) i tot =
      (iovecLoop mem iov count (i + 1) (BitVec.ofNat 64 (tot.toNat - v.len.toNat))).map
        fun rest ↦ ⟨v.base, BitVec.ofNat 64 (min v.len.toNat tot.toNat)⟩ :: rest := by
  have hiovTot : (if v.len ≤ tot then v.len else tot) =
      BitVec.ofNat 64 (min v.len.toNat tot.toNat) := by
    by_cases hle : v.len ≤ tot
    · rw [if_pos hle, Nat.min_eq_left (BitVec.le_def.1 hle), BitVec.ofNat_toNat,
        BitVec.setWidth_eq]
    · have hlt := Nat.lt_of_not_le fun h ↦ hle (BitVec.le_def.2 h)
      rw [if_neg hle, Nat.min_eq_right hlt.le, BitVec.ofNat_toNat, BitVec.setWidth_eq]
  have hmin : (BitVec.ofNat 64 (min v.len.toNat tot.toNat)).toNat = min v.len.toNat tot.toNat := by
    have hlt := tot.isLt
    rw [BitVec.toNat_ofNat]
    exact Nat.mod_eq_of_lt (by omega)
  have hrest : tot - BitVec.ofNat 64 (min v.len.toNat tot.toNat) =
      BitVec.ofNat 64 (tot.toNat - v.len.toNat) := by
    have hle : BitVec.ofNat 64 (min v.len.toNat tot.toNat) ≤ tot := by
      rw [BitVec.le_def, hmin]
      exact Nat.min_le_right _ _
    refine BitVec.eq_of_toNat_eq ?_
    rw [BitVec.toNat_sub_of_le hle, hmin, toNat_rest]
    omega
  rw [iovecLoop, if_neg htot, hv, Option.bind_eq_bind, Option.bind_some, Option.map_eq_bind]
  simp only [hiovTot, hrest]
  rfl

theorem iovecLoop_isIovecLoop (mem : Memory) (iov : AddrInt) :
    IovecLoop mem iov (iovecLoop mem iov) where
  zero _ _ := iovecLoop_zero
  succ _ _ _ _ htot hv := iovecLoop_succ htot hv

/-- A loop with a count stops after as many elements, whichever it could not have read. -/
theorem exists_readable {count : ℕ} {tot : BitVec 64} {cs : List Clear}
    (h : iovecLoop mem iov count i tot = some cs) :
    ∃ vs : List Iovec, vs.length = count ∧ Readable mem iov i vs tot.toNat ∧
      cs = firstBytes vs tot.toNat := by
  induction count generalizing i tot cs with
  | zero =>
    cases h
    exact ⟨[], rfl, readable_nil, rfl⟩
  | succ count ih =>
    by_cases hzero : tot = 0
    · subst hzero
      rw [iovecLoop_zero, Option.some.injEq] at h
      refine ⟨List.replicate (count + 1) ⟨0, 0⟩, List.length_replicate, ?_, ?_⟩
      · exact fun _ _ _ hlt ↦ absurd hlt (Nat.not_lt_zero _)
      · exact h.symm
    · cases hv : mem.iovec iov i with
      | none =>
        rw [iovecLoop, if_neg hzero, hv] at h
        cases h
      | some v =>
        rw [iovecLoop_succ hzero hv] at h
        obtain ⟨rest, hrest, rfl⟩ := Option.map_eq_some_iff.1 h
        obtain ⟨vs, hlength, hread, rfl⟩ := ih hrest
        rw [toNat_rest] at hread ⊢
        exact ⟨v :: vs, congrArg (· + 1) hlength, hread.cons hv, (firstBytes_cons hzero v vs).symm⟩

theorem HasIovecs.readable (h : HasIovecs mem iov i vs) (tot : ℕ) : Readable mem iov i vs tot := by
  induction vs generalizing i tot with
  | nil => exact readable_nil
  | cons v vs ih => exact (ih h.2 _).cons h.1

theorem processVmReadvLoop_of_hasIovecs {tot : BitVec 64}
    (h : HasIovecs mem iov i vs) (htot : tot.toNat ≤ totalLen vs) :
    processVmReadvLoop mem iov (vs.length + 1) i tot = some (firstBytes vs tot.toNat) :=
  (processVmReadvLoop_isIovecLoop mem iov).of_readable (h.readable _) (.inl htot)

theorem exists_hasIovecs {fuel : ℕ} {tot : BitVec 64} {cs : List Clear}
    (h : processVmReadvLoop mem iov fuel i tot = some cs) :
    ∃ vs, HasIovecs mem iov i vs ∧ tot.toNat ≤ totalLen vs ∧ cs = firstBytes vs tot.toNat := by
  induction fuel generalizing i tot cs with
  | zero => cases h
  | succ fuel ih =>
    by_cases hzero : tot = 0
    · subst hzero
      rw [processVmReadvLoop_zero, Option.some.injEq] at h
      exact ⟨[], trivial, Nat.zero_le _, h.symm⟩
    · cases hv : mem.iovec iov i with
      | none =>
        rw [processVmReadvLoop, hv] at h
        split at h
        · cases h
        · rename_i hpos
          exact absurd ((BitVec.pos_iff_ne_zero tot).2 hzero) hpos
      | some v =>
        rw [processVmReadvLoop_succ hzero hv] at h
        obtain ⟨rest, hrest, rfl⟩ := Option.map_eq_some_iff.1 h
        obtain ⟨vs, hvs, htot, rfl⟩ := ih hrest
        rw [toNat_rest] at htot ⊢
        refine ⟨v :: vs, ⟨hv, hvs⟩, ?_, (firstBytes_cons hzero v vs).symm⟩
        rw [totalLen_cons]
        omega

theorem processVmReadvLoop_iff {tot : BitVec 64} {p : List Clear → Prop} :
    (∃ fuel cs, processVmReadvLoop mem iov fuel 0 tot = some cs ∧ p cs) ↔
      ∃ vs, HasIovecs mem iov 0 vs ∧ tot.toNat ≤ totalLen vs ∧ p (firstBytes vs tot.toNat) := by
  constructor
  · rintro ⟨fuel, cs, h, hp⟩
    obtain ⟨vs, hvs, htot, rfl⟩ := exists_hasIovecs h
    exact ⟨vs, hvs, htot, hp⟩
  · rintro ⟨vs, hvs, htot, hp⟩
    exact ⟨_, _, processVmReadvLoop_of_hasIovecs hvs htot, hp⟩

end TheiaTaint.Syscalls
