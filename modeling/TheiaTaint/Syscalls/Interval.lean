import Mathlib
import TheiaTaint.Engine.Flat
import TheiaTaint.Syscalls.Context

namespace TheiaTaint.Syscalls

open Foundations.History Foundations.Moves Tags.Directory Engine
open Hooks.Source (byteRange)

def bytesFrom (addr : AddrInt) (n : ℕ) : List AddrInt :=
  (List.range n).map fun k ↦ addr + BitVec.ofNat 64 k

def Clear.bytes (c : Clear) : List AddrInt := bytesFrom c.addr c.num.toNat

variable {T : Type*} [SemilatticeSup T] [OrderBot T]

/-- The tags after those of some bytes were cleared. -/
def untag (bytes : List AddrInt) (s : FlatState T) : FlatState T :=
  { s with mem := fun a ↦ if a ∈ bytes then clearedVal else s.mem a }

/-- `tagmap_clrn` as a clear of exactly its interval. -/
def clearFlat (c : Clear) (s : FlatState T) : FlatState T := untag c.bytes s

def clearAllFlat (cs : List Clear) (s : FlatState T) : FlatState T :=
  cs.foldl (fun s c ↦ clearFlat c s) s

/-- The loop of `tagmap_clrn`, whose bound may wrap. -/
def tagmapClrnFlat (c : Clear) (s : FlatState T) : FlatState T :=
  (byteRange c.addr c.num).foldl (fun s i ↦ s.set (.mem i) clearedVal) s

theorem length_bytesFrom (addr : AddrInt) (n : ℕ) : (bytesFrom addr n).length = n := by
  rw [bytesFrom, List.length_map, List.length_range]

theorem bytesFrom_add (addr : AddrInt) (m n : ℕ) :
    bytesFrom addr (m + n) = bytesFrom addr m ++ bytesFrom (addr + BitVec.ofNat 64 m) n := by
  have hshift : ∀ k, addr + BitVec.ofNat 64 (m + k) =
      addr + BitVec.ofNat 64 m + BitVec.ofNat 64 k := by
    intro k
    rw [BitVec.ofNat_add, BitVec.add_assoc]
  simp only [bytesFrom, List.range_add, List.map_append, List.map_map, Function.comp_def, hshift]

theorem mem_bytesFrom {addr a : AddrInt} {n : ℕ} (h : addr.toNat + n ≤ 2 ^ 64) :
    a ∈ bytesFrom addr n ↔ addr.toNat ≤ a.toNat ∧ a.toNat < addr.toNat + n := by
  have hsum : ∀ k < n, (addr + BitVec.ofNat 64 k).toNat = addr.toNat + k := by
    intro k hk
    rw [BitVec.toNat_add, BitVec.toNat_ofNat]
    omega
  rw [bytesFrom, List.mem_map]
  constructor
  · rintro ⟨k, hk, rfl⟩
    have hlt := List.mem_range.1 hk
    rw [hsum k hlt]
    omega
  · rintro ⟨hle, hlt⟩
    refine ⟨a.toNat - addr.toNat, List.mem_range.2 (by omega), BitVec.eq_of_toNat_eq ?_⟩
    rw [hsum _ (by omega)]
    omega

theorem mem_bytesFrom_of_lt (addr : AddrInt) {n k : ℕ} (h : k < n) :
    addr + BitVec.ofNat 64 k ∈ bytesFrom addr n :=
  List.mem_map_of_mem (List.mem_range.2 h)

theorem bytesFrom_subset (addr : AddrInt) {m n k : ℕ} (h : m + k ≤ n) {a : AddrInt}
    (ha : a ∈ bytesFrom (addr + BitVec.ofNat 64 m) k) : a ∈ bytesFrom addr n := by
  obtain ⟨j, hj, rfl⟩ := List.mem_map.1 ha
  rw [BitVec.add_assoc, ← BitVec.ofNat_add]
  exact mem_bytesFrom_of_lt addr (by have := List.mem_range.1 hj; omega)

theorem bytesFrom_mono (addr : AddrInt) {m n : ℕ} (h : m ≤ n) {a : AddrInt}
    (ha : a ∈ bytesFrom addr m) : a ∈ bytesFrom addr n := by
  rw [← Nat.add_sub_of_le h, bytesFrom_add]
  exact List.mem_append_left _ ha

theorem bytesFrom_succ (addr : AddrInt) (n : ℕ) :
    bytesFrom addr (n + 1) = addr :: bytesFrom (addr + 1) n := by
  have hone : bytesFrom addr 1 = [addr] := by simp [bytesFrom]
  rw [Nat.add_comm, bytesFrom_add, hone]
  rfl

theorem load_congr {mem mem' : Memory} {addr : AddrInt} {n : ℕ}
    (h : ∀ a ∈ bytesFrom addr n, mem a = mem' a) : mem.load addr n = mem'.load addr n := by
  induction n generalizing addr with
  | zero => rfl
  | succ n ih =>
    rw [bytesFrom_succ, List.forall_mem_cons] at h
    simp only [Memory.load, h.1, ih h.2]

theorem isSome_load {mem mem' : Memory} (h : ∀ a, (mem a).isSome → (mem' a).isSome)
    {addr : AddrInt} {n : ℕ} (hload : (mem.load addr n).isSome) : (mem'.load addr n).isSome := by
  induction n generalizing addr with
  | zero => rfl
  | succ n ih =>
    obtain ⟨value, hvalue⟩ := Option.isSome_iff_exists.1 hload
    obtain ⟨low, hlow, hrest⟩ := Option.bind_eq_some_iff.1 hvalue
    obtain ⟨high, hhigh, -⟩ := Option.bind_eq_some_iff.1 hrest
    obtain ⟨low', hlow'⟩ := Option.isSome_iff_exists.1 (h addr (Option.isSome_of_eq_some hlow))
    obtain ⟨high', hhigh'⟩ := Option.isSome_iff_exists.1 (ih (Option.isSome_of_eq_some hhigh))
    rw [Memory.load, hlow', Option.bind_eq_bind, Option.bind_some, hhigh']
    rfl

theorem iovec_congr {mem mem' : Memory} {iov : AddrInt} {i : ℕ}
    (h : ∀ a ∈ bytesFrom (iov + BitVec.ofNat 64 (16 * i)) 16, mem a = mem' a) :
    mem.iovec iov i = mem'.iovec iov i := by
  have hbase : mem.load (iov + BitVec.ofNat 64 (16 * i)) 8 =
      mem'.load (iov + BitVec.ofNat 64 (16 * i)) 8 :=
    load_congr fun a ha ↦ h a (by
      rw [show (16 : ℕ) = 8 + 8 from rfl, bytesFrom_add]
      exact List.mem_append_left _ ha)
  have hlen : mem.load (iov + BitVec.ofNat 64 (16 * i + 8)) 8 =
      mem'.load (iov + BitVec.ofNat 64 (16 * i + 8)) 8 := by
    rw [BitVec.ofNat_add, ← BitVec.add_assoc]
    exact load_congr fun a ha ↦ h a (bytesFrom_subset _ (Nat.le_refl 16) ha)
  simp only [Memory.iovec, hbase, hlen]

theorem byteRange_eq_bytesFrom (addr num : BitVec 64) :
    byteRange addr num = bytesFrom addr ((addr + num).toNat - addr.toNat) := rfl

theorem untag_congr {bytes bytes' : List AddrInt}
    (h : ∀ a, a ∈ bytes ↔ a ∈ bytes') (s : FlatState T) : untag bytes s = untag bytes' s := by
  simp only [untag, h]

theorem untag_nil (s : FlatState T) : untag [] s = s := by
  simp [untag]

theorem untag_untag (bytes bytes' : List AddrInt) (s : FlatState T) :
    untag bytes' (untag bytes s) = untag (bytes ++ bytes') s := by
  have hmem : ∀ a, (if a ∈ bytes' then clearedVal else if a ∈ bytes then clearedVal else s.mem a) =
      if a ∈ bytes ++ bytes' then clearedVal else s.mem a := by
    intro a
    by_cases ha : a ∈ bytes' <;> simp [ha]
  simp only [untag, hmem]

theorem untag_eq_untag_iff {bytes bytes' : List AddrInt} {s : FlatState T} :
    untag bytes s = untag bytes' s ↔
      ∀ a, (a ∈ bytes ↔ a ∈ bytes') ∨ s.mem a = clearedVal := by
  constructor
  · intro h a
    have ha : (untag bytes s).mem a = (untag bytes' s).mem a := by rw [h]
    simp only [untag] at ha
    by_cases hin : a ∈ bytes <;> by_cases hin' : a ∈ bytes' <;> simp_all
  · intro h
    have hmem : (untag bytes s).mem = (untag bytes' s).mem := by
      funext a
      simp only [untag]
      rcases h a with hiff | hclear
      · simp only [hiff]
      · simp only [hclear, ite_self]
    simp only [untag] at hmem ⊢
    rw [hmem]

theorem foldl_set_eq_untag (bytes : List AddrInt) (s : FlatState T) :
    bytes.foldl (fun s i ↦ s.set (.mem i) clearedVal) s = untag bytes s := by
  induction bytes generalizing s with
  | nil => exact (untag_nil s).symm
  | cons a bytes ih =>
    have hmem : Function.update s.mem a clearedVal =
        fun b ↦ if b ∈ [a] then clearedVal else s.mem b := by
      funext b
      rw [Function.update_apply]
      simp only [List.mem_singleton]
    have hset : s.set (.mem a) clearedVal = untag [a] s := by
      rw [FlatState.set, hmem, untag]
    rw [List.foldl_cons, ih, hset, untag_untag, List.singleton_append]

theorem clearAllFlat_eq_untag (cs : List Clear) (s : FlatState T) :
    clearAllFlat cs s = untag (cs.flatMap Clear.bytes) s := by
  induction cs generalizing s with
  | nil => exact (untag_nil s).symm
  | cons c cs ih =>
    rw [clearAllFlat, List.foldl_cons, ← clearAllFlat, ih, clearFlat, untag_untag,
      List.flatMap_cons]

theorem tagmapClrnFlat_eq_untag (c : Clear) (s : FlatState T) :
    tagmapClrnFlat c s = untag (byteRange c.addr c.num) s :=
  foldl_set_eq_untag _ s

/-- The loop clears its interval when the end of the interval is an address. -/
theorem tagmapClrnFlat_eq_clearFlat {c : Clear} (h : c.addr.toNat + c.num.toNat < 2 ^ 64)
    (s : FlatState T) : tagmapClrnFlat c s = clearFlat c s := by
  have hend : (c.addr + c.num).toNat - c.addr.toNat = c.num.toNat := by
    rw [BitVec.toNat_add, Nat.mod_eq_of_lt h, Nat.add_sub_cancel_left]
  rw [tagmapClrnFlat_eq_untag, clearFlat, byteRange_eq_bytesFrom, hend, Clear.bytes]

end TheiaTaint.Syscalls
