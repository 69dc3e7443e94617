import Mathlib
import TheiaTaint.Engine.TagState
import TheiaTaint.Hooks.Source

namespace TheiaTaint.Syscalls

open Foundations.History Tags.Directory Engine
open Hooks.Source (byteRange)

/-- The memory of the traced program, without the addresses that fault. -/
abbrev Memory := AddrInt → Option (BitVec 8)

/-- A little-endian load of some bytes, zero-extended. -/
def Memory.load (mem : Memory) (addr : AddrInt) : ℕ → Option (BitVec 64)
  | 0 => some 0
  | n + 1 => do
    let low ← mem addr
    let high ← mem.load (addr + 1) n
    return high <<< 8 ||| low.setWidth 64

structure Iovec where
  base : AddrInt
  len : BitVec 64
deriving DecidableEq

/-- Element `i` of the `struct iovec` array at an address. -/
def Memory.iovec (mem : Memory) (iov : AddrInt) (i : ℕ) : Option Iovec := do
  let base ← mem.load (iov + BitVec.ofNat 64 (16 * i)) 8
  let len ← mem.load (iov + BitVec.ofNat 64 (16 * i + 8)) 8
  return ⟨base, len⟩

/-- The system calls of the table end with `__NR_process_vm_writev`. -/
def syscallMax : ℕ := 312

instance : NeZero syscallMax := ⟨by decide⟩

/-- `syscall_ctx_t`, where `none` is the number -1. -/
structure SyscallCtx where
  nr : Option (Fin syscallMax)
  arg : Fin 6 → AddrInt
  ret : BitVec 64

structure Clear where
  addr : AddrInt
  num : BitVec 64
deriving DecidableEq

variable {T : Type*} [SemilatticeSup T] [OrderBot T]

def tagmapClrn (c : Clear) (s : TagState T) : TagState T :=
  { s with
    tagDir := (byteRange c.addr c.num).foldl (fun dir i ↦ tagDirSetb dir i clearedVal) s.tagDir }

def clearAll (cs : List Clear) (s : TagState T) : TagState T :=
  cs.foldl (fun s c ↦ tagmapClrn c s) s

def Untagged (s : TagState T) (addr : AddrInt) (num : BitVec 64) : Prop :=
  ∀ a ∈ byteRange addr num, s.get (.mem a) = clearedVal

theorem get_tagmapClrn_mem (c : Clear) (s : TagState T) (b : AddrInt) :
    (tagmapClrn c s).get (.mem b) =
      if ∃ a ∈ byteRange c.addr c.num, low32 a = low32 b then clearedVal else s.get (.mem b) :=
  getb_foldl_setb _ _ _ _

theorem get_clearAll_reg (cs : List Clear) (s : TagState T) (r : Reg) (i : Fin 8) :
    (clearAll cs s).get (.reg r i) = s.get (.reg r i) := by
  induction cs generalizing s with
  | nil => rfl
  | cons c cs ih =>
    rw [clearAll, List.foldl_cons, ← clearAll, ih]
    rfl

theorem get_clearAll_mem (cs : List Clear) (s : TagState T) (b : AddrInt) :
    (clearAll cs s).get (.mem b) =
      if ∃ c ∈ cs, ∃ a ∈ byteRange c.addr c.num, low32 a = low32 b then clearedVal
      else s.get (.mem b) := by
  induction cs generalizing s with
  | nil => simp [clearAll]
  | cons c cs ih =>
    rw [clearAll, List.foldl_cons, ← clearAll, ih, get_tagmapClrn_mem]
    by_cases hc : ∃ a ∈ byteRange c.addr c.num, low32 a = low32 b <;> simp [hc]

theorem get_mem_congr (s : TagState T) {a b : AddrInt} (h : low32 a = low32 b) :
    s.get (.mem a) = s.get (.mem b) := by
  obtain ⟨ht, hp, ho⟩ := (indices_eq_iff a b).2 h
  simp only [TagState.get, tagDirGetb, ht, hp, ho]

theorem get_clearAll_eq_iff (cs : List Clear) (s : TagState T) :
    (∀ l : Loc, (clearAll cs s).get l = s.get l) ↔ ∀ c ∈ cs, Untagged s c.addr c.num := by
  constructor
  · intro h c hc a ha
    rw [← h (.mem a), get_clearAll_mem]
    exact if_pos ⟨c, hc, a, ha, rfl⟩
  · intro h l
    cases l with
    | reg r i => exact get_clearAll_reg cs s r i
    | mem b =>
      rw [get_clearAll_mem]
      split
      · rename_i hcleared
        obtain ⟨c, hc, a, ha, hab⟩ := hcleared
        rw [← get_mem_congr s hab, h c hc a ha]
      · rfl

end TheiaTaint.Syscalls
