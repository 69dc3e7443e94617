import Mathlib
import TheiaTaint.Syscalls.SyscallDesc
import TheiaTaint.Syscalls.IovecLoop

namespace TheiaTaint.Syscalls

open Tags.Directory Engine
open Hooks.Source (byteRange byteRange_eq_nil)

/-- The arguments that the default handling clears. -/
def defaultClears (desc : SyscallDesc) (ctx : SyscallCtx) : List Clear :=
  ((List.finRange 6).filter fun i ↦
    decide (i.val < desc.nargs ∧ 0 < desc.mapArgs i ∧ ctx.arg i ≠ 0)).map fun i ↦
      ⟨ctx.arg i, desc.mapArgs i⟩

def sysexitClears (fuel : ℕ) (mem : Memory) (ctx : SyscallCtx) : Option (List Clear) :=
  match ctx.nr with
  | none => some []
  | some nr =>
    let desc := syscallDesc nr
    if desc.saveArgs || desc.retvalArgs then
      match desc.post with
      | some hook => hook.run fuel mem ctx
      | none => whenNonnegUnsigned ctx (some (defaultClears desc ctx))
    else some []

variable {T : Type*} [SemilatticeSup T] [OrderBot T]

/-- `sysexit_save`, without a result when it faults or takes more than `fuel` turns of
a loop. -/
def sysexitSave (fuel : ℕ) (mem : Memory) (ctx : SyscallCtx) (s : TagState T) :
    Option (TagState T) :=
  (sysexitClears fuel mem ctx).map fun cs ↦ clearAll cs s

/-- A finished call whose result is a negative `errno`. -/
structure FailedCall where
  ctx : SyscallCtx
  low : -4095 ≤ ctx.ret.toInt
  neg : ctx.ret.toInt < 0

def Untouched (mem : Memory) (ctx : SyscallCtx) (s : TagState T) : Prop :=
  ∃ fuel s', sysexitSave fuel mem ctx s = some s' ∧ ∀ l : Loc, s'.get l = s.get l

/-- What keeps the tags safe from a hook that takes a failure for a success. -/
def PostHook.Harmless (mem : Memory) (ctx : SyscallCtx) (s : TagState T) : PostHook → Prop
  | .mmap => ctx.ret = mapFailed ∨ growsdown ctx = false ∨
      Untagged s (ctx.ret - mmapOffset (ctx.arg 1)) (mmapOffset (ctx.arg 1))
  | .archPrctl => ctx.arg 0 = archSetFs ∨ ctx.arg 0 = archSetGs → Untagged s (ctx.arg 1) sizeofLong
  | .sendmmsg => ∀ i : ℕ,
      Untagged s (msgLenField (ctx.arg 1) i).addr (msgLenField (ctx.arg 1) i).num
  | .processVmReadv => ∃ vs, HasIovecs mem (ctx.arg 1) 0 vs ∧ ctx.ret.toNat ≤ totalLen vs ∧
      ∀ c ∈ firstBytes vs ctx.ret.toNat, Untagged s c.addr c.num
  | _ => True

def SyscallDesc.Harmless (mem : Memory) (ctx : SyscallCtx) (s : TagState T) (desc : SyscallDesc) :
    Prop :=
  match desc.post with
  | some hook => hook.Harmless mem ctx s
  | none => ∀ i : Fin 6, i.val < desc.nargs → 0 < desc.mapArgs i → ctx.arg i ≠ 0 →
      Untagged s (ctx.arg i) (desc.mapArgs i)

def Harmless (mem : Memory) (ctx : SyscallCtx) (s : TagState T) : Prop :=
  ∀ nr, ctx.nr = some nr → ((syscallDesc nr).saveArgs || (syscallDesc nr).retvalArgs) = true →
    (syscallDesc nr).Harmless mem ctx s

variable {mem : Memory} {ctx : SyscallCtx} {s : TagState T}

theorem FailedCall.le_toNat (c : FailedCall) : 2 ^ 64 - 4095 ≤ c.ctx.ret.toNat := by
  have hlow := c.low
  have hneg := c.neg
  have hint := BitVec.toInt_eq_toNat_cond c.ctx.ret
  omega

theorem mmapOffset_eq_zero_or_le (length : BitVec 64) :
    (mmapOffset length).toNat = 0 ∨ 4096 ≤ (mmapOffset length).toNat := by
  rw [mmapOffset, pageSz]
  split
  · exact .inr (by decide)
  · rename_i hlong
    rw [BitVec.lt_def] at hlong
    have hpage : (4096 : BitVec 64).toNat = 4096 := rfl
    have hlt := length.isLt
    rw [BitVec.toNat_sub, BitVec.toNat_add, BitVec.toNat_umod, hpage] at *
    omega

theorem byteRange_failed_mmap (c : FailedCall) :
    byteRange c.ctx.ret (mmapOffset (c.ctx.arg 1)) = [] := by
  rcases mmapOffset_eq_zero_or_le (c.ctx.arg 1) with hzero | hle
  · have hnum : mmapOffset (c.ctx.arg 1) = 0 := BitVec.eq_of_toNat_eq hzero
    simp [hnum, byteRange]
  · have hret := c.le_toNat
    exact byteRange_eq_nil (by omega)

theorem msgLenField_mod (msgvec : AddrInt) (i : ℕ) :
    msgLenField msgvec (i % 2 ^ 58) = msgLenField msgvec i := by
  have hround : sizeofMmsghdr * BitVec.ofNat 64 (i % 2 ^ 58) =
      sizeofMmsghdr * BitVec.ofNat 64 i := by
    have hsize : sizeofMmsghdr.toNat = 64 := rfl
    refine BitVec.eq_of_toNat_eq ?_
    rw [BitVec.toNat_mul, BitVec.toNat_mul, BitVec.toNat_ofNat, BitVec.toNat_ofNat, hsize]
    omega
  rw [msgLenField, hround, ← msgLenField]

theorem PostHook.harmless_iff (c : FailedCall) (hook : PostHook) :
    (∃ fuel cs, hook.run fuel mem c.ctx = some cs ∧ ∀ cl ∈ cs, Untagged s cl.addr cl.num) ↔
      hook.Harmless mem c.ctx s := by
  cases hhook : hook.unsigned with
  | false =>
    have hnone := fun fuel ↦ hook.run_of_neg hhook c.neg fuel mem
    have htrue : hook.Harmless mem c.ctx s := by
      cases hook <;> trivial
    simp [hnone, htrue]
  | true =>
    cases hook with
    | mmap =>
      simp only [PostHook.run, postMmapHook, PostHook.Harmless]
      by_cases hret : c.ctx.ret = mapFailed
      · simp [hret]
      · cases hgrows : growsdown c.ctx with
        | true => simp [hret]
        | false =>
          have hnone : Untagged s c.ctx.ret (mmapOffset (c.ctx.arg 1)) := by
            simp [Untagged, byteRange_failed_mmap]
          simp [hret, hnone]
    | archPrctl =>
      simp only [PostHook.run, postArchPrctlHook, whenNonnegUnsigned_eq, PostHook.Harmless]
      by_cases hcode : c.ctx.arg 0 = archSetFs ∨ c.ctx.arg 0 = archSetGs <;> simp [hcode]
    | sendmmsg =>
      simp only [PostHook.run, postSendmmsgHook, whenNonnegUnsigned_eq, PostHook.Harmless]
      have hret := c.le_toNat
      have hall : (∀ cl ∈ (List.range c.ctx.ret.toNat).map (msgLenField (c.ctx.arg 1)),
          Untagged s cl.addr cl.num) ↔ ∀ i : ℕ,
            Untagged s (msgLenField (c.ctx.arg 1) i).addr (msgLenField (c.ctx.arg 1) i).num := by
        rw [List.forall_mem_map]
        refine ⟨fun h i ↦ ?_, fun h i _ ↦ h i⟩
        rw [← msgLenField_mod]
        exact h _ (List.mem_range.2 (by omega))
      rw [← hall]
      simp
    | processVmReadv =>
      simp only [PostHook.run, postProcessVmReadvHook, whenNonnegUnsigned_eq]
      exact processVmReadvLoop_iff
    | _ => cases hhook

theorem untouched_iff (mem : Memory) (ctx : SyscallCtx) (s : TagState T) :
    Untouched mem ctx s ↔
      ∃ fuel cs, sysexitClears fuel mem ctx = some cs ∧ ∀ cl ∈ cs, Untagged s cl.addr cl.num := by
  refine exists_congr fun fuel ↦ ?_
  simp only [sysexitSave, Option.map_eq_some_iff]
  constructor
  · rintro ⟨-, ⟨cs, hcs, rfl⟩, hsame⟩
    exact ⟨cs, hcs, (get_clearAll_eq_iff cs s).1 hsame⟩
  · rintro ⟨cs, hcs, huntagged⟩
    exact ⟨_, ⟨cs, hcs, rfl⟩, (get_clearAll_eq_iff cs s).2 huntagged⟩

/-- A failed call leaves the tags alone exactly when no interval that its exit handling
takes for a result holds a tag. -/
theorem failed_syscall_iff (mem : Memory) (c : FailedCall) (s : TagState T) :
    Untouched mem c.ctx s ↔ Harmless mem c.ctx s := by
  rw [untouched_iff]
  simp only [sysexitClears, Harmless]
  cases c.ctx.nr with
  | none => simp
  | some nr =>
    simp only [Option.some.injEq, forall_eq']
    cases hflags : (syscallDesc nr).saveArgs || (syscallDesc nr).retvalArgs with
    | false => simp
    | true =>
      simp only [if_true, SyscallDesc.Harmless, true_implies]
      cases (syscallDesc nr).post with
      | some hook => exact hook.harmless_iff c
      | none =>
        simp only [whenNonnegUnsigned_eq, Option.some.injEq, exists_eq_left', exists_const,
          defaultClears, List.forall_mem_map, List.mem_filter, List.mem_finRange, true_and,
          decide_eq_true_eq, and_imp]

def failedFstat : FailedCall where
  ctx := ⟨some 5, ![3, 0x1000, 0, 0, 0, 0], -9⟩
  low := by decide
  neg := by decide

def taggedBuffer : TagState (Finset (BitVec 32)) where
  gpr _ _ := clearedVal
  tagDir := tagDirSetb emptyDir 0x1000 {0}

theorem failed_fstat_clears_buffer :
    ¬ ∀ (mem : Memory) (c : FailedCall) (s : TagState (Finset (BitVec 32))),
      Untouched mem c.ctx s := by
  intro h
  obtain ⟨fuel, cs, hcs, huntagged⟩ :=
    (untouched_iff _ _ _).1 (h (fun _ ↦ none) failedFstat taggedBuffer)
  have hdefault : sysexitClears fuel (fun _ ↦ none) failedFstat.ctx =
      some [⟨0x1000, sizeofStat⟩] := rfl
  rw [hdefault, Option.some.injEq] at hcs
  subst hcs
  have hbuffer := huntagged ⟨0x1000, sizeofStat⟩ (List.mem_singleton_self _) 0x1000 (by decide)
  exact absurd hbuffer (by decide)

end TheiaTaint.Syscalls
