import Mathlib
import TheiaTaint.Foundations.Interleaving
import TheiaTaint.Syscalls.SysexitSave

namespace TheiaTaint.Syscalls.Interception

open Foundations.Interleaving Tags.Directory

/-- `syscall_desc_t`, with callbacks from a type. -/
structure Desc (H : Type*) where
  nargs : ℕ
  saveArgs : Bool
  retvalArgs : Bool
  mapArgs : Fin 6 → BitVec 64
  pre : Option H
  post : Option H

abbrev Table (H : Type*) := Fin syscallMax → Desc H

variable {H I : Type*}

section Registration

/-- A pointer into the table may be `NULL`, as may a callback. The second result is the
returned code. -/
def syscallSetPre (table : Table H) (desc : Option (Fin syscallMax)) (pre : Option H) :
    Table H × ℕ :=
  match desc, pre with
  | some nr, some h =>
    (Function.update table nr { table nr with pre := some h, saveArgs := true }, 0)
  | _, _ => (table, 1)

def syscallSetPost (table : Table H) (desc : Option (Fin syscallMax)) (post : Option H) :
    Table H × ℕ :=
  match desc, post with
  | some nr, some h =>
    (Function.update table nr { table nr with post := some h, saveArgs := true }, 0)
  | _, _ => (table, 1)

def syscallClrPre (table : Table H) (desc : Option (Fin syscallMax)) : Table H × ℕ :=
  match desc with
  | some nr =>
    let d := { table nr with pre := none }
    (Function.update table nr (if d.post.isNone then { d with saveArgs := false } else d), 0)
  | none => (table, 1)

def syscallClrPost (table : Table H) (desc : Option (Fin syscallMax)) : Table H × ℕ :=
  match desc with
  | some nr =>
    let d := { table nr with post := none }
    (Function.update table nr (if d.pre.isNone then { d with saveArgs := false } else d), 0)
  | none => (table, 1)

inductive Request (H : Type*)
  | setPre (desc : Option (Fin syscallMax)) (pre : Option H)
  | setPost (desc : Option (Fin syscallMax)) (post : Option H)
  | clrPre (desc : Option (Fin syscallMax))
  | clrPost (desc : Option (Fin syscallMax))

def Request.apply : Request H → Table H → Table H
  | .setPre desc pre, table => (syscallSetPre table desc pre).1
  | .setPost desc post, table => (syscallSetPost table desc post).1
  | .clrPre desc, table => (syscallClrPre table desc).1
  | .clrPost desc, table => (syscallClrPost table desc).1

end Registration

section Threads

/-- What a hook does: a callback with the context that it is given, or the default
handling of an argument. -/
inductive Action (H : Type*)
  | pre (h : H) (ctx : SyscallCtx)
  | post (h : H) (ctx : SyscallCtx)
  | clear (c : Clear)

/-- The context of a new thread, from `calloc`. -/
def freshCtx : SyscallCtx := ⟨some 0, 0, 0⟩

def Desc.saves (desc : Desc H) : Bool := desc.saveArgs || desc.retvalArgs

def sysenterSave (table : Table H) (nr : BitVec 64) (args : Fin 6 → AddrInt) (ctx : SyscallCtx) :
    SyscallCtx × List (Action H) :=
  if h : nr.toNat < syscallMax then
    let desc := table ⟨nr.toNat, h⟩
    let ctx := { ctx with nr := some ⟨nr.toNat, h⟩ }
    if desc.saves then
      let ctx := { ctx with arg := fun i ↦ if i.val < desc.nargs then args i else ctx.arg i }
      (ctx, desc.pre.toList.map fun h ↦ .pre h ctx)
    else (ctx, [])
  else ({ ctx with nr := none }, [])

/-- The intervals that the default handling clears. -/
def Desc.filled (desc : Desc H) (args : Fin 6 → AddrInt) : List Clear :=
  ((List.finRange 6).filter fun i ↦
    decide (i.val < desc.nargs ∧ 0 < desc.mapArgs i ∧ args i ≠ 0)).map fun i ↦
      ⟨args i, desc.mapArgs i⟩

def sysexitSave (table : Table H) (ret : BitVec 64) (ctx : SyscallCtx) :
    SyscallCtx × List (Action H) :=
  match ctx.nr with
  | none => (ctx, [])
  | some nr =>
    let desc := table nr
    if desc.saves then
      let ctx := { ctx with ret := ret }
      match desc.post with
      | some h => (ctx, [.post h ctx])
      | none => (ctx, if ctx.ret < 0 then [] else (desc.filled ctx.arg).map .clear) -- unsigned
    else (ctx, [])

inductive ThreadEvent
  | threadAlloc
  | threadFree
  | sysenter (nr : BitVec 64) (args : Fin 6 → AddrInt)
  | sysexit (ret : BitVec 64)

/-- A thread, or none, handles an event. The hooks of a system call are for live threads. -/
def threadStep (table : Table H) :
    Option SyscallCtx → ThreadEvent → Option SyscallCtx × List (Action H)
  | _, .threadAlloc => (some freshCtx, [])
  | _, .threadFree => (none, [])
  | some ctx, .sysenter nr args =>
    let r := sysenterSave table nr args ctx
    (some r.1, r.2)
  | some ctx, .sysexit ret =>
    let r := sysexitSave table ret ctx
    (some r.1, r.2)
  | none, _ => (none, [])

def machine (H : Type*) :
    Machine (Table H) (Option SyscallCtx) (Request H) ThreadEvent (Action H) where
  configure := Request.apply
  step := threadStep

end Threads

/-- The table that is compiled in, where a tool names the hooks of the library. -/
def initialTable (f : PostHook → H) : Table H := fun nr ↦
  let d := syscallDesc nr
  ⟨d.nargs, d.saveArgs, d.retvalArgs, d.mapArgs, none, d.post.map f⟩

/-- All state before the first thread starts. -/
def initialSystem (f : PostHook → H) :
    System I (Table H) (Option SyscallCtx) (Action H) :=
  ⟨initialTable f, fun _ ↦ none, []⟩

/-- Every callback finds the arguments saved. -/
def Desc.Saved (d : Desc H) : Prop :=
  d.pre.isSome = true ∨ d.post.isSome = true → d.saveArgs = true

/-- What no request changes. -/
structure SameCall (d d' : Desc H) : Prop where
  nargs : d.nargs = d'.nargs
  retvalArgs : d.retvalArgs = d'.retvalArgs
  mapArgs : d.mapArgs = d'.mapArgs

theorem apply_cases (r : Request H) (table : Table H) :
    r.apply table = table ∨ ∃ nr d, r.apply table = Function.update table nr d ∧
      SameCall (table nr) d ∧ ((table nr).Saved → d.Saved) := by
  cases r with
  | setPre desc pre =>
    cases desc with
    | none => exact .inl rfl
    | some nr =>
      cases pre with
      | none => exact .inl rfl
      | some h => exact .inr ⟨nr, _, rfl, ⟨rfl, rfl, rfl⟩, fun _ _ ↦ rfl⟩
  | setPost desc post =>
    cases desc with
    | none => exact .inl rfl
    | some nr =>
      cases post with
      | none => exact .inl rfl
      | some h => exact .inr ⟨nr, _, rfl, ⟨rfl, rfl, rfl⟩, fun _ _ ↦ rfl⟩
  | clrPre desc =>
    cases desc with
    | none => exact .inl rfl
    | some nr =>
      refine .inr ⟨nr, _, rfl, ?_, fun hd ↦ ?_⟩
      · split <;> exact ⟨rfl, rfl, rfl⟩
      · cases hpost : (table nr).post with
        | none => simp [Desc.Saved]
        | some h => exact fun _ ↦ hd (.inr (by simp [hpost]))
  | clrPost desc =>
    cases desc with
    | none => exact .inl rfl
    | some nr =>
      refine .inr ⟨nr, _, rfl, ?_, fun hd ↦ ?_⟩
      · split <;> exact ⟨rfl, rfl, rfl⟩
      · cases hpre : (table nr).pre with
        | none => simp [Desc.Saved]
        | some h => exact fun _ ↦ hd (.inl (by simp [hpre]))

theorem saved_apply (r : Request H) {table : Table H} (h : ∀ nr, (table nr).Saved) :
    ∀ nr, (r.apply table nr).Saved := by
  intro nr
  obtain hsame | ⟨nr', d, hupdate, -, hkept⟩ := apply_cases r table
  · rw [hsame]
    exact h nr
  · rw [hupdate]
    by_cases hnr : nr = nr'
    · subst hnr
      rw [Function.update_self]
      exact hkept (h nr)
    · rw [Function.update_of_ne hnr]
      exact h nr

theorem SameCall.refl (d : Desc H) : SameCall d d := ⟨rfl, rfl, rfl⟩

theorem SameCall.trans {d d' d'' : Desc H} (h : SameCall d d') (h' : SameCall d' d'') :
    SameCall d d'' :=
  ⟨h.nargs.trans h'.nargs, h.retvalArgs.trans h'.retvalArgs, h.mapArgs.trans h'.mapArgs⟩

theorem sameCall_apply (r : Request H) (table : Table H) (nr : Fin syscallMax) :
    SameCall (table nr) (r.apply table nr) := by
  obtain hsame | ⟨nr', d, hupdate, hcall, -⟩ := apply_cases r table
  · rw [hsame]
    exact .refl _
  · rw [hupdate]
    by_cases hnr : nr = nr'
    · subst hnr
      rw [Function.update_self]
      exact hcall
    · rw [Function.update_of_ne hnr]
      exact .refl _

theorem saved_syscallTable : ∀ e ∈ syscallTable,
    e.2.post.isSome = true → e.2.saveArgs = true := by
  decide +kernel

theorem saved_initialTable (f : PostHook → H) (nr : Fin syscallMax) :
    (initialTable f nr).Saved := by
  have hsaved := saved_syscallTable _
    (List.get_mem syscallTable (nr.cast length_syscallTable.symm))
  rintro (hpre | hpost)
  · cases hpre
  · exact hsaved (by simpa [initialTable, syscallDesc] using hpost)

/-- The only call that fills an argument without `retval_args`. -/
def newfstatat : Fin syscallMax := Fin.ofNat syscallMax 262

theorem filled_syscallTable : ∀ p ∈ syscallTable.zipIdx, p.2 ≠ 262 → p.1.2.retvalArgs = false →
    ∀ i, p.1.2.mapArgs i = 0 := by
  decide +kernel

theorem mapArgs_initialTable (f : PostHook → H) {nr : Fin syscallMax} (hnr : nr ≠ newfstatat)
    (hretval : (initialTable f nr).retvalArgs = false) (i : Fin 6) :
    (initialTable f nr).mapArgs i = 0 := by
  have hlt : nr.val < syscallTable.length := by
    rw [length_syscallTable]
    exact nr.isLt
  have hmem : (syscallTable[nr.val], nr.val) ∈ syscallTable.zipIdx :=
    List.mem_zipIdx_iff_getElem?.2 (List.getElem?_eq_getElem hlt)
  have hne : nr.val ≠ 262 := fun h ↦ hnr (Fin.ext h)
  exact filled_syscallTable _ hmem hne hretval i

theorem SameCall.filled {d d' : Desc H} (h : SameCall d d') : d.filled = d'.filled := by
  funext args
  rw [Desc.filled, Desc.filled, h.nargs, h.mapArgs]

theorem filled_eq_nil {d : Desc H} (h : ∀ i, d.mapArgs i = 0) (args : Fin 6 → AddrInt) :
    d.filled args = [] := by
  simp [Desc.filled, h]

section Calls

variable [DecidableEq I] {f : PostHook → H}

theorem saved_run (evs : List (Event I (Request H) ThreadEvent)) (nr : Fin syscallMax) :
    (((machine H).run evs (initialSystem f)).config nr).Saved :=
  (machine H).config_run (P := fun table ↦ ∀ nr, (table nr).Saved)
    (fun r _ h ↦ saved_apply r h) evs (saved_initialTable f) nr

theorem sameCall_run (evs : List (Event I (Request H) ThreadEvent))
    (s : System I (Table H) (Option SyscallCtx) (Action H)) (nr : Fin syscallMax) :
    SameCall (s.config nr) (((machine H).run evs s).config nr) :=
  (machine H).config_run (P := fun table ↦ SameCall (s.config nr) (table nr))
    (fun r table h ↦ h.trans (sameCall_apply r table nr)) evs (.refl _)

/-- What the hooks do for one call, by the descriptors at its entry and at its exit: the
callbacks are given the number, the arguments and the result, and without a callback the
arguments that the call fills are cleared. -/
structure Reported (opened closed : Desc H) (nr : Fin syscallMax) (args : Fin 6 → AddrInt)
    (ret : BitVec 64) (entered exited : List (Action H)) : Prop where
  pre : ∃ ctx : SyscallCtx, ctx.nr = some nr ∧ (∀ i, i.val < opened.nargs → ctx.arg i = args i) ∧
    entered = opened.pre.toList.map fun h ↦ .pre h ctx
  post : ∀ h, closed.post = some h → ∃ ctx : SyscallCtx, ctx.nr = some nr ∧ ctx.ret = ret ∧
    (opened.saves = true → ∀ i, i.val < opened.nargs → ctx.arg i = args i) ∧
    exited = [.post h ctx]
  clears : closed.post = none →
    nr ≠ newfstatat ∨ (opened.saves = true ∧ closed.saves = true) →
      exited = (opened.filled args).map .clear

/-- The context between the entry and the exit of a known call. -/
structure Pending (opened : Desc H) (nr : Fin syscallMax) (args : Fin 6 → AddrInt)
    (ctx : SyscallCtx) : Prop where
  nr : ctx.nr = some nr
  args : opened.saves = true → ∀ i, i.val < opened.nargs → ctx.arg i = args i

theorem Desc.Saved.saves {d : Desc H} (h : d.Saved)
    (hcallback : d.pre.isSome = true ∨ d.post.isSome = true) : d.saves = true := by
  rw [Desc.saves, h hcallback]
  rfl

theorem sysenterSave_known {table : Table H} {num : BitVec 64} (hnum : num.toNat < syscallMax)
    (hsaved : (table ⟨num.toNat, hnum⟩).Saved) (args : Fin 6 → AddrInt) (ctx : SyscallCtx) :
    Pending (table ⟨num.toNat, hnum⟩) ⟨num.toNat, hnum⟩ args (sysenterSave table num args ctx).1 ∧
      ∃ ctx' : SyscallCtx, ctx'.nr = some ⟨num.toNat, hnum⟩ ∧
        (∀ i, i.val < (table ⟨num.toNat, hnum⟩).nargs → ctx'.arg i = args i) ∧
        (sysenterSave table num args ctx).2 =
          (table ⟨num.toNat, hnum⟩).pre.toList.map fun h ↦ .pre h ctx' := by
  cases hsaves : (table ⟨num.toNat, hnum⟩).saves with
  | true =>
    have hargs : ∀ i : Fin 6, i.val < (table ⟨num.toNat, hnum⟩).nargs →
        (if i.val < (table ⟨num.toNat, hnum⟩).nargs then args i else ctx.arg i) = args i :=
      fun i hi ↦ if_pos hi
    simp only [sysenterSave, dif_pos hnum, hsaves, if_true]
    exact ⟨⟨rfl, fun _ ↦ hargs⟩, _, rfl, hargs, rfl⟩
  | false =>
    have hpre : (table ⟨num.toNat, hnum⟩).pre = none := by
      by_contra hne
      have hsome := hsaved.saves (.inl (Option.isSome_iff_ne_none.2 hne))
      exact absurd (hsaves.symm.trans hsome) Bool.false_ne_true
    simp only [sysenterSave, dif_pos hnum, hsaves, hpre]
    refine ⟨⟨rfl, ?_⟩, ⟨some ⟨num.toNat, hnum⟩, args, 0⟩, rfl, fun _ _ ↦ rfl, rfl⟩
    exact fun h ↦ absurd (hsaves.symm.trans h) Bool.false_ne_true

theorem sysenterSave_unknown (table : Table H) {num : BitVec 64}
    (hnum : ¬ num.toNat < syscallMax) (args : Fin 6 → AddrInt) (ctx : SyscallCtx) :
    sysenterSave table num args ctx = ({ ctx with nr := none }, []) := by
  rw [sysenterSave, dif_neg hnum]

theorem sysexitSave_pending {table : Table H} {opened : Desc H} {nr : Fin syscallMax}
    {args : Fin 6 → AddrInt} {ctx : SyscallCtx} (hctx : Pending opened nr args ctx)
    (hsaved : (table nr).Saved) (hsame : SameCall opened (table nr)) (ret : BitVec 64) :
    (∀ h, (table nr).post = some h → ∃ ctx' : SyscallCtx, ctx'.nr = some nr ∧ ctx'.ret = ret ∧
      (opened.saves = true → ∀ i, i.val < opened.nargs → ctx'.arg i = args i) ∧
      (sysexitSave table ret ctx).2 = [.post h ctx']) ∧
    ((table nr).post = none → opened.saves = true → (table nr).saves = true →
      (sysexitSave table ret ctx).2 = (opened.filled args).map .clear) ∧
    ((table nr).post = none → (∀ i, opened.mapArgs i = 0) →
      (sysexitSave table ret ctx).2 = []) := by
  simp only [sysexitSave, hctx.nr]
  refine ⟨?_, ?_, ?_⟩
  · intro h hpost
    have hsaves : (table nr).saves = true := hsaved.saves (.inr (by simp [hpost]))
    rw [if_pos hsaves, hpost]
    exact ⟨⟨some nr, ctx.arg, ret⟩, rfl, rfl, hctx.args, rfl⟩
  · intro hpost hopened hsaves
    have hunsigned : ¬ ret < 0 := BitVec.not_lt_zero
    have hfilled : (table nr).filled ctx.arg = opened.filled args := by
      have hargs := hctx.args hopened
      rw [Desc.filled, Desc.filled, ← hsame.nargs, ← hsame.mapArgs]
      have hfilter : ∀ i : Fin 6,
          decide (i.val < opened.nargs ∧ 0 < opened.mapArgs i ∧ ctx.arg i ≠ 0) =
            decide (i.val < opened.nargs ∧ 0 < opened.mapArgs i ∧ args i ≠ 0) := by
        intro i
        rw [decide_eq_decide]
        constructor
        · rintro ⟨hi, hmap, harg⟩
          exact ⟨hi, hmap, hargs i hi ▸ harg⟩
        · rintro ⟨hi, hmap, harg⟩
          exact ⟨hi, hmap, (hargs i hi).symm ▸ harg⟩
      simp only [hfilter]
      apply List.map_congr_left
      intro i hi
      rw [List.mem_filter, decide_eq_true_eq] at hi
      rw [hargs i hi.2.1]
    rw [if_pos hsaves, hpost]
    simp only [if_neg hunsigned, hfilled]
  · intro hpost hmap
    have hnil := filled_eq_nil (hsame.mapArgs ▸ hmap) ctx.arg
    rw [hpost]
    split
    · simp only [hnil, List.map_nil, ite_self]
    · rfl

variable {before between : List (Event I (Request H) ThreadEvent)} {t : I}

/-- What a thread goes through depends on its own events and on the requests only. -/
theorem thread_independent {evs evs' : List (Event I (Request H) ThreadEvent)} (t : I)
    (h : evs.filterMap (Event.seen t) = evs'.filterMap (Event.seen t))
    (s : System I (Table H) (Option SyscallCtx) (Action H)) :
    ((machine H).run evs s).part t = ((machine H).run evs' s).part t := by
  rw [(machine H).part_run, (machine H).part_run, h]

end Calls

section Witness

def threadStarted : List (Event Bool (Request PostHook) ThreadEvent) := [.step true .threadAlloc]

def otherThread : List (Event Bool (Request PostHook) ThreadEvent) :=
  [.step false .threadAlloc, .step false (.sysenter 1 0), .configure (.clrPost (some 1))]

end Witness

/-- What the default handling clears. -/
def Desc.cleared (desc : Desc H) (args : Fin 6 → AddrInt) : List Clear :=
  if desc.saves then desc.filled args else []

def applyAll (rs : List (Request H)) (table : Table H) : Table H :=
  rs.foldl (fun table r ↦ r.apply table) table

theorem sameCall_applyAll (rs : List (Request H)) (table : Table H) (nr : Fin syscallMax) :
    SameCall (table nr) (applyAll rs table nr) := by
  induction rs generalizing table with
  | nil => exact .refl _
  | cons r rs ih => exact (sameCall_apply r table nr).trans (ih (r.apply table))

section Library

/-- The intervals that an action clears. The table has no pre-syscall callback. -/
def Action.clears (fuel : ℕ) (mem : Memory) : Action PostHook → Option (List Clear)
  | .pre _ _ => some []
  | .post hook ctx => hook.run fuel mem ctx
  | .clear c => some [c]

theorem sysexitSave_clears (fuel : ℕ) (mem : Memory) (ctx : SyscallCtx) (ret : BitVec 64) :
    ((sysexitSave (initialTable id) ret ctx).2.mapM (Action.clears fuel mem)).map List.flatten =
      sysexitClears fuel mem { ctx with ret := ret } := by
  obtain ⟨nr, arg, ret'⟩ := ctx
  cases nr with
  | none => rfl
  | some nr =>
    have hunsigned : ¬ ret < 0 := BitVec.not_lt_zero
    have hsaves : (initialTable id nr).saves =
        ((syscallDesc nr).saveArgs || (syscallDesc nr).retvalArgs) := rfl
    have hpost : (initialTable id nr).post = (syscallDesc nr).post := Option.map_id'
    simp only [sysexitSave, sysexitClears, hsaves, hpost, if_neg hunsigned, whenNonnegUnsigned]
    split
    · cases (syscallDesc nr).post with
      | some hook =>
        rw [List.mapM_cons, List.mapM_nil]
        cases hrun : hook.run fuel mem ⟨some nr, arg, ret⟩ with
        | none => simp [Action.clears, hrun]
        | some cs => simp [Action.clears, hrun]
      | none =>
        have heach : (((initialTable id nr).filled arg).map Action.clear).mapM
            (Action.clears fuel mem) =
              some (((initialTable id nr).filled arg).map fun c ↦ [c]) := by
          rw [Foundations.History.mapM_eq_some_iff, List.map_map, List.map_map]
          rfl
        rw [heach, Option.map_some, ← List.flatMap_def, List.flatMap_singleton']
        rfl
    · rfl

variable [DecidableEq I] {evs : List (Event I (Request PostHook) ThreadEvent)} {t : I}
  {ctx : SyscallCtx}

end Library

end TheiaTaint.Syscalls.Interception
