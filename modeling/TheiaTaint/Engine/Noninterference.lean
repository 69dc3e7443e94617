import Mathlib
import TheiaTaint.Engine.ProcessFlow

namespace TheiaTaint.Engine.Noninterference

open Foundations.Assign Foundations.Dataflow Tags.Directory
open Hooks.Source Hooks.Sink Hooks.SourceBuffer
open Provenance ProcessFlow

variable {w : ℕ} {V : Type*}

/-- A byte of data of a process. -/
inductive Place
  | reg (tid : ℕ) (r : Reg) (i : Fin 8)
  | mem (addr : AddrInt)
deriving DecidableEq

/-- Where the tags of the byte are. -/
def Place.byte : Place → TagByte
  | .reg tid r i => .reg tid r i
  | .mem addr => .mem (low32 addr)

def Place.ofLoc (tid : ℕ) : Loc → Place
  | .reg r i => .reg tid r i
  | .mem addr => .mem addr

/-- What a step does to the data in two runs of the process. -/
structure DataPair (V : Type*) where
  left : (Place → V) → Place → V
  right : (Place → V) → Place → V

/-- The bytes that the instruction of the handler computes the byte from. -/
def dataFeeds (tid : ℕ) (h : Handler) (k l : Place) : Prop :=
  (∃ k' l', Place.ofLoc tid k' = k ∧ Place.ofLoc tid l' = l ∧ blocksFeed id h.program k' l') ∨
  (k = l ∧ ∀ l', Place.ofLoc tid l' ≠ l)

/-- Outside the addresses a byte keeps its data, and at them both runs get the same. -/
def Rewrites (addrs : List AddrInt) (same : Prop) (d : DataPair V) : Prop :=
  ∀ l x y, ((∀ a ∈ addrs, Place.mem a ≠ l) → x l = y l → d.left x l = d.right y l) ∧
    (same → (∃ a ∈ addrs, Place.mem a = l) → d.left x l = d.right y l)

/-- Both runs take the step, and only what is read under the tag `t` may differ. -/
def Follows (env : Env) (t : BitVec w) (s : ToolState w) : Step → DataPair V → Prop
  | .source ev, d =>
    Rewrites (byteRange ev.call.arg1 ev.call.ret)
      (readsInbound env ev.call = true → t ≠ objectTag s ev.call) d
  | .clrn addr num, d => Rewrites (byteRange addr num) True d
  | .handler tid h, d =>
    ∀ l x y, (∀ k, dataFeeds tid h k l → x k = y k) → d.left x l = d.right y l

def FollowsAll (env : Env) (t : BitVec w) : List (Step × DataPair V) → ProcessState w → Prop
  | [], _ => True
  | (step, d) :: trace, s =>
    Follows env t s.tool step d ∧ FollowsAll env t trace (step.apply env s)

/-- The bytes that the step names are among those of `U`. -/
def StepWithin (env : Env) (U : Set Place) : Step → Prop
  | .handler tid h => ∀ blk ∈ h.program, BlockWithin {l | Place.ofLoc tid l ∈ U} blk
  | step => ∀ a ∈ overwritten env step, Place.mem a ∈ U

def runLeft (trace : List (Step × DataPair V)) (x : Place → V) : Place → V :=
  trace.foldl (fun x e ↦ e.2.left x) x

def runRight (trace : List (Step × DataPair V)) (x : Place → V) : Place → V :=
  trace.foldl (fun x e ↦ e.2.right x) x

def dataSteps (env : Env) :
    List (Step × DataPair V) → ProcessState w → List (DataStep Place TagByte (BitVec w) V)
  | [], _ => []
  | (step, d) :: trace, s =>
    ⟨stepFlow env s.tool step, d.left, d.right⟩ :: dataSteps env trace (step.apply env s)

theorem map_flow_dataSteps (env : Env) (trace : List (Step × DataPair V)) (s : ProcessState w) :
    (dataSteps env trace s).map DataStep.flow = flows env (trace.map Prod.fst) s := by
  induction trace generalizing s with
  | nil => rfl
  | cons e trace ih => exact congrArg _ (ih _)

theorem foldl_left_dataSteps (env : Env) (trace : List (Step × DataPair V)) (s : ProcessState w)
    (x : Place → V) :
    (dataSteps env trace s).foldl (fun x d ↦ d.left x) x = runLeft trace x := by
  induction trace generalizing s x with
  | nil => rfl
  | cons e trace ih => exact ih _ _

theorem foldl_right_dataSteps (env : Env) (trace : List (Step × DataPair V)) (s : ProcessState w)
    (x : Place → V) :
    (dataSteps env trace s).foldl (fun x d ↦ d.right x) x = runRight trace x := by
  induction trace generalizing s x with
  | nil => rfl
  | cons e trace ih => exact ih _ _

section Steps

variable {env : Env} {t : BitVec w} {s : ToolState w} {U : Set Place} {d : DataPair V}

theorem byte_ofLoc (tid : ℕ) (l : Loc) : (Place.ofLoc tid l).byte = .ofCell tid l.cell := by
  cases l <;> rfl

theorem ofLoc_injective (tid : ℕ) : Function.Injective (Place.ofLoc tid) := by
  intro l l' h
  cases l with
  | reg r i =>
    cases l' with
    | reg r' i' =>
      obtain ⟨-, rfl, rfl⟩ := Place.reg.inj h
      rfl
    | mem addr' => exact Place.noConfusion h
  | mem addr =>
    cases l' with
    | reg r' i' => exact Place.noConfusion h
    | mem addr' => exact congrArg Loc.mem (Place.mem.inj h)

theorem injOn_cell (hU : Set.InjOn Place.byte U) (tid : ℕ) :
    Set.InjOn Loc.cell {l | Place.ofLoc tid l ∈ U} := by
  intro l hl l' hl' h
  apply ofLoc_injective tid
  apply hU hl hl'
  rw [byte_ofLoc, byte_ofLoc, h]

/-- A place that no location of the thread names is a register of another thread,
and so is its byte. -/
theorem ofCell_ne_byte {tid : ℕ} {l : Place} (hl : ∀ l', Place.ofLoc tid l' ≠ l) (c : Cell) :
    TagByte.ofCell tid c ≠ l.byte := by
  cases l with
  | mem addr => exact absurd rfl (hl (.mem addr))
  | reg tid' r i =>
    cases c with
    | mem addr => exact TagByte.noConfusion
    | reg r' i' =>
      intro h
      obtain ⟨rfl, -, -⟩ := TagByte.reg.inj h
      exact hl (.reg r i) rfl

theorem handlerFeeds_byte (hU : Set.InjOn Place.byte U) {tid : ℕ} {h : Handler}
    (hwithin : StepWithin env U (.handler tid h)) {k l : Place} (hl : l ∈ U)
    (hfeeds : dataFeeds tid h k l) : k ∈ U ∧ handlerFeeds tid h k.byte l.byte := by
  rcases hfeeds with ⟨k', l', rfl, rfl, hblocks⟩ | ⟨rfl, hother⟩
  · obtain ⟨hk, hcells⟩ := blocksFeed_cell (injOn_cell hU tid) hwithin hl hblocks
    exact ⟨hk, .inl ⟨k'.cell, l'.cell, (byte_ofLoc tid k').symm, (byte_ofLoc tid l').symm, hcells⟩⟩
  · exact ⟨hl, .inr ⟨rfl, ofCell_ne_byte hother⟩⟩

/-- An address that the step rewrites and that is not the place is not behind its
byte either. -/
theorem mem_low32_ne (hU : Set.InjOn Place.byte U) {addrs : List AddrInt}
    (hwithin : ∀ a ∈ addrs, Place.mem a ∈ U) {l : Place} (hl : l ∈ U)
    (hne : ∀ a ∈ addrs, Place.mem a ≠ l) (a : AddrInt) (ha : a ∈ addrs) :
    TagByte.mem (low32 a) ≠ l.byte := by
  intro h
  exact hne a ha (hU (hwithin a ha) hl h)

theorem respects_step (hU : Set.InjOn Place.byte U) {step : Step} (hwithin : StepWithin env U step)
    (h : Follows env t s step d) :
    (⟨stepFlow env s step, d.left, d.right⟩ : DataStep Place TagByte (BitVec w) V).Respects
      Place.byte U t := by
  intro l hl hfresh x y hxy
  cases step with
  | source ev =>
    by_cases hin : ∃ a ∈ byteRange ev.call.arg1 ev.call.ret, Place.mem a = l
    · obtain ⟨a, ha, rfl⟩ := hin
      apply (h _ x y).2 _ ⟨a, ha, rfl⟩
      intro hread htag
      refine hfresh ⟨htag, a, ?_, rfl⟩
      rwa [overwritten, if_pos hread]
    · have hne : ∀ a ∈ byteRange ev.call.arg1 ev.call.ret, Place.mem a ≠ l := by
        intro a ha hal
        exact hin ⟨a, ha, hal⟩
      apply (h l x y).1 hne
      apply hxy l hl
      refine ⟨rfl, mem_low32_ne hU hwithin hl ?_⟩
      intro a ha
      rw [overwritten, if_pos (readsInbound_of_mem ha)] at ha
      exact hne a ha
  | clrn addr num =>
    by_cases hin : ∃ a ∈ byteRange addr num, Place.mem a = l
    · exact (h l x y).2 trivial hin
    · have hne : ∀ a ∈ byteRange addr num, Place.mem a ≠ l := by
        intro a ha hal
        exact hin ⟨a, ha, hal⟩
      exact (h l x y).1 hne (hxy l hl ⟨rfl, mem_low32_ne hU hwithin hl hne⟩)
  | handler tid handler =>
    apply h l x y
    intro k hk
    obtain ⟨hkU, hbyte⟩ := handlerFeeds_byte hU hwithin hl hk
    exact hxy k hkU hbyte

theorem respects_dataSteps (hU : Set.InjOn Place.byte U) {trace : List (Step × DataPair V)}
    {s : ProcessState w} (hwithin : ∀ e ∈ trace, StepWithin env U e.1)
    (h : FollowsAll env t trace s) : ∀ d ∈ dataSteps env trace s, d.Respects Place.byte U t := by
  induction trace generalizing s with
  | nil => exact fun d hd ↦ absurd hd List.not_mem_nil
  | cons e trace ih =>
    intro d hd
    rcases List.mem_cons.1 hd with rfl | hd
    · exact respects_step hU (hwithin e List.mem_cons_self) h.1
    · exact ih (fun e he ↦ hwithin e (List.mem_cons_of_mem _ he)) h.2 d hd

end Steps

/-- Two runs of a process that take the same steps and differ only in what was
read under the tag `t` hold the same data in every byte that does not carry `t`,
as long as no two bytes that the steps name share a tag. -/
theorem same_data_off_tag (env : Env) (t : BitVec w) (start : BitVec 64)
    (trace : List (Step × DataPair V)) (x : Place → V) (U : Set Place)
    (hU : Set.InjOn Place.byte U) (hwithin : ∀ e ∈ trace, StepWithin env U e.1)
    (h : FollowsAll env t trace (ProcessState.started start)) (l : Place) (hl : l ∈ U)
    (ht : t ∉ tagsAt (run env (trace.map Prod.fst) (ProcessState.started start)) l.byte) :
    runLeft trace x l = runRight trace x l := by
  rw [← foldl_left_dataSteps env trace (ProcessState.started start : ProcessState w),
    ← foldl_right_dataSteps env trace (ProcessState.started start : ProcessState w)]
  have hrespects := respects_dataSteps hU hwithin h
  refine agree_run hrespects (m := tagsAt (ProcessState.started start)) (fun _ _ _ ↦ rfl) hl ?_
  rwa [map_flow_dataSteps, ← tagsAt_run]

/-- Two reads of one byte that bring different data. -/
def oneOrTwo : List (Step × DataPair ℕ) :=
  [(.source oneByteRead, ⟨fun x l ↦ if l = .mem 0 then 1 else x l,
    fun x l ↦ if l = .mem 0 then 2 else x l⟩)]

theorem byteRange_oneByteRead :
    byteRange oneByteRead.call.arg1 oneByteRead.call.ret = [0] := by decide

theorem followsAll_oneOrTwo : FollowsAll oneObjectEnv 0 oneOrTwo
    (ProcessState.started 0 : ProcessState 8) := by
  refine ⟨?_, trivial⟩
  intro l x y
  rw [byteRange_oneByteRead]
  constructor
  · intro hne hxy
    have hl : l ≠ .mem 0 := (hne 0 (by decide)).symm
    simp only [if_neg hl, hxy]
  · intro hsame
    exact absurd rfl (hsame (by decide))

theorem injOn_byte_zero_one : Set.InjOn Place.byte {.mem 0, .mem 1} := by
  intro l hl k hk h
  rcases hl with rfl | rfl
  · rcases hk with rfl | rfl
    · rfl
    · exact absurd h (by decide)
  · rcases hk with rfl | rfl
    · exact absurd h (by decide)
    · rfl

theorem same_data_oneOrTwo :
    runLeft oneOrTwo (fun _ ↦ 0) (.mem 1) = runRight oneOrTwo (fun _ ↦ 0) (.mem 1) := by
  refine same_data_off_tag oneObjectEnv (0 : BitVec 8) 0 oneOrTwo (fun _ ↦ 0) {.mem 0, .mem 1}
    injOn_byte_zero_one ?_ followsAll_oneOrTwo (.mem 1) (by simp) ?_
  · intro e he
    obtain rfl := List.mem_singleton.1 he
    intro a ha
    have hzero : a ∈ [(0 : AddrInt)] := ha
    rw [List.mem_singleton.1 hzero]
    exact Set.mem_insert _ _
  · intro ht
    exact Finset.notMem_empty _ ht

end TheiaTaint.Engine.Noninterference
