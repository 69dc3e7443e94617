import Mathlib
import TheiaTaint.Engine.ProcessFlow
import TheiaTaint.Hooks.Process

namespace TheiaTaint.Engine.EndToEnd

open Foundations.Strings Foundations.Labels Tags.Directory Objects.Uuid
open Hooks.Source Hooks.Sink Hooks.SourceBuffer Provenance ProcessFlow

variable {w : ℕ}

/-- What happens to a process under the tool. -/
inductive Event
  | internal (step : Step)
  | sink (ev : SinkEvent)

/-- A sink with nothing to report ends the process. -/
def Event.apply (env : Env) : Event → ProcessState w → Option (ProcessState w)
  | .internal step, s => some (step.apply env s)
  | .sink ev, s => (ev.apply env s.tool).map fun tool ↦ { s with tool }

def runEvents (env : Env) (evs : List Event) (s : ProcessState w) : Option (ProcessState w) :=
  evs.foldlM (fun s ev ↦ ev.apply env s) s

def Event.step? : Event → Option Step
  | .internal step => some step
  | .sink _ => none

def stepsOf (evs : List Event) : List Step := evs.filterMap Event.step?

/-- Two processes with the same tags and the same names for them. -/
structure SameTags (s s' : ProcessState w) : Prop where
  gpr : s.gpr = s'.gpr
  tagDir : s.tool.tagDir = s'.tool.tagDir
  register : s.tool.register = s'.tool.register

section SameTags

variable {env : Env} {s s' : ProcessState w}

theorem SameTags.uuidToTag (h : SameTags s s') : s.tool.uuidToTag = s'.tool.uuidToTag :=
  congrArg Register.labelOf h.register

theorem SameTags.tagToTagUuid (h : SameTags s s') : s.tool.tagToTagUuid = s'.tool.tagToTagUuid :=
  congrArg Register.nameOf h.register

theorem SameTags.objectTag (h : SameTags s s') (call : Call) :
    objectTag s.tool call = objectTag s'.tool call := by
  have hnext : s.tool.tagCounter = s'.tool.tagCounter := congrArg Register.next h.register
  rw [Hooks.SourceBuffer.objectTag, Hooks.SourceBuffer.objectTag, h.uuidToTag, hnext]

theorem SameTags.step (h : SameTags s s') (step : Step) :
    SameTags (step.apply env s) (step.apply env s') := by
  have hregister : (step.apply env s).tool.register = (step.apply env s').tool.register := by
    rw [register_apply, register_apply, h.register]
  cases step with
  | source ev =>
    refine ⟨h.gpr, ?_, hregister⟩
    simp only [Step.apply]
    rw [tagDir_apply, tagDir_apply, sourceWrites, sourceWrites, h.objectTag, h.tagDir]
  | clrn addr num =>
    refine ⟨h.gpr, ?_, hregister⟩
    simp only [Step.apply, tagmapClrn, h.tagDir]
  | handler tid handler =>
    have hstate : s.tagState tid = s'.tagState tid := by
      rw [ProcessState.tagState, ProcessState.tagState, h.gpr, h.tagDir]
    refine ⟨?_, ?_, hregister⟩
    · simp only [Step.apply, ProcessState.setTagState, hstate, h.gpr]
    · simp only [Step.apply, ProcessState.setTagState, hstate]

theorem sinkByte_keeps {uuid type : Text} {t : ToolState w} {r : Finset Text} {i : AddrInt}
    {acc : ToolState w × Finset Text} (h : sinkByte uuid type env (t, r) i = some acc) :
    acc.1.tagDir = t.tagDir ∧ acc.1.tagCounter = t.tagCounter ∧ acc.1.uuidToTag = t.uuidToTag := by
  simp only [sinkByte, tagOverlayInsert, Option.map_map, Option.map_eq_some_iff] at h
  obtain ⟨_, -, rfl⟩ := h
  exact ⟨rfl, rfl, rfl⟩

theorem sinkLoop_keeps {uuid type : Text} (addrs : List AddrInt)
    {acc acc' : ToolState w × Finset Text}
    (h : addrs.foldlM (sinkByte uuid type env) acc = some acc') :
    acc'.1.tagDir = acc.1.tagDir ∧ acc'.1.tagCounter = acc.1.tagCounter ∧
      acc'.1.uuidToTag = acc.1.uuidToTag := by
  induction addrs generalizing acc with
  | nil =>
    cases h
    exact ⟨rfl, rfl, rfl⟩
  | cons i is ih =>
    rw [List.foldlM_cons] at h
    obtain ⟨acc₁, h₁, hrest⟩ := Option.bind_eq_some_iff.1 h
    obtain ⟨hdir, hnext, htag⟩ := sinkByte_keeps h₁
    obtain ⟨hdir', hnext', htag'⟩ := ih hrest
    exact ⟨hdir'.trans hdir, hnext'.trans hnext, htag'.trans htag⟩

theorem sink_keeps {ev : SinkEvent} {t t' : ToolState w} (h : ev.apply env t = some t') :
    t'.tagDir = t.tagDir ∧ t'.tagCounter = t.tagCounter ∧ t'.uuidToTag = t.uuidToTag := by
  rw [ev.apply_eq] at h
  cases hwrite : writesOutbound env ev.call with
  | false =>
    rw [sinkHook_of_not_writes hwrite] at h
    cases h
    exact ⟨rfl, rfl, rfl⟩
  | true =>
    rw [sinkHook_of_writes hwrite] at h
    obtain ⟨acc, hloop, rfl⟩ := Option.map_eq_some_iff.1 h
    exact sinkLoop_keeps _ hloop

theorem sameTags_sink (hw : w ≤ 32) {reads : List CdmUuid} (hinv : Inv reads s)
    {ev : SinkEvent} {t : ToolState w} (h : ev.apply env s.tool = some t) :
    SameTags { s with tool := t } s := by
  obtain ⟨hdir, hnext, htag⟩ := sink_keeps h
  have hmap : t.tagToTagUuid = s.tool.tagToTagUuid :=
    sink_map (fun i ↦ (hinv.mem i).touchKeys_eq hw) h
  refine ⟨rfl, hdir, ?_⟩
  simp only [ToolState.register, hnext, htag, hmap]

theorem SameTags.inv (h : SameTags s s') {reads : List CdmUuid} (hinv : Inv reads s') :
    Inv reads s where
  handed x t hx := by
    rw [h.tagToTagUuid]
    exact hinv.handed x t (h.uuidToTag ▸ hx)
  reg tid r i := by
    rw [h.tagToTagUuid, h.gpr]
    exact hinv.reg tid r i
  mem addr := by
    rw [h.tagToTagUuid, h.tagDir]
    exact hinv.mem addr

theorem SameTags.trans {s₁ s₂ s₃ : ProcessState w} (h : SameTags s₁ s₂) (h' : SameTags s₂ s₃) :
    SameTags s₁ s₃ :=
  ⟨h.gpr.trans h'.gpr, h.tagDir.trans h'.tagDir, h.register.trans h'.register⟩

/-- The sinks of a run leave its tags to the other steps. -/
theorem sameTags_runEvents (hw : w ≤ 32) {reads : List CdmUuid} {evs : List Event}
    (hsame : SameTags s s') (hinv : Inv reads s') {r : ProcessState w}
    (h : runEvents env evs s = some r) : SameTags r (run env (stepsOf evs) s') := by
  induction evs generalizing s s' reads with
  | nil =>
    obtain rfl := Option.some_inj.1 h
    exact hsame
  | cons ev evs ih =>
    rw [runEvents, List.foldlM_cons] at h
    obtain ⟨s₁, h₁, hrest⟩ := Option.bind_eq_some_iff.1 h
    cases ev with
    | internal step =>
      obtain rfl := Option.some_inj.1 h₁
      exact ih (hsame.step step) (hinv.step env step) hrest
    | sink ev =>
      obtain ⟨t, ht, rfl⟩ := Option.map_eq_some_iff.1 h₁
      exact ih ((sameTags_sink hw (hsame.inv hinv) ht).trans hsame) hinv hrest

end SameTags

/-- Data that the run read from the object gets to the byte at the address. -/
def ObjectReaches (env : Env) (steps : List Step) (u : CdmUuid) (addr : AddrInt) : Prop :=
  ReadReaches env steps (fun _ ev ↦ ev.call.object.uuid = u) (.mem (low32 addr))

section Sink

variable {env : Env} {steps : List Step} {start : BitVec 64} {s : ProcessState w}

/-- In a state with the tags of the run, a byte has a tag named by the object
exactly when data of the object gets there. -/
theorem objectReaches_iff (hsame : SameTags s (run env steps (ProcessState.started start)))
    (hcard : (readsOf env steps).toFinset.card ≤ 2 ^ w) (u : CdmUuid) (addr : AddrInt) :
    ObjectReaches env steps u addr ↔
      ∃ t ∈ tagDirGetb s.tool.tagDir addr, s.tool.tagToTagUuid t = some (uuidToString u) := by
  rw [ObjectReaches, ← object_iff_readReaches env steps start hcard, tagsAt_mem,
    hsame.tagDir, hsame.tagToTagUuid]
  exact Iff.rfl

theorem named_of_mem (hsame : SameTags s (run env steps (ProcessState.started start)))
    {addr : AddrInt} {t : BitVec w} (ht : t ∈ tagDirGetb s.tool.tagDir addr) :
    ∃ u, s.tool.tagToTagUuid t = some (uuidToString u) := by
  have hinv := (inv_started (w := w) start).run env steps
  rw [hsame.tagDir] at ht
  obtain ⟨u, -, hu⟩ := hinv.mem addr t ht
  exact ⟨u, hsame.tagToTagUuid ▸ hu⟩

theorem tagged_iff (hsame : SameTags s (run env steps (ProcessState.started start)))
    (hcard : (readsOf env steps).toFinset.card ≤ 2 ^ w) (addr : AddrInt) :
    tagDirGetb s.tool.tagDir addr ≠ ∅ ↔ ∃ u, ObjectReaches env steps u addr := by
  simp only [objectReaches_iff hsame hcard]
  constructor
  · intro h
    obtain ⟨t, ht⟩ := Finset.nonempty_iff_ne_empty.2 h
    obtain ⟨u, hu⟩ := named_of_mem hsame ht
    exact ⟨u, t, ht, hu⟩
  · intro h
    obtain ⟨u, t, ht, -⟩ := h
    exact Finset.ne_empty_of_mem ht

theorem mem_originsOf_iff (hsame : SameTags s (run env steps (ProcessState.started start)))
    (hcard : (readsOf env steps).toFinset.card ≤ 2 ^ w) (addrs : List AddrInt) (x : Text) :
    x ∈ originsOf (originAt s.tool.tagToTagUuid) s.tool.tagDir addrs ↔
      ∃ u, x = uuidToString u ∧ ∃ b ∈ addrs, ObjectReaches env steps u b := by
  simp only [originsOf, Finset.mem_biUnion, List.mem_toFinset, Finset.mem_image,
    objectReaches_iff hsame hcard]
  constructor
  · intro h
    obtain ⟨b, hb, t, ht, hx⟩ := h
    obtain ⟨u, hu⟩ := named_of_mem hsame ht
    refine ⟨u, ?_, b, hb, t, ht, hu⟩
    rw [← hx, originAt, hu, Option.getD_some]
  · intro h
    obtain ⟨u, rfl, b, hb, t, ht, hu⟩ := h
    refine ⟨b, hb, t, ht, ?_⟩
    rw [originAt, hu, Option.getD_some]

end Sink

/-- The sink goes through, and the last overlay row that it hands out names
exactly the objects whose data is in the written buffer. -/
def ReportsReads (env : Env) (steps : List Step) (ev : SinkEvent) (t : ToolState w) : Prop :=
  ∃ t' origins tagUuid, ev.apply env t = some t' ∧
    t'.outputs.getLast? = some (.overlayInsert (uuidToString ev.call.object.uuid) ev.type origins
      env.queryId tagUuid env.subjectUuid) ∧
    ∀ x, x ∈ origins ↔
      ∃ u, x = uuidToString u ∧ ∃ b ∈ bufferBytes ev.call, ObjectReaches env steps u b

end TheiaTaint.Engine.EndToEnd
