import Mathlib
import TheiaTaint.Engine.Program
import TheiaTaint.Hooks.Sink

namespace TheiaTaint.Engine.Provenance

open Tags.Directory Foundations.Strings Objects.Uuid Hooks.Source Hooks.Sink

variable {w : ℕ}

structure ProcessState (w : ℕ) where
  tool : ToolState w
  gpr : ℕ → Reg → Fin 8 → Finset (BitVec w)

namespace ProcessState

def started (counterStart : BitVec 64) : ProcessState w where
  tool := initial counterStart
  gpr _ _ _ := clearedVal

def tagState (s : ProcessState w) (tid : ℕ) : TagState (Finset (BitVec w)) where
  gpr := s.gpr tid
  tagDir := s.tool.tagDir

def setTagState (s : ProcessState w) (tid : ℕ) (t : TagState (Finset (BitVec w))) :
    ProcessState w where
  tool := { s.tool with tagDir := t.tagDir }
  gpr := Function.update s.gpr tid t.gpr

end ProcessState

def setAll (addrs : List AddrInt) (tags : Finset (BitVec w)) (dir : TagDir (Finset (BitVec w))) :
    TagDir (Finset (BitVec w)) :=
  addrs.foldl (fun dir i ↦ tagDirSetb dir i tags) dir

def tagmapClrn (addr num : BitVec 64) (s : ToolState w) : ToolState w :=
  { s with tagDir := setAll (byteRange addr num) clearedVal s.tagDir }

inductive Step
  | source (ev : SourceEvent)
  | clrn (addr num : BitVec 64)
  | handler (tid : ℕ) (h : Handler)

def Step.apply (env : Env) : Step → ProcessState w → ProcessState w
  | .source ev, s => { s with tool := ev.apply env s.tool }
  | .clrn addr num, s => { s with tool := tagmapClrn addr num s.tool }
  | .handler tid h, s => s.setTagState tid (h.run (s.tagState tid))

def run (env : Env) (steps : List Step) (s : ProcessState w) : ProcessState w :=
  steps.foldl (fun s step ↦ step.apply env s) s

def Step.sources : Step → List SourceEvent
  | .source ev => [ev]
  | .clrn _ _ => []
  | .handler _ _ => []

def readsOf (env : Env) (steps : List Step) : List CdmUuid :=
  inboundReads env (steps.flatMap Step.sources)

/-- Every tag of the set is a key whose value is a UUID that was read. -/
def Known (m : BitVec w → Option Text) (reads : List CdmUuid) (tags : Finset (BitVec w)) : Prop :=
  ∀ t ∈ tags, ∃ u ∈ reads, m t = some (uuidToString u)

theorem closed_known (m : BitVec w → Option Text) (reads : List CdmUuid) :
    Closed (Known m reads) where
  bot t ht := absurd ht (Finset.notMem_empty t)
  sup a b ha hb t ht := by
    rcases Finset.mem_union.1 ht with ht | ht
    · exact ha t ht
    · exact hb t ht

section Tags

variable {m : BitVec w → Option Text} {reads : List CdmUuid} {tags : Finset (BitVec w)}

theorem Known.append (h : Known m reads tags) (more : List CdmUuid) :
    Known m (reads ++ more) tags := by
  intro t ht
  obtain ⟨u, hu, hm⟩ := h t ht
  exact ⟨u, List.mem_append_left more hu, hm⟩

theorem known_update_self (m : BitVec w → Option Text) (reads : List CdmUuid) (c : BitVec w)
    (u : CdmUuid) : Known (Function.update m c (some (uuidToString u))) (reads ++ [u]) {c} := by
  intro t ht
  rw [Finset.mem_singleton.1 ht, Function.update_self]
  exact ⟨u, by simp, rfl⟩

/-- A unit tag that is handed out again names the object read last. -/
theorem Known.update (h : Known m reads tags) (c : BitVec w) (u : CdmUuid) :
    Known (Function.update m c (some (uuidToString u))) (reads ++ [u]) tags := by
  intro t ht
  by_cases htc : t = c
  · exact known_update_self m reads c u t (Finset.mem_singleton.2 htc)
  · rw [Function.update_of_ne htc]
    exact h.append [u] t ht

theorem Known.touchKeys_eq (hw : w ≤ 32) (h : Known m reads tags) : touchKeys tags m = m := by
  funext k
  rw [touchKeys]
  split
  · next hk =>
    obtain ⟨t, ht, rfl⟩ := hk
    obtain ⟨u, -, hu⟩ := h t ht
    rw [lookupKey_of_le hw, originAt, hu]
    rfl
  · rfl

theorem getb_setAll {p : Finset (BitVec w) → Prop} {dir : TagDir (Finset (BitVec w))}
    (hdir : ∀ addr, p (tagDirGetb dir addr)) (htags : p tags) (addrs : List AddrInt)
    (addr : AddrInt) : p (tagDirGetb (setAll addrs tags dir) addr) := by
  rw [setAll, getb_foldl_setb]
  split
  · exact htags
  · exact hdir addr

end Tags

structure Inv (reads : List CdmUuid) (s : ProcessState w) : Prop where
  handed : ∀ x t, s.tool.uuidToTag x = some t → Known s.tool.tagToTagUuid reads {t}
  reg : ∀ tid r i, Known s.tool.tagToTagUuid reads (s.gpr tid r i)
  mem : ∀ addr, Known s.tool.tagToTagUuid reads (tagDirGetb s.tool.tagDir addr)

variable {reads : List CdmUuid} {s : ProcessState w}

theorem inv_started (start : BitVec 64) : Inv [] (ProcessState.started start : ProcessState w) where
  handed _ _ h := nomatch h
  reg _ _ _ := (closed_known _ _).bot
  mem _ := (closed_known _ _).bot

theorem Inv.append (h : Inv reads s) (more : List CdmUuid) : Inv (reads ++ more) s where
  handed x t hx := (h.handed x t hx).append more
  reg tid r i := (h.reg tid r i).append more
  mem addr := (h.mem addr).append more

theorem Inv.handler (h : Inv reads s) (env : Env) (tid : ℕ) (handler : Handler) :
    Inv reads ((Step.handler tid handler).apply env s) := by
  have hevery : Everywhere (Known s.tool.tagToTagUuid reads) (s.tagState tid) := by
    intro l
    cases l with
    | reg r i => exact h.reg tid r i
    | mem addr => exact h.mem addr
  have hrun := preserves_run (closed_known s.tool.tagToTagUuid reads) handler _ hevery
  refine ⟨h.handed, fun tid' r i ↦ ?_, fun addr ↦ hrun (.mem addr)⟩
  by_cases htid : tid' = tid
  · subst htid
    simp only [Step.apply, ProcessState.setTagState, Function.update_self]
    exact hrun (.reg r i)
  · simp only [Step.apply, ProcessState.setTagState, Function.update_of_ne htid]
    exact h.reg tid' r i

theorem Inv.clrn (h : Inv reads s) (env : Env) (addr num : BitVec 64) :
    Inv reads ((Step.clrn addr num).apply env s) where
  handed := h.handed
  reg := h.reg
  mem := getb_setAll h.mem (closed_known _ _).bot _

theorem Inv.taintBytes (h : Inv reads s) {t : BitVec w}
    (ht : Known s.tool.tagToTagUuid reads {t}) (addrs : List AddrInt) :
    Inv reads { s with tool := taintBytes addrs {t} s.tool } where
  handed := h.handed
  reg := h.reg
  mem := getb_setAll h.mem ht addrs

theorem Inv.createTag (h : Inv reads s) (systemCall : Text) (sources : Finset Text) (u : CdmUuid) :
    Inv (reads ++ [u])
      { s with tool := createTag systemCall (uuidToString u) sources s.tool } where
  handed x t hx := by
    simp only [Hooks.Source.createTag] at hx ⊢
    by_cases hxu : x = uuidToString u
    · subst hxu
      rw [Function.update_self, Option.some_inj] at hx
      rw [← hx]
      exact known_update_self _ _ _ u
    · rw [Function.update_of_ne hxu] at hx
      exact (h.handed x t hx).update _ u
  reg tid r i := (h.reg tid r i).update _ u
  mem addr := (h.mem addr).update _ u

theorem Inv.source (h : Inv reads s) (env : Env) (ev : SourceEvent) :
    Inv (reads ++ inboundReads env [ev]) ((Step.source ev).apply env s) := by
  obtain ⟨socketOnly, systemCall, hev⟩ := ev.apply_eq (w := w) env
  rw [Step.apply, hev]
  cases hread : readsInbound env ev.call with
  | false =>
    rw [sourceHook_of_not_reads hread]
    exact h.append _
  | true =>
    have hreads : inboundReads env [ev] = [ev.call.object.uuid] := by
      simp [inboundReads, hread]
    rw [sourceHook_of_reads hread, hreads]
    split
    · next t ht => exact (h.append _).taintBytes ((h.handed _ t ht).append _) _
    · have hcreate := h.createTag systemCall (crossSources socketOnly ev.call) ev.call.object.uuid
      exact hcreate.taintBytes (known_update_self _ _ _ _) _

theorem readsOf_cons (env : Env) (step : Step) (steps : List Step) :
    readsOf env (step :: steps) = inboundReads env step.sources ++ readsOf env steps := by
  simp [readsOf, inboundReads]

theorem Inv.step (h : Inv reads s) (env : Env) (step : Step) :
    Inv (reads ++ inboundReads env step.sources) (step.apply env s) := by
  cases step with
  | source ev => exact h.source env ev
  | clrn addr num => exact (h.clrn env addr num).append _
  | handler tid handler => exact (h.handler env tid handler).append _

theorem Inv.run (h : Inv reads s) (env : Env) (steps : List Step) :
    Inv (reads ++ readsOf env steps) (run env steps s) := by
  induction steps generalizing reads s with
  | nil => exact h.append _
  | cons step steps ih =>
    rw [readsOf_cons, ← List.append_assoc]
    exact ih (h.step env step)

theorem sinkByte_map {uuid type : Text} {env : Env} {t : ToolState w} {r : Finset Text}
    {i : AddrInt} {acc : ToolState w × Finset Text}
    (h : sinkByte uuid type env (t, r) i = some acc) :
    acc.1.tagDir = t.tagDir ∧
      acc.1.tagToTagUuid = touchKeys (tagDirGetb t.tagDir i) t.tagToTagUuid := by
  simp only [sinkByte, tagOverlayInsert, Option.map_map, Option.map_eq_some_iff] at h
  obtain ⟨_, -, rfl⟩ := h
  exact ⟨rfl, rfl⟩

theorem sinkLoop_map {uuid type : Text} {env : Env} (addrs : List AddrInt)
    {acc acc' : ToolState w × Finset Text}
    (hkeep : ∀ i, touchKeys (tagDirGetb acc.1.tagDir i) acc.1.tagToTagUuid = acc.1.tagToTagUuid)
    (h : addrs.foldlM (sinkByte uuid type env) acc = some acc') :
    acc'.1.tagToTagUuid = acc.1.tagToTagUuid := by
  induction addrs generalizing acc with
  | nil =>
    cases h
    rfl
  | cons i is ih =>
    rw [List.foldlM_cons] at h
    obtain ⟨acc₁, h₁, hrest⟩ := Option.bind_eq_some_iff.1 h
    obtain ⟨hdir, hmap⟩ := sinkByte_map h₁
    rw [hkeep] at hmap
    rw [ih (by rw [hdir, hmap]; exact hkeep) hrest, hmap]

theorem sink_map {env : Env} {ev : SinkEvent} {t t' : ToolState w}
    (hkeep : ∀ i, touchKeys (tagDirGetb t.tagDir i) t.tagToTagUuid = t.tagToTagUuid)
    (h : ev.apply env t = some t') : t'.tagToTagUuid = t.tagToTagUuid := by
  rw [ev.apply_eq] at h
  cases hwrite : writesOutbound env ev.call with
  | false =>
    rw [sinkHook_of_not_writes hwrite] at h
    cases h
    rfl
  | true =>
    rw [sinkHook_of_writes hwrite] at h
    obtain ⟨acc, hloop, rfl⟩ := Option.map_eq_some_iff.1 h
    exact sinkLoop_map _ hkeep hloop

/-- Every tag in a register or in memory is a key whose value is a UUID in
`reads`, so that a sink finds all it looks up and inserts nothing. -/
structure TagsKnown (env : Env) (reads : List CdmUuid) (s : ProcessState w) : Prop where
  reg : ∀ tid r i, Known s.tool.tagToTagUuid reads (s.gpr tid r i)
  mem : ∀ addr, Known s.tool.tagToTagUuid reads (tagDirGetb s.tool.tagDir addr)
  lookup : ∀ addr, ∀ t ∈ tagDirGetb s.tool.tagDir addr,
    ∃ u ∈ reads, s.tool.tagToTagUuid (lookupKey t) = some (uuidToString u)
  sink : ∀ (ev : SinkEvent) (t : ToolState w), ev.apply env s.tool = some t →
    t.tagToTagUuid = s.tool.tagToTagUuid

theorem tagsKnown_run (hw : w ≤ 32) (env : Env) (steps : List Step) (start : BitVec 64) :
    TagsKnown env (readsOf env steps)
      (run env steps (ProcessState.started start : ProcessState w)) := by
  have hinv := (inv_started (w := w) start).run env steps
  rw [List.nil_append] at hinv
  refine ⟨hinv.reg, hinv.mem, fun addr t ht ↦ ?_, fun ev t hev ↦ ?_⟩
  · rw [lookupKey_of_le hw]
    exact hinv.mem addr t ht
  · exact sink_map (fun i ↦ (hinv.mem i).touchKeys_eq hw) hev

def oneByteRead : SourceEvent :=
  .read ⟨1, 0, ⟨oneObject, 0, [], 0, [], 0⟩, fun _ _ _ _ ↦ ([], ∅)⟩

def readAndCopy : List Step :=
  [.source oneByteRead, .handler 0 (.narrow (.m2rXfer .opbL gprEax 0)), .clrn 0 1]

theorem tagsKnown_readAndCopy :
    TagsKnown oneObjectEnv (readsOf oneObjectEnv readAndCopy)
      (run oneObjectEnv readAndCopy (ProcessState.started 0 : ProcessState 8)) :=
  tagsKnown_run (by decide) oneObjectEnv readAndCopy 0

example : (run oneObjectEnv readAndCopy (ProcessState.started 0 : ProcessState 8)).gpr 0 gprEax 0 =
    {0} := rfl

end TheiaTaint.Engine.Provenance
