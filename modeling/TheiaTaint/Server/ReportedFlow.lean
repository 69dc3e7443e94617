import Mathlib
import TheiaTaint.Engine.EndToEnd
import TheiaTaint.Server.Publication

namespace TheiaTaint.Server.ReportedFlow

open Foundations.History Foundations.Strings Foundations.Keyed
open Tags.Directory Objects.Uuid Hooks.Source Hooks.Sink Hooks.SourceBuffer
open Database.Sql (quote Literal)
open Engine.Provenance Engine.ProcessFlow Engine.EndToEnd Publication

variable {w : ℕ}

def isOverlayInsert : Output → Bool
  | .overlayInsert .. => true
  | .provenanceNode .. => false

/-- The calls of `theia_tag_overlay_insert` that a process has made. -/
def overlayInserts (t : ToolState w) : List Output := t.outputs.filter isOverlayInsert

/-- The call of `theia_tag_overlay_insert` about the report. -/
def output (queryId : Text) (r : Report) : Output :=
  .overlayInsert (uuidToString r.object) r.type.text r.originTexts.uuids queryId
    (uuidToString r.tag) (uuidToString r.subject)

/-- The report is about a write after a run, and names exactly the objects whose data had got to
the first bytes of what was written. -/
structure ReportsWrite (env : Env) (before : List Event) (ev : SinkEvent) (k : ℕ) (r : Report) :
    Prop where
  outbound : writesOutbound env ev.call = true
  object : r.object = ev.call.object.uuid
  type : r.type.text = ev.type
  subject : uuidToString r.subject = env.subjectUuid
  written : k < ev.call.ret.toNat
  origins : ∀ u, u ∈ r.origins ↔
    ∃ b ∈ (bufferBytes ev.call).take (k + 1), ObjectReaches env (stepsOf before) u b

def ReportsFlow (env : Env) (evs : List Event) (r : Report) : Prop :=
  ∃ before ev after k, evs = before ++ .sink ev :: after ∧ ReportsWrite env before ev k r

theorem overlayInserts_sourceHook (socketOnly : Bool) (systemCall : Text) (env : Env) (call : Call)
    (t : ToolState w) :
    overlayInserts (sourceHook socketOnly systemCall env call t) = overlayInserts t := by
  simp only [sourceHook]
  split
  · rfl
  · split
    · split
      · rfl
      · simp [overlayInserts, taintBytes, createTag, isOverlayInsert]
    · rfl

theorem overlayInserts_step (env : Env) (step : Step) (s : ProcessState w) :
    overlayInserts (step.apply env s).tool = overlayInserts s.tool := by
  cases step with
  | source ev =>
    simp only [Step.apply]
    cases ev <;> exact overlayInserts_sourceHook _ _ env _ s.tool
  | clrn addr num => rfl
  | handler tid handler => rfl

theorem mem_loopOutputs {uuid type : Text} {env : Env} {t : ToolState w} {r : Finset Text}
    {c : BitVec 64} {addrs : List AddrInt} {o : Output}
    (h : o ∈ loopOutputs uuid type env t r c addrs) :
    ∃ k < addrs.length, ∃ value, o = .overlayInsert uuid type
      (r ∪ loopOrigins t (addrs.take (k + 1))) env.queryId (tagUuidString value)
        env.subjectUuid := by
  induction addrs generalizing r c with
  | nil => simp [loopOutputs] at h
  | cons i is ih =>
    rw [loopOutputs, List.mem_cons] at h
    rcases h with rfl | h
    · exact ⟨0, by simp, c, by simp [loopOrigins, originsOf, byteOrigins]⟩
    · obtain ⟨k, hk, value, rfl⟩ := ih h
      refine ⟨k + 1, by simpa using hk, value, ?_⟩
      rw [List.take_succ_cons, loopOrigins_cons, Finset.union_assoc]

theorem filter_loopOutputs (uuid type : Text) (env : Env) (t : ToolState w) (r : Finset Text)
    (c : BitVec 64) (addrs : List AddrInt) :
    (loopOutputs uuid type env t r c addrs).filter isOverlayInsert =
      loopOutputs uuid type env t r c addrs := by
  rw [List.filter_eq_self]
  intro o ho
  obtain ⟨_, -, _, rfl⟩ := mem_loopOutputs ho
  rfl

/-- The origins of the first bytes of a write, as the tool names them. -/
def originsUpTo (t : ToolState w) (call : Call) (k : ℕ) : Finset Text :=
  originsOf (originAt t.tagToTagUuid) t.tagDir ((bufferBytes call).take (k + 1))

theorem originsUpTo_ne_empty {t : ToolState w} {call : Call} (hret : 0 < call.ret.toNat)
    (ht : tagDirGetb t.tagDir call.arg1 ≠ ∅) (k : ℕ) : originsUpTo t call k ≠ ∅ := by
  obtain ⟨is, his⟩ := bufferBytes_eq_cons hret
  obtain ⟨x, hx⟩ := Finset.nonempty_iff_ne_empty.2 ht
  rw [originsUpTo, his, List.take_succ_cons]
  refine Finset.ne_empty_of_mem (a := originAt t.tagToTagUuid x) ?_
  exact Finset.mem_biUnion.2 ⟨call.arg1, by simp, Finset.mem_image_of_mem _ hx⟩

theorem overlayInserts_sink (hw : w ≤ 32) {env : Env} {ev : SinkEvent} {t t' : ToolState w}
    (h : ev.apply env t = some t') :
    ∃ new, overlayInserts t' = overlayInserts t ++ new ∧ ∀ o ∈ new,
      writesOutbound env ev.call = true ∧ ∃ k < ev.call.ret.toNat, originsUpTo t ev.call k ≠ ∅ ∧
        ∃ value, o = .overlayInsert (uuidToString ev.call.object.uuid) ev.type
          (originsUpTo t ev.call k) env.queryId (tagUuidString value) env.subjectUuid := by
  rw [ev.apply_eq] at h
  cases hwrite : writesOutbound env ev.call with
  | false =>
    rw [sinkHook_of_not_writes hwrite] at h
    cases h
    exact ⟨[], by simp, by simp⟩
  | true =>
    have hret : 0 < ev.call.ret.toNat := toNat_pos_of_writesOutbound hwrite
    by_cases hno : ev.call.arg1.toNat + ev.call.ret.toNat < 2 ^ 64
    · by_cases hfirst : tagDirGetb t.tagDir ev.call.arg1 = ∅
      · rw [sinkHook_of_untagged hwrite hno hfirst] at h
        cases h
      · obtain ⟨_, hs, hout, -⟩ := sinkHook_of_tagged ev.type hwrite hno hfirst
        rw [h, Option.some.injEq] at hs
        subst hs
        refine ⟨_, by rw [overlayInserts, hout, List.filter_append, ← overlayInserts], ?_⟩
        intro o ho
        rw [filter_loopOutputs] at ho
        obtain ⟨k, hk, value, rfl⟩ := mem_loopOutputs ho
        have horigins : ∅ ∪ loopOrigins t ((bufferBytes ev.call).take (k + 1)) =
            originsUpTo t ev.call k := by
          simp only [Finset.empty_union, loopOrigins, lookupKey_of_le hw, originsUpTo]
        rw [horigins]
        exact ⟨rfl, k, by simpa [bufferBytes] using hk, originsUpTo_ne_empty hret hfirst k, value,
          rfl⟩
    · rw [sinkHook_of_wrap hwrite hno] at h
      cases h
      exact ⟨[], by simp, by simp⟩

theorem unquoted_type (ev : SinkEvent) : quote ∉ ev.type := by
  have hwrite : quote ∉ "EVENT_WRITE".toList := by decide
  have hsend : quote ∉ "EVENT_SEND".toList := by decide
  cases ev with
  | write call => exact hwrite
  | sendto call => exact hsend

theorem ReportsFlow.mono {env : Env} {evs : List Event} {r : Report} (h : ReportsFlow env evs r)
    (ev : Event) : ReportsFlow env (evs ++ [ev]) r := by
  obtain ⟨before, sink, after, k, rfl, hwrite⟩ := h
  exact ⟨before, sink, after ++ [ev], k, by simp, hwrite⟩

theorem runEvents_concat (env : Env) (evs : List Event) (ev : Event) (s : ProcessState w) :
    runEvents env (evs ++ [ev]) s = (runEvents env evs s).bind fun s' ↦ ev.apply env s' := by
  simp [runEvents, List.foldlM_append]

theorem readsOf_concat_subset (env : Env) (evs : List Event) (ev : Event) :
    (readsOf env (stepsOf evs)).toFinset ⊆ (readsOf env (stepsOf (evs ++ [ev]))).toFinset := by
  intro u hu
  rw [List.mem_toFinset] at hu ⊢
  rw [stepsOf, List.filterMap_append, readsOf, List.flatMap_append, inboundReads,
    List.filter_append, List.map_append]
  exact List.mem_append_left _ hu

section Run

variable {env : Env} {subject : CdmUuid}

theorem exists_report_sink (hsubject : env.subjectUuid = uuidToString subject)
    {before : List Event} {start : BitVec 64} {s : ProcessState w}
    (hsame : SameTags s (run env (stepsOf before) (ProcessState.started start)))
    (hcard : (readsOf env (stepsOf before)).toFinset.card ≤ 2 ^ w) {ev : SinkEvent}
    (hwrites : writesOutbound env ev.call = true) {k : ℕ} (hk : k < ev.call.ret.toNat)
    (hne : originsUpTo s.tool ev.call k ≠ ∅) (value : BitVec 64) :
    ∃ r, ReportsWrite env before ev k r ∧
      output env.queryId r = .overlayInsert (uuidToString ev.call.object.uuid) ev.type
        (originsUpTo s.tool ev.call k) env.queryId (tagUuidString value) env.subjectUuid := by
  have hmem := mem_originsOf_iff hsame hcard ((bufferBytes ev.call).take (k + 1))
  let origins := (originsUpTo s.tool ev.call k).preimage uuidToString uuidToString_injective.injOn
  have himage : origins.image uuidToString = originsUpTo s.tool ev.call k := by
    rw [Finset.image_preimage, Finset.filter_eq_self]
    intro x hx
    obtain ⟨u, rfl, -⟩ := (hmem x).1 hx
    exact Set.mem_range_self u
  have hnonempty : origins ≠ ∅ := fun h ↦ hne (by rw [← himage, h, Finset.image_empty])
  refine ⟨⟨ev.call.object.uuid, ⟨ev.type, unquoted_type ev⟩, origins, getUuidArrayFromValue value,
    subject, hnonempty⟩, ⟨hwrites, rfl, rfl, hsubject.symm, hk, fun u ↦ ?_⟩, ?_⟩
  · rw [Finset.mem_preimage, originsUpTo, hmem]
    constructor
    · rintro ⟨v, hv, hreach⟩
      exact uuidToString_injective hv ▸ hreach
    · intro hreach
      exact ⟨u, rfl, hreach⟩
  · simp only [output, Report.originTexts, himage, hsubject]
    rfl

/-- All calls of a run pass reports on its writes. -/
theorem exists_report (hw : w ≤ 32) (hsubject : env.subjectUuid = uuidToString subject)
    (start : BitVec 64) (evs : List Event) {s : ProcessState w}
    (hrun : runEvents env evs (ProcessState.started start) = some s)
    (hcard : (readsOf env (stepsOf evs)).toFinset.card ≤ 2 ^ w) :
    ∀ o ∈ overlayInserts s.tool, ∃ r, ReportsFlow env evs r ∧ output env.queryId r = o := by
  induction evs using List.reverseRecOn generalizing s with
  | nil =>
    obtain rfl := Option.some_inj.1 hrun
    simp [overlayInserts, ProcessState.started, initial]
  | append_singleton evs ev ih =>
    rw [runEvents_concat] at hrun
    obtain ⟨s₁, hs₁, hlast⟩ := Option.bind_eq_some_iff.1 hrun
    have hcard₁ := (Finset.card_le_card (readsOf_concat_subset env evs ev)).trans hcard
    have hbefore (o : Output) (ho : o ∈ overlayInserts s₁.tool) :
        ∃ r, ReportsFlow env (evs ++ [ev]) r ∧ output env.queryId r = o := by
      obtain ⟨r, hr, hout⟩ := ih hs₁ hcard₁ o ho
      exact ⟨r, hr.mono ev, hout⟩
    cases ev with
    | internal step =>
      obtain rfl := Option.some_inj.1 hlast
      rwa [overlayInserts_step]
    | sink ev =>
      obtain ⟨t, ht, rfl⟩ := Option.map_eq_some_iff.1 hlast
      have hsame : SameTags s₁ (run env (stepsOf evs) (ProcessState.started start)) :=
        sameTags_runEvents hw ⟨rfl, rfl, rfl⟩ (inv_started start) hs₁
      obtain ⟨new, hnew, hall⟩ := overlayInserts_sink hw ht
      intro o ho
      rw [hnew, List.mem_append] at ho
      rcases ho with ho | ho
      · exact hbefore o ho
      · obtain ⟨hwrites, k, hk, hne, value, rfl⟩ := hall o ho
        obtain ⟨r, hr, hout⟩ :=
          exists_report_sink hsubject hsame hcard₁ hwrites hk hne value
        exact ⟨r, ⟨evs, ev, [], k, rfl, hr⟩, hout⟩

end Run

/-- A process that was replayed under a query, as far as it got. It read few enough objects to
give each a tag of its own. -/
structure Replayed (queryId : Text) where
  width : ℕ
  narrow : width ≤ 32
  inbound : List CdmUuid
  outbound : List CdmUuid
  subject : CdmUuid
  start : BitVec 64
  events : List Event
  state : ProcessState width
  ran : runEvents ⟨inbound, outbound, queryId, uuidToString subject⟩ events
    (ProcessState.started start) = some state
  few : (readsOf ⟨inbound, outbound, queryId, uuidToString subject⟩
    (stepsOf events)).toFinset.card ≤ 2 ^ width

section Query

variable {queryId : Text}

def Replayed.env (p : Replayed queryId) : Env :=
  ⟨p.inbound, p.outbound, queryId, uuidToString p.subject⟩

/-- All that the replays of a query pass to the overlay, one process after the other. -/
def passed (procs : List (Replayed queryId)) : List Output :=
  procs.flatMap fun p ↦ overlayInserts p.state.tool

theorem exists_reports (procs : List (Replayed queryId)) :
    ∃ reports : List Report, reports.map (output queryId) = passed procs ∧
      ∀ r ∈ reports, ∃ p ∈ procs, ReportsFlow p.env p.events r := by
  refine exists_map_eq fun o ho ↦ ?_
  obtain ⟨p, hp, ho⟩ := List.mem_flatMap.1 ho
  obtain ⟨r, hr, hout⟩ := exists_report p.narrow rfl p.start p.events p.ran p.few o ho
  exact ⟨r, ⟨p, hp, hr⟩, hout⟩

end Query

def writeByte (object : CdmUuid) : SinkEvent :=
  .write ⟨1, 0, ⟨object, 0, [], 0, [], 0⟩, fun _ _ _ _ ↦ ([], ∅)⟩

/-- A byte of one object is read, and written to another. -/
def copyEvents (u v : CdmUuid) : List Event :=
  [.internal (.source (readByte u)), .sink (writeByte v)]

section Copy

variable {env : Env} {u v : CdmUuid}

theorem card_copyEvents (env : Env) (u v : CdmUuid) :
    (readsOf env (stepsOf (copyEvents u v))).toFinset.card ≤ 2 ^ 8 := by
  have hlength : (readsOf env (stepsOf (copyEvents u v))).length ≤ 1 := by
    rw [readsOf, inboundReads, List.length_map]
    exact List.length_filter_le _ _
  exact (List.toFinset_card_le _).trans (hlength.trans (by decide))

theorem isSome_copyEvents (hu : u ∈ env.inboundUuidArray) (hv : v ∈ env.outboundUuidArray) :
    (runEvents env (copyEvents u v) (ProcessState.started 0 : ProcessState 8)).isSome := by
  let s : ProcessState 8 := (Step.source (readByte u)).apply env (ProcessState.started 0)
  have hsame : SameTags s (run env [.source (readByte u)] (ProcessState.started 0)) :=
    ⟨rfl, rfl, rfl⟩
  have hret : 0 < (1 : BitVec 64).toInt := by decide
  have hbyte : (0 : AddrInt) ∈ byteRange 0 1 := by decide
  have hno : (0 : AddrInt).toNat + (1 : BitVec 64).toNat < 2 ^ 64 := by decide
  have hreads : readsInbound env (readByte u).call = true := by
    rw [readsInbound, Bool.and_eq_true]
    exact ⟨decide_eq_true hret, decide_eq_true hu⟩
  have hwrites : writesOutbound env (writeByte v).call = true := by
    rw [writesOutbound, Bool.and_eq_true]
    exact ⟨decide_eq_true hret, decide_eq_true hv⟩
  have hreach : ObjectReaches env [.source (readByte u)] u (writeByte v).call.arg1 := by
    refine ⟨[], readByte u, [], 0, rfl, rfl, ?_, .nil _⟩
    rw [overwritten, if_pos hreads]
    exact hbyte
  have htagged : tagDirGetb s.tool.tagDir (writeByte v).call.arg1 ≠ ∅ :=
    (tagged_iff hsame (card_copyEvents env u v) _).2 ⟨u, hreach⟩
  obtain ⟨t, ht, -⟩ := sinkHook_of_tagged (writeByte v).type hwrites hno htagged
  have hrun : runEvents env (copyEvents u v) (ProcessState.started 0 : ProcessState 8) =
      (Event.sink (writeByte v)).apply env s :=
    runEvents_concat env [.internal (.source (readByte u))] (.sink (writeByte v)) _
  rw [hrun, Event.apply, SinkEvent.apply_eq, ht, Option.map_some, Option.isSome_some]

end Copy

/-- A process that only copies a byte from an object it may read to one it may write. -/
def copyProcess (queryId : Text) (inbound outbound : List CdmUuid) (subject : CdmUuid)
    {u v : CdmUuid} (hu : u ∈ inbound) (hv : v ∈ outbound) : Replayed queryId where
  width := 8
  narrow := by decide
  inbound := inbound
  outbound := outbound
  subject := subject
  start := 0
  events := copyEvents u v
  state := _
  ran := (Option.some_get (isSome_copyEvents hu hv)).symm
  few := card_copyEvents _ u v

end TheiaTaint.Server.ReportedFlow
