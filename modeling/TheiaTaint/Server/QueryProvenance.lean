import Mathlib
import TheiaTaint.Server.Reachability
import TheiaTaint.Server.ReportedFlow

namespace TheiaTaint.Server.QueryProvenance

open Foundations.Strings Tags.Directory Objects.Uuid Hooks.Source Hooks.Sink
open Database.Subgraph hiding Row
open Engine.ProcessFlow Engine.EndToEnd Publication ReportedFlow
open Reachability (Neo4j Query Answer Touches reachability mem_reader_iff copiedFile fromFile
  copiedFileAnswer Reaches reader_eq_none_iff)

variable {w : ℕ}

/-- What `main` of the tool fixes before the process starts, from its knobs and the `subgraph`
table. A count of `-1` lists no object. -/
def startEnv (uninit : CdmUuid) (table : List Database.Subgraph.Row)
    (queryId subjectUuid : Text) : Env where
  inboundUuidArray := (getInboundForTaint uninit table queryId subjectUuid).getD []
  outboundUuidArray := (getOutboundForTaint uninit table queryId subjectUuid).getD []
  queryId := queryId
  subjectUuid := subjectUuid

theorem inbound_of_objectReaches {env : Env} {steps : List Engine.Provenance.Step} {u : CdmUuid}
    {addr : AddrInt} (h : ObjectReaches env steps u addr) : u ∈ env.inboundUuidArray := by
  obtain ⟨_, ev, _, a, -, rfl, ha, -⟩ := h
  have hread := readsInbound_of_mem ha
  rw [readsInbound, Bool.and_eq_true] at hread
  exact of_decide_eq_true hread.2

section Query

variable {g : Neo4j} {q : Query} {ins : List Insertion}

theorem touches_of_mem (hend : q.uuidEnd = none) (answer : Answer g q)
    (hmem : reachability g q answer ∈ ins)
    (hid : ∀ i ∈ ins, i.queryId = q.id → i = reachability g q answer) {dir : Direction}
    {uninit subject x : CdmUuid}
    (hx : x ∈ (dir.reader uninit (subgraph ins) q.id (uuidToString subject)).getD []) :
    ∃ st, Touches g q dir subject st ∧ st.file g.toGraph = some x := by
  cases hread : dir.reader uninit (subgraph ins) q.id (uuidToString subject) with
  | none =>
    rw [hread, Option.getD_none] at hx
    exact absurd hx List.not_mem_nil
  | some uuids =>
    rw [hread, Option.getD_some] at hx
    exact (mem_reader_iff dir uninit subject hend answer hmem hid hread x).1 hx

/-- The report is about a write to a file that the query reaches, by a process of the query, and
its origins are the files whose data was written, all of which the query reaches. -/
def ReportsReached (g : Neo4j) (q : Query) {queryId : Text} (procs : List (Replayed queryId))
    (r : Report) : Prop :=
  ∃ p ∈ procs, ∃ before ev after k, p.events = before ++ .sink ev :: after ∧
    ReportsWrite p.env before ev k r ∧
    (∃ st, Touches g q .outbound p.subject st ∧ st.file g.toGraph = some r.object) ∧
    ∀ u ∈ r.origins, ∃ st, Touches g q .inbound p.subject st ∧ st.file g.toGraph = some u

end Query

section Sample

def sampleRows : List Database.Subgraph.Row :=
  subgraph [reachability copiedFile fromFile copiedFileAnswer]

theorem file_of_reached {st : Reachability.Step} (h : Reachability.Reached copiedFile fromFile st) :
    st.file copiedFile.toGraph ≠ none := by
  obtain ⟨s, hs, e, hreaches, -, rfl⟩ := h
  obtain rfl := List.mem_singleton.1 hs
  obtain ⟨_, -, -, es, hedges, -⟩ := hreaches
  have he : e ∈ [0, 1] := hedges e (by simp)
  rcases List.mem_pair.1 he with rfl | rfl <;> decide

theorem mem_sampleReader (dir : Direction) {x : CdmUuid} {st : Reachability.Step}
    (hst : Touches copiedFile fromFile dir sampleSubject st)
    (hfile : st.file copiedFile.toGraph = some x) :
    x ∈ (dir.reader 0 sampleRows fromFile.id (uuidToString sampleSubject)).getD [] := by
  have hid : ∀ i ∈ [reachability copiedFile fromFile copiedFileAnswer],
      i.queryId = fromFile.id → i = reachability copiedFile fromFile copiedFileAnswer :=
    fun _ hi _ ↦ List.mem_singleton.1 hi
  cases hread : dir.reader 0 sampleRows fromFile.id (uuidToString sampleSubject) with
  | none =>
    obtain ⟨st', hst', hnone⟩ :=
      (reader_eq_none_iff dir 0 sampleSubject rfl copiedFileAnswer List.mem_cons_self hid).1 hread
    exact absurd hnone (file_of_reached hst'.reached)
  | some uuids =>
    exact (mem_reader_iff dir 0 sampleSubject rfl copiedFileAnswer List.mem_cons_self hid hread
      x).2 ⟨st, hst, hfile⟩

theorem touches_sampleRead : Touches copiedFile fromFile .inbound sampleSubject ⟨0, 0, 1⟩ where
  reached := ⟨copiedFile.forwards fromFile, List.mem_cons_self, 0,
    ⟨0, by decide, by decide, [], by decide, ⟨rfl, trivial⟩, by simp, by decide, .inl rfl⟩,
    by decide, rfl⟩
  eventType := by decide
  subject := by decide

theorem touches_sampleWrite : Touches copiedFile fromFile .outbound sampleSubject ⟨1, 1, 2⟩ where
  reached := ⟨copiedFile.forwards fromFile, List.mem_cons_self, 1,
    ⟨0, by decide, by decide, [0], by decide, ⟨rfl, rfl, trivial⟩, by decide, by decide,
      .inr (by decide)⟩, by decide, rfl⟩
  eventType := by decide
  subject := by decide

def sampleProcess : Replayed fromFile.id :=
  copyProcess fromFile.id _ _ sampleSubject (mem_sampleReader .inbound touches_sampleRead rfl)
    (mem_sampleReader .outbound touches_sampleWrite rfl)

end Sample

end TheiaTaint.Server.QueryProvenance
