import Mathlib
import TheiaTaint.Database.Sql
import TheiaTaint.Server.Reachability
import TheiaTaint.Server.Selection

namespace TheiaTaint.Server.NodeTables

open Foundations.Strings Foundations.Keyed Objects.Uuid Reachability
open Database.Subgraph hiding Row
open Database.Sql (quote)
open Selection (SubjectRow SubgraphRow)

/-- A text that its column takes as it stands between the quotes of a statement. -/
structure Column (width : ℕ) where
  text : Text
  fits : text.length ≤ width
  unquoted : quote ∉ text

structure Addresses where
  localAddress : Column 15
  localPort : ℤ
  remoteAddress : Column 15
  remotePort : ℤ

/-- What the server asks the graph database for. `executed` are the names of the files that a
subject has executed, each with the subject's principal. -/
structure ProvenanceGraph extends Neo4j where
  cid : ℕ → ℤ
  filename : ℕ → Column 4096
  addresses : ℕ → Addresses
  executed : HostUuid → List (Column 4096 × Option HostUuid)
  eventUuid : ℕ → Option HostUuid
  eventSize : ℕ → ℤ

structure FileRow where
  uuid : Text
  path : Text
  queryId : Text

structure NetflowRow where
  uuid : Text
  localIp : Text
  localPort : ℤ
  remoteIp : Text
  remotePort : ℤ
  queryId : Text

/-- A row of `subgraph` with all of its columns. -/
structure EventRow extends Database.Subgraph.Row where
  eventUuid : Text
  eventSize : ℤ
  eventTs : ℤ

def FileRow.key (r : FileRow) : Text × Text := (r.uuid, r.queryId)

def NetflowRow.key (r : NetflowRow) : Text × Text := (r.uuid, r.queryId)

structure Tables where
  subject : Table SubjectRow.uuid
  file : Table FileRow.key
  netflow : Table NetflowRow.key
  subgraph : List EventRow

def Tables.empty : Tables := ⟨.empty, .empty, .empty, []⟩

variable {R K : Type*} [DecidableEq K] {key : R → K}

/-- `INSERT INTO .. SELECT .. WHERE NOT EXISTS` a row with this key. -/
def insertNew (t : Table key) (r : R) : Table key := (t.insert r).getD t

/-- `r[0].split('-')[1]`. -/
def objText (u : HostUuid) : Text := (u.text.splitOn '-').getD 1 []

def subjectRow (g : ProvenanceGraph) (n : ℕ) (r : Column 4096 × Option HostUuid) : SubjectRow where
  uuid := objText (g.getNodeMeta n).uuid
  path := some (RecIndex.basename r.1.text)
  pid := some (g.cid n)
  localPrincipal := some (formatted (stripHost r.2))

/-- The row of a subject that has executed nothing. -/
def bareSubjectRow (g : ProvenanceGraph) (n : ℕ) : SubjectRow where
  uuid := objText (g.getNodeMeta n).uuid
  path := some []
  pid := some (g.cid n)
  localPrincipal := some []

def insertSubject (g : ProvenanceGraph) (n : ℕ) (t : Table SubjectRow.uuid) :
    Table SubjectRow.uuid :=
  let results := g.executed (g.getNodeMeta n).uuid
  let t := results.foldl (fun t r ↦ insertNew t (subjectRow g n r)) t
  if results = [] then insertNew t (bareSubjectRow g n) else t

def fileRow (g : ProvenanceGraph) (qid : Text) (n : ℕ) : FileRow where
  uuid := objText (g.getNodeMeta n).uuid
  path := (g.filename n).text
  queryId := qid

def netflowRow (g : ProvenanceGraph) (qid : Text) (n : ℕ) : NetflowRow where
  uuid := objText (g.getNodeMeta n).uuid
  localIp := (g.addresses n).localAddress.text
  localPort := (g.addresses n).localPort
  remoteIp := (g.addresses n).remoteAddress.text
  remotePort := (g.addresses n).remotePort
  queryId := qid

def insertNode (g : ProvenanceGraph) (qid : Text) (n : ℕ) (t : Tables) : Tables :=
  if (g.getNodeMeta n).nodeType = "SUBJECT".toList then
    { t with subject := insertSubject g n t.subject }
  else if (g.getNodeMeta n).nodeType = "FILE".toList then
    { t with file := insertNew t.file (fileRow g qid n) }
  else if (g.getNodeMeta n).nodeType = "NETFLOW".toList then
    { t with netflow := insertNew t.netflow (netflowRow g qid n) }
  else t

def eventRow (g : ProvenanceGraph) (qid : Text) (st : Step) : EventRow where
  toRow := (st.hop g.toGraph).row qid
  eventUuid := formatted (stripHost (g.eventUuid st.e))
  eventSize := g.eventSize st.e
  eventTs := g.ts st.e

/-- A turn of the inner loop of `insert_paths`. -/
def insertStep (g : ProvenanceGraph) (qid : Text) (t : Tables) (st : Step) : Tables :=
  if g.getEdgeType st.e ∈ interesting then
    let t := insertNode g qid st.n2 (insertNode g qid st.n1 t)
    { t with subgraph := t.subgraph ++ [eventRow g qid st] }
  else t

def insertPaths (g : ProvenanceGraph) (qid : Text) (t : Tables) (paths : List Path) : Tables :=
  paths.foldl (fun t p ↦ (steps p).foldl (insertStep g qid) t) t

/-- A query that was answered. -/
structure Answered where
  graph : ProvenanceGraph
  query : Query
  answer : Reachability.Answer graph.toNeo4j query

/-- The tables after some queries, one after the other. -/
def afterQueries (qs : List Answered) : Tables :=
  qs.foldl (fun t a ↦ insertPaths a.graph a.query.id t a.answer.paths) .empty

theorem mem_insertNew_iff (t : Table key) (r : R) (k : K) :
    k ∈ (insertNew t r).rows.map key ↔ k ∈ t.rows.map key ∨ k = key r := by
  by_cases hr : key r ∈ t.rows.map key
  · rw [insertNew, Table.insert, dif_pos hr, Option.getD_none]
    exact ⟨.inl, fun h ↦ h.elim id fun hk ↦ hk ▸ hr⟩
  · rw [insertNew, Table.insert, dif_neg hr, Option.getD_some, List.map_append, List.mem_append,
      List.map_singleton, List.mem_singleton]

variable {g : ProvenanceGraph} {qid : Text} {n : ℕ} {t t' : Tables}

theorem mem_insertSubject_iff (t : Table SubjectRow.uuid) (k : Text) :
    k ∈ (insertSubject g n t).rows.map SubjectRow.uuid ↔
      k ∈ t.rows.map SubjectRow.uuid ∨ k = objText (g.getNodeMeta n).uuid := by
  have hfold : ∀ (rs : List (Column 4096 × Option HostUuid)) (t : Table SubjectRow.uuid),
      k ∈ (rs.foldl (fun t r ↦ insertNew t (subjectRow g n r)) t).rows.map SubjectRow.uuid ↔
        k ∈ t.rows.map SubjectRow.uuid ∨ (rs ≠ [] ∧ k = objText (g.getNodeMeta n).uuid) := by
    intro rs
    induction rs with
    | nil => simp
    | cons r rs ih =>
      intro t
      rw [List.foldl_cons, ih, mem_insertNew_iff]
      have hkey : (subjectRow g n r).uuid = objText (g.getNodeMeta n).uuid := rfl
      rw [hkey]
      tauto
  rw [insertSubject]
  split_ifs with hnone
  · rw [hnone, List.foldl_nil, mem_insertNew_iff]
    rfl
  · rw [hfold]
    simp [hnone]

/-- The rows that say what a node is. -/
structure Tables.HasNode (t : Tables) (qid : Text) (m : NodeMeta) : Prop where
  subject : m.nodeType = "SUBJECT".toList → objText m.uuid ∈ t.subject.rows.map SubjectRow.uuid
  file : m.nodeType = "FILE".toList → (objText m.uuid, qid) ∈ t.file.rows.map FileRow.key
  netflow : m.nodeType = "NETFLOW".toList →
    (objText m.uuid, qid) ∈ t.netflow.rows.map NetflowRow.key

/-- No node goes away. -/
structure Tables.Grows (t t' : Tables) : Prop where
  subject : t.subject.rows.map SubjectRow.uuid ⊆ t'.subject.rows.map SubjectRow.uuid
  file : t.file.rows.map FileRow.key ⊆ t'.file.rows.map FileRow.key
  netflow : t.netflow.rows.map NetflowRow.key ⊆ t'.netflow.rows.map NetflowRow.key

theorem Tables.Grows.trans {t'' : Tables} (h : t.Grows t') (h' : t'.Grows t'') : t.Grows t'' where
  subject _ hk := h'.subject (h.subject hk)
  file _ hk := h'.file (h.file hk)
  netflow _ hk := h'.netflow (h.netflow hk)

theorem Tables.HasNode.mono {m : NodeMeta} (h : t.HasNode qid m) (hgrows : t.Grows t') :
    t'.HasNode qid m where
  subject hm := hgrows.subject (h.subject hm)
  file hm := hgrows.file (h.file hm)
  netflow hm := hgrows.netflow (h.netflow hm)

theorem grows_insertNode (g : ProvenanceGraph) (qid : Text) (n : ℕ) (t : Tables) :
    t.Grows (insertNode g qid n t) := by
  rw [insertNode]
  split_ifs
  · exact ⟨fun k hk ↦ (mem_insertSubject_iff _ k).2 (.inl hk), List.Subset.refl _,
      List.Subset.refl _⟩
  · exact ⟨List.Subset.refl _, fun k hk ↦ (mem_insertNew_iff _ _ k).2 (.inl hk),
      List.Subset.refl _⟩
  · exact ⟨List.Subset.refl _, List.Subset.refl _,
      fun k hk ↦ (mem_insertNew_iff _ _ k).2 (.inl hk)⟩
  · exact ⟨List.Subset.refl _, List.Subset.refl _, List.Subset.refl _⟩

theorem hasNode_insertNode (g : ProvenanceGraph) (qid : Text) (n : ℕ) (t : Tables) :
    (insertNode g qid n t).HasNode qid (g.getNodeMeta n) := by
  have hfile : "FILE".toList ≠ "SUBJECT".toList := by decide
  have hnetflow : "NETFLOW".toList ≠ "SUBJECT".toList := by decide
  have hnetflow' : "NETFLOW".toList ≠ "FILE".toList := by decide
  constructor
  · intro hm
    rw [insertNode, if_pos hm]
    exact (mem_insertSubject_iff _ _).2 (.inr rfl)
  · intro hm
    rw [insertNode, if_neg (hm ▸ hfile), if_pos hm]
    exact (mem_insertNew_iff _ _ _).2 (.inr rfl)
  · intro hm
    rw [insertNode, if_neg (hm ▸ hnetflow), if_neg (hm ▸ hnetflow'), if_pos hm]
    exact (mem_insertNew_iff _ _ _).2 (.inr rfl)

theorem subgraph_insertNode (g : ProvenanceGraph) (qid : Text) (n : ℕ) (t : Tables) :
    (insertNode g qid n t).subgraph = t.subgraph := by
  rw [insertNode]
  split_ifs <;> rfl

/-- The nodes that a row names have rows of their own. -/
structure Tables.Links (t : Tables) (r : EventRow) : Prop where
  subject : r.subjectUuid = noneText ∨ r.subjectUuid ∈ t.subject.rows.map SubjectRow.uuid
  file : r.fileUuid = noneText ∨ (r.fileUuid, r.queryId) ∈ t.file.rows.map FileRow.key
  netflow : r.netflowUuid = noneText ∨
    (r.netflowUuid, r.queryId) ∈ t.netflow.rows.map NetflowRow.key

def Tables.Linked (t : Tables) : Prop := ∀ r ∈ t.subgraph, t.Links r

theorem Tables.Links.mono {r : EventRow} (h : t.Links r) (hgrows : t.Grows t') : t'.Links r where
  subject := h.subject.imp_right fun hm ↦ hgrows.subject hm
  file := h.file.imp_right fun hm ↦ hgrows.file hm
  netflow := h.netflow.imp_right fun hm ↦ hgrows.netflow hm

theorem exists_of_uuidOf {nodeType : Text} {h : Hop} {u : HostUuid}
    (hu : h.uuidOf nodeType = some u) :
    ∃ m, (m = h.n1 ∨ m = h.n2) ∧ m.nodeType = nodeType ∧ m.uuid = u := by
  rw [Hop.uuidOf] at hu
  split_ifs at hu with h2 h1
  · exact ⟨h.n2, .inr rfl, h2, Option.some_injective _ hu⟩
  · exact ⟨h.n1, .inl rfl, h1, Option.some_injective _ hu⟩

theorem formatted_stripHost (o : Option HostUuid) :
    formatted (stripHost o) = noneText ∨ ∃ u, o = some u ∧ formatted (stripHost o) = objText u := by
  cases o with
  | none => exact .inl rfl
  | some u => exact .inr ⟨u, rfl, rfl⟩

theorem links_eventRow {st : Step} (h1 : t.HasNode qid (g.getNodeMeta st.n1))
    (h2 : t.HasNode qid (g.getNodeMeta st.n2)) : t.Links (eventRow g qid st) := by
  have hnode : ∀ m, (m = (st.hop g.toGraph).n1 ∨ m = (st.hop g.toGraph).n2) →
      t.HasNode qid m := by
    rintro m (rfl | rfl)
    · exact h1
    · exact h2
  constructor
  · refine (formatted_stripHost (st.hop g.toGraph).subject).imp id ?_
    rintro ⟨u, hu, htext⟩
    obtain ⟨m, hm, htype, rfl⟩ := exists_of_uuidOf hu
    have hrow : (eventRow g qid st).subjectUuid = objText m.uuid := htext
    rw [hrow]
    exact (hnode m hm).subject htype
  · refine (formatted_stripHost (st.hop g.toGraph).file).imp id ?_
    rintro ⟨u, hu, htext⟩
    obtain ⟨m, hm, htype, rfl⟩ := exists_of_uuidOf hu
    have hrow : (eventRow g qid st).fileUuid = objText m.uuid := htext
    rw [hrow]
    exact (hnode m hm).file htype
  · refine (formatted_stripHost (st.hop g.toGraph).netflow).imp id ?_
    rintro ⟨u, hu, htext⟩
    obtain ⟨m, hm, htype, rfl⟩ := exists_of_uuidOf hu
    have hrow : (eventRow g qid st).netflowUuid = objText m.uuid := htext
    rw [hrow]
    exact (hnode m hm).netflow htype

theorem grows_insertNodes (st : Step) :
    t.Grows (insertNode g qid st.n2 (insertNode g qid st.n1 t)) :=
  (grows_insertNode g qid st.n1 t).trans (grows_insertNode g qid st.n2 _)

theorem linked_insertStep (h : t.Linked) (st : Step) : (insertStep g qid t st).Linked := by
  rw [insertStep]
  split_ifs
  · intro r hr
    have hsubgraph : (insertNode g qid st.n2 (insertNode g qid st.n1 t)).subgraph = t.subgraph := by
      rw [subgraph_insertNode, subgraph_insertNode]
    rw [List.mem_append, List.mem_singleton, hsubgraph] at hr
    have hlinks : (insertNode g qid st.n2 (insertNode g qid st.n1 t)).Links r := by
      rcases hr with hr | rfl
      · exact (h r hr).mono (grows_insertNodes st)
      · exact links_eventRow ((hasNode_insertNode g qid st.n1 t).mono (grows_insertNode _ _ _ _))
          (hasNode_insertNode g qid st.n2 _)
    exact ⟨hlinks.subject, hlinks.file, hlinks.netflow⟩
  · exact h

theorem insertPaths_eq (t : Tables) (paths : List Path) :
    insertPaths g qid t paths = (paths.flatMap steps).foldl (insertStep g qid) t := by
  rw [insertPaths, List.foldl_flatMap]

theorem linked_insertPaths (h : t.Linked) (paths : List Path) :
    (insertPaths g qid t paths).Linked := by
  rw [insertPaths_eq]
  induction paths.flatMap steps generalizing t with
  | nil => exact h
  | cons st sts ih => exact ih (linked_insertStep h st)

theorem subgraph_insertPaths (t : Tables) (paths : List Path) :
    (insertPaths g qid t paths).subgraph =
      t.subgraph ++ (keptSteps g.toGraph paths).map (eventRow g qid) := by
  rw [insertPaths_eq, keptSteps]
  induction paths.flatMap steps generalizing t with
  | nil => simp
  | cons st sts ih =>
    rw [List.foldl_cons, ih, insertStep]
    by_cases hst : g.getEdgeType st.e ∈ interesting
    · simp only [hst, if_true, decide_true, List.filter_cons_of_pos, List.map_cons,
        subgraph_insertNode, List.append_assoc, List.cons_append, List.nil_append]
    · simp only [hst, if_false, decide_false, Bool.false_eq_true, not_false_eq_true,
        List.filter_cons_of_neg]

theorem subgraph_afterQueries (qs : List Answered) :
    (afterQueries qs).subgraph = qs.flatMap fun a ↦
      (keptSteps a.graph.toGraph a.answer.paths).map (eventRow a.graph a.query.id) := by
  induction qs using List.reverseRecOn with
  | nil => rfl
  | append_singleton qs a ih =>
    rw [afterQueries, List.foldl_append, List.foldl_cons, List.foldl_nil, ← afterQueries,
      subgraph_insertPaths, ih, List.flatMap_append, List.flatMap_singleton]

/-- After every sequence of queries, the nodes that the events name are in the tables. -/
theorem linked_afterQueries (qs : List Answered) : (afterQueries qs).Linked := by
  induction qs using List.reverseRecOn with
  | nil =>
    intro r hr
    exact absurd hr List.not_mem_nil
  | append_singleton qs a ih =>
    rw [afterQueries, List.foldl_append, List.foldl_cons, List.foldl_nil, ← afterQueries]
    exact linked_insertPaths ih _

def EventRow.selected (r : EventRow) : SubgraphRow where
  queryId := some r.queryId
  subjectUuid := some r.subjectUuid
  eventType := some r.eventType
  eventSize := some r.eventSize

def Tables.selectionDb (t : Tables) (recIndex : List RecIndex.Row) : Selection.Db where
  subject := t.subject
  subgraph := t.subgraph.map EventRow.selected
  recIndex := recIndex

theorem fetched_of_linked (h : t.Linked) {recIndex : List RecIndex.Row}
    (rows : Selection.Answer (t.selectionDb recIndex)) {u : CdmUuid} {type : Text} {size : ℤ} :
    (∃ f ∈ rows.rows, f.uuid = uuidToString u ∧ f.eventType = some type ∧
        f.eventSize = some size) ↔
      ∃ r ∈ t.subgraph, r.subjectUuid = uuidToString u ∧ r.eventType = type ∧
        r.eventSize = size := by
  constructor
  · rintro ⟨f, hf, huuid, htype, hsize⟩
    rw [rows.mem_iff, Selection.mem_joined] at hf
    obtain ⟨s, -, r', hr', ⟨hjoin, -⟩, rfl⟩ := hf
    obtain ⟨r, hr, rfl⟩ := List.mem_map.1 hr'
    exact ⟨r, hr, (Option.some_injective _ hjoin).trans huuid, Option.some_injective _ htype,
      Option.some_injective _ hsize⟩
  · rintro ⟨r, hr, huuid, rfl, rfl⟩
    have hne : r.subjectUuid ≠ noneText := by
      rw [huuid]
      exact uuidToString_ne_of_getCdmUuid (getCdmUuid_noneText 0) u
    obtain ⟨s, hs, hkey⟩ := List.mem_map.1 ((h r hr).subject.resolve_left hne)
    refine ⟨Selection.fetched s r.selected, ?_, hkey.trans huuid, rfl, rfl⟩
    rw [rows.mem_iff, Selection.mem_joined]
    exact ⟨s, hs, r.selected, List.mem_map_of_mem hr,
      ⟨congrArg some hkey.symm, Option.some_ne_none _⟩, rfl⟩

/-- The subjects fetched for a replay are those with an event that some query reaches, each with
the types and sizes of these events. -/
theorem fetched_iff_reached {qs : List Answered} (hend : ∀ a ∈ qs, a.query.uuidEnd = none)
    {recIndex : List RecIndex.Row}
    (rows : Selection.Answer ((afterQueries qs).selectionDb recIndex)) (u : CdmUuid)
    (type : Text) (size : ℤ) :
    (∃ f ∈ rows.rows, f.uuid = uuidToString u ∧ f.eventType = some type ∧
        f.eventSize = some size) ↔
      ∃ a ∈ qs, ∃ st, Reached a.graph.toNeo4j a.query st ∧
        (st.hop a.graph.toGraph).subject.map HostUuid.obj = some u ∧
          a.graph.getEdgeType st.e = type ∧ a.graph.eventSize st.e = size := by
  rw [fetched_of_linked (linked_afterQueries qs)]
  simp only [subgraph_afterQueries, List.mem_flatMap, List.mem_map]
  constructor
  · rintro ⟨r, ⟨a, ha, st, hst, rfl⟩, huuid, htype, hsize⟩
    exact ⟨a, ha, st, (mem_keptSteps_iff (hend a ha) a.answer).1 hst,
      (formatted_eq_iff _ u).1 huuid, htype, hsize⟩
  · rintro ⟨a, ha, st, hst, huuid, htype, hsize⟩
    exact ⟨_, ⟨a, ha, st, (mem_keptSteps_iff (hend a ha) a.answer).2 hst, rfl⟩,
      (formatted_eq_iff _ u).2 huuid, htype, hsize⟩

/-- The subject of `copiedFile` has executed a file in a directory. -/
def copiedByProgram : ProvenanceGraph where
  toNeo4j := copiedFile
  cid _ := 7
  filename _ := ⟨"/tmp/a".toList, by decide, by decide⟩
  addresses _ := ⟨⟨[], by decide, by decide⟩, 0, ⟨[], by decide, by decide⟩, 0⟩
  executed _ := [(⟨"/bin/cp".toList, by decide, by decide⟩, none)]
  eventUuid _ := none
  eventSize e := 100 + e

def copiedQuery : Answered := ⟨copiedByProgram, fromFile, copiedFileAnswer⟩

def distinctRows (db : Selection.Db) : Selection.Answer db :=
  ⟨(Selection.joined db).dedup, List.nodup_dedup _, fun _ ↦ List.mem_dedup⟩

theorem fetched_iff_reached_copiedQuery :
    (∃ f ∈ (distinctRows ((afterQueries [copiedQuery]).selectionDb [])).rows,
        f.uuid = uuidToString sampleSubject ∧ f.eventType = some "EVENT_READ".toList ∧
          f.eventSize = some 100) ↔
      ∃ a ∈ [copiedQuery], ∃ st, Reached a.graph.toNeo4j a.query st ∧
        (st.hop a.graph.toGraph).subject.map HostUuid.obj = some sampleSubject ∧
          a.graph.getEdgeType st.e = "EVENT_READ".toList ∧ a.graph.eventSize st.e = 100 :=
  fetched_iff_reached (fun _ ha ↦ List.mem_singleton.1 ha ▸ rfl) (distinctRows _) sampleSubject
    "EVENT_READ".toList 100

end TheiaTaint.Server.NodeTables
