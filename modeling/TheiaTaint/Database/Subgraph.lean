import Mathlib
import TheiaTaint.Foundations.History
import TheiaTaint.Objects.Uuid

namespace TheiaTaint.Database.Subgraph

open Foundations.History Foundations.Strings Objects.Uuid

/-- The UUID of a graph node, whose text is the host and the object joined by `-`. -/
structure HostUuid where
  host : CdmUuid
  obj : CdmUuid
deriving DecidableEq

def HostUuid.text (u : HostUuid) : Text := uuidToString u.host ++ '-' :: uuidToString u.obj

structure NodeMeta where
  uuid : HostUuid
  nodeType : Text

/-- The part of the graph database the server reads, by node and edge id. -/
structure Graph where
  getNodeMeta : ℕ → NodeMeta
  getEdgeType : ℕ → Text

structure Path where
  nodes : List ℕ
  relationships : List ℕ

/-- The columns of `subgraph` that the taint tool reads. -/
structure Row where
  queryId : Text
  subjectUuid : Text
  eventType : Text
  fileUuid : Text
  netflowUuid : Text

def stripHost (uuid : Option HostUuid) : Option Text :=
  uuid.map fun u ↦ (u.text.splitOn '-').getD 1 []

/-- What Python's `format` prints for `None`. -/
def noneText : Text := "None".toList

def formatted : Option Text → Text
  | none => noneText
  | some t => t

structure Hop where
  n1 : NodeMeta
  n2 : NodeMeta
  eventType : Text

def Path.hops (graph : Graph) (p : Path) : List Hop :=
  (List.range (p.nodes.length - 1)).map fun i ↦
    { n1 := graph.getNodeMeta (p.nodes.getD i 0)
      n2 := graph.getNodeMeta (p.nodes.getD (i + 1) 0)
      eventType := graph.getEdgeType (p.relationships.getD i 0) }

/-- The variable filled by the nodes of one type; the second node overwrites the first. -/
def Hop.uuidOf (nodeType : Text) (h : Hop) : Option HostUuid :=
  if h.n2.nodeType = nodeType then some h.n2.uuid
  else if h.n1.nodeType = nodeType then some h.n1.uuid
  else none

def Hop.subject : Hop → Option HostUuid := Hop.uuidOf "SUBJECT".toList
def Hop.file : Hop → Option HostUuid := Hop.uuidOf "FILE".toList
def Hop.netflow : Hop → Option HostUuid := Hop.uuidOf "NETFLOW".toList

def interesting : List Text :=
  ["EVENT_READ".toList, "EVENT_WRITE".toList, "EVENT_SEND".toList, "EVENT_RECV".toList]

def Hop.row (queryId : Text) (h : Hop) : Row where
  queryId := queryId
  subjectUuid := formatted (stripHost h.subject)
  eventType := h.eventType
  fileUuid := formatted (stripHost h.file)
  netflowUuid := formatted (stripHost h.netflow)

def keptHops (graph : Graph) (paths : List Path) : List Hop :=
  (paths.flatMap (Path.hops graph)).filter fun h ↦ decide (h.eventType ∈ interesting)

def insertPaths (graph : Graph) (queryId : Text) (paths : List Path) : List Row :=
  (keptHops graph paths).map (Hop.row queryId)

structure Insertion where
  graph : Graph
  queryId : Text
  paths : List Path

def subgraph (ins : List Insertion) : List Row :=
  ins.flatMap fun i ↦ insertPaths i.graph i.queryId i.paths

inductive Direction
  | inbound
  | outbound

def Direction.eventTypes : Direction → List Text
  | .inbound => ["EVENT_READ".toList, "EVENT_RECV".toList]
  | .outbound => ["EVENT_WRITE".toList, "EVENT_SEND".toList]

/-- The loop over the rows of the result. A row it cannot decode throws, and the
handler returns `-1`. -/
def decodeRow (uninit : CdmUuid) (r : Row) : Option CdmUuid :=
  if r.fileUuid = [] then getCdmUuid uninit r.netflowUuid else getCdmUuid uninit r.fileUuid

/-- The common body of the two readers, where `none` stands for `-1`. -/
def getForTaint (dir : Direction) (uninit : CdmUuid) (table : List Row)
    (queryId subjectUuid : Text) : Option (List CdmUuid) :=
  (table.filter fun r ↦ decide (r.queryId = queryId) && decide (r.subjectUuid = subjectUuid) &&
    decide (r.eventType ∈ dir.eventTypes)).mapM (decodeRow uninit)

def getInboundForTaint : CdmUuid → List Row → Text → Text → Option (List CdmUuid) :=
  getForTaint .inbound

def getOutboundForTaint : CdmUuid → List Row → Text → Text → Option (List CdmUuid) :=
  getForTaint .outbound

def Direction.reader : Direction → CdmUuid → List Row → Text → Text → Option (List CdmUuid)
  | .inbound => getInboundForTaint
  | .outbound => getOutboundForTaint

def selectedHops (dir : Direction) (ins : List Insertion) (queryId : Text) (subject : CdmUuid) :
    List Hop :=
  (ins.filter fun i ↦ decide (i.queryId = queryId)).flatMap fun i ↦
    (keptHops i.graph i.paths).filter fun h ↦
      decide (h.subject.map HostUuid.obj = some subject) && decide (h.eventType ∈ dir.eventTypes)

/-- The file of the edge if it touches one, else its netflow. -/
def Hop.entry (h : Hop) : Option CdmUuid := (h.file.or h.netflow).map HostUuid.obj

/-- The reader returns one entry for each edge, in count and content. -/
def Agrees (dir : Direction) (uninit : CdmUuid) (ins : List Insertion) (queryId : Text)
    (subject : CdmUuid) : Prop :=
  ∃ uuids, dir.reader uninit (subgraph ins) queryId (uuidToString subject) = some uuids ∧
    uuids.map some = (selectedHops dir ins queryId subject).map Hop.entry

theorem dash_not_mem_uuidToString (u : CdmUuid) : '-' ∉ uuidToString u := fun h ↦ by
  rcases mem_uuidToString h with hc | hc <;> exact absurd hc (by decide)

theorem stripHost_some (u : HostUuid) : stripHost (some u) = some (uuidToString u.obj) := by
  have hsplit : (['-'].intercalate [uuidToString u.host, uuidToString u.obj]).splitOn '-' =
      [uuidToString u.host, uuidToString u.obj] :=
    List.splitOn_intercalate '-' (by simp [dash_not_mem_uuidToString]) (by simp)
  have htext : u.text = ['-'].intercalate [uuidToString u.host, uuidToString u.obj] := by
    simp [HostUuid.text, List.intercalate_cons_cons]
  rw [stripHost, Option.map_some, htext, hsplit]
  rfl

theorem getCdmUuid_eq_none {uninit : CdmUuid} {t : Text} (hfind : find ' ' t = none)
    (hstoi : stoi t = none) : getCdmUuid uninit t = none := by
  rw [getCdmUuid, getCdmUuidLoop, dif_pos (by decide), hfind, hstoi]
  rfl

theorem getCdmUuid_noneText (uninit : CdmUuid) : getCdmUuid uninit noneText = none :=
  getCdmUuid_eq_none (by decide) (by decide)

theorem uuidToString_ne_of_getCdmUuid {t : Text} (h : getCdmUuid 0 t = none) (u : CdmUuid) :
    uuidToString u ≠ t := by
  rintro rfl
  rw [getCdmUuid_uuidToString] at h
  exact absurd h (by simp)

theorem formatted_eq_iff (o : Option HostUuid) (u : CdmUuid) :
    formatted (stripHost o) = uuidToString u ↔ o.map HostUuid.obj = some u := by
  cases o with
  | none =>
    simpa [formatted, stripHost] using
      (uuidToString_ne_of_getCdmUuid (getCdmUuid_noneText 0) u).symm
  | some v => simp [stripHost_some, formatted, uuidToString_injective.eq_iff]

/-- A row without a file reads `None` in its place, which the reader takes for a file. -/
theorem decodeRow_row (uninit : CdmUuid) (queryId : Text) (h : Hop) :
    decodeRow uninit (h.row queryId) = h.file.map HostUuid.obj := by
  have hnonempty : noneText ≠ [] := by decide
  cases hf : h.file with
  | none => simp [decodeRow, Hop.row, hf, stripHost, formatted, hnonempty, getCdmUuid_noneText]
  | some u =>
    have hu : uuidToString u.obj ≠ [] :=
      uuidToString_ne_of_getCdmUuid (getCdmUuid_eq_none (by decide) (by decide)) u.obj
    simp [decodeRow, Hop.row, hf, stripHost_some, formatted, hu, getCdmUuid_uuidToString]

theorem filter_subgraph (dir : Direction) (ins : List Insertion) (queryId : Text)
    (subject : CdmUuid) :
    ((subgraph ins).filter fun r ↦ decide (r.queryId = queryId) &&
        decide (r.subjectUuid = uuidToString subject) && decide (r.eventType ∈ dir.eventTypes)) =
      (selectedHops dir ins queryId subject).map (Hop.row queryId) := by
  induction ins with
  | nil => rfl
  | cons i ins ih =>
    rw [subgraph, List.flatMap_cons, List.filter_append, ← subgraph, ih]
    by_cases hq : i.queryId = queryId
    · subst hq
      simp only [selectedHops, List.filter_cons, decide_true, if_true, List.flatMap_cons,
        List.map_append, insertPaths, List.filter_map]
      congr 2
      refine List.filter_congr fun h _ ↦ ?_
      change (decide (i.queryId = i.queryId) &&
        decide (formatted (stripHost h.subject) = uuidToString subject) &&
          decide (h.eventType ∈ dir.eventTypes)) = _
      simp only [formatted_eq_iff, decide_true, Bool.true_and]
    · have hnil : (insertPaths i.graph i.queryId i.paths).filter (fun r ↦
          decide (r.queryId = queryId) && decide (r.subjectUuid = uuidToString subject) &&
            decide (r.eventType ∈ dir.eventTypes)) = [] := by
        simp [insertPaths, List.filter_eq_nil_iff, Hop.row, hq]
      simp [hnil, selectedHops, hq]

theorem reader_subgraph (dir : Direction) (uninit : CdmUuid) (ins : List Insertion)
    (queryId : Text) (subject : CdmUuid) :
    dir.reader uninit (subgraph ins) queryId (uuidToString subject) =
      (selectedHops dir ins queryId subject).mapM fun h ↦ h.file.map HostUuid.obj := by
  have hreader : dir.reader uninit (subgraph ins) queryId (uuidToString subject) =
      getForTaint dir uninit (subgraph ins) queryId (uuidToString subject) := by
    cases dir <;> rfl
  have hdecode : (decodeRow uninit ∘ Hop.row queryId) = fun h ↦ h.file.map HostUuid.obj :=
    funext (decodeRow_row uninit queryId)
  rw [hreader, getForTaint, filter_subgraph, List.mapM_map, hdecode]

/-- Server and tool agree on a subject's rows exactly when each of them touches
a file; a single netflow row loses them all. -/
theorem subgraph_agrees_iff (dir : Direction) (uninit : CdmUuid) (ins : List Insertion)
    (queryId : Text) (subject : CdmUuid) :
    Agrees dir uninit ins queryId subject ↔
      ∀ h ∈ selectedHops dir ins queryId subject, h.file ≠ none := by
  simp only [Agrees, reader_subgraph, mapM_eq_some_iff]
  constructor
  · rintro ⟨uuids, hread, -⟩ h hh hfile
    have hmem : (none : Option CdmUuid) ∈ uuids.map some := by
      rw [← hread]
      exact List.mem_map.2 ⟨h, hh, by rw [hfile]; rfl⟩
    simp at hmem
  · intro hall
    refine ⟨(selectedHops dir ins queryId subject).map fun h ↦ (h.file.map HostUuid.obj).getD 0,
      ?_, ?_⟩
    · rw [List.map_map]
      refine List.map_congr_left fun h hh ↦ ?_
      obtain ⟨u, hu⟩ := Option.ne_none_iff_exists'.1 (hall h hh)
      simp [hu]
    · rw [List.map_map]
      refine List.map_congr_left fun h hh ↦ ?_
      obtain ⟨u, hu⟩ := Option.ne_none_iff_exists'.1 (hall h hh)
      simp [Hop.entry, hu]

def sampleSubject : CdmUuid := getUuidArrayFromValue 5

def netflowGraph : Graph where
  getNodeMeta n :=
    if n = 0 then ⟨⟨0, sampleSubject⟩, "SUBJECT".toList⟩
    else ⟨⟨0, getUuidArrayFromValue 6⟩, "NETFLOW".toList⟩
  getEdgeType _ := "EVENT_READ".toList

theorem netflow_row_aborts :
    ¬ ∀ (dir : Direction) (uninit : CdmUuid) (ins : List Insertion) (queryId : Text)
      (subject : CdmUuid), Agrees dir uninit ins queryId subject := by
  intro h
  obtain ⟨uuids, hread, -⟩ :=
    h .inbound 0 [⟨netflowGraph, "1".toList, [⟨[1, 0], [0]⟩]⟩] "1".toList sampleSubject
  rw [reader_subgraph] at hread
  exact Option.some_ne_none uuids (hread.symm.trans rfl)

end TheiaTaint.Database.Subgraph
