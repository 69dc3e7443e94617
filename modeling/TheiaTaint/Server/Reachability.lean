import Mathlib
import TheiaTaint.Foundations.TimedWalks
import TheiaTaint.Database.Subgraph

namespace TheiaTaint.Server.Reachability

open Foundations.TimedWalks Foundations.Strings Foundations.History Objects.Uuid
open Database.Subgraph

/-- The graph database, whose relationships lead from node to node at a time. -/
structure Neo4j extends Graph where
  nodes : List ℕ
  edges : List ℕ
  startNode : ℕ → ℕ
  endNode : ℕ → ℕ
  ts : ℕ → ℤ

inductive QueryType
  | backward
  | forward
  | point2point

structure Query where
  id : Text
  queryType : QueryType
  hostUuid : CdmUuid
  uuid : CdmUuid
  uuidEnd : Option CdmUuid
  start : ℤ
  stop : ℤ
  hops : ℕ

/-- How a pattern goes through the relationships of a path, and when one may come after
another. What comes before a relationship that is in time is in time as well. -/
structure Sweep where
  leaves : ℕ → ℕ
  arrives : ℕ → ℕ
  later : ℤ → ℤ → Bool
  inside : ℤ → Bool
  later_trans : ∀ {a b c}, later a b = true → later b c = true → later a c = true
  inside_of_later : ∀ {a b}, later a b = true → inside b = true → inside a = true

/-- `path=(n)-[*..hops]->(m)`. -/
def Neo4j.forwards (g : Neo4j) (q : Query) : Sweep where
  leaves := g.startNode
  arrives := g.endNode
  later a b := decide (a ≤ b)
  inside b := decide (b ≤ q.stop)
  later_trans hab hbc := decide_eq_true ((of_decide_eq_true hab).trans (of_decide_eq_true hbc))
  inside_of_later hab hb := decide_eq_true ((of_decide_eq_true hab).trans (of_decide_eq_true hb))

/-- `path=(n)<-[*..hops]-(m)`. -/
def Neo4j.backwards (g : Neo4j) (q : Query) : Sweep where
  leaves := g.endNode
  arrives := g.startNode
  later a b := decide (b ≤ a)
  inside b := decide (q.start ≤ b)
  later_trans hab hbc := decide_eq_true ((of_decide_eq_true hbc).trans (of_decide_eq_true hab))
  inside_of_later hab hb := decide_eq_true ((of_decide_eq_true hb).trans (of_decide_eq_true hab))

/-- The `WHERE` clause, for the indices in `range(1, length(path)-1)`. -/
def Sweep.timed (s : Sweep) (ts : List ℤ) : Bool :=
  (List.range' 1 (ts.length - 1)).all fun i ↦
    s.later (ts.getD (i - 1) 0) (ts.getD i 0) && s.inside (ts.getD i 0)

def Sweep.path (s : Sweep) (n : ℕ) (es : List ℕ) : Path := ⟨n :: es.map s.arrives, es⟩

/-- The node property `uuid`, of the host and an object. -/
def Neo4j.isNode (g : Neo4j) (q : Query) (uuid : CdmUuid) (n : ℕ) : Bool :=
  decide ((g.getNodeMeta n).uuid = ⟨q.hostUuid, uuid⟩)

def Neo4j.endsAt (g : Neo4j) (q : Query) (p : Path) : Bool :=
  match q.uuidEnd with
  | none => true
  | some uuid => g.isNode q uuid (p.nodes.getLastD 0)

/-- The paths that match, in one of the orders that the database may return them in. -/
def Neo4j.matchPaths (g : Neo4j) (q : Query) (s : Sweep) : List Path :=
  (g.nodes.filter (g.isNode q q.uuid)).flatMap fun n ↦
    (((trails s.leaves s.arrives g.edges q.hops n []).filter fun es ↦ s.timed (es.map g.ts)).map
      (s.path n)).filter (g.endsAt q)

def forwardQuery (g : Neo4j) (q : Query) : List Path := g.matchPaths q (g.forwards q)

def backwardQuery (g : Neo4j) (q : Query) : List Path := g.matchPaths q (g.backwards q)

def point2pointQuery (g : Neo4j) (q : Query) : List Path :=
  forwardQuery g q ++ backwardQuery g q

def queHandlers : QueryType → Neo4j → Query → List Path
  | .backward => backwardQuery
  | .forward => forwardQuery
  | .point2point => point2pointQuery

/-- What the database answers, in whatever order. -/
structure Answer (g : Neo4j) (q : Query) where
  paths : List Path
  perm : paths.Perm (queHandlers q.queryType g q)

/-- `Analysis.reachability`, with the rows that it inserts. -/
def reachability (g : Neo4j) (q : Query) (answer : Answer g q) : Insertion :=
  ⟨g.toGraph, q.id, answer.paths⟩

/-- A sequence of relationships leads from the queried node to this one, each not before the
last. Only the first is returned without a look at its time. -/
def Reaches (g : Neo4j) (q : Query) (s : Sweep) (e : ℕ) : Prop :=
  ∃ n ∈ g.nodes, g.isNode q q.uuid n = true ∧ ∃ es : List ℕ,
    (∀ f ∈ es ++ [e], f ∈ g.edges) ∧ Walk s.leaves s.arrives n (es ++ [e]) ∧
      ((es ++ [e]).map g.ts).Pairwise (fun a b ↦ s.later a b = true) ∧ es.length < q.hops ∧
        (es = [] ∨ s.inside (g.ts e) = true)

/-- `nodes[i]`, `edges[i]` and `nodes[i+1]`. -/
structure Step where
  n1 : ℕ
  e : ℕ
  n2 : ℕ

def steps (p : Path) : List Step :=
  (List.range (p.nodes.length - 1)).map fun i ↦
    ⟨p.nodes.getD i 0, p.relationships.getD i 0, p.nodes.getD (i + 1) 0⟩

def Step.hop (g : Graph) (st : Step) : Hop where
  n1 := g.getNodeMeta st.n1
  n2 := g.getNodeMeta st.n2
  eventType := g.getEdgeType st.e

/-- The steps that `insert_paths` does not skip. -/
def keptSteps (g : Graph) (paths : List Path) : List Step :=
  (paths.flatMap steps).filter fun st ↦ decide (g.getEdgeType st.e ∈ interesting)

def Sweep.step (s : Sweep) (e : ℕ) : Step := ⟨s.leaves e, e, s.arrives e⟩

theorem Sweep.timed_iff (s : Sweep) (ts : List ℤ) :
    s.timed ts = true ↔
      ts.Pairwise (fun a b ↦ s.later a b = true) ∧ ∀ t ∈ ts.tail, s.inside t = true := by
  have htrans : Trans (fun a b ↦ s.later a b = true) (fun a b ↦ s.later a b = true)
      (fun a b ↦ s.later a b = true) := ⟨s.later_trans⟩
  rw [← List.isChain_iff_pairwise, List.isChain_iff_getElem, timed, List.all_eq_true]
  simp only [List.mem_range'_1, Bool.and_eq_true]
  constructor
  · intro h
    constructor
    · intro i hi
      have hlater := (h (i + 1) ⟨by omega, by omega⟩).1
      simpa [List.getD_eq_getElem?_getD, hi, Nat.lt_of_succ_lt hi] using hlater
    · intro t ht
      obtain ⟨i, hi, rfl⟩ := List.mem_iff_getElem.1 ht
      rw [List.length_tail] at hi
      have hinside := (h (i + 1) ⟨by omega, by omega⟩).2
      have hlt : i + 1 < ts.length := by omega
      simpa [List.getD_eq_getElem?_getD, hlt] using hinside
  · rintro ⟨hchain, htail⟩ i ⟨hpos, hlt⟩
    obtain ⟨j, rfl⟩ : ∃ j, i = j + 1 := ⟨i - 1, by omega⟩
    have hj : j + 1 < ts.length := by omega
    have hlater := hchain j hj
    have hmem : ts[j + 1] ∈ ts.tail := by
      refine List.mem_iff_getElem.2 ⟨j, by rw [List.length_tail]; omega, ?_⟩
      simp
    have hinside := htail _ hmem
    simpa [List.getD_eq_getElem?_getD, hj, Nat.lt_of_succ_lt hj] using And.intro hlater hinside

section Sweeps

variable {g : Neo4j} {q : Query} {s : Sweep} {e : ℕ}

theorem mem_matchPaths_iff (hend : q.uuidEnd = none) {p : Path} :
    p ∈ g.matchPaths q s ↔ ∃ n ∈ g.nodes, g.isNode q q.uuid n = true ∧
      ∃ es ∈ trails s.leaves s.arrives g.edges q.hops n [], s.timed (es.map g.ts) = true ∧
        s.path n es = p := by
  have hall : g.endsAt q = fun _ ↦ true := funext fun p ↦ by rw [Neo4j.endsAt, hend]
  simp only [Neo4j.matchPaths, hall, List.filter_true, List.mem_flatMap, List.mem_filter,
    List.mem_map, and_assoc]

theorem reaches_of_mem {n : ℕ} (hn : n ∈ g.nodes) (hnode : g.isNode q q.uuid n = true)
    {es : List ℕ} (hes : es ∈ trails s.leaves s.arrives g.edges q.hops n [])
    (htimed : s.timed (es.map g.ts) = true) (he : e ∈ es) : Reaches g q s e := by
  obtain ⟨-, hlen, hwalk, -, hmem⟩ := mem_trails_iff.1 hes
  obtain ⟨hpairwise, hinside⟩ := (s.timed_iff _).1 htimed
  obtain ⟨before, after, rfl⟩ := List.append_of_mem he
  have hsplit : before ++ e :: after = (before ++ [e]) ++ after := by simp
  rw [hsplit] at hwalk hpairwise
  rw [List.map_append] at hpairwise
  refine ⟨n, hn, hnode, before, fun f hf ↦ ?_, hwalk.front, (List.pairwise_append.1 hpairwise).1,
    ?_, ?_⟩
  · refine (hmem f ?_).1
    rw [hsplit]
    exact List.mem_append_left after hf
  · simp only [List.length_append, List.length_cons] at hlen
    omega
  · cases before with
    | nil => exact .inl rfl
    | cons f before => exact .inr (hinside _ (by simp))

/-- Without its loops, what leads to a relationship is a path that matches. -/
theorem exists_mem_of_reaches (h : Reaches g q s e) :
    ∃ n ∈ g.nodes, g.isNode q q.uuid n = true ∧
      ∃ es ∈ trails s.leaves s.arrives g.edges q.hops n [], s.timed (es.map g.ts) = true ∧
        e ∈ es := by
  obtain ⟨n, hn, hnode, es, hmem, hwalk, hpairwise, hlen, hfirst⟩ := h
  obtain ⟨fs, hsub, hwalk', hnodup⟩ := hwalk.exists_trail
  have hpairwise' := hpairwise.sublist (hsub.map g.ts)
  have hlen' := hsub.length_le
  rw [List.length_append, List.length_append, List.length_singleton] at hlen'
  refine ⟨n, hn, hnode, fs ++ [e], mem_trails_iff.2 ⟨by simp, ?_, hwalk', hnodup, ?_⟩, ?_, by simp⟩
  · rw [List.length_append, List.length_singleton]
    omega
  · exact fun f hf ↦ ⟨hmem f (hsub.subset hf), List.not_mem_nil⟩
  · refine (s.timed_iff _).2 ⟨hpairwise', fun t ht ↦ ?_⟩
    cases fs with
    | nil => exact absurd ht List.not_mem_nil
    | cons f fs =>
      have hinside : s.inside (g.ts e) = true := by
        refine hfirst.resolve_left ?_
        rintro rfl
        simp at hlen'
      rw [List.cons_append, List.map_cons, List.tail_cons, List.map_append, List.mem_append] at ht
      rw [List.cons_append, List.map_cons, List.pairwise_cons, List.map_append,
        List.pairwise_append] at hpairwise'
      rcases ht with ht | ht
      · exact s.inside_of_later (hpairwise'.2.2.2 t ht (g.ts e) (by simp)) hinside
      · rw [List.map_singleton, List.mem_singleton] at ht
        rw [ht]
        exact hinside

theorem steps_path {n : ℕ} {es : List ℕ} (h : Walk s.leaves s.arrives n es) :
    steps (s.path n es) = es.map s.step := by
  have hlen : (s.path n es).nodes.length - 1 = es.length := by simp [Sweep.path]
  rw [steps, hlen]
  refine List.ext_getElem (by simp) fun i hi _ ↦ ?_
  have hlt : i < es.length := by simpa using hi
  have hfrom := h.getElem?_vertices hlt
  simp [Sweep.path, Sweep.step, List.getD_eq_getElem?_getD, hlt, hfrom]

theorem mem_keptSteps_matchPaths_iff (hend : q.uuidEnd = none) {st : Step} :
    st ∈ keptSteps g.toGraph (g.matchPaths q s) ↔
      ∃ e, Reaches g q s e ∧ g.getEdgeType e ∈ interesting ∧ st = s.step e := by
  simp only [keptSteps, List.mem_filter, List.mem_flatMap, decide_eq_true_eq]
  constructor
  · rintro ⟨⟨p, hp, hst⟩, htype⟩
    obtain ⟨n, hn, hnode, es, hes, htimed, rfl⟩ := (mem_matchPaths_iff hend).1 hp
    rw [steps_path (mem_trails_iff.1 hes).2.2.1] at hst
    obtain ⟨e, he, rfl⟩ := List.mem_map.1 hst
    exact ⟨e, reaches_of_mem hn hnode hes htimed he, htype, rfl⟩
  · rintro ⟨e, he, htype, rfl⟩
    obtain ⟨n, hn, hnode, es, hes, htimed, hmem⟩ := exists_mem_of_reaches he
    refine ⟨⟨s.path n es, (mem_matchPaths_iff hend).2 ⟨n, hn, hnode, es, hes, htimed, rfl⟩, ?_⟩,
      htype⟩
    rw [steps_path (mem_trails_iff.1 hes).2.2.1]
    exact List.mem_map.2 ⟨e, hmem, rfl⟩

end Sweeps

/-- The patterns of a query. -/
def Neo4j.sweeps (g : Neo4j) (q : Query) : List Sweep :=
  match q.queryType with
  | .backward => [g.backwards q]
  | .forward => [g.forwards q]
  | .point2point => [g.forwards q, g.backwards q]

/-- The reads, writes, sends and receives that a query reaches. -/
def Reached (g : Neo4j) (q : Query) (st : Step) : Prop :=
  ∃ s ∈ g.sweeps q, ∃ e, Reaches g q s e ∧ g.getEdgeType e ∈ interesting ∧ st = s.step e

theorem queHandlers_eq (g : Neo4j) (q : Query) :
    queHandlers q.queryType g q = (g.sweeps q).flatMap (g.matchPaths q) := by
  cases hq : q.queryType <;>
    simp [queHandlers, Neo4j.sweeps, hq, forwardQuery, backwardQuery, point2pointQuery]

variable {g : Neo4j} {q : Query}

theorem mem_keptSteps_iff (hend : q.uuidEnd = none) (answer : Answer g q) {st : Step} :
    st ∈ keptSteps g.toGraph answer.paths ↔ Reached g q st := by
  have hperm : st ∈ keptSteps g.toGraph answer.paths ↔
      ∃ s ∈ g.sweeps q, st ∈ keptSteps g.toGraph (g.matchPaths q s) := by
    simp only [keptSteps, List.mem_filter, List.mem_flatMap, answer.perm.mem_iff, queHandlers_eq]
    constructor
    · rintro ⟨⟨p, ⟨s, hs, hp⟩, hst⟩, htype⟩
      exact ⟨s, hs, ⟨p, hp, hst⟩, htype⟩
    · rintro ⟨s, hs, ⟨p, hp, hst⟩, htype⟩
      exact ⟨⟨p, ⟨s, hs, hp⟩, hst⟩, htype⟩
  simp only [hperm, mem_keptSteps_matchPaths_iff hend]
  rfl

theorem keptHops_eq (g : Graph) (paths : List Path) :
    keptHops g paths = (keptSteps g paths).map (Step.hop g) := by
  have hhops : Path.hops g = fun p ↦ (steps p).map (Step.hop g) := by
    funext p
    rw [steps, List.map_map]
    rfl
  rw [keptHops, keptSteps, hhops, ← List.map_flatMap, List.filter_map]
  rfl

/-- A step that the query reaches in which a subject reads, or writes, as the taint tool asks. -/
structure Touches (g : Neo4j) (q : Query) (dir : Direction) (subject : CdmUuid) (st : Step) :
    Prop where
  reached : Reached g q st
  eventType : g.getEdgeType st.e ∈ dir.eventTypes
  subject : (st.hop g.toGraph).subject.map HostUuid.obj = some subject

theorem mem_selectedHops_iff (hend : q.uuidEnd = none) (answer : Answer g q)
    {ins : List Insertion} (hmem : reachability g q answer ∈ ins)
    (hid : ∀ i ∈ ins, i.queryId = q.id → i = reachability g q answer) {dir : Direction}
    {subject : CdmUuid} {h : Hop} :
    h ∈ selectedHops dir ins q.id subject ↔
      ∃ st, Touches g q dir subject st ∧ st.hop g.toGraph = h := by
  simp only [selectedHops, List.mem_flatMap, List.mem_filter, Bool.and_eq_true, decide_eq_true_eq,
    keptHops_eq, List.mem_map]
  constructor
  · rintro ⟨i, ⟨hi, hqid⟩, ⟨st, hkept, rfl⟩, hsubject, htype⟩
    rw [hid i hi hqid] at hkept hsubject htype ⊢
    exact ⟨st, ⟨(mem_keptSteps_iff hend answer).1 hkept, htype, hsubject⟩, rfl⟩
  · rintro ⟨st, ⟨hreached, htype, hsubject⟩, rfl⟩
    exact ⟨reachability g q answer, ⟨hmem, rfl⟩,
      ⟨st, (mem_keptSteps_iff hend answer).2 hreached, rfl⟩, hsubject, htype⟩

theorem mapM_eq_none_iff {A B : Type} {f : A → Option B} {l : List A} :
    l.mapM f = none ↔ ∃ a ∈ l, f a = none := by
  induction l with
  | nil => simp
  | cons a l ih =>
    cases ha : f a with
    | none => simp [List.mapM_cons, ha]
    | some b =>
      have hcons : (a :: l).mapM f = (l.mapM f).map (b :: ·) := by
        rw [List.mapM_cons, ha]
        cases l.mapM f <;> rfl
      rw [hcons, Option.map_eq_none_iff, ih]
      simp [ha]

theorem exists_mem_mapM {A B : Type} {f : A → Option B} {l : List A} {ys : List B}
    (h : l.mapM f = some ys) (y : B) : y ∈ ys ↔ ∃ a ∈ l, f a = some y := by
  rw [mapM_eq_some_iff] at h
  rw [← List.mem_map_of_injective (Option.some_injective B), ← h, List.mem_map]

def Step.file (g : Graph) (st : Step) : Option CdmUuid := (st.hop g).file.map HostUuid.obj

section Reader

variable {ins : List Insertion} (dir : Direction) (uninit subject : CdmUuid)

theorem exists_selectedHop_iff (hend : q.uuidEnd = none) (answer : Answer g q)
    (hmem : reachability g q answer ∈ ins)
    (hid : ∀ i ∈ ins, i.queryId = q.id → i = reachability g q answer) (o : Option CdmUuid) :
    (∃ h ∈ selectedHops dir ins q.id subject, h.file.map HostUuid.obj = o) ↔
      ∃ st, Touches g q dir subject st ∧ st.file g.toGraph = o := by
  constructor
  · rintro ⟨h, hh, rfl⟩
    obtain ⟨st, hst, rfl⟩ := (mem_selectedHops_iff hend answer hmem hid).1 hh
    exact ⟨st, hst, rfl⟩
  · rintro ⟨st, hst, rfl⟩
    exact ⟨_, (mem_selectedHops_iff hend answer hmem hid).2 ⟨st, hst, rfl⟩, rfl⟩

theorem reader_eq_none_iff (hend : q.uuidEnd = none) (answer : Answer g q)
    (hmem : reachability g q answer ∈ ins)
    (hid : ∀ i ∈ ins, i.queryId = q.id → i = reachability g q answer) :
    dir.reader uninit (subgraph ins) q.id (uuidToString subject) = none ↔
      ∃ st, Touches g q dir subject st ∧ st.file g.toGraph = none := by
  rw [reader_subgraph, mapM_eq_none_iff, exists_selectedHop_iff dir subject hend answer hmem hid]

theorem mem_reader_iff (hend : q.uuidEnd = none) (answer : Answer g q)
    (hmem : reachability g q answer ∈ ins)
    (hid : ∀ i ∈ ins, i.queryId = q.id → i = reachability g q answer) {uuids : List CdmUuid}
    (hread : dir.reader uninit (subgraph ins) q.id (uuidToString subject) = some uuids)
    (x : CdmUuid) :
    x ∈ uuids ↔ ∃ st, Touches g q dir subject st ∧ st.file g.toGraph = some x := by
  rw [reader_subgraph] at hread
  rw [exists_mem_mapM hread, exists_selectedHop_iff dir subject hend answer hmem hid]

end Reader

/-- What the taint tool is told of a subject are the files of what it did that a sequence of
events in the order of their times connects to the queried node, unless one of these has no
file, where the tool is told nothing. -/
theorem tool_gets_reached (hend : q.uuidEnd = none) (answer : Answer g q)
    {ins : List Insertion} (hmem : reachability g q answer ∈ ins)
    (hid : ∀ i ∈ ins, i.queryId = q.id → i = reachability g q answer) (dir : Direction)
    (uninit subject : CdmUuid) :
    (dir.reader uninit (subgraph ins) q.id (uuidToString subject) = none ↔
      ∃ st, Touches g q dir subject st ∧ st.file g.toGraph = none) ∧
    ∀ uuids, dir.reader uninit (subgraph ins) q.id (uuidToString subject) = some uuids →
      ∀ x, x ∈ uuids ↔ ∃ st, Touches g q dir subject st ∧ st.file g.toGraph = some x :=
  ⟨reader_eq_none_iff dir uninit subject hend answer hmem hid,
    fun _ hread x ↦ mem_reader_iff dir uninit subject hend answer hmem hid hread x⟩

/-- A file that a subject reads before it writes another one. -/
def copiedFile : Neo4j where
  getNodeMeta n :=
    if n = 1 then ⟨⟨0, sampleSubject⟩, "SUBJECT".toList⟩
    else ⟨⟨0, getUuidArrayFromValue (BitVec.ofNat 64 (6 + n))⟩, "FILE".toList⟩
  getEdgeType e := if e = 0 then "EVENT_READ".toList else "EVENT_WRITE".toList
  nodes := [0, 1, 2]
  edges := [0, 1]
  startNode e := e
  endNode e := e + 1
  ts e := e

def fromFile : Query where
  id := "1".toList
  queryType := .forward
  hostUuid := 0
  uuid := getUuidArrayFromValue 6
  uuidEnd := none
  start := 0
  stop := 9999999999999
  hops := 2

def copiedFileAnswer : Answer copiedFile fromFile := ⟨_, .refl _⟩

theorem tool_gets_reached_copiedFile :
    (Direction.outbound.reader 0 (subgraph [reachability copiedFile fromFile copiedFileAnswer])
        fromFile.id (uuidToString sampleSubject) = none ↔
      ∃ st, Touches copiedFile fromFile .outbound sampleSubject st ∧
        st.file copiedFile.toGraph = none) ∧
    ∀ uuids, Direction.outbound.reader 0
        (subgraph [reachability copiedFile fromFile copiedFileAnswer]) fromFile.id
        (uuidToString sampleSubject) = some uuids →
      ∀ x, x ∈ uuids ↔ ∃ st, Touches copiedFile fromFile .outbound sampleSubject st ∧
        st.file copiedFile.toGraph = some x :=
  tool_gets_reached rfl copiedFileAnswer List.mem_cons_self
    (fun _ hi _ ↦ List.mem_singleton.1 hi) .outbound 0 sampleSubject

end TheiaTaint.Server.Reachability
