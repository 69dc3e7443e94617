import Mathlib
import TheiaTaint.Foundations.Keyed
import TheiaTaint.Database.Client
import TheiaTaint.Database.Sql
import TheiaTaint.Objects.OriginSet

namespace TheiaTaint.Database.Overlay

open Foundations.Strings Foundations.Keyed Objects.OriginSet Sql
open Session (Globals initial Bound Held bound_initial)
open Client (Usable establish query work disconnect usable_initial)

structure Row where
  uuid : Text
  type : Text
  originUuids : Text
  qid : Text
  tagUuid : Text
  subjectUuid : Text

abbrev TagOverlay := Table Row.uuid

inductive Statement
  | select (uuid qid : Text)
  | insert (row : Row)
  | update (originUuids uuid type qid : Text)

/-- The words of the statement. Its text has them around the values, with a quote between
neighbours. -/
def selectWords : List Text :=
  ["SELECT origin_uuids FROM tag_overlay WHERE uuid = ".toList, " AND qid = ".toList, ";".toList]

def insertWords : List Text :=
  [("INSERT INTO tag_overlay (uuid, type, origin_uuids, qid, tag_uuid, subject_uuid) " ++
      "VALUES (").toList, ",".toList, ",".toList, ", ".toList, ", ".toList, ", ".toList,
    ");".toList]

def updateWords : List Text :=
  ["UPDATE tag_overlay SET origin_uuids = ".toList, " WHERE uuid = ".toList,
    " AND type = ".toList, " AND qid = ".toList, ";".toList]

/-- The statement a text means. A value with a quote in it breaks the statement off. -/
def statement (sql : Text) : Option Statement :=
  match sql.splitOn quote with
  | [w₀, a, w₁, b, w₂] => if [w₀, w₁, w₂] = selectWords then some (.select a b) else none
  | [w₀, a, w₁, b, w₂, c, w₃, d, w₄] =>
    if [w₀, w₁, w₂, w₃, w₄] = updateWords then some (.update a b c d) else none
  | [w₀, a, w₁, b, w₂, c, w₃, d, w₄, e, w₅, f, w₆] =>
    if [w₀, w₁, w₂, w₃, w₄, w₅, w₆] = insertWords then some (.insert ⟨a, b, c, d, e, f⟩) else none
  | _ => none

/-- The column types of `CREATE_OVERLAY`. -/
def castRow (r : Row) : Option Row := do
  let uuid ← varchar 64 r.uuid
  let type ← varchar 11 r.type
  let originUuids ← varchar 1024 r.originUuids
  let qid ← varchar 64 r.qid
  let tagUuid ← varchar 64 r.tagUuid
  let subjectUuid ← varchar 64 r.subjectUuid
  return ⟨uuid, type, originUuids, qid, tagUuid, subjectUuid⟩

/-- Runs a text on the table and yields the column `origin_uuids` of the selected rows; an error,
such as a second row for a `uuid`, has no result. -/
def exec (sql : Text) (tab : TagOverlay) : Option (TagOverlay × List Text) :=
  match statement sql with
  | some (.select uuid qid) =>
    some (tab, (tab.select fun r ↦ decide (r.uuid = uuid) && decide (r.qid = qid)).map
      Row.originUuids)
  | some (.insert row) =>
    (castRow row).bind fun row ↦ (tab.insert row).map fun tab' ↦ (tab', [])
  | some (.update originUuids uuid type qid) =>
    (varchar 1024 originUuids).map fun value ↦
      (tab.update (fun r ↦ decide (r.uuid = uuid) && decide (r.type = type) && decide (r.qid = qid))
        (fun r ↦ { r with originUuids := value }) fun _ ↦ rfl, [])
  | none => none

def selectText (uuid qid : Text) : Text :=
  join quote
    ["SELECT origin_uuids FROM tag_overlay WHERE uuid = ".toList, uuid, " AND qid = ".toList, qid,
      ";".toList]

def insertText (uuid type strOriginUuids qid tagUuid subjectUuid : Text) : Text :=
  join quote
    [("INSERT INTO tag_overlay (uuid, type, origin_uuids, qid, tag_uuid, subject_uuid) " ++
        "VALUES (").toList, uuid, ",".toList, type, ",".toList, strOriginUuids, ", ".toList, qid,
      ", ".toList, tagUuid, ", ".toList, subjectUuid, ");".toList]

def updateText (uuid type strOriginUuids qid : Text) : Text :=
  join quote
    ["UPDATE tag_overlay SET origin_uuids = ".toList, strOriginUuids, " WHERE uuid = ".toList, uuid,
      " AND type = ".toList, type, " AND qid = ".toList, qid, ";".toList]

/-- The set that the out-parameter has afterwards. -/
def theiaTagOverlayQuery (uuid qid : Text) : Client TagOverlay (Finset Text) :=
  (do
    let R ← query fun tab ↦ (exec (selectText uuid qid) tab).map Prod.snd
    disconnect
    return (R.map parseUuids).foldr (· ∪ ·) ∅) <|>
  return ∅

/-- `pack_uuids` has no result on the empty set. -/
def packed (originUuids : Finset Text) : Client TagOverlay Text :=
  OptionT.mk fun s ↦ (packUuids originUuids).map fun str ↦ (some str, s)

def theiaTagOverlayInsert (uuid type : Text) (originUuids : Finset Text)
    (qid tagUuid subjectUuid : Text) : Client TagOverlay Unit :=
  (do
    establish
    let prevOriginUuids ← theiaTagOverlayQuery uuid qid
    let strOriginUuids ← packed originUuids
    let buff :=
      if prevOriginUuids = ∅ then
        insertText uuid type strOriginUuids qid tagUuid subjectUuid
      else updateText uuid type strOriginUuids qid
    work fun tab ↦ (exec buff tab).map Prod.fst) <|>
  return ()

/-- A call with any texts for its values. Only the object and the query id are looked up. -/
structure InsertCall where
  uuid : Literal
  type : Text
  originUuids : Finset Text
  qid : Literal
  tagUuid : Text
  subjectUuid : Text
  nonempty : originUuids ≠ ∅

def InsertCall.insert (c : InsertCall) : Client TagOverlay Unit :=
  theiaTagOverlayInsert c.uuid.text c.type c.originUuids c.qid.text c.tagUuid c.subjectUuid

/-- What a sequence of inserts leaves behind. -/
def runInserts (calls : List InsertCall) : Option (Option Unit × Globals × TagOverlay) :=
  (calls.forM InsertCall.insert).run (initial, Table.empty)

/-- Every query yields exactly the origins inserted for its object and query id. -/
def KeepsProvenance (calls : List InsertCall) : Prop :=
  ∃ s, runInserts calls = some (some (), s) ∧ ∀ uuid qid : Literal, ∃ origins s',
    (theiaTagOverlayQuery uuid.text qid.text).run s = some (some origins, s') ∧
      ∀ t, t ∈ origins ↔ ∃ c ∈ calls, c.uuid = uuid ∧ c.qid = qid ∧ t ∈ c.originUuids

theorem unquoted_words : ∀ t ∈ selectWords, quote ∉ t := by
  decide

theorem statement_select {uuid qid : Text} (huuid : quote ∉ uuid) (hqid : quote ∉ qid) :
    statement (selectText uuid qid) = some (.select uuid qid) := by
  rw [selectText, statement, splitOn_join_quote _ (List.cons_ne_nil _ _)]
  · exact if_pos rfl
  · have hwords := unquoted_words
    simp only [selectWords, List.forall_mem_cons] at hwords ⊢
    exact ⟨hwords.1, huuid, hwords.2.1, hqid, hwords.2.2.1, List.forall_mem_nil _⟩

/-- The previous origins, read off the table. -/
def originsOf (tab : TagOverlay) (uuid qid : Text) : Finset Text :=
  (((tab.select fun r ↦ decide (r.uuid = uuid) && decide (r.qid = qid)).map
    Row.originUuids).map parseUuids).foldr (· ∪ ·) ∅

/-- The statement of a call, which depends on what the query has found. -/
def InsertCall.text (c : InsertCall) (prevOriginUuids : Finset Text) (strOriginUuids : Text) :
    Text :=
  if prevOriginUuids = ∅ then
    insertText c.uuid.text c.type strOriginUuids c.qid.text c.tagUuid c.subjectUuid
  else updateText c.uuid.text c.type strOriginUuids c.qid.text

/-- What the database answers in a call. -/
def InsertCall.answers (c : InsertCall) (s : Globals × TagOverlay) : Session.Answers where
  attempt := .opened
  first := Client.reply ((exec (selectText c.uuid.text c.qid.text) s.2).map Prod.snd)
  second := .done
  stored :=
    match (establish >>= fun _ ↦ theiaTagOverlayQuery c.uuid.text c.qid.text :
        Client TagOverlay (Finset Text)).run s with
    | some (some prev, s') =>
      Client.reply ((exec (c.text prev (join '|' (inOrder c.originUuids))) s'.2).map Prod.fst)
    | _ => .done

theorem follows_query {a : Session.Answers} (uuid qid : Text) (s : Globals × TagOverlay)
    (hattempt : a.attempt = .opened)
    (hfirst : a.first = Client.reply ((exec (selectText uuid qid) s.2).map Prod.snd)) :
    Client.Follows (theiaTagOverlayQuery uuid qid) (Session.theiaTagOverlayQuery a) s := by
  have hquery := Client.follows_query (fun tab ↦ (exec (selectText uuid qid) tab).map Prod.snd) s
    hattempt hfirst
  refine (hquery.bind fun R s₁ _ ↦ ?_).catch _
  exact (Client.follows_disconnect s₁).bind_idle fun _ s' ↦ Client.follows_pure _ s'

theorem run_packed (c : InsertCall) (s : Globals × TagOverlay) :
    (packed c.originUuids).run s = some (some (join '|' (inOrder c.originUuids)), s) := by
  have hrun : (packed c.originUuids).run s =
      (packUuids c.originUuids).map fun str ↦ (some str, s) := rfl
  rw [hrun, packUuids_of_ne_empty c.nonempty, Option.map_some]

/-- An insert does to the session what the model of the session alone says. -/
theorem follows_insert (c : InsertCall) (s : Globals × TagOverlay) :
    Client.Follows c.insert (Session.theiaTagOverlayInsert (c.answers s)) s := by
  refine ((Client.follows_establish s).bind fun _ s₁ hest ↦ ?_).catch _
  have htab := Client.tab_establish hest
  refine (follows_query c.uuid.text c.qid.text s₁ rfl ?_).bind fun prev s₂ hquery ↦ ?_
  · rw [htab]
    rfl
  · have hboth : (establish >>= fun _ ↦ theiaTagOverlayQuery c.uuid.text c.qid.text :
        Client TagOverlay (Finset Text)).run s = some (some prev, s₂) :=
      (Client.run_bind_of_returned hest).trans hquery
    have hstored : (c.answers s).stored = Client.reply ((exec (c.text prev
        (join '|' (inOrder c.originUuids))) s₂.2).map Prod.fst) := by
      rw [InsertCall.answers, hboth]
    rw [hstored]
    intro r s' hrun
    rw [Client.run_bind_of_returned (run_packed c s₂)] at hrun
    exact Client.follows_work _ s₂ r s' hrun

section Runs

variable {s : Globals}

theorem exec_select (uuid qid : Literal) (tab : TagOverlay) :
    exec (selectText uuid.text qid.text) tab =
      some (tab, (tab.select fun r ↦ decide (r.uuid = uuid.text) && decide (r.qid = qid.text)).map
        Row.originUuids) := by
  simp only [exec, statement_select uuid.unquoted qid.unquoted]

theorem run_query (hs : Bound s) (hN : Usable s) (uuid qid : Literal) (tab : TagOverlay) :
    ∃ s', (theiaTagOverlayQuery uuid.text qid.text).run (s, tab) =
        some (some (originsOf tab uuid.text qid.text), s', tab) ∧
      Held s' ∧ ¬ Usable s' := by
  obtain ⟨s', hquery, hheld, -⟩ := Client.run_query tab hs hN fun tab ↦
    (exec (selectText uuid.text qid.text) tab).map Prod.snd
  rw [exec_select, Option.map_some] at hquery
  refine ⟨s'.close, ?_, hheld.close, ?_⟩
  · exact Client.run_catch_of_returned ((Client.run_bind_of_returned hquery).trans rfl)
  · obtain ⟨c, hC, hN, -⟩ := hheld
    have hclosed : s'.close.isOpen = false := by simp [Globals.close, Globals.isOpen, hC]
    intro husable
    exact Bool.false_ne_true (hclosed.symm.trans (husable (by simp [Globals.close, hN])))

theorem run_query_stale (hs : Bound s) (hN : ¬ Usable s) (uuid qid : Text) (tab : TagOverlay) :
    (theiaTagOverlayQuery uuid qid).run (s, tab) = none :=
  Client.run_catch_of_undefined (Client.run_bind_of_undefined (Client.run_query_stale tab hs hN _))

theorem run_establish (s : Globals) (uuid qid : Text) (tab : TagOverlay) :
    ∃ s', (establish : Client TagOverlay Unit).run (s, tab) = some (some (), s', tab) ∧
      (theiaTagOverlayQuery uuid qid).run (s', tab) =
        (theiaTagOverlayQuery uuid qid).run (s, tab) := by
  obtain ⟨s', hest, hquery⟩ := Client.run_establish s tab
  refine ⟨s', hest, ?_⟩
  rw [theiaTagOverlayQuery, Client.run_catch, Client.run_catch, Client.run_bind, Client.run_bind,
    hquery]

/-- A call of `theia_tag_overlay_insert` leaves the table as it was: the query has left its `N` on
the connection that the transaction needs. -/
theorem run_insert (hs : Bound s) (hN : Usable s) (c : InsertCall) (tab : TagOverlay) :
    ∃ s', c.insert.run (s, tab) = some (some (), s', tab) ∧ Held s' ∧ ¬ Usable s' := by
  obtain ⟨s₁, hest, hnested⟩ := run_establish s c.uuid.text c.qid.text tab
  obtain ⟨s', hquery, hheld, hstale⟩ := run_query hs hN c.uuid c.qid tab
  rw [hquery] at hnested
  refine ⟨s', (Client.run_catch_of_thrown ?_).trans (Client.run_pure _ _), hheld, hstale⟩
  refine (Client.run_bind_of_returned hest).trans ((Client.run_bind_of_returned hnested).trans ?_)
  exact (Client.run_bind_of_returned (run_packed c (s', tab))).trans (Client.run_work tab hheld _)

theorem run_insert_stale (hs : Bound s) (hN : ¬ Usable s) (c : InsertCall) (tab : TagOverlay) :
    c.insert.run (s, tab) = none := by
  obtain ⟨s₁, hest, hnested⟩ := run_establish s c.uuid.text c.qid.text tab
  rw [run_query_stale hs hN] at hnested
  refine Client.run_catch_of_undefined ((Client.run_bind_of_returned hest).trans ?_)
  exact Client.run_bind_of_undefined hnested

end Runs

theorem runInserts_singleton (c : InsertCall) :
    ∃ s, Held s ∧ ¬ Usable s ∧ runInserts [c] = some (some (), s, Table.empty) := by
  obtain ⟨s, hinsert, hheld, hstale⟩ := run_insert bound_initial usable_initial c Table.empty
  exact ⟨s, hheld, hstale, Client.run_bind_of_returned hinsert⟩

/-- A second insert makes its query on the `N` of a lost connection. -/
theorem runInserts_cons_cons (c d : InsertCall) (calls : List InsertCall) :
    runInserts (c :: d :: calls) = none := by
  obtain ⟨s, hinsert, hheld, hstale⟩ := run_insert bound_initial usable_initial c Table.empty
  refine (Client.run_bind_of_returned hinsert).trans ?_
  exact Client.run_bind_of_undefined (run_insert_stale hheld.bound hstale d Table.empty)

theorem eq_nil_of_keeps {calls : List InsertCall} (h : KeepsProvenance calls) : calls = [] := by
  obtain ⟨s, hrun, hquery⟩ := h
  match calls with
  | [] => rfl
  | [c] =>
    obtain ⟨s₁, hheld, hstale, hone⟩ := runInserts_singleton c
    rw [hone, Option.some.injEq, Prod.mk.injEq] at hrun
    obtain ⟨-, rfl⟩ := hrun
    obtain ⟨origins, s', hnone, -⟩ := hquery c.uuid c.qid
    rw [run_query_stale hheld.bound hstale] at hnone
    cases hnone
  | c :: d :: calls =>
    rw [runInserts_cons_cons] at hrun
    cases hrun

/-- The overlay keeps the provenance of no sequence of inserts but the empty one. -/
theorem overlay_keeps_iff (calls : List InsertCall) : KeepsProvenance calls ↔ calls = [] := by
  refine ⟨eq_nil_of_keeps, ?_⟩
  rintro rfl
  refine ⟨(initial, Table.empty), rfl, fun uuid qid ↦ ?_⟩
  obtain ⟨s', hquery, -⟩ := run_query bound_initial usable_initial uuid qid Table.empty
  exact ⟨_, _, hquery, fun t ↦ by simp [originsOf, Table.select, Table.empty]⟩

def sampleInsert (origin : Text) : InsertCall where
  uuid := ⟨"7".toList, by decide⟩
  type := "EVENT_WRITE".toList
  originUuids := {origin}
  qid := ⟨"1".toList, by decide⟩
  tagUuid := "0".toList
  subjectUuid := "2".toList
  nonempty := Finset.singleton_ne_empty origin

theorem insert_stores_nothing : ¬ ∀ calls : List InsertCall, KeepsProvenance calls := by
  intro h
  have hnil := eq_nil_of_keeps (h [sampleInsert "3".toList])
  cases hnil

end TheiaTaint.Database.Overlay
