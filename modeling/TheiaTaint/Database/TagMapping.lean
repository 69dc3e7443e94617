import Mathlib
import TheiaTaint.Foundations.History
import TheiaTaint.Database.Client
import TheiaTaint.Database.Sql

namespace TheiaTaint.Database.TagMapping

open Foundations.History Foundations.Strings Sql
open Session (Globals initial Bound Held bound_initial)
open Client (Usable establish query work usable_initial)

structure Row where
  queryId : Text
  subjectUuid : Text
  globalTag : Text
  localTag : Text

inductive Statement
  | select (queryId localTag subjectUuid : Text)
  | insert (queryId subjectUuid globalTag localTag : Text)
  | update (globalTag queryId subjectUuid localTag : Text)

/-- The words of the statement. Its text has them around the values, with a quote between
neighbours. -/
def selectWords : List Text :=
  ["SELECT global_tag FROM tag_mapping WHERE query_id = ".toList, " AND local_tag = ".toList,
    " AND subject_uuid = ".toList, ";".toList]

def insertWords : List Text :=
  ["INSERT INTO tag_mapping (query_id, subject_uuid, global_tag, local_tag) VALUES (".toList,
    ",".toList, ",".toList, ",".toList, ");".toList]

def updateWords : List Text :=
  ["UPDATE tag_mapping SET global_tag = ".toList, " WHERE query_id = ".toList,
    " AND subject_uuid = ".toList, " AND local_tag = ".toList, ";".toList]

/-- The statement a text means. An odd number of quotes leaves a literal open,
which is an error. -/
def statement (sql : Text) : Option Statement :=
  match sql.splitOn quote with
  | [w₀, a, w₁, b, w₂, c, w₃] =>
    if [w₀, w₁, w₂, w₃] = selectWords then some (.select a b c) else none
  | [w₀, a, w₁, b, w₂, c, w₃, d, w₄] =>
    if [w₀, w₁, w₂, w₃, w₄] = insertWords then some (.insert a b c d)
    else if [w₀, w₁, w₂, w₃, w₄] = updateWords then some (.update a b c d)
    else none
  | _ => none

def castRow (r : Row) : Option Row := do
  let queryId ← varchar 64 r.queryId
  let subjectUuid ← varchar 64 r.subjectUuid
  let globalTag ← varchar 64 r.globalTag
  let localTag ← varchar 64 r.localTag
  return ⟨queryId, subjectUuid, globalTag, localTag⟩

def Row.matches (queryId subjectUuid localTag : Text) (r : Row) : Bool :=
  decide (r.queryId = queryId ∧ r.subjectUuid = subjectUuid ∧ r.localTag = localTag)

/-- Runs a text on the table and yields the column `global_tag` of the selected rows;
an error has no result. -/
def exec (sql : Text) (tab : List Row) : Option (List Row × List Text) :=
  match statement sql with
  | some (.select queryId localTag subjectUuid) =>
    some (tab, (tab.filter (Row.matches queryId subjectUuid localTag)).map Row.globalTag)
  | some (.insert queryId subjectUuid globalTag localTag) =>
    (castRow ⟨queryId, subjectUuid, globalTag, localTag⟩).map fun row ↦ (tab ++ [row], [])
  | some (.update globalTag queryId subjectUuid localTag) =>
    (varchar 64 globalTag).map fun value ↦
      (tab.map fun r ↦
        if r.matches queryId subjectUuid localTag then { r with globalTag := value } else r, [])
  | none => none

def selectText (queryId subjectUuid localTag : Text) : Text :=
  join quote
    ["SELECT global_tag FROM tag_mapping WHERE query_id = ".toList, queryId,
      " AND local_tag = ".toList, localTag, " AND subject_uuid = ".toList, subjectUuid, ";".toList]

/-- The `INSERT` has the global tag in both columns, the `UPDATE` has no quote after it. -/
def storeText (retSize : ℤ) (queryId subjectUuid localTag globalTag : Text) : Text :=
  if retSize ≤ 0 then
    join quote
      ["INSERT INTO tag_mapping (query_id, subject_uuid, global_tag, local_tag) VALUES (".toList,
        queryId, ",".toList, subjectUuid, ",".toList, globalTag, ",".toList, globalTag,
        ");".toList]
  else
    join quote
      ["UPDATE tag_mapping SET global_tag = ".toList, globalTag ++ " WHERE query_id = ".toList,
        queryId, " AND subject_uuid = ".toList, subjectUuid, " AND local_tag = ".toList, localTag,
        ";".toList]

/-- The return value, and the out-parameter when it is assigned. -/
def getGlobalTagsFromRdb (queryId subjectUuid localTag : Text) :
    Client (List Row) (ℤ × Option Text) :=
  (do
    let R ← query fun tab ↦ (exec (selectText queryId subjectUuid localTag) tab).map Prod.snd
    match R with
    | [] => return (0, none)
    | glbTag :: rest => return ((glbTag :: rest).length, some glbTag)) <|>
  return (-1, none)

def storeLocalTagsToRdb (queryId subjectUuid localTag globalTag : Text) :
    Client (List Row) ℤ :=
  (do
    establish
    let (retSize, _) ← getGlobalTagsFromRdb queryId subjectUuid localTag
    work fun tab ↦
      (exec (storeText retSize queryId subjectUuid localTag globalTag) tab).map Prod.fst
    return 0) <|>
  return -1

structure Key where
  queryId : Literal
  subjectUuid : Literal
  localTag : Literal
deriving DecidableEq

structure StoreCall where
  key : Key
  globalTag : Literal

def getTag (k : Key) : Client (List Row) (ℤ × Option Text) :=
  getGlobalTagsFromRdb k.queryId.text k.subjectUuid.text k.localTag.text

def StoreCall.store (c : StoreCall) : Client (List Row) ℤ :=
  storeLocalTagsToRdb c.key.queryId.text c.key.subjectUuid.text c.key.localTag.text
    c.globalTag.text

/-- The return values of a history of calls, and what it leaves behind. -/
def runStores (calls : List StoreCall) : Option (Option (List ℤ) × Globals × List Row) :=
  (calls.mapM StoreCall.store).run (initial, [])

def lastStored (calls : List StoreCall) (k : Key) : Option Text :=
  lastWhere (fun k' ↦ decide (k' = k)) (calls.map fun c ↦ (c.key, c.globalTag.text))

/-- At each point of the history every call so far has returned 0 and every key has the
answer that its own last call stored, or none. -/
def KeyValue (calls : List StoreCall) : Prop :=
  ∀ past, past <+: calls → ∃ rets s, runStores past = some (some rets, s) ∧
    (∀ ret ∈ rets, ret = 0) ∧
      ∀ k : Key, ∃ answer s', (getTag k).run s = some (some answer, s') ∧
        match lastStored past k with
        | some globalTag => 0 < answer.1 ∧ answer.2 = some globalTag
        | none => answer = (0, none)

def Row.ofKey (k : Key) : Row → Bool :=
  Row.matches k.queryId.text k.subjectUuid.text k.localTag.text

theorem unquoted_words : ∀ t ∈ selectWords ++ insertWords ++ updateWords, quote ∉ t := by
  decide

theorem statement_select {q l u : Text} (hq : quote ∉ q) (hl : quote ∉ l) (hu : quote ∉ u) :
    statement (selectText q u l) = some (.select q l u) := by
  rw [selectText, statement, splitOn_join_quote _ (List.cons_ne_nil _ _)]
  · exact if_pos rfl
  · have hwords := unquoted_words
    simp only [selectWords, List.forall_mem_append, List.forall_mem_cons] at hwords ⊢
    exact ⟨hwords.1.1.1, hq, hwords.1.1.2.1, hl, hwords.1.1.2.2.1, hu, hwords.1.1.2.2.2.1,
      List.forall_mem_nil _⟩

theorem statement_insert {retSize : ℤ} (hret : retSize ≤ 0) {q u g : Text} (hq : quote ∉ q)
    (hu : quote ∉ u) (hg : quote ∉ g) (l : Text) :
    statement (storeText retSize q u l g) = some (.insert q u g g) := by
  rw [storeText, if_pos hret, statement, splitOn_join_quote _ (List.cons_ne_nil _ _)]
  · exact if_pos rfl
  · have hwords := unquoted_words
    simp only [insertWords, List.forall_mem_append, List.forall_mem_cons] at hwords ⊢
    exact ⟨hwords.1.2.1, hq, hwords.1.2.2.1, hu, hwords.1.2.2.1, hg, hwords.1.2.2.1, hg,
      hwords.1.2.2.2.2.2.1, List.forall_mem_nil _⟩

theorem statement_update {retSize : ℤ} (hret : 0 < retSize) {q u l g : Text} (hq : quote ∉ q)
    (hu : quote ∉ u) (hl : quote ∉ l) (hg : quote ∉ g) :
    statement (storeText retSize q u l g) = none := by
  rw [storeText, if_neg (not_le.2 hret), statement, splitOn_join_quote _ (List.cons_ne_nil _ _)]
  · have hwords := unquoted_words
    simp only [updateWords, List.forall_mem_append, List.forall_mem_cons] at hwords ⊢
    refine ⟨hwords.2.1, ?_, hq, hwords.2.2.2.1, hu, hwords.2.2.2.2.1, hl, hwords.2.2.2.2.2.1,
      List.forall_mem_nil _⟩
    rw [List.mem_append, not_or]
    exact ⟨hg, hwords.2.2.1⟩

/-- The answer for a key, read off the rows that the table has for it. -/
def answerOf (rows : List Row) : ℤ × Option Text :=
  match rows.map Row.globalTag with
  | [] => (0, none)
  | glbTag :: rest => ((glbTag :: rest).length, some glbTag)

/-- What the database answers in a call. -/
def StoreCall.answers (c : StoreCall) (s : Globals × List Row) : Session.Answers where
  attempt := .opened
  first := Client.reply ((exec (selectText c.key.queryId.text c.key.subjectUuid.text
    c.key.localTag.text) s.2).map Prod.snd)
  second := .done
  stored :=
    match (establish >>= fun _ ↦ getTag c.key : Client (List Row) (ℤ × Option Text)).run s with
    | some (some (retSize, _), s') => Client.reply ((exec (storeText retSize c.key.queryId.text
        c.key.subjectUuid.text c.key.localTag.text c.globalTag.text) s'.2).map Prod.fst)
    | _ => .done

theorem follows_getTag {a : Session.Answers} (k : Key) (s : Globals × List Row)
    (hattempt : a.attempt = .opened)
    (hfirst : a.first = Client.reply ((exec (selectText k.queryId.text k.subjectUuid.text
      k.localTag.text) s.2).map Prod.snd)) :
    Client.Follows (getTag k) (Session.getGlobalTagsFromRdb a) s := by
  have hquery := Client.follows_query (fun tab ↦ (exec (selectText k.queryId.text
    k.subjectUuid.text k.localTag.text) tab).map Prod.snd) s hattempt hfirst
  refine (hquery.bind_idle fun R s' ↦ ?_).catch _
  cases R <;> exact Client.follows_pure _ s'

/-- A store does to the session what the model of the session alone says. -/
theorem follows_store (c : StoreCall) (s : Globals × List Row) :
    Client.Follows c.store (Session.storeLocalTagsToRdb (c.answers s)) s := by
  refine ((Client.follows_establish s).bind fun _ s₁ hest ↦ ?_).catch _
  have htab := Client.tab_establish hest
  refine (follows_getTag c.key s₁ rfl ?_).bind fun answer s₂ hget ↦ ?_
  · rw [htab]
    rfl
  · have hboth : (establish >>= fun _ ↦ getTag c.key :
        Client (List Row) (ℤ × Option Text)).run s = some (some answer, s₂) :=
      (Client.run_bind_of_returned hest).trans hget
    have hstored : (c.answers s).stored = Client.reply ((exec (storeText answer.1
        c.key.queryId.text c.key.subjectUuid.text c.key.localTag.text c.globalTag.text)
          s₂.2).map Prod.fst) := by
      rw [StoreCall.answers, hboth]
    rw [hstored]
    exact (Client.follows_work _ s₂).bind_idle fun _ s' ↦ Client.follows_pure _ s'

section Runs

variable {s : Globals} {tab : List Row}

theorem exec_select (k : Key) (tab : List Row) :
    exec (selectText k.queryId.text k.subjectUuid.text k.localTag.text) tab =
      some (tab, (tab.filter (Row.ofKey k)).map Row.globalTag) := by
  simp only [exec, statement_select k.queryId.unquoted k.localTag.unquoted k.subjectUuid.unquoted]
  rfl

theorem run_getTag (hs : Bound s) (hN : Usable s) (k : Key) (tab : List Row) :
    ∃ s', (getTag k).run (s, tab) = some (some (answerOf (tab.filter (Row.ofKey k))), s', tab) ∧
      Held s' ∧ s'.isOpen = true := by
  obtain ⟨s', hquery, hheld, hopen⟩ := Client.run_query tab hs hN fun tab ↦
    (exec (selectText k.queryId.text k.subjectUuid.text k.localTag.text) tab).map Prod.snd
  refine ⟨s', ?_, hheld, hopen⟩
  rw [exec_select, Option.map_some] at hquery
  refine Client.run_catch_of_returned ((Client.run_bind_of_returned hquery).trans ?_)
  rw [answerOf]
  cases (tab.filter (Row.ofKey k)).map Row.globalTag <;> rfl

theorem run_establish (s : Globals) (k : Key) (tab : List Row) :
    ∃ s', (establish : Client (List Row) Unit).run (s, tab) = some (some (), s', tab) ∧
      (getTag k).run (s', tab) = (getTag k).run (s, tab) := by
  obtain ⟨s', hest, hquery⟩ := Client.run_establish s tab
  refine ⟨s', hest, ?_⟩
  rw [getTag, getGlobalTagsFromRdb, Client.run_catch, Client.run_catch, Client.run_bind,
    Client.run_bind, hquery]

/-- A call of `store_local_tags_to_rdb` fails and leaves the table as it was: the lookup has left
its `N` on the connection that the transaction needs. -/
theorem run_store (hs : Bound s) (hN : Usable s) (c : StoreCall) (tab : List Row) :
    ∃ s', c.store.run (s, tab) = some (some (-1), s', tab) ∧ Held s' ∧ s'.isOpen = true := by
  obtain ⟨s₁, hest, hget⟩ := run_establish s c.key tab
  obtain ⟨s', hanswer, hheld, hopen⟩ := run_getTag hs hN c.key tab
  rw [hanswer] at hget
  refine ⟨s', (Client.run_catch_of_thrown ?_).trans (Client.run_pure _ _), hheld, hopen⟩
  refine (Client.run_bind_of_returned hest).trans ((Client.run_bind_of_returned hget).trans ?_)
  exact Client.run_bind_of_thrown (Client.run_work tab hheld _)

end Runs

/-- The values fit their columns. -/
structure StoreCall.Fits (c : StoreCall) : Prop where
  queryId : c.key.queryId.text.length ≤ 64
  subjectUuid : c.key.subjectUuid.text.length ≤ 64
  globalTag : c.globalTag.text.length ≤ 64

/-- The statement of a call, on a table with these rows for the key. -/
def StoreCall.text (c : StoreCall) (rows : List Row) : Text :=
  storeText (answerOf rows).1 c.key.queryId.text c.key.subjectUuid.text c.key.localTag.text
    c.globalTag.text

theorem answerOf_le_zero_iff (rows : List Row) : (answerOf rows).1 ≤ 0 ↔ rows = [] := by
  cases rows with
  | nil => exact iff_of_true le_rfl rfl
  | cons r rows =>
    refine iff_of_false (not_le.2 ?_) (List.cons_ne_nil r rows)
    have hpos : (0 : ℤ) < (rows.map Row.globalTag).length + 1 := by positivity
    exact hpos

theorem castRow_eq_some {r r' : Row} (h : castRow r = some r') :
    varchar 64 r.queryId = some r'.queryId ∧ varchar 64 r.subjectUuid = some r'.subjectUuid ∧
      varchar 64 r.globalTag = some r'.globalTag ∧ varchar 64 r.localTag = some r'.localTag := by
  simp only [castRow, Option.bind_eq_bind, Option.pure_def, Option.bind_eq_some_iff,
    Option.some.injEq] at h
  obtain ⟨q, hq, u, hu, g, hg, l, hl, rfl⟩ := h
  exact ⟨hq, hu, hg, hl⟩

theorem castRow_of_fits {c : StoreCall} (hsame : c.globalTag = c.key.localTag) (hfits : c.Fits) :
    castRow ⟨c.key.queryId.text, c.key.subjectUuid.text, c.globalTag.text, c.globalTag.text⟩ =
      some ⟨c.key.queryId.text, c.key.subjectUuid.text, c.globalTag.text, c.key.localTag.text⟩ := by
  have hglobal := hfits.globalTag
  rw [hsame] at hglobal
  simp [castRow, varchar_eq_some_self.2 hfits.queryId, varchar_eq_some_self.2 hfits.subjectUuid,
    varchar_eq_some_self.2 hglobal, hsame]

/-- Were the statement of a call to run, the call would be found afterwards only if it is the
first for its key, and stores the local tag itself. -/
theorem exec_text_iff (c : StoreCall) (tab : List Row) :
    (∃ tab' R, exec (c.text (tab.filter (Row.ofKey c.key))) tab = some (tab', R) ∧
        (answerOf (tab'.filter (Row.ofKey c.key))).2 = some c.globalTag.text) ↔
      tab.filter (Row.ofKey c.key) = [] ∧ c.globalTag = c.key.localTag ∧ c.Fits := by
  by_cases habsent : tab.filter (Row.ofKey c.key) = []
  · have hexec : exec (c.text (tab.filter (Row.ofKey c.key))) tab =
        (castRow ⟨c.key.queryId.text, c.key.subjectUuid.text, c.globalTag.text,
          c.globalTag.text⟩).map fun row ↦ (tab ++ [row], []) := by
      simp only [exec, StoreCall.text,
        statement_insert ((answerOf_le_zero_iff _).2 habsent) c.key.queryId.unquoted
          c.key.subjectUuid.unquoted c.globalTag.unquoted]
    rw [hexec]
    constructor
    · rintro ⟨tab', R, htab, hanswer⟩
      obtain ⟨row, hcast, heq⟩ := Option.map_eq_some_iff.1 htab
      rw [Prod.mk.injEq] at heq
      rw [← heq.1, List.filter_append, habsent, List.nil_append] at hanswer
      cases hrow : Row.ofKey c.key row with
      | false =>
        rw [List.filter_cons_of_neg (by simp [hrow])] at hanswer
        cases hanswer
      | true =>
        rw [List.filter_cons_of_pos hrow] at hanswer
        have hglobal : row.globalTag = c.globalTag.text := Option.some.inj hanswer
        obtain ⟨hq, hu, hg, hl⟩ := castRow_eq_some hcast
        obtain ⟨hq', hu', hl'⟩ := of_decide_eq_true hrow
        rw [hq'] at hq
        rw [hu'] at hu
        have hsame : row.globalTag = row.localTag := Option.some.inj (hg.symm.trans hl)
        rw [hglobal] at hg
        refine ⟨habsent, Literal.ext_text.1 (hglobal.symm.trans (hsame.trans hl')), ?_⟩
        exact ⟨varchar_eq_some_self.1 hq, varchar_eq_some_self.1 hu, varchar_eq_some_self.1 hg⟩
    · rintro ⟨-, hsame, hfits⟩
      refine ⟨_, _, by rw [castRow_of_fits hsame hfits, Option.map_some], ?_⟩
      rw [List.filter_append, habsent, List.nil_append, List.filter_cons_of_pos]
      · rfl
      · exact decide_eq_true ⟨rfl, rfl, rfl⟩
  · refine iff_of_false ?_ fun h ↦ habsent h.1
    rintro ⟨tab', R, htab, -⟩
    have hret : 0 < (answerOf (tab.filter (Row.ofKey c.key))).1 :=
      not_le.1 fun h ↦ habsent ((answerOf_le_zero_iff _).1 h)
    simp only [exec, StoreCall.text, statement_update hret c.key.queryId.unquoted
      c.key.subjectUuid.unquoted c.key.localTag.unquoted c.globalTag.unquoted] at htab
    cases htab

theorem runStores_singleton (c : StoreCall) :
    ∃ s, runStores [c] = some (some [-1], s) := by
  obtain ⟨s', hstore, -⟩ := run_store bound_initial usable_initial c []
  refine ⟨(s', []), ?_⟩
  rw [runStores, List.mapM_cons, List.mapM_nil]
  exact Client.run_bind_of_returned hstore

theorem eq_nil_of_keyValue {calls : List StoreCall} (h : KeyValue calls) : calls = [] := by
  cases calls with
  | nil => rfl
  | cons c calls =>
    obtain ⟨rets, s, hrun, hrets, -⟩ := h [c] (by simp)
    obtain ⟨s', hstore⟩ := runStores_singleton c
    rw [hstore, Option.some.injEq, Prod.mk.injEq, Option.some.injEq] at hrun
    rw [← hrun.1] at hrets
    exact absurd (hrets (-1) (List.mem_singleton.2 rfl)) (by decide)

/-- The table is a key-value store over no history but the empty one. -/
theorem key_value_store_iff (calls : List StoreCall) : KeyValue calls ↔ calls = [] := by
  refine ⟨eq_nil_of_keyValue, ?_⟩
  rintro rfl past hpast
  obtain rfl := List.prefix_nil.1 hpast
  refine ⟨[], (initial, []), rfl, by simp, fun k ↦ ?_⟩
  obtain ⟨s', hget, -⟩ := run_getTag bound_initial usable_initial k []
  exact ⟨_, _, hget, rfl⟩

def sampleLiteral : Literal := ⟨"0".toList, by decide⟩

theorem first_store_fails : ¬ ∀ calls : List StoreCall, KeyValue calls := by
  intro h
  have hnil := eq_nil_of_keyValue
    (h [⟨⟨sampleLiteral, sampleLiteral, sampleLiteral⟩, ⟨"1".toList, by decide⟩⟩])
  cases hnil

end TheiaTaint.Database.TagMapping
