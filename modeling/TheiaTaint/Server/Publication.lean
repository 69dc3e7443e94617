import Mathlib
import TheiaTaint.Database.Overlay
import TheiaTaint.Foundations.History
import TheiaTaint.Objects.UuidText

namespace TheiaTaint.Server.Publication

open Foundations.History Foundations.Strings Foundations.Keyed
open Objects.Uuid Objects.UuidText Objects.OriginSet Database.Overlay
open Database.Session (Globals)
open Database.Sql (quote Literal splitOn_join_quote varchar_eq_some_self)

/-- `int` of a `uuid.UUID`: its sixteen bytes as one number. -/
def uuidInt (u : CdmUuid) : ℕ := (List.ofFn u).foldl (fun n b ↦ 256 * n + b.toNat) 0

/-- A provenance tag node, with identifiers as the record generator makes them. -/
structure ProvenanceTagNode (D : Type) where
  tagId : D
  flowObject : D
  subject : D
  systemCall : Text
  opcode : Text
  properties : List (Text × Text)
  tagIds : Finset CdmUuid

structure Record (D : Type) where
  datum : ProvenanceTagNode D
  source : Text
  cdmVersion : Text
  hostId : D
  sessionNumber : ℤ
  type : Text

section Server

variable {D : Type} (setByValue : ℕ → ℕ → D)

/-- `y2n_and_set`, where `setByValue` is the record generator's `Util._set_by_value`. -/
def y2nAndSet (uuid : Text) : Option D :=
  (yangToNormalUuid uuid).map fun u ↦ setByValue (uuidInt u) 16

def createWrapper (datum : ProvenanceTagNode D) (recType : Text) (hostUuid : D) : Record D where
  datum := datum
  source := "SOURCE_LINUX_SYSCALL_THEIA".toList
  cdmVersion := "19".toList
  hostId := hostUuid
  sessionNumber := -1
  type := recType

/-- `create_prov_tag_node`; the wrapper gets the tag in place of the host. -/
def createProvTagNode (subjectUuid tagUuid objectUuid sourceTagUuidSet sc hostUuid : Text) :
    Option (Record D) := do
  let subjectUuid ← y2nAndSet setByValue subjectUuid
  let tagUuid ← y2nAndSet setByValue tagUuid
  let objectUuid ← y2nAndSet setByValue objectUuid
  let _ ← y2nAndSet setByValue hostUuid
  let tagUuids ← (splitUuids sourceTagUuidSet).mapM yangToNormalUuid
  let provenanceTagNode : ProvenanceTagNode D :=
    { tagId := tagUuid
      flowObject := objectUuid
      subject := subjectUuid
      systemCall := sc
      opcode := "TAG_OP_UNION".toList
      properties := []
      tagIds := tagUuids.toFinset }
  return createWrapper provenanceTagNode "RECORD_PROVENANCE_TAG_NODE".toList tagUuid

def hostUuid : Text := "1 1 1 1 1 1 1 1 1 1 1 1 1 1 1 1".toList

/-- `get_overlay`: one record for each row of the query. -/
def getOverlay (tab : TagOverlay) (qid : Text) : Option (List (Record D)) :=
  (tab.select fun r ↦ decide (r.qid = qid)).mapM fun r ↦
    createProvTagNode setByValue r.subjectUuid r.tagUuid r.uuid r.originUuids r.type hostUuid

end Server

/-- What the tool reports about a write: the object written, and the objects whose data is in
what was written so far. -/
structure Report where
  object : CdmUuid
  type : Literal
  origins : Finset CdmUuid
  tag : CdmUuid
  subject : CdmUuid
  nonempty : origins ≠ ∅

theorem not_mem_uuidToString {c : Char} (hc : c ≠ ' ') (hd : c.isDigit = false) (u : CdmUuid) :
    c ∉ uuidToString u := by
  intro h
  rcases mem_uuidToString h with h | h
  · exact hc h
  · rw [hd] at h
    cases h

theorem unquoted_uuidToString (u : CdmUuid) : quote ∉ uuidToString u :=
  not_mem_uuidToString (by decide) (by decide) u

theorem uuidToString_ne_nil (u : CdmUuid) : uuidToString u ≠ [] := by
  have hmem : decimal (u 0).toNat ∈ List.ofFn fun i ↦ decimal (u i).toNat :=
    (List.mem_ofFn' _ _).2 ⟨0, rfl⟩
  intro h
  obtain ⟨i, hi⟩ := (List.mem_ofFn' _ _).1 hmem
  have hjoin := filter_join ' ' (List.ofFn fun i ↦ decimal (u i).toNat)
  rw [← uuidToString, h, List.filter_nil, eq_comm, List.flatMap_eq_nil_iff] at hjoin
  have hnil := hjoin _ hmem
  rw [List.filter_eq_self.2 fun c hc ↦ ?_] at hnil
  · exact decimal_ne_nil _ hnil
  · exact decide_eq_true fun h ↦ space_not_mem_decimal _ (h ▸ hc)

namespace Report

/-- The origins as the tool names them. -/
def originTexts (r : Report) : Origins where
  uuids := r.origins.image uuidToString
  nonempty := by simpa using r.nonempty
  ne_nil := by
    intro t ht
    obtain ⟨u, -, rfl⟩ := Finset.mem_image.1 ht
    exact uuidToString_ne_nil u
  unbarred := by
    intro t ht
    obtain ⟨u, -, rfl⟩ := Finset.mem_image.1 ht
    exact not_mem_uuidToString (by decide) (by decide) u

/-- The call of `theia_tag_overlay_insert` under a query. -/
def call (qid : Literal) (r : Report) : InsertCall where
  uuid := ⟨uuidToString r.object, unquoted_uuidToString r.object⟩
  type := r.type.text
  originUuids := r.originTexts.uuids
  qid := qid
  tagUuid := uuidToString r.tag
  subjectUuid := uuidToString r.subject
  nonempty := r.originTexts.nonempty

def row (qid : Literal) (r : Report) : Row where
  uuid := uuidToString r.object
  type := r.type.text
  originUuids := r.originTexts.packed
  qid := qid.text
  tagUuid := uuidToString r.tag
  subjectUuid := uuidToString r.subject

/-- The texts of the call that can be too long for their columns are short enough. -/
structure Fits (qid : Literal) (r : Report) : Prop where
  type : r.type.text.length ≤ 11
  originUuids : r.originTexts.packed.length ≤ 1024
  qid : qid.text.length ≤ 64

end Report

def recordOf {D : Type} (setByValue : ℕ → ℕ → D) (r : Report) : Record D where
  datum :=
    { tagId := setByValue (uuidInt r.tag) 16
      flowObject := setByValue (uuidInt r.object) 16
      subject := setByValue (uuidInt r.subject) 16
      systemCall := r.type.text
      opcode := "TAG_OP_UNION".toList
      properties := []
      tagIds := r.origins }
  source := "SOURCE_LINUX_SYSCALL_THEIA".toList
  cdmVersion := "19".toList
  hostId := setByValue (uuidInt r.tag) 16
  sessionNumber := -1
  type := "RECORD_PROVENANCE_TAG_NODE".toList

theorem length_join_le {ts : List Text} {n : ℕ} (h : ∀ t ∈ ts, t.length ≤ n) (sep : Char) :
    (join sep ts).length ≤ ts.length * (n + 1) := by
  induction ts with
  | nil => exact Nat.zero_le _
  | cons t ts ih =>
    have ht := h t List.mem_cons_self
    have hrest := ih fun u hu ↦ h u (List.mem_cons_of_mem t hu)
    rw [List.length_cons, Nat.succ_mul]
    cases ts with
    | nil =>
      rw [join_singleton]
      omega
    | cons u ts =>
      rw [join_cons_cons, List.length_append, List.length_cons]
      omega

theorem length_uuidToString_le (u : CdmUuid) : (uuidToString u).length ≤ 64 := by
  refine (length_join_le (n := 3) (fun t ht ↦ ?_) ' ').trans (by simp)
  obtain ⟨i, rfl⟩ := (List.mem_ofFn' _ _).1 ht
  exact Nat.length_toDigits_le_iff (by decide) (by decide) |>.2 ((u i).isLt.trans (by decide))

theorem length_packed_le (r : Report) : r.originTexts.packed.length ≤ r.origins.card * 65 := by
  have hcard : (inOrder r.originTexts.uuids).length = r.origins.card := by
    rw [length_inOrder, Report.originTexts, Finset.card_image_of_injective _ uuidToString_injective]
  rw [← hcard, Origins.packed]
  refine length_join_le (fun t ht ↦ ?_) '|'
  obtain ⟨u, -, rfl⟩ := Finset.mem_image.1 (mem_inOrder.1 ht)
  exact length_uuidToString_le u

theorem castRow_row {qid : Literal} {r : Report} (h : r.Fits qid) :
    castRow (r.row qid) = some (r.row qid) := by
  have hid (u : CdmUuid) := varchar_eq_some_self.2 (length_uuidToString_le u)
  simp only [castRow, Report.row, hid, varchar_eq_some_self.2 h.type,
    varchar_eq_some_self.2 h.originUuids, varchar_eq_some_self.2 h.qid, Option.bind_eq_bind,
    Option.bind_some, Option.pure_def]

theorem unquoted_packed (r : Report) : quote ∉ r.originTexts.packed := by
  intro h
  rcases mem_join h with h | ⟨t, ht, hquote⟩
  · exact absurd h (by decide)
  · obtain ⟨u, -, rfl⟩ := Finset.mem_image.1 (mem_inOrder.1 ht)
    exact unquoted_uuidToString u hquote

theorem unquoted_insertWords : ∀ t ∈ insertWords, quote ∉ t := by
  decide

theorem statement_call (qid : Literal) (r : Report) :
    statement ((r.call qid).text ∅ r.originTexts.packed) = some (.insert (r.row qid)) := by
  rw [InsertCall.text, if_pos rfl, insertText, statement, splitOn_join_quote _
    (List.cons_ne_nil _ _)]
  · exact if_pos rfl
  · have hwords := unquoted_insertWords
    simp only [insertWords, List.forall_mem_cons] at hwords ⊢
    obtain ⟨h₀, h₁, h₂, h₃, h₄, h₅, h₆, -⟩ := hwords
    exact ⟨h₀, unquoted_uuidToString _, h₁, r.type.unquoted, h₂, unquoted_packed r, h₃,
      qid.unquoted, h₄, unquoted_uuidToString _, h₅, unquoted_uuidToString _, h₆,
      List.forall_mem_nil _⟩

theorem mapM_splitUuids (r : Report) :
    ∃ us, (splitUuids r.originTexts.packed).mapM yangToNormalUuid = some us ∧
      us.toFinset = r.origins := by
  have htext : ∀ t ∈ inOrder r.originTexts.uuids, ∃ u, u ∈ r.origins ∧ uuidToString u = t := by
    simp [Report.originTexts, mem_inOrder]
  obtain ⟨us, hus, hmem⟩ := exists_map_eq htext
  refine ⟨us, ?_, ?_⟩
  · rw [r.originTexts.splitUuids_packed, ← hus, mapM_eq_some_iff, List.map_map]
    exact List.map_congr_left fun u _ ↦ yangToNormalUuid_uuidToString u
  · ext u
    rw [List.mem_toFinset]
    refine ⟨hmem u, fun hu ↦ ?_⟩
    have hu' : uuidToString u ∈ us.map uuidToString := by
      rw [hus, mem_inOrder]
      exact Finset.mem_image_of_mem _ hu
    obtain ⟨v, hv, heq⟩ := List.mem_map.1 hu'
    exact uuidToString_injective heq ▸ hv

section Published

variable {D : Type} (setByValue : ℕ → ℕ → D)

@[simp] theorem y2nAndSet_uuidToString (u : CdmUuid) :
    y2nAndSet setByValue (uuidToString u) = some (setByValue (uuidInt u) 16) := by
  rw [y2nAndSet, yangToNormalUuid_uuidToString, Option.map_some]

theorem hostUuid_eq : hostUuid = uuidToString fun _ ↦ 1 := by decide

/-- The server reads the row of a report back as the report. -/
theorem createProvTagNode_row (qid : Literal) (r : Report) :
    createProvTagNode setByValue (r.row qid).subjectUuid (r.row qid).tagUuid (r.row qid).uuid
      (r.row qid).originUuids (r.row qid).type hostUuid = some (recordOf setByValue r) := by
  obtain ⟨us, hus, hset⟩ := mapM_splitUuids r
  simp only [createProvTagNode, Report.row, hostUuid_eq, hus, y2nAndSet_uuidToString,
    Option.bind_eq_bind, Option.bind_some, hset]
  rfl

def sampleReport : Report where
  object := fun _ ↦ 7
  type := ⟨"EVENT_WRITE".toList, by decide⟩
  origins := {fun _ ↦ 3, fun _ ↦ 4}
  tag := 0
  subject := fun _ ↦ 2
  nonempty := Finset.insert_ne_empty _ _

end Published

end TheiaTaint.Server.Publication
