import Mathlib
import TheiaTaint.Hooks.Process

namespace TheiaTaint.Server.Replay

open Foundations.History Foundations.Strings Objects.Uuid Hooks.Source Hooks.Process

structure Subject where
  pid : ℕ
  path : Text
  uuid : Text
  localPrincipal : Text
  logdir : Option Text
  eventSize : ℕ
  eventType : Text

structure Conf where
  kafkaPublish : Text
  kafkaAddress : Text
  kafkaAvro : Text
  pinlogStore : Text

structure Query where
  id : Text

def taintArgs (conf : Conf) (query : Query) (subject : Subject) : List (Text × Text) :=
  [("-publish_to_kafka".toList, conf.kafkaPublish),
    ("-kafka_server".toList, conf.kafkaAddress),
    ("-kafka_topic".toList, query.id),
    ("-create_avro_file".toList, conf.kafkaAvro),
    ("-query_id".toList, query.id),
    ("-subject_uuid".toList, subject.uuid),
    ("-local_principal".toList, subject.localPrincipal),
    ("-logfile".toList, conf.pinlogStore ++ "/pin_replay_".toList ++ query.id)]

/-- The tag width of the library `attach` loads. The bounds are Python's `2^8`,
`2^16`, `2^32` and `2^64`, which are exclusive ors. -/
def libdftWidth (subject : Subject) : ℕ :=
  let size := subject.eventSize
  if subject.eventType ∈ ["EVENT_READ".toList, "EVENT_RECV".toList] then
    if size ∈ Set.Ico 1 (2 ^^^ 8) then 8
    else if size ∈ Set.Ico (2 ^^^ 8) (2 ^^^ 16) then 16
    else if size ∈ Set.Ico (2 ^^^ 16) (2 ^^^ 32) then 32
    else 64
  else 64

/-- The value of a `KNOB<string>`, its default when the option is not given. -/
def knobValue (name default : Text) (args : List (Text × Text)) : Text :=
  (args.lookup name).getD default

def zeroUuid : Text := uuidToString 0

/-- The start value `main` gives to `tag_counter_global`. -/
def counterStart (args : List (Text × Text)) : BitVec 64 :=
  strtoul (knobValue "-tag_counter".toList "0".toList args)

/-- The globals `main` sets from the options and the two database queries. -/
def toolEnv (args : List (Text × Text)) (inbound outbound : List CdmUuid) : Env where
  inboundUuidArray := inbound
  outboundUuidArray := outbound
  queryId := knobValue "-query_id".toList zeroUuid args
  subjectUuid := knobValue "-subject_uuid".toList zeroUuid args

/-- A subject of the query with what its replay meets: the UUIDs the database
lists for it and the system calls it performs. -/
structure SubjectRun where
  subject : Subject
  inbound : List CdmUuid
  outbound : List CdmUuid
  events : List HookEvent

section Query

variable (conf : Conf) (query : Query)

def SubjectRun.env (r : SubjectRun) : Env :=
  toolEnv (taintArgs conf query r.subject) r.inbound r.outbound

/-- The state in which the tool starts a process of the query. -/
def SubjectRun.started (r : SubjectRun) : ToolState (libdftWidth r.subject) :=
  initial (counterStart (taintArgs conf query r.subject))

/-- `create_victim`: one tool process, and the tag UUIDs it generates. However it ends, the
server waits for it and goes on. -/
def createVictim (r : SubjectRun) : List Text :=
  runUuids (r.env conf query) r.events (r.started conf query)

def replayed (r : SubjectRun) : Bool :=
  match r.subject.logdir with
  | some dir => dir ≠ []
  | none => false

/-- `handle_query`: only the subjects with a log directory are replayed. -/
def handleQuery (runs : List SubjectRun) : List (List Text) :=
  (runs.filter replayed).map (createVictim conf query)

/-- The process reads no inbound object and writes nothing to an outbound one. -/
def SubjectRun.Idle (r : SubjectRun) : Prop :=
  ∀ ev ∈ r.events, ¬ ev.Touches (r.env conf query)

end Query

variable {conf : Conf} {query : Query}

theorem counterStart_taintArgs (conf : Conf) (query : Query) (subject : Subject) :
    counterStart (taintArgs conf query subject) = 0 := by
  have hknob : knobValue "-tag_counter".toList "0".toList (taintArgs conf query subject) =
      "0".toList := by
    simp [knobValue, taintArgs, List.lookup]
  rw [counterStart, hknob]
  decide

theorem createVictim_eq (r : SubjectRun) :
    createVictim conf query r =
      uuidsFrom 0 (generatedCount (r.env conf query) r.events (r.started conf query)) := by
  rw [createVictim, SubjectRun.started, counterStart_taintArgs]
  exact runUuids_eq _ _ _

theorem disjoint_uuidsFrom_iff (start : BitVec 64) (m n : ℕ) :
    List.Disjoint (uuidsFrom start m) (uuidsFrom start n) ↔ m = 0 ∨ n = 0 := by
  constructor
  · intro h
    by_contra hmn
    rw [not_or] at hmn
    exact h (mem_uuidsFrom_zero (Nat.pos_of_ne_zero hmn.1))
      (mem_uuidsFrom_zero (Nat.pos_of_ne_zero hmn.2))
  · rintro (rfl | rfl)
    · exact List.disjoint_nil_left _
    · exact List.disjoint_nil_right _

theorem nodup_flatten_uuidsFrom_iff (start : BitVec 64) (counts : List ℕ) :
    (counts.map (uuidsFrom start)).flatten.Nodup ↔
      (∀ n ∈ counts, n ≤ 2 ^ 64) ∧ counts.Pairwise fun m n ↦ m = 0 ∨ n = 0 := by
  rw [List.nodup_flatten, List.forall_mem_map, List.pairwise_map]
  simp only [nodup_uuidsFrom_iff, disjoint_uuidsFrom_iff]

/-- The tag UUIDs of a query are pairwise distinct exactly when at most one of its processes has
an event that needs one, and no process generates more than a full turn of the counter. -/
theorem tag_uuids_unique_iff (conf : Conf) (query : Query) (runs : List SubjectRun) :
    (handleQuery conf query runs).flatten.Nodup ↔
      (∀ r ∈ runs.filter replayed,
        generatedCount (r.env conf query) r.events (r.started conf query) ≤ 2 ^ 64) ∧
        (runs.filter replayed).Pairwise fun r r' ↦ r.Idle conf query ∨ r'.Idle conf query := by
  have hgenerated : handleQuery conf query runs =
      ((runs.filter replayed).map fun r ↦
        generatedCount (r.env conf query) r.events (r.started conf query)).map (uuidsFrom 0) := by
    rw [handleQuery, List.map_map]
    exact List.map_congr_left fun r _ ↦ createVictim_eq r
  rw [hgenerated, nodup_flatten_uuidsFrom_iff, List.forall_mem_map, List.pairwise_map]
  simp only [generatedCount_eq_zero_iff, SubjectRun.Idle]

def sampleConf : Conf := ⟨"true".toList, [], "false".toList, "/data".toList⟩

def sampleObject : CdmUuid := getUuidArrayFromValue 9

def readingSubject (pid : ℕ) : SubjectRun where
  subject := ⟨pid, "/bin/cat".toList, zeroUuid, zeroUuid, some "/replay".toList, 1,
    "EVENT_READ".toList⟩
  inbound := [sampleObject]
  outbound := []
  events := [.source (.read ⟨1, 0, ⟨sampleObject, 0, [], 0, [], 0⟩, fun _ _ _ _ ↦ ([], ∅)⟩)]

theorem two_readers_collide :
    ¬ ∀ (conf : Conf) (query : Query) (runs : List SubjectRun),
      (handleQuery conf query runs).flatten.Nodup := by
  intro h
  have hgenerated : handleQuery sampleConf ⟨zeroUuid⟩ [readingSubject 1, readingSubject 2] =
      [[tagUuidString 0], [tagUuidString 0]] := by
    rfl
  have hnodup := h sampleConf ⟨zeroUuid⟩ [readingSubject 1, readingSubject 2]
  rw [hgenerated] at hnodup
  simp at hnodup

end TheiaTaint.Server.Replay
