import Mathlib
import TheiaTaint.Foundations.Labels
import TheiaTaint.Tags.Directory
import TheiaTaint.Objects.Uuid

namespace TheiaTaint.Hooks.Source

open Foundations.Strings Foundations.Labels Tags.Directory Objects.Uuid

/-- What a hook hands to the outside: a provenance node for Kafka or a call of
`theia_tag_overlay_insert`. Both carry a freshly generated tag UUID. -/
inductive Output
  | provenanceNode (tagUuid objectUuid : Text) (sourceTagUuids : Finset Text) (systemCall : Text)
  | overlayInsert (uuid type : Text) (originUuids : Finset Text) (qid tagUuid subjectUuid : Text)

def Output.tagUuid : Output → Text
  | .provenanceNode t _ _ _ => t
  | .overlayInsert _ _ _ _ t _ => t

/-- The globals of one tool process, for unit tags of `w` bits. -/
structure ToolState (w : ℕ) where
  tagCounter : BitVec w
  uuidToTag : Text → Option (BitVec w)
  tagToTagUuid : BitVec w → Option Text
  generatedTagUuidSet : Finset Text
  tagCounterGlobal : BitVec 64
  tagDir : TagDir (Finset (BitVec w))
  outputs : List Output

/-- The globals a process fixes before its first system call. -/
structure Env where
  inboundUuidArray : List CdmUuid
  outboundUuidArray : List CdmUuid
  queryId : Text
  subjectUuid : Text

def socketType : BitVec 8 := 1

/-- The object behind the current descriptor, as `get_current_uuid` reports it. -/
structure CurrentObject where
  uuid : CdmUuid
  type : BitVec 8
  rip : Text
  rport : BitVec 16
  lip : Text
  lport : BitVec 16

/-- A finished system call: `ret` and `arg[SYSCALL_ARG1]` of its context, its object, and
the answer `search_cross_tag` gives at this point. -/
structure Call where
  ret : BitVec 64
  arg1 : AddrInt
  object : CurrentObject
  searchCrossTag : Text → BitVec 16 → Text → BitVec 16 → Text × Finset (BitVec 32)

variable {w : ℕ}

def initial (counterStart : BitVec 64) : ToolState w where
  tagCounter := 0
  uuidToTag _ := none
  tagToTagUuid _ := none
  generatedTagUuidSet := ∅
  tagCounterGlobal := counterStart
  tagDir := emptyDir
  outputs := []

/-- The addresses of `for (size_t i = addr; i < addr + num; i++)`; the bound may wrap. -/
def byteRange (addr num : BitVec 64) : List AddrInt :=
  (List.range ((addr + num).toNat - addr.toNat)).map fun k ↦ addr + BitVec.ofNat 64 k

theorem byteRange_eq_nil {addr num : BitVec 64} (h : 2 ^ 64 ≤ addr.toNat + num.toNat) :
    byteRange addr num = [] := by
  have hlt := addr.isLt
  have hlt' := num.isLt
  have hsub : (addr + num).toNat - addr.toNat = 0 := by
    rw [BitVec.toNat_add]
    omega
  rw [byteRange, hsub, List.range_zero, List.map_nil]

def listed (uuids : List CdmUuid) (uuidString : Text) : Bool :=
  uuids.any fun u ↦ uuidToString u == uuidString

/-- The source tag UUIDs of the provenance node: the remote netflow when the
cross-host search found tags. -/
def crossSources (socketOnly : Bool) (call : Call) : Finset Text :=
  let obj := call.object
  if (!socketOnly || obj.type == socketType) && obj.rip ≠ [] && obj.lip ≠ [] &&
      obj.rport ≠ 0 && obj.lport ≠ 0 then
    let (remoteNetflowUuid, crossTags) := call.searchCrossTag obj.rip obj.rport obj.lip obj.lport
    if crossTags = ∅ then ∅ else {remoteNetflowUuid}
  else ∅

/-- A new unit tag and a new tag UUID for an object read for the first time. -/
def createTag (systemCall uuidString : Text) (sources : Finset Text) (s : ToolState w) :
    ToolState w :=
  let tagUuid := tagUuidString s.tagCounterGlobal
  { s with
    uuidToTag := Function.update s.uuidToTag uuidString (some s.tagCounter)
    tagCounter := s.tagCounter + 1
    tagToTagUuid := Function.update s.tagToTagUuid s.tagCounter (some uuidString)
    generatedTagUuidSet := insert tagUuid s.generatedTagUuidSet
    tagCounterGlobal := s.tagCounterGlobal + 1
    outputs := s.outputs ++ [.provenanceNode tagUuid uuidString sources systemCall] }

def taintBytes (addrs : List AddrInt) (tags : Finset (BitVec w)) (s : ToolState w) : ToolState w :=
  { s with tagDir := addrs.foldl (fun dir i ↦ tagDirSetb dir i tags) s.tagDir }

/-- The common body of the two source hooks. They differ in the guard of the
cross-host search and in the event name of the provenance node. -/
def sourceHook (socketOnly : Bool) (systemCall : Text) (env : Env) (call : Call)
    (s : ToolState w) : ToolState w :=
  if call.ret.toInt ≤ 0 then s
  else
    let uuidString := uuidToString call.object.uuid
    if listed env.inboundUuidArray uuidString then
      match s.uuidToTag uuidString with
      | some tag => taintBytes (byteRange call.arg1 call.ret) {tag} s
      | none =>
        taintBytes (byteRange call.arg1 call.ret) {s.tagCounter}
          (createTag systemCall uuidString (crossSources socketOnly call) s)
    else s

def postReadHook (env : Env) (call : Call) : ToolState w → ToolState w :=
  sourceHook true "EVENT_READ".toList env call

def postRecvfromHook (env : Env) (call : Call) : ToolState w → ToolState w :=
  sourceHook false "EVENT_RECVFROM".toList env call

inductive SourceEvent
  | read (call : Call)
  | recvfrom (call : Call)

def SourceEvent.call : SourceEvent → Call
  | .read c => c
  | .recvfrom c => c

def SourceEvent.apply (env : Env) : SourceEvent → ToolState w → ToolState w
  | .read c => postReadHook env c
  | .recvfrom c => postRecvfromHook env c

def runSources (env : Env) (evs : List SourceEvent) (s : ToolState w) : ToolState w :=
  evs.foldl (fun s ev ↦ ev.apply env s) s

def readsInbound (env : Env) (call : Call) : Bool :=
  decide (0 < call.ret.toInt) && decide (call.object.uuid ∈ env.inboundUuidArray)

def inboundReads (env : Env) (evs : List SourceEvent) : List CdmUuid :=
  (evs.filter fun ev ↦ readsInbound env ev.call).map fun ev ↦ ev.call.object.uuid

theorem listed_uuidToString (uuids : List CdmUuid) (u : CdmUuid) :
    listed uuids (uuidToString u) = decide (u ∈ uuids) := by
  rw [Bool.eq_iff_iff]
  simp [listed, uuidToString_injective.eq_iff]

theorem sourceHook_of_not_reads {socketOnly : Bool} {systemCall : Text} {env : Env} {call : Call}
    (h : readsInbound env call = false) (s : ToolState w) :
    sourceHook socketOnly systemCall env call s = s := by
  simp only [readsInbound, Bool.and_eq_false_iff, decide_eq_false_iff_not, not_lt] at h
  simp only [sourceHook, listed_uuidToString]
  rcases h with h | h
  · rw [if_pos h]
  · simp only [h, decide_false, Bool.false_eq_true, if_false, ite_self]

theorem sourceHook_of_reads {env : Env} {call : Call} (h : readsInbound env call = true)
    (socketOnly : Bool) (systemCall : Text) (s : ToolState w) :
    sourceHook socketOnly systemCall env call s =
      match s.uuidToTag (uuidToString call.object.uuid) with
      | some tag => taintBytes (byteRange call.arg1 call.ret) {tag} s
      | none =>
        taintBytes (byteRange call.arg1 call.ret) {s.tagCounter}
          (createTag systemCall (uuidToString call.object.uuid) (crossSources socketOnly call) s) := by
  simp only [readsInbound, Bool.and_eq_true, decide_eq_true_eq] at h
  simp only [sourceHook, listed_uuidToString, if_neg (not_le.2 h.1), h.2, decide_true, if_true]

def ToolState.register (s : ToolState w) : Register Text w :=
  ⟨s.tagCounter, s.uuidToTag, s.tagToTagUuid⟩

theorem register_sourceHook (socketOnly : Bool) (systemCall : Text) (env : Env) (call : Call)
    (s : ToolState w) :
    (sourceHook socketOnly systemCall env call s).register =
      if readsInbound env call then s.register.enter (uuidToString call.object.uuid)
      else s.register := by
  cases h : readsInbound env call with
  | false => rw [sourceHook_of_not_reads h]; rfl
  | true =>
    rw [sourceHook_of_reads h]
    cases hu : s.uuidToTag (uuidToString call.object.uuid) <;>
      simp [Register.enter, ToolState.register, hu, taintBytes, createTag]

theorem SourceEvent.apply_eq (env : Env) (ev : SourceEvent) :
    ∃ socketOnly systemCall, ∀ s : ToolState w,
      ev.apply env s = sourceHook socketOnly systemCall env ev.call s := by
  cases ev with
  | read c => exact ⟨_, _, fun _ ↦ rfl⟩
  | recvfrom c => exact ⟨_, _, fun _ ↦ rfl⟩

theorem register_runSources (env : Env) (evs : List SourceEvent) (s : ToolState w) :
    (runSources env evs s).register =
      ((inboundReads env evs).map uuidToString).foldl Register.enter s.register := by
  induction evs generalizing s with
  | nil => rfl
  | cons ev evs ih =>
    obtain ⟨socketOnly, systemCall, hev⟩ := ev.apply_eq (w := w) env
    rw [runSources, List.foldl_cons, ← runSources, ih, hev, register_sourceHook]
    cases h : readsInbound env ev.call <;> simp [inboundReads, h]

/-- Distinct inbound objects that were read have distinct unit tags, and each
tag names its object. -/
structure LabelsOneToOne (env : Env) (evs : List SourceEvent) (s : ToolState w) : Prop where
  tags_ne : ∀ u ∈ inboundReads env evs, ∀ v ∈ inboundReads env evs, u ≠ v →
    s.uuidToTag (uuidToString u) ≠ s.uuidToTag (uuidToString v)
  tag_names : ∀ u ∈ inboundReads env evs, ∃ t,
    s.uuidToTag (uuidToString u) = some t ∧ s.tagToTagUuid t = some (uuidToString u)

theorem labelsOneToOne_iff_register (env : Env) (evs : List SourceEvent) (s : ToolState w) :
    LabelsOneToOne env evs s ↔
      s.register.OneToOne {x | x ∈ (inboundReads env evs).map uuidToString} := by
  constructor
  · rintro ⟨hne, hname⟩
    refine ⟨fun x hx y hy hxy ↦ ?_, fun x hx ↦ ?_⟩
    · obtain ⟨u, hu, rfl⟩ := List.mem_map.1 hx
      obtain ⟨v, hv, rfl⟩ := List.mem_map.1 hy
      exact hne u hu v hv (fun h ↦ hxy (congrArg _ h))
    · obtain ⟨u, hu, rfl⟩ := List.mem_map.1 hx
      exact hname u hu
  · rintro ⟨hne, hname⟩
    exact ⟨fun u hu v hv huv ↦ hne _ (List.mem_map_of_mem hu) _ (List.mem_map_of_mem hv)
      (uuidToString_injective.ne huv), fun u hu ↦ hname _ (List.mem_map_of_mem hu)⟩

theorem oneToOne_register_iff (env : Env) (evs : List SourceEvent) (start : BitVec 64) :
    (runSources env evs (initial start : ToolState w)).register.OneToOne
        {x | x ∈ (inboundReads env evs).map uuidToString} ↔
      (inboundReads env evs).toFinset.card ≤ 2 ^ w := by
  have hcard : ((inboundReads env evs).map uuidToString).toFinset.card =
      (inboundReads env evs).toFinset.card := by
    rw [← Finset.card_image_of_injective _ uuidToString_injective]
    exact congrArg Finset.card (by ext; simp)
  rw [register_runSources, ← hcard]
  exact oneToOne_enterAll_iff _

/-- The tool keeps unit tags and inbound objects one-to-one over a run exactly
when the run reads at most `2 ^ w` different inbound objects. -/
theorem labels_one_to_one_iff (env : Env) (evs : List SourceEvent) (start : BitVec 64) :
    LabelsOneToOne env evs (runSources env evs (initial start : ToolState w)) ↔
      (inboundReads env evs).toFinset.card ≤ 2 ^ w := by
  rw [labelsOneToOne_iff_register, oneToOne_register_iff]

def manyObjects (k : ℕ) : CdmUuid := getUuidArrayFromValue (BitVec.ofNat 64 k)

def manyObjectsEnv : Env := ⟨(List.range 257).map manyObjects, [], [], []⟩

def manyReads : List SourceEvent :=
  (List.range 257).map fun k ↦ .read ⟨1, 0, ⟨manyObjects k, 0, [], 0, [], 0⟩, fun _ _ _ _ ↦ ([], ∅)⟩

theorem inboundReads_manyReads : inboundReads manyObjectsEnv manyReads =
    (List.range 257).map manyObjects := by
  have hall : ∀ ev ∈ manyReads, readsInbound manyObjectsEnv ev.call = true := by
    intro ev hev
    obtain ⟨k, hk, rfl⟩ := List.mem_map.1 hev
    have hmem : manyObjects k ∈ manyObjectsEnv.inboundUuidArray := List.mem_map_of_mem hk
    have hret : 0 < (1 : BitVec 64).toInt := by decide
    simp only [readsInbound, SourceEvent.call, hmem, hret, decide_true, Bool.and_true]
  rw [inboundReads, List.filter_eq_self.2 hall, manyReads, List.map_map]
  rfl

theorem card_manyObjects : ((List.range 257).map manyObjects).toFinset.card = 257 := by
  rw [List.toFinset_card_of_nodup, List.length_map, List.length_range]
  refine List.Nodup.map_on (fun j hj k hk h ↦ ?_) List.nodup_range
  have hjk := congrArg BitVec.toNat (getUuidArrayFromValue_injective h)
  simp only [List.mem_range, BitVec.toNat_ofNat] at hj hk hjk
  omega

theorem labels_collide :
    ¬ ∀ (env : Env) (evs : List SourceEvent),
      LabelsOneToOne env evs (runSources env evs (initial 0 : ToolState 8)) := by
  intro h
  have hreg := (labelsOneToOne_iff_register _ _ _).1 (h manyObjectsEnv manyReads)
  rw [oneToOne_register_iff, inboundReads_manyReads, card_manyObjects] at hreg
  exact absurd hreg (by decide)

end TheiaTaint.Hooks.Source
