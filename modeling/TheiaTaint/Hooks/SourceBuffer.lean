import Mathlib
import TheiaTaint.Engine.TagState
import TheiaTaint.Hooks.Sink

namespace TheiaTaint.Hooks.SourceBuffer

open Foundations.History Tags.Directory Objects.Uuid Engine Source Sink

variable {w : ℕ}

/-- `tag_for_file`: the tag of a known object, or the one it is about to get. -/
def objectTag (s : ToolState w) (call : Call) : BitVec w :=
  (s.uuidToTag (uuidToString call.object.uuid)).getD s.tagCounter

/-- The calls of `tagmap_setb_with_tags` that a source hook makes. -/
def sourceWrites (env : Env) (call : Call) (s : ToolState w) :
    List (AddrInt × Finset (BitVec w)) :=
  if readsInbound env call then
    (byteRange call.arg1 call.ret).map fun i ↦ (i, {objectTag s call})
  else []

section Hook

variable {env : Env} {ev : SourceEvent} {s : ToolState w}

theorem taintBytes_tagDir (addrs : List AddrInt) (tags : Finset (BitVec w)) (s : ToolState w) :
    (taintBytes addrs tags s).tagDir =
      writeAll tagDirSetb s.tagDir (addrs.map fun i ↦ (i, tags)) := by
  rw [taintBytes, writeAll, List.foldl_map]

/-- Beside these writes a source hook leaves the tag directory alone. -/
theorem tagDir_apply (env : Env) (ev : SourceEvent) (s : ToolState w) :
    (ev.apply env s).tagDir = writeAll tagDirSetb s.tagDir (sourceWrites env ev.call s) := by
  obtain ⟨socketOnly, systemCall, hev⟩ := ev.apply_eq (w := w) env
  rw [hev]
  cases hread : readsInbound env ev.call with
  | false =>
    rw [sourceHook_of_not_reads hread, sourceWrites, hread]
    rfl
  | true =>
    rw [sourceHook_of_reads hread, sourceWrites, if_pos hread, objectTag]
    split
    · next t ht =>
      rw [ht]
      exact taintBytes_tagDir _ _ _
    · next ht =>
      rw [ht]
      exact taintBytes_tagDir _ _ _

theorem uuidToTag_apply (hread : readsInbound env ev.call = true) :
    (ev.apply env s).uuidToTag (uuidToString ev.call.object.uuid) =
      some (objectTag s ev.call) := by
  obtain ⟨socketOnly, systemCall, hev⟩ := ev.apply_eq (w := w) env
  rw [hev, sourceHook_of_reads hread, objectTag]
  split
  · next t ht =>
    rw [ht]
    exact ht
  · next ht =>
    rw [ht]
    exact Function.update_self _ _ _

end Hook

/-- A process under the tool whose memory tells all addresses apart. -/
structure FlatProcess (w : ℕ) where
  tool : ToolState w
  gpr : ℕ → Reg → Fin 8 → Finset (BitVec w)
  mem : AddrInt → Finset (BitVec w)

namespace FlatProcess

def started (counterStart : BitVec 64) : FlatProcess w where
  tool := initial counterStart
  gpr _ _ _ := ∅
  mem _ := ∅

def source (env : Env) (ev : SourceEvent) (s : FlatProcess w) : FlatProcess w where
  tool := ev.apply env s.tool
  gpr := s.gpr
  mem := writeAll Function.update s.mem (sourceWrites env ev.call s.tool)

end FlatProcess

/-- After the hook the buffer carries the tag of the object alone, or no tag when
the object is not inbound, and nothing else has changed. -/
structure BufferReplaced (env : Env) (ev : SourceEvent) (s s' : FlatProcess w) : Prop where
  inbound : ev.call.object.uuid ∈ env.inboundUuidArray →
    ∃ t, s'.tool.uuidToTag (uuidToString ev.call.object.uuid) = some t ∧
      ∀ a ∈ bufferBytes ev.call, s'.mem a = {t}
  other : ev.call.object.uuid ∉ env.inboundUuidArray → ∀ a ∈ bufferBytes ev.call, s'.mem a = ∅
  outside : ∀ a ∉ bufferBytes ev.call, s'.mem a = s.mem a
  gpr : s'.gpr = s.gpr

/-- An inbound object is read into a buffer below the end of the address space, or
the buffer already has the tags that it should get. -/
def Replaceable (env : Env) (ev : SourceEvent) (s : FlatProcess w) : Prop :=
  if ev.call.object.uuid ∈ env.inboundUuidArray then
    ev.call.arg1.toNat + ev.call.ret.toNat < 2 ^ 64 ∨
      ∀ a ∈ bufferBytes ev.call, s.mem a = {objectTag s.tool ev.call}
  else ∀ a ∈ bufferBytes ev.call, s.mem a = ∅

section Source

variable {env : Env} {ev : SourceEvent} {s : FlatProcess w}

theorem mem_source_of_not_reads (h : readsInbound env ev.call = false) :
    (s.source env ev).mem = s.mem := by
  rw [FlatProcess.source, sourceWrites, h]
  rfl

theorem mem_source_of_wrap (h : ¬ ev.call.arg1.toNat + ev.call.ret.toNat < 2 ^ 64) :
    (s.source env ev).mem = s.mem := by
  rw [FlatProcess.source, sourceWrites, byteRange_eq_nil_of_wrap h, List.map_nil, ite_self]
  rfl

theorem mem_source_of_reads (hread : readsInbound env ev.call = true)
    (h : ev.call.arg1.toNat + ev.call.ret.toNat < 2 ^ 64) (a : AddrInt) :
    (s.source env ev).mem a =
      if a ∈ bufferBytes ev.call then {objectTag s.tool ev.call} else s.mem a := by
  have hconst := aliased_update.get_writeAll_const s.mem (bufferBytes ev.call)
    {objectTag s.tool ev.call} a
  simp only [id_eq, exists_eq_right] at hconst
  rw [FlatProcess.source, sourceWrites, if_pos hread, byteRange_eq_bufferBytes h]
  exact hconst

theorem readsInbound_iff (hret : 0 < ev.call.ret.toInt) :
    readsInbound env ev.call = decide (ev.call.object.uuid ∈ env.inboundUuidArray) := by
  rw [readsInbound, decide_eq_true hret, Bool.true_and]

end Source

/-- A successful read replaces the tags of its buffer exactly when the object is
inbound and the buffer does not run past the end of the address space, or the
buffer had these tags before. -/
theorem source_replaces_iff (env : Env) (ev : SourceEvent) (s : FlatProcess w)
    (hret : 0 < ev.call.ret.toInt) :
    BufferReplaced env ev s (s.source env ev) ↔ Replaceable env ev s := by
  have hread : readsInbound env ev.call = decide (ev.call.object.uuid ∈ env.inboundUuidArray) :=
    readsInbound_iff hret
  by_cases hin : ev.call.object.uuid ∈ env.inboundUuidArray
  · rw [decide_eq_true hin] at hread
    have htag := uuidToTag_apply (s := s.tool) hread
    rw [Replaceable, if_pos hin]
    constructor
    · intro h
      obtain ⟨t, ht, hmem⟩ := h.inbound hin
      by_cases hwrap : ev.call.arg1.toNat + ev.call.ret.toNat < 2 ^ 64
      · exact .inl hwrap
      · rw [mem_source_of_wrap hwrap] at hmem
        obtain rfl : objectTag s.tool ev.call = t := Option.some_inj.1 (htag.symm.trans ht)
        exact .inr hmem
    · intro h
      refine ⟨fun _ ↦ ⟨_, htag, fun a ha ↦ ?_⟩, fun hout ↦ absurd hin hout, fun a ha ↦ ?_, rfl⟩
      · by_cases hwrap : ev.call.arg1.toNat + ev.call.ret.toNat < 2 ^ 64
        · rw [mem_source_of_reads hread hwrap, if_pos ha]
        · rw [mem_source_of_wrap hwrap]
          exact h.resolve_left hwrap a ha
      · by_cases hwrap : ev.call.arg1.toNat + ev.call.ret.toNat < 2 ^ 64
        · rw [mem_source_of_reads hread hwrap, if_neg ha]
        · rw [mem_source_of_wrap hwrap]
  · rw [decide_eq_false hin] at hread
    have hmem := mem_source_of_not_reads (s := s) hread
    rw [Replaceable, if_neg hin]
    constructor
    · intro h
      rw [← hmem]
      exact h.other hin
    · intro h
      exact ⟨fun hin' ↦ absurd hin' hin, fun _ ↦ hmem ▸ h, fun a _ ↦ congrFun hmem a, rfl⟩

def readByte (object : CdmUuid) : SourceEvent :=
  .read ⟨1, 0, ⟨object, 0, [], 0, [], 0⟩, fun _ _ _ _ ↦ ([], ∅)⟩

def otherObject : CdmUuid := getUuidArrayFromValue 8

def twoObjectEnv : Env := ⟨[oneObject, otherObject], [], [], []⟩

/-- Four bytes of the other object are read over the second of two bytes of the one. -/
def readOver : SourceEvent :=
  .read ⟨4, 0x11, ⟨otherObject, 0, [], 0, [], 0⟩, fun _ _ _ _ ↦ ([], ∅)⟩

theorem source_replaces_iff_readOver :
    let s : FlatProcess 8 := (FlatProcess.started 0).source twoObjectEnv twoByteRead
    s.mem 0x11 ≠ ∅ ∧ BufferReplaced twoObjectEnv readOver s (s.source twoObjectEnv readOver) := by
  intro s
  refine ⟨?_, (source_replaces_iff twoObjectEnv readOver s (by decide)).2 ?_⟩
  · have hbuffer : (0x11 : AddrInt) ∈ bufferBytes twoByteRead.call := by decide
    rw [mem_source_of_reads (by decide) (by decide), if_pos hbuffer]
    exact Finset.singleton_ne_empty _
  · rw [Replaceable, if_pos (by decide)]
    exact .inl (by decide)

theorem stale_tag_remains :
    ¬ ∀ (env : Env) (ev : SourceEvent) (s : FlatProcess 8), 0 < ev.call.ret.toInt →
      BufferReplaced env ev s (s.source env ev) := by
  intro h
  let s : FlatProcess 8 := (FlatProcess.started 0).source oneObjectEnv (readByte oneObject)
  have hbuffer : (0 : AddrInt) ∈ bufferBytes (readByte otherObject).call := by decide
  have hread : readsInbound oneObjectEnv (readByte otherObject).call = false := by decide
  have hclear := (h oneObjectEnv (readByte otherObject) s (by decide)).other (by decide) 0 hbuffer
  rw [mem_source_of_not_reads hread, mem_source_of_reads (by decide) (by decide)] at hclear
  exact Finset.singleton_ne_empty _ hclear

end TheiaTaint.Hooks.SourceBuffer
