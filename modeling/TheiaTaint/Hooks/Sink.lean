import Mathlib
import TheiaTaint.Hooks.Source
import TheiaTaint.Objects.OriginSet

namespace TheiaTaint.Hooks.Sink

open Foundations.Strings Tags.Directory Objects.Uuid Objects.OriginSet Source

variable {w : ℕ}

/-- The map key reached through the local `uint32_t tag = *it`. -/
def lookupKey (t : BitVec w) : BitVec w := (t.setWidth 32).setWidth w

/-- The value of `tag_to_tag_uuid[t]`; a missing key yields the empty string. -/
def originAt (m : BitVec w → Option Text) (t : BitVec w) : Text := (m t).getD []

/-- The map after `operator[]` was applied to every tag of one byte. -/
def touchKeys (tags : Finset (BitVec w)) (m : BitVec w → Option Text) :
    BitVec w → Option Text :=
  fun k ↦ if ∃ t ∈ tags, lookupKey t = k then some (originAt m k) else m k

def byteOrigins (s : ToolState w) (i : AddrInt) : Finset Text :=
  (tagDirGetb s.tagDir i).image fun t ↦ originAt s.tagToTagUuid (lookupKey t)

/-- The call of `theia_tag_overlay_insert`. It queries the overlay before it packs the origins;
that query, and what becomes of the statement, are left to the database. -/
def tagOverlayInsert (uuid type : Text) (origins : Finset Text) (env : Env) (tagUuid : Text)
    (s : ToolState w) : Option (ToolState w) :=
  (packUuids origins).map fun _ ↦
    { s with
      outputs := s.outputs ++
        [.overlayInsert uuid type origins env.queryId tagUuid env.subjectUuid] }

/-- One turn of the loop over the written bytes, with `result_tag_uuid_set` as
accumulator. -/
def sinkByte (uuid type : Text) (env : Env) (acc : ToolState w × Finset Text) (i : AddrInt) :
    Option (ToolState w × Finset Text) :=
  let s := acc.1
  let origins := acc.2 ∪ byteOrigins s i
  let tagUuid := tagUuidString s.tagCounterGlobal
  let s' :=
    { s with
      tagToTagUuid := touchKeys (tagDirGetb s.tagDir i) s.tagToTagUuid
      generatedTagUuidSet := insert tagUuid s.generatedTagUuidSet
      tagCounterGlobal := s.tagCounterGlobal + 1 }
  (tagOverlayInsert uuid type origins env tagUuid s').map fun s'' ↦ (s'', origins)

/-- The common body of the two sink hooks, which differ in the event name. -/
def sinkHook (type : Text) (env : Env) (call : Call) (s : ToolState w) : Option (ToolState w) :=
  if call.ret.toInt ≤ 0 then some s
  else
    let uuidString := uuidToString call.object.uuid
    if listed env.outboundUuidArray uuidString then
      ((byteRange call.arg1 call.ret).foldlM (sinkByte uuidString type env) (s, ∅)).map Prod.fst
    else some s

def postWriteHook (env : Env) (call : Call) : ToolState w → Option (ToolState w) :=
  sinkHook "EVENT_WRITE".toList env call

def postSendtoHook (env : Env) (call : Call) : ToolState w → Option (ToolState w) :=
  sinkHook "EVENT_SEND".toList env call

inductive SinkEvent
  | write (call : Call)
  | sendto (call : Call)

def SinkEvent.call : SinkEvent → Call
  | .write c => c
  | .sendto c => c

def SinkEvent.type : SinkEvent → Text
  | .write _ => "EVENT_WRITE".toList
  | .sendto _ => "EVENT_SEND".toList

def SinkEvent.apply (env : Env) : SinkEvent → ToolState w → Option (ToolState w)
  | .write c => postWriteHook env c
  | .sendto c => postSendtoHook env c

theorem SinkEvent.apply_eq (env : Env) (ev : SinkEvent) (s : ToolState w) :
    ev.apply env s = sinkHook ev.type env ev.call s := by
  cases ev <;> rfl

/-- The call writes at least one byte to an outbound object. -/
def writesOutbound (env : Env) (call : Call) : Bool :=
  decide (0 < call.ret.toInt) && decide (call.object.uuid ∈ env.outboundUuidArray)

theorem sinkHook_of_not_writes {type : Text} {env : Env} {call : Call}
    (h : writesOutbound env call = false) (s : ToolState w) :
    sinkHook type env call s = some s := by
  simp only [writesOutbound, Bool.and_eq_false_iff, decide_eq_false_iff_not, not_lt] at h
  simp only [sinkHook, listed_uuidToString]
  rcases h with h | h
  · rw [if_pos h]
  · simp only [h, decide_false, Bool.false_eq_true, if_false, ite_self]

theorem sinkHook_of_writes {env : Env} {call : Call} (h : writesOutbound env call = true)
    (type : Text) (s : ToolState w) :
    sinkHook type env call s =
      ((byteRange call.arg1 call.ret).foldlM
        (sinkByte (uuidToString call.object.uuid) type env) (s, ∅)).map Prod.fst := by
  simp only [writesOutbound, Bool.and_eq_true, decide_eq_true_eq] at h
  simp only [sinkHook, listed_uuidToString, if_neg (not_le.2 h.1), h.2, decide_true, if_true]

theorem originAt_touchKeys (tags : Finset (BitVec w)) (m : BitVec w → Option Text)
    (k : BitVec w) : originAt (touchKeys tags m) k = originAt m k := by
  unfold originAt touchKeys
  split <;> rfl

def originsOf (f : BitVec w → Text) (dir : TagDir (Finset (BitVec w))) (addrs : List AddrInt) :
    Finset Text :=
  addrs.toFinset.biUnion fun i ↦ (tagDirGetb dir i).image f

def loopOrigins (s : ToolState w) (addrs : List AddrInt) : Finset Text :=
  originsOf (fun t ↦ originAt s.tagToTagUuid (lookupKey t)) s.tagDir addrs

theorem loopOrigins_cons (s : ToolState w) (i : AddrInt) (is : List AddrInt) :
    loopOrigins s (i :: is) = byteOrigins s i ∪ loopOrigins s is := by
  simp [loopOrigins, originsOf, byteOrigins, Finset.biUnion_insert]

def loopOutputs (uuid type : Text) (env : Env) (s : ToolState w) :
    Finset Text → BitVec 64 → List AddrInt → List Output
  | _, _, [] => []
  | r, c, i :: is =>
    .overlayInsert uuid type (r ∪ byteOrigins s i) env.queryId (tagUuidString c) env.subjectUuid ::
      loopOutputs uuid type env s (r ∪ byteOrigins s i) (c + 1) is

theorem byteOrigins_congr {s s' : ToolState w} (hd : s'.tagDir = s.tagDir)
    (hm : ∀ k, originAt s'.tagToTagUuid k = originAt s.tagToTagUuid k) (i : AddrInt) :
    byteOrigins s' i = byteOrigins s i := by
  simp only [byteOrigins, hd, hm]

theorem loopOrigins_congr {s s' : ToolState w} (hd : s'.tagDir = s.tagDir)
    (hm : ∀ k, originAt s'.tagToTagUuid k = originAt s.tagToTagUuid k) (is : List AddrInt) :
    loopOrigins s' is = loopOrigins s is := by
  simp only [loopOrigins, hd, hm]

theorem loopOutputs_congr {s s' : ToolState w} (hd : s'.tagDir = s.tagDir)
    (hm : ∀ k, originAt s'.tagToTagUuid k = originAt s.tagToTagUuid k) (uuid type : Text)
    (env : Env) (r : Finset Text) (c : BitVec 64) (is : List AddrInt) :
    loopOutputs uuid type env s' r c is = loopOutputs uuid type env s r c is := by
  induction is generalizing r c with
  | nil => rfl
  | cons i is ih => rw [loopOutputs, loopOutputs, byteOrigins_congr hd hm, ih]

theorem sinkByte_eq_none {uuid type : Text} {env : Env} {s : ToolState w} {r : Finset Text}
    {i : AddrInt} (h : r ∪ byteOrigins s i = ∅) : sinkByte uuid type env (s, r) i = none := by
  simp [sinkByte, tagOverlayInsert, packUuids_eq_none_iff.2 h]

theorem sinkByte_eq_some (uuid type : Text) (env : Env) {s : ToolState w} {r : Finset Text}
    {i : AddrInt} (h : r ∪ byteOrigins s i ≠ ∅) :
    ∃ s', sinkByte uuid type env (s, r) i = some (s', r ∪ byteOrigins s i) ∧
      s'.tagDir = s.tagDir ∧
      (∀ k, originAt s'.tagToTagUuid k = originAt s.tagToTagUuid k) ∧
      s'.uuidToTag = s.uuidToTag ∧
      s'.tagCounterGlobal = s.tagCounterGlobal + 1 ∧
      s'.outputs = s.outputs ++ [.overlayInsert uuid type (r ∪ byteOrigins s i) env.queryId
        (tagUuidString s.tagCounterGlobal) env.subjectUuid] := by
  rw [sinkByte]
  simp only [tagOverlayInsert, packUuids_of_ne_empty h, Option.map_some, Option.some.injEq,
    Prod.mk.injEq, and_true]
  exact ⟨_, rfl, rfl, fun k ↦ originAt_touchKeys _ _ k, rfl, rfl, rfl⟩

/-- A loop whose first byte already has an origin runs to its end, and every
later call passes a larger set. -/
theorem sinkLoop_run (uuid type : Text) (env : Env) (addrs : List AddrInt) (s : ToolState w)
    (r : Finset Text) (h : ∀ i ∈ addrs.head?, r ∪ byteOrigins s i ≠ ∅) :
    ∃ s', addrs.foldlM (sinkByte uuid type env) (s, r) = some (s', r ∪ loopOrigins s addrs) ∧
      s'.outputs = s.outputs ++ loopOutputs uuid type env s r s.tagCounterGlobal addrs ∧
      s'.tagCounterGlobal = s.tagCounterGlobal + BitVec.ofNat 64 addrs.length ∧
      s'.uuidToTag = s.uuidToTag := by
  induction addrs generalizing s r with
  | nil => exact ⟨s, by simp [loopOrigins, originsOf], by simp [loopOutputs], by simp, rfl⟩
  | cons i is ih =>
    have hi : r ∪ byteOrigins s i ≠ ∅ := h i rfl
    obtain ⟨s₁, hs₁, hd, hm, hu, hc, ho⟩ := sinkByte_eq_some uuid type env hi
    have hnext : ∀ j ∈ is.head?, r ∪ byteOrigins s i ∪ byteOrigins s₁ j ≠ ∅ := fun j _ he ↦
      hi (Finset.union_eq_empty.1 he).1
    obtain ⟨s₂, hs₂, ho₂, hc₂, hu₂⟩ := ih s₁ _ hnext
    refine ⟨s₂, ?_, ?_, ?_, hu₂.trans hu⟩
    · rw [List.foldlM_cons, hs₁, Option.bind_eq_bind, Option.bind_some, hs₂,
        loopOrigins_congr hd hm, loopOrigins_cons, Finset.union_assoc]
    · rw [ho₂, ho, hc, loopOutputs_congr hd hm, loopOutputs, List.append_assoc,
        List.singleton_append]
    · rw [hc₂, hc, List.length_cons, BitVec.add_assoc, Nat.add_comm, BitVec.ofNat_add]
      rfl

theorem loopOutputs_getLast? (uuid type : Text) (env : Env) (s : ToolState w) (r : Finset Text)
    (c : BitVec 64) (i : AddrInt) (is : List AddrInt) :
    ∃ t, (loopOutputs uuid type env s r c (i :: is)).getLast? =
      some (.overlayInsert uuid type (r ∪ loopOrigins s (i :: is)) env.queryId t
        env.subjectUuid) := by
  induction is generalizing r c i with
  | nil => exact ⟨tagUuidString c, by simp [loopOutputs, loopOrigins, originsOf, byteOrigins]⟩
  | cons j is ih =>
    obtain ⟨t, ht⟩ := ih (r ∪ byteOrigins s i) (c + 1) j
    refine ⟨t, ?_⟩
    rw [loopOutputs, loopOutputs, List.getLast?_cons_cons, ← loopOutputs, ht,
      loopOrigins_cons s i, Finset.union_assoc]

def bufferBytes (call : Call) : List AddrInt :=
  (List.range call.ret.toNat).map fun k ↦ call.arg1 + BitVec.ofNat 64 k

/-- `{tag_to_tag_uuid[t] : t in the tag set of some byte of the buffer}`. -/
def bufferOrigins (s : ToolState w) (call : Call) : Finset Text :=
  originsOf (originAt s.tagToTagUuid) s.tagDir (bufferBytes call)

/-- The hook completes, and its last overlay call passes exactly the origins of
the written buffer. -/
def ReportsProvenance (env : Env) (ev : SinkEvent) (s : ToolState w) : Prop :=
  ∃ s' new, ev.apply env s = some s' ∧ s'.outputs = s.outputs ++ new ∧
    ∃ tagUuid, new.getLast? = some (.overlayInsert (uuidToString ev.call.object.uuid) ev.type
      (bufferOrigins s ev.call) env.queryId tagUuid env.subjectUuid)

/-- The buffer does not run past the end of the address space, its first byte
carries a tag, and truncating the tags to 32 bits changes no origin. -/
structure Reportable (s : ToolState w) (call : Call) : Prop where
  no_wrap : call.arg1.toNat + call.ret.toNat < 2 ^ 64
  first_tagged : tagDirGetb s.tagDir call.arg1 ≠ ∅
  keys_agree : loopOrigins s (bufferBytes call) = bufferOrigins s call

theorem lookupKey_of_le (hw : w ≤ 32) (t : BitVec w) : lookupKey t = t := by
  refine BitVec.eq_of_toNat_eq ?_
  have ht : t.toNat < 2 ^ 32 := t.isLt.trans_le (Nat.pow_le_pow_right (by decide) hw)
  simp only [lookupKey, BitVec.toNat_setWidth, Nat.mod_eq_of_lt ht, Nat.mod_eq_of_lt t.isLt]

theorem loopOrigins_of_le (hw : w ≤ 32) (s : ToolState w) (call : Call) :
    loopOrigins s (bufferBytes call) = bufferOrigins s call := by
  simp only [loopOrigins, bufferOrigins, lookupKey_of_le hw]

theorem toNat_pos_of_toInt_pos {x : BitVec 64} (h : 0 < x.toInt) : 0 < x.toNat := by
  rcases Nat.eq_zero_or_pos x.toNat with h0 | h0
  · have : x = 0 := BitVec.eq_of_toNat_eq h0
    subst this
    exact absurd h (by decide)
  · exact h0

theorem byteRange_eq_nil_of_wrap {call : Call} (h : ¬ call.arg1.toNat + call.ret.toNat < 2 ^ 64) :
    byteRange call.arg1 call.ret = [] := byteRange_eq_nil (not_lt.1 h)

theorem byteRange_eq_bufferBytes {call : Call} (h : call.arg1.toNat + call.ret.toNat < 2 ^ 64) :
    byteRange call.arg1 call.ret = bufferBytes call := by
  have hn : (call.arg1 + call.ret).toNat - call.arg1.toNat = call.ret.toNat := by
    rw [BitVec.toNat_add_of_lt h]
    omega
  rw [byteRange, hn, bufferBytes]

theorem bufferBytes_eq_cons {call : Call} (h : 0 < call.ret.toNat) :
    ∃ is, bufferBytes call = call.arg1 :: is := by
  obtain ⟨n, hn⟩ := Nat.exists_eq_add_of_lt h
  refine ⟨(List.range n).map fun k ↦ call.arg1 + BitVec.ofNat 64 (k + 1), ?_⟩
  rw [bufferBytes, hn, Nat.zero_add, List.range_succ_eq_map, List.map_cons, List.map_map]
  exact congrArg₂ List.cons (by simp) rfl

theorem toNat_pos_of_writesOutbound {env : Env} {call : Call} (h : writesOutbound env call = true) :
    0 < call.ret.toNat := by
  simp only [writesOutbound, Bool.and_eq_true, decide_eq_true_eq] at h
  exact toNat_pos_of_toInt_pos h.1

theorem byteOrigins_eq_empty_iff (s : ToolState w) (i : AddrInt) :
    byteOrigins s i = ∅ ↔ tagDirGetb s.tagDir i = ∅ := by
  simp [byteOrigins]

theorem sinkHook_of_wrap {type : Text} {env : Env} {call : Call}
    (hw : writesOutbound env call = true) (h : ¬ call.arg1.toNat + call.ret.toNat < 2 ^ 64)
    (s : ToolState w) : sinkHook type env call s = some s := by
  rw [sinkHook_of_writes hw, byteRange_eq_nil_of_wrap h]
  rfl

theorem sinkHook_of_untagged {type : Text} {env : Env} {call : Call} {s : ToolState w}
    (hw : writesOutbound env call = true) (h : call.arg1.toNat + call.ret.toNat < 2 ^ 64)
    (ht : tagDirGetb s.tagDir call.arg1 = ∅) : sinkHook type env call s = none := by
  obtain ⟨is, his⟩ := bufferBytes_eq_cons (toNat_pos_of_writesOutbound hw)
  have h0 : ∅ ∪ byteOrigins s call.arg1 = ∅ := by
    rw [Finset.empty_union, byteOrigins_eq_empty_iff, ht]
  rw [sinkHook_of_writes hw, byteRange_eq_bufferBytes h, his, List.foldlM_cons,
    sinkByte_eq_none h0]
  rfl

theorem sinkHook_of_tagged {env : Env} {call : Call} {s : ToolState w} (type : Text)
    (hw : writesOutbound env call = true) (h : call.arg1.toNat + call.ret.toNat < 2 ^ 64)
    (ht : tagDirGetb s.tagDir call.arg1 ≠ ∅) :
    ∃ s', sinkHook type env call s = some s' ∧
      s'.outputs = s.outputs ++ loopOutputs (uuidToString call.object.uuid) type env s ∅
        s.tagCounterGlobal (bufferBytes call) ∧
      s'.tagCounterGlobal = s.tagCounterGlobal + BitVec.ofNat 64 (bufferBytes call).length ∧
      s'.uuidToTag = s.uuidToTag := by
  have hfirst : ∀ i ∈ (bufferBytes call).head?, ∅ ∪ byteOrigins s i ≠ ∅ := by
    intro i hi
    obtain ⟨is, his⟩ := bufferBytes_eq_cons (toNat_pos_of_writesOutbound hw)
    rw [his, List.head?_cons, Option.mem_some_iff] at hi
    rw [Finset.empty_union, ← hi, ne_eq, byteOrigins_eq_empty_iff]
    exact ht
  obtain ⟨s', hs', hrun⟩ := sinkLoop_run (uuidToString call.object.uuid) type env _ s ∅ hfirst
  exact ⟨s', by rw [sinkHook_of_writes hw, byteRange_eq_bufferBytes h, hs']; rfl, hrun⟩

theorem reportsProvenance_of_reportable {env : Env} {ev : SinkEvent} {s : ToolState w}
    (hw : writesOutbound env ev.call = true) (hreportable : Reportable s ev.call) :
    ReportsProvenance env ev s := by
  obtain ⟨hno, hfirst, hkeys⟩ := hreportable
  obtain ⟨is, his⟩ := bufferBytes_eq_cons (toNat_pos_of_writesOutbound hw)
  obtain ⟨s', hs', ho, -⟩ := sinkHook_of_tagged ev.type hw hno hfirst
  obtain ⟨t, ht⟩ := loopOutputs_getLast? (uuidToString ev.call.object.uuid) ev.type env s ∅
    s.tagCounterGlobal ev.call.arg1 is
  refine ⟨s', _, by rw [ev.apply_eq, hs'], ho, t, ?_⟩
  rw [← his, Finset.empty_union, hkeys] at ht
  exact ht

def oneObject : CdmUuid := getUuidArrayFromValue 7

def oneObjectEnv : Env := ⟨[oneObject], [oneObject], [], []⟩

def oneByteWrite : SinkEvent := .write ⟨1, 0, ⟨oneObject, 0, [], 0, [], 0⟩, fun _ _ _ _ ↦ ([], ∅)⟩

theorem writesOutbound_oneByteWrite : writesOutbound oneObjectEnv oneByteWrite.call = true := by
  decide

/-- Two bytes of the object are read to `0x10`. -/
def twoByteRead : SourceEvent :=
  .read ⟨2, 0x10, ⟨oneObject, 0, [], 0, [], 0⟩, fun _ _ _ _ ↦ ([], ∅)⟩

/-- The two bytes are written back, with the two untagged bytes after them. -/
def fourByteWrite : SinkEvent :=
  .write ⟨4, 0x10, ⟨oneObject, 0, [], 0, [], 0⟩, fun _ _ _ _ ↦ ([], ∅)⟩

end TheiaTaint.Hooks.Sink
