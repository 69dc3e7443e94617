import Mathlib
import TheiaTaint.Hooks.Sink

namespace TheiaTaint.Hooks.Process

open Foundations.Strings Tags.Directory Objects.Uuid Source Sink

variable {w : ℕ}

inductive HookEvent
  | source (ev : SourceEvent)
  | sink (ev : SinkEvent)

def HookEvent.apply (env : Env) : HookEvent → ToolState w → Option (ToolState w)
  | .source ev, s => some (ev.apply env s)
  | .sink ev, s => ev.apply env s

/-- The tag UUIDs that the loop of a sink generates. The one for a byte is there before the
overlay call in which the process may die. -/
def sinkLoopUuids (uuid type : Text) (env : Env) :
    List AddrInt → ToolState w × Finset Text → List Text
  | [], _ => []
  | i :: is, acc =>
    tagUuidString acc.1.tagCounterGlobal ::
      match sinkByte uuid type env acc i with
      | some acc' => sinkLoopUuids uuid type env is acc'
      | none => []

def HookEvent.uuids (env : Env) : HookEvent → ToolState w → List Text
  | .source ev, s => ((ev.apply env s).outputs.drop s.outputs.length).map Output.tagUuid
  | .sink ev, s =>
    if writesOutbound env ev.call then
      sinkLoopUuids (uuidToString ev.call.object.uuid) ev.type env
        (byteRange ev.call.arg1 ev.call.ret) (s, ∅)
    else []

/-- The tag UUIDs that a process generates until its end, which may be in a sink. -/
def runUuids (env : Env) : List HookEvent → ToolState w → List Text
  | [], _ => []
  | ev :: evs, s =>
    ev.uuids env s ++
      match ev.apply env s with
      | some s' => runUuids env evs s'
      | none => []

/-- The events that the process lives through. -/
def survived (env : Env) : List HookEvent → ToolState w → List HookEvent
  | [], _ => []
  | ev :: evs, s =>
    match ev.apply env s with
    | some s' => ev :: survived env evs s'
    | none => []

def sourceEvent : HookEvent → Option SourceEvent
  | .source ev => some ev
  | .sink _ => none

/-- The bytes of a write to an outbound object that the sink loop visits. -/
def sinkBytes (env : Env) : HookEvent → ℕ
  | .source _ => 0
  | .sink ev =>
    if writesOutbound env ev.call then (byteRange ev.call.arg1 ev.call.ret).length else 0

def readObjects (env : Env) (evs : List HookEvent) : Finset CdmUuid :=
  (inboundReads env (evs.filterMap sourceEvent)).toFinset

/-- How many tag UUIDs a run generates: one for each inbound object it reads and
one for each byte it writes to an outbound object. -/
def tagUuidCount (env : Env) (evs : List HookEvent) : ℕ :=
  (readObjects env evs).card + (evs.map (sinkBytes env)).sum

def uuidsFrom (start : BitVec 64) (n : ℕ) : List Text :=
  (List.range n).map fun k ↦ tagUuidString (start + BitVec.ofNat 64 k)

def generatedUuids (s : ToolState w) : List Text := s.outputs.map Output.tagUuid

/-- How many tag UUIDs a process generates. If it dies, it does so after the one for the first
byte of a write. -/
def generatedCount (env : Env) (evs : List HookEvent) (s : ToolState w) : ℕ :=
  tagUuidCount env (survived env evs s) + if (survived env evs s).length = evs.length then 0 else 1

/-- The event reads an inbound object, or writes a byte to an outbound one. -/
def HookEvent.Touches (env : Env) : HookEvent → Prop
  | .source ev => readsInbound env ev.call = true
  | .sink ev => sinkBytes env (.sink ev) ≠ 0

theorem uuidsFrom_add (start : BitVec 64) (m n : ℕ) :
    uuidsFrom start (m + n) = uuidsFrom start m ++ uuidsFrom (start + BitVec.ofNat 64 m) n := by
  rw [uuidsFrom, List.range_add, List.map_append, List.map_map]
  refine congrArg (_ ++ ·) (List.map_congr_left fun k _ ↦ ?_)
  simp [BitVec.ofNat_add, BitVec.add_assoc]

@[simp] theorem uuidsFrom_zero (start : BitVec 64) : uuidsFrom start 0 = [] := rfl

theorem uuidsFrom_one (start : BitVec 64) : uuidsFrom start 1 = [tagUuidString start] := by
  simp [uuidsFrom]

theorem mem_uuidsFrom_zero {start : BitVec 64} {n : ℕ} (h : 0 < n) :
    tagUuidString start ∈ uuidsFrom start n :=
  List.mem_map.2 ⟨0, List.mem_range.2 h, by simp⟩

theorem nodup_uuidsFrom_iff (start : BitVec 64) (n : ℕ) :
    (uuidsFrom start n).Nodup ↔ n ≤ 2 ^ 64 := by
  constructor
  · intro h
    by_contra hn
    have h0 : 0 < (uuidsFrom start n).length := by simp [uuidsFrom]; omega
    have hturn : 2 ^ 64 < (uuidsFrom start n).length := by simp [uuidsFrom]; omega
    have heq : (uuidsFrom start n)[0] = (uuidsFrom start n)[2 ^ 64] := by
      simp only [uuidsFrom, List.getElem_map, List.getElem_range]
      exact congrArg (fun x ↦ tagUuidString (start + x)) (BitVec.eq_of_toNat_eq (by simp))
    exact absurd ((h.getElem_inj_iff).1 heq) (by decide)
  · intro h
    refine List.Nodup.map_on (fun j hj k hk hjk ↦ ?_) List.nodup_range
    have hadd : BitVec.ofNat 64 j = BitVec.ofNat 64 k :=
      (BitVec.add_right_inj _).1 (tagUuidString_injective hjk)
    have hnat := congrArg BitVec.toNat hadd
    rw [List.mem_range] at hj hk
    rwa [BitVec.toNat_ofNat, BitVec.toNat_ofNat, Nat.mod_eq_of_lt (by omega),
      Nat.mod_eq_of_lt (by omega)] at hnat

theorem loopOutputs_tagUuid (uuid type : Text) (env : Env) (s : ToolState w) (r : Finset Text)
    (c : BitVec 64) (is : List AddrInt) :
    (loopOutputs uuid type env s r c is).map Output.tagUuid = uuidsFrom c is.length := by
  induction is generalizing r c with
  | nil => rfl
  | cons i is ih =>
    rw [loopOutputs, List.map_cons, ih, List.length_cons, Nat.add_comm, uuidsFrom_add,
      uuidsFrom_one]
    rfl

/-- One hook: `n` tag UUIDs are generated, in the order of the counter. -/
structure Generates (s s' : ToolState w) (n : ℕ) : Prop where
  uuids : generatedUuids s' = generatedUuids s ++ uuidsFrom s.tagCounterGlobal n
  counter : s'.tagCounterGlobal = s.tagCounterGlobal + BitVec.ofNat 64 n

theorem Generates.rfl (s : ToolState w) : Generates s s 0 := ⟨by simp, by simp⟩

theorem Generates.trans {s₁ s₂ s₃ : ToolState w} {m n : ℕ} (h₁ : Generates s₁ s₂ m)
    (h₂ : Generates s₂ s₃ n) : Generates s₁ s₃ (m + n) := by
  refine ⟨?_, ?_⟩
  · rw [h₂.uuids, h₁.uuids, h₁.counter, uuidsFrom_add, List.append_assoc]
  · rw [h₂.counter, h₁.counter, BitVec.add_assoc, BitVec.ofNat_add]

theorem generates_source (env : Env) (ev : SourceEvent) (s : ToolState w) :
    Generates s (ev.apply env s)
      (if readsInbound env ev.call ∧ s.uuidToTag (uuidToString ev.call.object.uuid) = none
        then 1 else 0) := by
  obtain ⟨socketOnly, systemCall, hev⟩ := ev.apply_eq (w := w) env
  rw [hev]
  cases h : readsInbound env ev.call with
  | false =>
    rw [sourceHook_of_not_reads h]
    simpa using Generates.rfl s
  | true =>
    rw [sourceHook_of_reads h]
    cases hu : s.uuidToTag (uuidToString ev.call.object.uuid) with
    | some t => exact ⟨by simp [taintBytes, generatedUuids], by simp [taintBytes]⟩
    | none =>
      refine ⟨?_, by simp [taintBytes, createTag]⟩
      simp [taintBytes, createTag, generatedUuids, uuidsFrom_one, Output.tagUuid]

theorem generates_sink {env : Env} {ev : SinkEvent} {s s' : ToolState w}
    (h : ev.apply env s = some s') :
    Generates s s' (sinkBytes env (.sink ev)) ∧ s'.uuidToTag = s.uuidToTag := by
  rw [ev.apply_eq] at h
  cases hw : writesOutbound env ev.call with
  | false =>
    rw [sinkHook_of_not_writes hw, Option.some.injEq] at h
    subst h
    exact ⟨by simpa [sinkBytes, hw] using Generates.rfl s, rfl⟩
  | true =>
    by_cases hno : ev.call.arg1.toNat + ev.call.ret.toNat < 2 ^ 64
    · by_cases ht : tagDirGetb s.tagDir ev.call.arg1 = ∅
      · rw [sinkHook_of_untagged hw hno ht] at h
        exact absurd h (by simp)
      · obtain ⟨s₁, hs₁, ho, hc, hu⟩ := sinkHook_of_tagged ev.type hw hno ht
        rw [h, Option.some.injEq] at hs₁
        subst hs₁
        have hn : sinkBytes env (.sink ev) = (bufferBytes ev.call).length := by
          simp [sinkBytes, hw, byteRange_eq_bufferBytes hno]
        rw [hn]
        refine ⟨⟨?_, hc⟩, hu⟩
        rw [generatedUuids, ho, List.map_append, loopOutputs_tagUuid]
        rfl
    · rw [sinkHook_of_wrap hw hno, Option.some.injEq] at h
      subst h
      exact ⟨by simpa [sinkBytes, hw, byteRange_eq_nil_of_wrap hno] using Generates.rfl s, rfl⟩

theorem isSome_uuidToTag_source (env : Env) (ev : SourceEvent) (s : ToolState w) (u : CdmUuid) :
    ((ev.apply env s).uuidToTag (uuidToString u)).isSome =
      ((readsInbound env ev.call && decide (ev.call.object.uuid = u)) ||
        (s.uuidToTag (uuidToString u)).isSome) := by
  obtain ⟨socketOnly, systemCall, hev⟩ := ev.apply_eq (w := w) env
  rw [hev]
  cases h : readsInbound env ev.call with
  | false => rw [sourceHook_of_not_reads h]; simp
  | true =>
    rw [sourceHook_of_reads h]
    by_cases hu : ev.call.object.uuid = u
    · subst hu
      cases hs : s.uuidToTag (uuidToString ev.call.object.uuid) <;>
        simp [taintBytes, createTag, hs]
    · have hne : uuidToString u ≠ uuidToString ev.call.object.uuid :=
        uuidToString_injective.ne (Ne.symm hu)
      cases hs : s.uuidToTag (uuidToString ev.call.object.uuid) <;>
        simp [taintBytes, createTag, hu, hne]

/-- The invariant of a run: which objects have a tag, and what was generated. -/
structure Accounted (env : Env) (evs : List HookEvent) (start : BitVec 64) (s : ToolState w) :
    Prop where
  known : ∀ u, (s.uuidToTag (uuidToString u)).isSome = decide (u ∈ readObjects env evs)
  generates : Generates (initial start) s (tagUuidCount env evs)

theorem readObjects_source (env : Env) (evs : List HookEvent) (ev : SourceEvent) :
    readObjects env (evs ++ [.source ev]) =
      if readsInbound env ev.call then insert ev.call.object.uuid (readObjects env evs)
      else readObjects env evs := by
  cases h : readsInbound env ev.call
  · simp [readObjects, inboundReads, sourceEvent, h]
  · ext u
    simp [readObjects, inboundReads, sourceEvent, h]

theorem readObjects_sink (env : Env) (evs : List HookEvent) (ev : SinkEvent) :
    readObjects env (evs ++ [.sink ev]) = readObjects env evs := by
  have hnil : [HookEvent.sink ev].filterMap sourceEvent = [] := rfl
  rw [readObjects, List.filterMap_append, hnil, List.append_nil, readObjects]

theorem accounted_source {env : Env} {evs : List HookEvent} {start : BitVec 64} {s : ToolState w}
    (h : Accounted env evs start s) (ev : SourceEvent) :
    Accounted env (evs ++ [.source ev]) start (ev.apply env s) := by
  refine ⟨fun u ↦ ?_, ?_⟩
  · rw [isSome_uuidToTag_source, h.known, readObjects_source]
    cases readsInbound env ev.call <;> simp [eq_comm]
  · have hstep := h.generates.trans (generates_source env ev s)
    have hcount : tagUuidCount env (evs ++ [.source ev]) = tagUuidCount env evs +
        if readsInbound env ev.call ∧ s.uuidToTag (uuidToString ev.call.object.uuid) = none
          then 1 else 0 := by
      have hk := h.known ev.call.object.uuid
      rw [tagUuidCount, tagUuidCount, readObjects_source]
      cases hr : readsInbound env ev.call with
      | false => simp [sinkBytes]
      | true =>
        by_cases hmem : ev.call.object.uuid ∈ readObjects env evs
        · cases hs : s.uuidToTag (uuidToString ev.call.object.uuid) <;>
            simp_all [sinkBytes]
        · cases hs : s.uuidToTag (uuidToString ev.call.object.uuid) with
          | some t => simp [hs, hmem] at hk
          | none => simp [sinkBytes, Finset.card_insert_of_notMem hmem, Nat.add_right_comm]
    rw [hcount]
    exact hstep

theorem accounted_sink {env : Env} {evs : List HookEvent} {start : BitVec 64} {s s' : ToolState w}
    {ev : SinkEvent} (h : Accounted env evs start s) (hs : ev.apply env s = some s') :
    Accounted env (evs ++ [.sink ev]) start s' := by
  obtain ⟨hgen, hu⟩ := generates_sink hs
  refine ⟨fun u ↦ ?_, ?_⟩
  · rw [hu, h.known, readObjects_sink]
  · have hcount : tagUuidCount env (evs ++ [.sink ev]) =
        tagUuidCount env evs + sinkBytes env (.sink ev) := by
      simp [tagUuidCount, readObjects_sink, Nat.add_assoc]
    rw [hcount]
    exact h.generates.trans hgen

theorem accounted_initial (env : Env) (start : BitVec 64) :
    Accounted env [] start (initial start : ToolState w) where
  known u := by simp [initial, readObjects, inboundReads]
  generates := by simpa [tagUuidCount, readObjects, inboundReads] using Generates.rfl _

theorem counter_sinkByte {uuid type : Text} {env : Env} {acc acc' : ToolState w × Finset Text}
    {i : AddrInt} (h : sinkByte uuid type env acc i = some acc') :
    acc'.1.tagCounterGlobal = acc.1.tagCounterGlobal + 1 := by
  obtain ⟨s, hs, rfl⟩ := Option.map_eq_some_iff.1 h
  obtain ⟨_, -, rfl⟩ := Option.map_eq_some_iff.1 hs
  rfl

theorem sinkLoopUuids_of_some {uuid type : Text} {env : Env} {addrs : List AddrInt}
    {acc acc' : ToolState w × Finset Text}
    (h : addrs.foldlM (sinkByte uuid type env) acc = some acc') :
    sinkLoopUuids uuid type env addrs acc = uuidsFrom acc.1.tagCounterGlobal addrs.length := by
  induction addrs generalizing acc with
  | nil => rfl
  | cons i is ih =>
    rw [List.foldlM_cons, Option.bind_eq_bind, Option.bind_eq_some_iff] at h
    obtain ⟨acc₁, hstep, hrest⟩ := h
    have hrest' := ih hrest
    rw [counter_sinkByte hstep] at hrest'
    rw [sinkLoopUuids, hstep, List.length_cons, Nat.add_comm, uuidsFrom_add, uuidsFrom_one]
    exact congrArg (List.cons _) hrest'

theorem generatedUuids_of_some {env : Env} {ev : HookEvent} {s s' : ToolState w}
    (h : ev.apply env s = some s') : generatedUuids s' = generatedUuids s ++ ev.uuids env s := by
  cases ev with
  | source ev =>
    obtain rfl := Option.some_inj.1 h
    have hgen := (generates_source env ev s).uuids
    have huuids : (HookEvent.source ev).uuids env s =
        (generatedUuids (ev.apply env s)).drop (generatedUuids s).length := by
      rw [HookEvent.uuids, List.map_drop, generatedUuids, generatedUuids, List.length_map]
    rw [huuids, hgen, List.drop_left]
  | sink ev =>
    have happly : ev.apply env s = some s' := h
    rw [(generates_sink happly).1.uuids]
    congr 1
    cases hw : writesOutbound env ev.call with
    | false => simp [HookEvent.uuids, sinkBytes, hw]
    | true =>
      rw [ev.apply_eq, sinkHook_of_writes hw] at happly
      obtain ⟨acc', hloop, -⟩ := Option.map_eq_some_iff.1 happly
      simp only [HookEvent.uuids, sinkBytes, hw, if_true, sinkLoopUuids_of_some hloop]

theorem uuids_of_none {env : Env} {ev : HookEvent} {s : ToolState w}
    (h : ev.apply env s = none) : ev.uuids env s = [tagUuidString s.tagCounterGlobal] := by
  cases ev with
  | source ev => cases h
  | sink ev =>
    have happly : sinkHook ev.type env ev.call s = none := by
      rw [← ev.apply_eq]
      exact h
    cases hw : writesOutbound env ev.call with
    | false =>
      rw [sinkHook_of_not_writes hw] at happly
      cases happly
    | true =>
      by_cases hno : ev.call.arg1.toNat + ev.call.ret.toNat < 2 ^ 64
      · by_cases ht : tagDirGetb s.tagDir ev.call.arg1 = ∅
        · obtain ⟨is, his⟩ := bufferBytes_eq_cons (toNat_pos_of_writesOutbound hw)
          have hfirst : ∅ ∪ byteOrigins s ev.call.arg1 = ∅ := by
            rw [Finset.empty_union, byteOrigins_eq_empty_iff, ht]
          rw [HookEvent.uuids, if_pos hw, byteRange_eq_bufferBytes hno, his, sinkLoopUuids,
            sinkByte_eq_none hfirst]
        · obtain ⟨s', hs', -⟩ := sinkHook_of_tagged ev.type hw hno ht
          rw [hs'] at happly
          cases happly
      · rw [sinkHook_of_wrap hw hno] at happly
        cases happly

theorem accounted_apply {env : Env} {evs : List HookEvent} {start : BitVec 64}
    {s s' : ToolState w} (h : Accounted env evs start s) {ev : HookEvent}
    (hs : ev.apply env s = some s') : Accounted env (evs ++ [ev]) start s' := by
  cases ev with
  | source ev =>
    obtain rfl := Option.some_inj.1 hs
    exact accounted_source h ev
  | sink ev => exact accounted_sink h hs

/-- What a process generates from a state of its run on, whatever ends it. -/
theorem runUuids_of_accounted {env : Env} {past : List HookEvent} {start : BitVec 64}
    {s : ToolState w} (h : Accounted env past start s) (evs : List HookEvent) :
    uuidsFrom start (tagUuidCount env past) ++ runUuids env evs s =
      uuidsFrom start (tagUuidCount env (past ++ survived env evs s) +
        if (survived env evs s).length = evs.length then 0 else 1) := by
  have hstart : (initial start : ToolState w).tagCounterGlobal = start := rfl
  induction evs generalizing past s with
  | nil => simp [runUuids, survived]
  | cons ev evs ih =>
    rw [runUuids, survived]
    cases hev : ev.apply env s with
    | some s' =>
      have hnext := accounted_apply h hev
      have huuids : uuidsFrom start (tagUuidCount env past) ++ ev.uuids env s =
          uuidsFrom start (tagUuidCount env (past ++ [ev])) := by
        have hpast := h.generates.uuids
        have hall := hnext.generates.uuids
        rw [hstart] at hpast hall
        rw [generatedUuids_of_some hev, hpast, List.append_assoc] at hall
        exact List.append_cancel_left hall
      simp only [List.length_cons, Nat.add_right_cancel_iff]
      rw [← List.append_assoc, huuids, ih hnext, List.append_assoc, List.singleton_append]
    | none =>
      have hcounter := h.generates.counter
      rw [hstart] at hcounter
      simp [uuids_of_none hev, hcounter, uuidsFrom_add, uuidsFrom_one]

/-- A process generates the tag UUIDs of the counter values from its start on, in order. -/
theorem runUuids_eq (env : Env) (evs : List HookEvent) (start : BitVec 64) :
    runUuids env evs (initial start : ToolState w) =
      uuidsFrom start (generatedCount env evs (initial start : ToolState w)) := by
  have h := runUuids_of_accounted (accounted_initial (w := w) env start) evs
  rwa [List.nil_append] at h

theorem tagUuidCount_eq_zero_iff (env : Env) (evs : List HookEvent) :
    tagUuidCount env evs = 0 ↔ ∀ ev ∈ evs, ¬ ev.Touches env := by
  have hreads : (readObjects env evs).card = 0 ↔
      ∀ ev, HookEvent.source ev ∈ evs → ¬ readsInbound env ev.call = true := by
    rw [Finset.card_eq_zero, readObjects, List.toFinset_eq_empty_iff, inboundReads,
      List.map_eq_nil_iff, List.filter_eq_nil_iff]
    have hmem (ev : SourceEvent) : ev ∈ evs.filterMap sourceEvent ↔ .source ev ∈ evs := by
      rw [List.mem_filterMap]
      constructor
      · rintro ⟨e, he, hev⟩
        cases e with
        | source ev' => exact Option.some_inj.1 hev ▸ he
        | sink ev' => cases hev
      · exact fun h ↦ ⟨_, h, rfl⟩
    simp only [hmem]
  rw [tagUuidCount, Nat.add_eq_zero_iff, hreads, List.sum_eq_zero_iff, List.forall_mem_map]
  constructor
  · rintro ⟨hsource, hsink⟩ ev hev
    cases ev with
    | source ev => exact hsource ev hev
    | sink ev => exact not_not.2 (hsink _ hev)
  · intro h
    refine ⟨fun ev hev ↦ h _ hev, fun ev hev ↦ ?_⟩
    cases ev with
    | source ev => rfl
    | sink ev => exact not_not.1 (h _ hev)

theorem survived_isPrefix (env : Env) (evs : List HookEvent) (s : ToolState w) :
    survived env evs s <+: evs := by
  induction evs generalizing s with
  | nil => exact List.prefix_rfl
  | cons ev evs ih =>
    rw [survived]
    cases ev.apply env s with
    | some s' => exact (List.prefix_cons_inj ev).2 (ih s')
    | none => exact List.nil_prefix

theorem touches_of_none {env : Env} {ev : HookEvent} {s : ToolState w}
    (h : ev.apply env s = none) : ev.Touches env := by
  have huuids := uuids_of_none h
  cases ev with
  | source ev => cases h
  | sink ev =>
    rw [HookEvent.Touches, sinkBytes]
    rw [HookEvent.uuids] at huuids
    split_ifs at huuids ⊢ with hw
    intro hnil
    rw [List.length_eq_zero_iff.1 hnil] at huuids
    cases huuids

theorem generatedCount_eq_zero_iff (env : Env) (evs : List HookEvent) (s : ToolState w) :
    generatedCount env evs s = 0 ↔ ∀ ev ∈ evs, ¬ ev.Touches env := by
  have hall : (∀ ev ∈ evs, ¬ ev.Touches env) → survived env evs s = evs := by
    intro h
    induction evs generalizing s with
    | nil => rfl
    | cons ev evs ih =>
      rw [survived]
      cases hev : ev.apply env s with
      | some s' =>
        exact congrArg (List.cons ev) (ih s' fun e he ↦ h e (List.mem_cons_of_mem ev he))
      | none => exact absurd (touches_of_none hev) (h ev List.mem_cons_self)
  rw [generatedCount, ← tagUuidCount_eq_zero_iff, Nat.add_eq_zero_iff]
  constructor
  · rintro ⟨hcount, hlength⟩
    rwa [(survived_isPrefix env evs s).eq_of_length (by simpa using hlength)] at hcount
  · intro h
    rw [hall ((tagUuidCount_eq_zero_iff env evs).1 h)]
    exact ⟨h, if_pos rfl⟩

end TheiaTaint.Hooks.Process
