import Mathlib
import TheiaTaint.Foundations.Numbers
import TheiaTaint.Objects.EventUuid
import TheiaTaint.Objects.FlowHistory
import TheiaTaint.Objects.Inode

namespace TheiaTaint.Objects.CurrentUuid

open Foundations.Strings Foundations.Numbers Foundations.Bytes
open Objects.Uuid Objects.ObjectUuid Objects.FlowHistory Objects.Inode

def INODE_TYPE : BitVec 8 := 0x00

def SOCKET_TYPE : BitVec 8 := 0x01

def ANON_PAGE_TYPE : BitVec 8 := 0x03

def getInoType (type : Text) : BitVec 8 :=
  if type = "I".toList then INODE_TYPE
  else if type = "S".toList then SOCKET_TYPE
  else if type = "anon_page".toList then ANON_PAGE_TYPE
  else 0xff

/-- The UUID, what goes to `prip`, `prport`, `plip` and `plport`, and the static
array afterwards. -/
structure Current where
  uuid : CdmUuid
  flow : Option Call
  ips : IpArray

/-- `get_current_uuid` with the type as an output. An exception and a field read past
the end both give `none`. -/
def getCurrentUuid (ips : IpArray) (inode : Text) : Option (BitVec 8 × Current) :=
  match parseInode inode with
  | [] => none
  | t :: etc =>
    let type := getInoType t
    if type = INODE_TYPE then
      match etc with
      | dev :: ino :: crtime :: _ => do
        let dev ← stoulBase 16 dev
        let ino ← stoulBase 16 ino
        let crtime ← stoulBase 16 crtime
        return (type, ⟨getFileUuid (dev.setWidth 32) ino (crtime.setWidth 32), none, ips⟩)
      | _ => none
    else if type = SOCKET_TYPE then
      match etc with
      | rip :: rport :: lip :: lport :: _ => do
        let rport := BitVec.ofInt 16 (← stoiBase 0 rport)
        let lport := BitVec.ofInt 16 (← stoiBase 0 lport)
        let (uuid, ips) ← getNetflowUuid ips lip lport rip rport
        return (type, ⟨uuid, some ⟨lip, lport, rip, rport⟩, ips⟩)
      | _ => none
    else return (type, ⟨0, none, ips⟩)

/-- `sec*1000000000L + nsec` and the sequence number as an event. -/
def readEvent (sec nsec seq : Text) : Option CdmUuid := do
  let sec := BitVec.ofInt 64 (← stollBase 0 sec)
  let nsec := BitVec.ofInt 64 (← stollBase 0 nsec)
  let timestamp := sec * 1000000000 + nsec
  let seq := BitVec.ofInt 32 (← stoiBase 0 seq)
  return (EventUuid.getEventUuid timestamp seq).1

/-- `get_current_uuid` with the event as an output, which other types leave alone. -/
def getCurrentUuidEvent (ips : IpArray) (inode : Text) : Option (Option CdmUuid × Current) :=
  match parseInode inode with
  | [] => none
  | t :: etc =>
    let type := getInoType t
    if type = INODE_TYPE then
      match etc with
      | dev :: ino :: crtime :: _cred :: sec :: nsec :: seq :: _ => do
        let dev := BitVec.ofInt 32 (← stoiBase 16 dev)
        let ino ← stoulBase 16 ino
        let crtime := BitVec.ofInt 32 (← stoiBase 0 crtime)
        let eventUuid ← readEvent sec nsec seq
        return (some eventUuid, ⟨getFileUuid dev ino crtime, none, ips⟩)
      | _ => none
    else if type = SOCKET_TYPE then
      match etc with
      | rip :: rport :: lip :: lport :: _cred :: sec :: nsec :: seq :: _ => do
        let rport := BitVec.ofInt 16 (← stoiBase 0 rport)
        let lport := BitVec.ofInt 16 (← stoiBase 0 lport)
        let eventUuid ← readEvent sec nsec seq
        let (uuid, ips) ← getNetflowUuid ips lip lport rip rport
        return (some eventUuid, ⟨uuid, some ⟨lip, lport, rip, rport⟩, ips⟩)
      | _ => none
    else return (none, ⟨0, none, ips⟩)

/-- Both forms succeed on the record, with the same UUID and the same endpoints. -/
def Agree (ips : IpArray) (inode : Text) : Prop :=
  ∃ r e, getCurrentUuid ips inode = some r ∧ getCurrentUuidEvent ips inode = some e ∧
    r.2.uuid = e.2.uuid ∧ r.2.flow = e.2.flow

/-- The credential, the time and the sequence number of a record, and what follows. -/
structure Tail where
  cred : Text
  sec : NumText
  nsec : NumText
  seq : NumText
  more : List Text
  unbarred : ∀ t ∈ cred :: sec.text :: nsec.text :: seq.text :: more, '|' ∉ t

def Tail.fields (x : Tail) : List Text :=
  x.cred :: x.sec.text :: x.nsec.text :: x.seq.text :: x.more

structure FileRecord where
  dev : HexText 32
  ino : HexText 64
  crtime : HexText 32
  tail : Tail

structure FlowRecord where
  flow : Flow
  rport : Text
  rport_reads : integer 0 rport = some (flow.rport.toNat : ℤ)
  lport : Text
  lport_reads : integer 0 lport = some (flow.lport.toNat : ℤ)
  unbarred : ∀ t ∈ [flow.rip, rport, flow.lip, lport], '|' ∉ t
  tail : Tail

theorem bar_not_mem_hex {w : ℕ} (x : HexText w) : '|' ∉ x.text := by
  intro h
  rw [HexText.text, List.mem_append] at h
  rcases h with h | h
  · rcases x.mark_mem with hmark | ⟨c, hc, hmark⟩
    · rw [hmark] at h
      exact absurd h List.not_mem_nil
    · rw [hmark] at h
      rcases hc with rfl | rfl <;> exact absurd h (by decide)
  · exact absurd rfl (ne_of_isHex (x.isHex _ h) (by decide))

def FileRecord.record (x : FileRecord) : Fields where
  fields := "I".toList :: x.dev.text :: x.ino.text :: x.crtime.text :: x.tail.fields
  ne_nil := List.cons_ne_nil _ _
  unbarred := by
    intro t ht
    simp only [List.mem_cons] at ht
    rcases ht with rfl | rfl | rfl | rfl | ht
    · decide
    · exact bar_not_mem_hex x.dev
    · exact bar_not_mem_hex x.ino
    · exact bar_not_mem_hex x.crtime
    · exact x.tail.unbarred t ht

def FlowRecord.record (x : FlowRecord) : Fields where
  fields := "S".toList :: x.flow.rip :: x.rport :: x.flow.lip :: x.lport :: x.tail.fields
  ne_nil := List.cons_ne_nil _ _
  unbarred := by
    intro t ht
    simp only [List.mem_cons] at ht
    rcases ht with rfl | rfl | rfl | rfl | rfl | ht
    · decide
    · exact x.unbarred _ (by simp)
    · exact x.unbarred _ (by simp)
    · exact x.unbarred _ (by simp)
    · exact x.unbarred _ (by simp)
    · exact x.tail.unbarred t ht

def FileRecord.text (x : FileRecord) : Text := join '|' x.record.fields

def FlowRecord.text (x : FlowRecord) : Text := join '|' x.record.fields

/-- The time fits into two `long long` and the sequence number into an `int`. -/
structure Tail.Fits (x : Tail) : Prop where
  sec : -2 ^ 63 ≤ x.sec.value ∧ x.sec.value < 2 ^ 63
  nsec : -2 ^ 63 ≤ x.nsec.value ∧ x.nsec.value < 2 ^ 63
  seq : -2 ^ 31 ≤ x.seq.value ∧ x.seq.value < 2 ^ 31

/-- The event form reads the device as an `int` and the creation time without a base. -/
structure FileRecord.Fits (x : FileRecord) : Prop where
  dev : x.dev.number < 2 ^ 31
  crtime : x.crtime.ownBase = 16 ∨ x.crtime.number < x.crtime.ownBase
  crtime_lt : x.crtime.number < 2 ^ 31
  tail : x.tail.Fits

theorem FileRecord.parse (x : FileRecord) : ∃ etc, parseInode x.text =
    "I".toList :: x.dev.text :: x.ino.text :: x.crtime.text :: x.tail.cred :: x.tail.sec.text ::
      x.tail.nsec.text :: x.tail.seq.text :: etc := by
  rw [FileRecord.text, parseInode_join, Fields.reread]
  exact ⟨_, rfl⟩

theorem FlowRecord.parse (x : FlowRecord) : ∃ etc, parseInode x.text =
    "S".toList :: x.flow.rip :: x.rport :: x.flow.lip :: x.lport :: x.tail.cred ::
      x.tail.sec.text :: x.tail.nsec.text :: x.tail.seq.text :: etc := by
  rw [FlowRecord.text, parseInode_join, Fields.reread]
  exact ⟨_, rfl⟩

theorem exists_readEvent_iff (x : Tail) :
    (∃ e, readEvent x.sec.text x.nsec.text x.seq.text = some e) ↔ x.Fits := by
  simp only [readEvent, stollBase, stoiBase, x.sec.reads, x.nsec.reads, x.seq.reads,
    Option.bind_eq_bind, Option.bind_eq_some_iff, Option.filter_eq_some_iff, decide_eq_true_eq,
    Option.pure_def, Option.some.injEq]
  constructor
  · rintro ⟨_, _, ⟨rfl, hsec⟩, _, ⟨rfl, hnsec⟩, _, ⟨rfl, hseq⟩, -⟩
    exact ⟨hsec, hnsec, hseq⟩
  · intro h
    exact ⟨_, _, ⟨rfl, h.sec⟩, _, ⟨rfl, h.nsec⟩, _, ⟨rfl, h.seq⟩, rfl⟩

theorem getCurrentUuid_file (ips : IpArray) (x : FileRecord) :
    getCurrentUuid ips x.text = some (INODE_TYPE,
      ⟨getFileUuid (.ofNat 32 x.dev.number) (.ofNat 64 x.ino.number) (.ofNat 32 x.crtime.number),
        none, ips⟩) := by
  obtain ⟨etc, hetc⟩ := x.parse
  have htype : getInoType "I".toList = INODE_TYPE := by decide
  rw [getCurrentUuid, hetc]
  simp only [htype, if_true, x.dev.stoulBase_sixteen (by decide), x.ino.stoulBase_sixteen le_rfl,
    x.crtime.stoulBase_sixteen (by decide), Option.bind_eq_bind, Option.bind_some, Option.pure_def,
    BitVec.setWidth_ofNat_of_le (show 32 ≤ 64 by decide)]

theorem getCurrentUuidEvent_file (ips : IpArray) (x : FileRecord) :
    getCurrentUuidEvent ips x.text = (do
      let dev ← stoiBase 16 x.dev.text
      let crtime ← stoiBase 0 x.crtime.text
      let eventUuid ← readEvent x.tail.sec.text x.tail.nsec.text x.tail.seq.text
      return (some eventUuid, ⟨getFileUuid (.ofInt 32 dev) (.ofNat 64 x.ino.number)
        (.ofInt 32 crtime), none, ips⟩)) := by
  obtain ⟨etc, hetc⟩ := x.parse
  have htype : getInoType "I".toList = INODE_TYPE := by decide
  rw [getCurrentUuidEvent, hetc]
  simp only [htype, if_true, x.ino.stoulBase_sixteen le_rfl, Option.bind_eq_bind, Option.bind_some]

theorem getFileUuid_inj {dev dev' : BitVec 32} {ino ino' : BitVec 64} {crtime crtime' : BitVec 32} :
    getFileUuid dev ino crtime = getFileUuid dev' ino' crtime' ↔
      (crtime = crtime' ∧ ino = ino') ∧ dev = dev' := by
  rw [getFileUuid_eq, getFileUuid_eq, ofWord_injective.eq_iff]
  exact word_file_inj

theorem agree_file_iff (ips : IpArray) (x : FileRecord) : Agree ips x.text ↔ x.Fits := by
  have hdev := x.dev.stoiBase_sixteen
  have hcrtime := x.crtime.stoiBase_zero_iff le_rfl
  simp only [Agree, getCurrentUuid_file, getCurrentUuidEvent_file, Option.bind_eq_bind,
    Option.bind_eq_some_iff, Option.pure_def, Option.some.injEq]
  constructor
  · rintro ⟨_, _, rfl, ⟨dev, hread, crtime, hreadCrtime, event, hevent, rfl⟩, huuid, -⟩
    rw [getFileUuid_inj] at huuid
    obtain ⟨⟨hsame, -⟩, -⟩ := huuid
    rw [hreadCrtime, Option.map_some, Option.some.injEq] at hcrtime
    obtain ⟨hbase, hlt⟩ := hcrtime.1 hsame.symm
    refine ⟨?_, hbase, hlt, (exists_readEvent_iff x.tail).1 ⟨event, hevent⟩⟩
    by_contra hlarge
    rw [hdev, if_neg hlarge] at hread
    cases hread
  · intro h
    rw [if_pos h.dev] at hdev
    obtain ⟨crtime, hread, hsame⟩ := Option.map_eq_some_iff.1 (hcrtime.2 ⟨h.crtime, h.crtime_lt⟩)
    obtain ⟨event, hevent⟩ := (exists_readEvent_iff x.tail).2 h.tail
    refine ⟨_, _, rfl, ⟨_, hdev, crtime, hread, event, hevent, rfl⟩, ?_, rfl⟩
    simp only [hsame, BitVec.ofInt_natCast]

theorem ofInt_toNat (n : BitVec 16) : BitVec.ofInt 16 (n.toNat : ℤ) = n := by
  rw [BitVec.ofInt_natCast, BitVec.ofNat_toNat, BitVec.setWidth_eq]

theorem stoiBase_port {t : Text} {n : BitVec 16} (h : integer 0 t = some (n.toNat : ℤ)) :
    stoiBase 0 t = some (n.toNat : ℤ) := by
  have hn := n.isLt
  have hfits : -2 ^ 31 ≤ (n.toNat : ℤ) ∧ (n.toNat : ℤ) < 2 ^ 31 := by omega
  rw [stoiBase, h, Option.filter_some, if_pos (decide_eq_true hfits)]

theorem getCurrentUuid_flow (ips : IpArray) (x : FlowRecord) :
    getCurrentUuid ips x.text = (x.flow.run ips).map fun r ↦
      (SOCKET_TYPE, ⟨r.1, some x.flow.toCall, r.2⟩) := by
  obtain ⟨etc, hetc⟩ := x.parse
  have htype : getInoType "S".toList = SOCKET_TYPE := by decide
  have hne : SOCKET_TYPE ≠ INODE_TYPE := by decide
  rw [getCurrentUuid, hetc]
  simp only [htype, hne, if_true, if_false, stoiBase_port x.rport_reads,
    stoiBase_port x.lport_reads, Option.bind_eq_bind, Option.bind_some, Option.pure_def,
    ofInt_toNat, Call.run]
  cases getNetflowUuid ips x.flow.lip x.flow.lport x.flow.rip x.flow.rport <;> rfl

theorem getCurrentUuidEvent_flow (ips : IpArray) (x : FlowRecord) :
    getCurrentUuidEvent ips x.text =
      (readEvent x.tail.sec.text x.tail.nsec.text x.tail.seq.text).bind fun event ↦
        (x.flow.run ips).map fun r ↦ (some event, ⟨r.1, some x.flow.toCall, r.2⟩) := by
  obtain ⟨etc, hetc⟩ := x.parse
  have htype : getInoType "S".toList = SOCKET_TYPE := by decide
  have hne : SOCKET_TYPE ≠ INODE_TYPE := by decide
  rw [getCurrentUuidEvent, hetc]
  simp only [htype, hne, if_true, if_false, stoiBase_port x.rport_reads,
    stoiBase_port x.lport_reads, Option.bind_eq_bind, Option.bind_some, Option.pure_def,
    ofInt_toNat, Call.run]
  cases getNetflowUuid ips x.flow.lip x.flow.lport x.flow.rip x.flow.rport <;> rfl

theorem agree_flow_iff (ips : IpArray) (x : FlowRecord) : Agree ips x.text ↔ x.tail.Fits := by
  obtain ⟨r, hr⟩ := x.flow.exists_run ips
  rw [← exists_readEvent_iff, Agree, getCurrentUuid_flow, getCurrentUuidEvent_flow, hr]
  constructor
  · rintro ⟨_, _, -, he, -⟩
    obtain ⟨event, hevent, -⟩ := Option.bind_eq_some_iff.1 he
    exact ⟨event, hevent⟩
  · rintro ⟨event, hevent⟩
    rw [hevent]
    exact ⟨_, _, rfl, rfl, rfl, rfl⟩

/-- When the two forms agree on a record, whatever the static array holds. -/
theorem current_uuid_forms_agree_iff (ips : IpArray) :
    (∀ x : FileRecord, Agree ips x.text ↔ x.Fits) ∧
      ∀ x : FlowRecord, Agree ips x.text ↔ x.tail.Fits :=
  ⟨agree_file_iff ips, agree_flow_iff ips⟩

/-- `I|0|0|10|0|0|0|0`, whose creation time is 16 in one form and ten in the other. -/
def unmarkedRecord : FileRecord where
  dev := ⟨[], ['0'], .inl rfl, by decide, by decide, by decide⟩
  ino := ⟨[], ['0'], .inl rfl, by decide, by decide, by decide⟩
  crtime := ⟨[], ['1', '0'], .inl rfl, by decide, by decide, by decide⟩
  tail :=
    ⟨['0'], ⟨['0'], 0, by decide⟩, ⟨['0'], 0, by decide⟩, ⟨['0'], 0, by decide⟩, [], by decide⟩

theorem creation_time_read_in_two_bases : ¬ Agree 0 unmarkedRecord.text := by
  intro h
  have hfits := (agree_file_iff 0 unmarkedRecord).1 h
  exact absurd hfits.crtime (by decide)

end TheiaTaint.Objects.CurrentUuid
