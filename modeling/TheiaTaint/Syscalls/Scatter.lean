import Mathlib
import TheiaTaint.Syscalls.IovecLoop
import TheiaTaint.Syscalls.Interval

namespace TheiaTaint.Syscalls

open Tags.Directory Engine

def Iovec.bytes (v : Iovec) : List AddrInt := Clear.bytes ⟨v.base, v.len⟩

/-- The buffers of an I/O vector one after the other. -/
def concatenation (vs : List Iovec) : List AddrInt := vs.flatMap Iovec.bytes

/-- A finished scatter read: the memory before and after it, and the vector that it used. It
changed nothing but the first bytes of the buffers. -/
structure ScatterRead where
  before : Memory
  after : Memory
  ctx : SyscallCtx
  vs : List Iovec
  pos : 0 < ctx.ret.toInt
  le : ctx.ret.toNat ≤ totalLen vs
  vector : HasIovecs before (ctx.arg 1) 0 vs
  kept : ∀ a ∉ (concatenation vs).take ctx.ret.toNat, after a = before a

/-- A finished `readv` or `preadv`, whose number of buffers is an `int`. -/
structure ReadvCall extends ScatterRead where
  count : ((ctx.arg 2).setWidth 32).toInt = vs.length

/-- A message header in memory. -/
structure Msghdr (mem : Memory) (msg : AddrInt) where
  msgName : BitVec 64
  msgNamelen : BitVec 64
  msgIov : AddrInt
  msgIovlen : BitVec 64
  msgControl : BitVec 64
  msgControllen : BitVec 64
  loadName : mem.load msg 8 = some msgName
  loadNamelen : mem.load (msg + 8) 4 = some msgNamelen
  loadIov : mem.load (msg + 16) 8 = some msgIov
  loadIovlen : mem.load (msg + 24) 8 = some msgIovlen
  loadControl : mem.load (msg + 32) 8 = some msgControl
  loadControllen : mem.load (msg + 40) 8 = some msgControllen

/-- A header with a vector for a message of `tot` bytes, the first of which are in its
buffers. -/
structure Received (mem : Memory) (msg : AddrInt) (tot : ℕ) extends Msghdr mem msg where
  vs : List Iovec
  count : msgIovlen.toNat = vs.length
  readable : Readable mem msgIov 0 vs tot

namespace Msghdr

variable {mem : Memory} {msg : AddrInt} (h : Msghdr mem msg)

/-- The buffer of the source address, when there is one, and its length field. -/
def nameBytes : List AddrInt :=
  if h.msgName = 0 then []
  else Clear.bytes ⟨h.msgName, h.msgNamelen⟩ ++ Clear.bytes ⟨msg + 8, sizeofSocklenT⟩

/-- The buffer of the ancillary data, when there is one. -/
def controlBytes : List AddrInt :=
  if h.msgControl = 0 then [] else Clear.bytes ⟨h.msgControl, h.msgControllen⟩

def controllenBytes (size : BitVec 64) : List AddrInt :=
  if h.msgControl = 0 then [] else Clear.bytes ⟨msg + 40, size⟩

end Msghdr

namespace Received

variable {mem : Memory} {msg : AddrInt} {tot : ℕ} (r : Received mem msg tot)

def filled : List AddrInt := (concatenation r.vs).take tot

/-- What the hooks for a receive clear: the header, which has a `controllen` field of `size`
bytes, and the data. -/
def bytes (size : BitVec 64) : List AddrInt :=
  r.nameBytes ++ r.controlBytes ++ r.controllenBytes size ++ Clear.bytes ⟨msg + 48, sizeofInt⟩ ++
    r.filled

/-- The two headers have the same buffers, whatever their lengths for name and control. -/
structure SamePointers {mem' : Memory} (supplied : Received mem' msg tot) : Prop where
  msgName : r.msgName = supplied.msgName
  msgControl : r.msgControl = supplied.msgControl
  vs : r.vs = supplied.vs

/-- What a receive may change: the buffers of its header, and the length and flags fields. -/
def mayChange : List AddrInt :=
  r.bytes sizeofSizeT ++ Clear.bytes ⟨msg + 8, sizeofSocklenT⟩ ++ Clear.bytes ⟨msg + 40, sizeofSizeT⟩

end Received

/-- A finished `recvmsg`, with the header and the vector that were supplied. -/
structure RecvmsgCall where
  before : Memory
  after : Memory
  ctx : SyscallCtx
  pos : 0 < ctx.ret.toInt
  supplied : Received before (ctx.arg 1) ctx.ret.toNat
  le : ctx.ret.toNat ≤ totalLen supplied.vs
  mapped : ∀ a, (before a).isSome → (after a).isSome
  kept : ∀ a ∉ supplied.mayChange, after a = before a

def ScatterRead.filled (c : ScatterRead) : List AddrInt :=
  (concatenation c.vs).take c.ctx.ret.toNat

def ScatterRead.vectorBytes (c : ScatterRead) : List AddrInt :=
  bytesFrom (c.ctx.arg 1) (16 * c.vs.length)

variable {mem : Memory} {iov : AddrInt} {i tot : ℕ} {v : Iovec} {vs : List Iovec}

theorem length_bytes (v : Iovec) : v.bytes.length = v.len.toNat := by
  rw [Iovec.bytes, Clear.bytes, length_bytesFrom]

theorem flatMap_bytes_firstBytes (vs : List Iovec) (tot : ℕ) :
    (firstBytes vs tot).flatMap Clear.bytes = (concatenation vs).take tot := by
  induction vs generalizing tot with
  | nil => exact (List.take_nil).symm
  | cons v vs ih =>
    have hhead : Clear.bytes ⟨v.base, BitVec.ofNat 64 (min v.len.toNat tot)⟩ =
        v.bytes.take tot := by
      have hlen := v.len.isLt
      have hnum : (BitVec.ofNat 64 (min v.len.toNat tot)).toNat = min tot v.len.toNat := by
        rw [BitVec.toNat_ofNat, Nat.min_comm]
        exact Nat.mod_eq_of_lt (by omega)
      rw [Iovec.bytes, Clear.bytes, Clear.bytes, bytesFrom, bytesFrom, ← List.map_take,
        List.take_range, hnum]
    rw [concatenation, List.flatMap_cons, ← concatenation, List.take_append, length_bytes]
    by_cases hzero : tot = 0
    · subst hzero
      rw [firstBytes, if_pos rfl, List.take_zero, Nat.zero_sub, List.take_zero]
      rfl
    · rw [firstBytes, if_neg hzero, List.flatMap_cons, hhead, ih]

section Hooks

variable {T : Type*} [SemilatticeSup T] [OrderBot T]

/-- The hook clears the first bytes of the buffers and no others. It clears once for each element
of the vector that it reads, and reads none past the one that holds the last byte. -/
def ReadvCall.Untags (c : ReadvCall) (s : FlatState T) : Prop :=
  ∃ cs, postReadvHook c.after c.ctx = some cs ∧
    cs.length ≤ (firstBytes c.vs c.ctx.ret.toNat).length ∧ clearAllFlat cs s = untag c.filled s

/-- The same for `post_process_vm_readv_hook`. -/
def ScatterRead.Untags (c : ScatterRead) (s : FlatState T) : Prop :=
  ∃ fuel cs, postProcessVmReadvHook fuel c.after c.ctx = some cs ∧
    cs.length ≤ (firstBytes c.vs c.ctx.ret.toNat).length ∧ clearAllFlat cs s = untag c.filled s

/-- The hook clears the first bytes of the buffers, and besides only what was supplied for the
header to fill. -/
def RecvmsgCall.Untags (c : RecvmsgCall) (s : FlatState T) : Prop :=
  ∃ cs data, postRecvmsgHook c.after c.ctx = some cs ∧
    msghdrData c.after (c.ctx.arg 1) c.ctx.ret = some data ∧
    data.length ≤ (firstBytes c.supplied.vs c.ctx.ret.toNat).length ∧
    (clearAllFlat cs s).gpr = s.gpr ∧
    (∀ a ∈ c.supplied.filled, (clearAllFlat cs s).mem a = clearedVal) ∧
    ∀ a ∉ c.supplied.mayChange, (clearAllFlat cs s).mem a = s.mem a

/-- The vector that the hook finds takes it no further than the vector of the call, and to the
same tags. -/
structure SameTagged (found vs : List Iovec) (tot : ℕ) (s : FlatState T) : Prop where
  reads : (firstBytes found tot).length ≤ (firstBytes vs tot).length
  tagged : ∀ a, (a ∈ (concatenation found).take tot ↔ a ∈ (concatenation vs).take tot) ∨
    s.mem a = clearedVal

/-- The header that the hook finds takes it to the tags of the data, and to no others than those
of what was supplied. -/
structure RecvmsgCall.Within (c : RecvmsgCall)
    (found : Received c.after (c.ctx.arg 1) c.ctx.ret.toNat) (s : FlatState T) : Prop where
  reads : (firstBytes found.vs c.ctx.ret.toNat).length ≤
    (firstBytes c.supplied.vs c.ctx.ret.toNat).length
  filled : ∀ a ∈ c.supplied.filled, a ∈ found.bytes sizeofSizeT ∨ s.mem a = clearedVal
  others : ∀ a ∈ found.bytes sizeofSizeT, a ∈ c.supplied.mayChange ∨ s.mem a = clearedVal

theorem clearAllFlat_firstBytes (vs : List Iovec) (tot : ℕ) (s : FlatState T) :
    clearAllFlat (firstBytes vs tot) s = untag ((concatenation vs).take tot) s := by
  rw [clearAllFlat_eq_untag, flatMap_bytes_firstBytes]

theorem sameTagged_iff {found : List Iovec} {s : FlatState T} :
    SameTagged found vs tot s ↔ (firstBytes found tot).length ≤ (firstBytes vs tot).length ∧
      clearAllFlat (firstBytes found tot) s = untag ((concatenation vs).take tot) s := by
  rw [clearAllFlat_firstBytes, untag_eq_untag_iff]
  exact ⟨fun h ↦ ⟨h.reads, h.tagged⟩, fun h ↦ ⟨h.1, h.2⟩⟩

theorem SameTagged.rfl {s : FlatState T} : SameTagged vs vs tot s :=
  ⟨le_rfl, fun _ ↦ .inl Iff.rfl⟩

theorem ReadvCall.hook_iff (c : ReadvCall) {p : List Clear → Prop} :
    (∃ cs, postReadvHook c.after c.ctx = some cs ∧ p cs) ↔
      ∃ found : List Iovec, found.length = c.vs.length ∧
        Readable c.after (c.ctx.arg 1) 0 found c.ctx.ret.toNat ∧
          p (firstBytes found c.ctx.ret.toNat) := by
  have hhook : postReadvHook c.after c.ctx =
      iovecLoop c.after (c.ctx.arg 1) c.vs.length 0 c.ctx.ret := by
    rw [postReadvHook, whenPositive, if_neg (not_le.2 c.pos), c.count, Int.toNat_natCast]
  rw [hhook]
  constructor
  · rintro ⟨cs, hcs, hp⟩
    obtain ⟨found, hlength, hread, rfl⟩ := exists_readable hcs
    exact ⟨found, hlength, hread, hp⟩
  · rintro ⟨found, hlength, hread, hp⟩
    have hloop := (iovecLoop_isIovecLoop c.after _).of_readable hread (.inr fun _ _ ↦ rfl)
    rw [hlength] at hloop
    exact ⟨_, hloop, hp⟩

theorem ScatterRead.hook_iff (c : ScatterRead) {p : List Clear → Prop} :
    (∃ fuel cs, postProcessVmReadvHook fuel c.after c.ctx = some cs ∧ p cs) ↔
      ∃ found, HasIovecs c.after (c.ctx.arg 1) 0 found ∧ c.ctx.ret.toNat ≤ totalLen found ∧
        p (firstBytes found c.ctx.ret.toNat) := by
  simp only [postProcessVmReadvHook, whenNonnegUnsigned_eq]
  exact processVmReadvLoop_iff

theorem msghdrData_eq {msg : AddrInt} {tot : BitVec 64} (r : Received mem msg tot.toNat) :
    msghdrData mem msg tot = some (firstBytes r.vs tot.toNat) := by
  rw [msghdrData, r.loadIovlen, r.loadIov, Option.bind_eq_bind, Option.bind_some,
    Option.bind_some, r.count]
  exact (iovecLoop_isIovecLoop mem _).of_readable r.readable (.inr fun _ _ ↦ rfl)

theorem Msghdr.exists_received {msg : AddrInt} (h : Msghdr mem msg) {tot : BitVec 64}
    {data : List Clear} (hdata : msghdrData mem msg tot = some data) :
    ∃ r : Received mem msg tot.toNat, r.toMsghdr = h := by
  rw [msghdrData, h.loadIovlen, h.loadIov, Option.bind_eq_bind, Option.bind_some,
    Option.bind_some] at hdata
  obtain ⟨vs, hlength, hread, -⟩ := exists_readable hdata
  exact ⟨{ h with vs := vs, count := hlength.symm, readable := hread }, rfl⟩

theorem msghdrClears_eq {msg : AddrInt} (h : Msghdr mem msg) (size : BitVec 64) :
    ∃ cs, msghdrClears mem msg size = some cs ∧
      cs.flatMap Clear.bytes = h.nameBytes ++ h.controlBytes ++ h.controllenBytes size ++
        Clear.bytes ⟨msg + 48, sizeofInt⟩ := by
  simp only [msghdrClears, h.loadName, h.loadNamelen, h.loadControl, h.loadControllen,
    Msghdr.nameBytes, Msghdr.controlBytes, Msghdr.controllenBytes, Option.bind_eq_bind,
    Option.bind_some, Option.map_some, ne_eq, ite_not]
  by_cases hname : h.msgName = 0
  · by_cases hcontrol : h.msgControl = 0
    · rw [if_pos hname, if_pos hcontrol, if_pos hname, if_pos hcontrol, if_pos hcontrol]
      exact ⟨_, rfl, by simp⟩
    · rw [if_pos hname, if_neg hcontrol, if_pos hname, if_neg hcontrol, if_neg hcontrol]
      exact ⟨_, rfl, by simp⟩
  · by_cases hcontrol : h.msgControl = 0
    · rw [if_neg hname, if_pos hcontrol, if_neg hname, if_pos hcontrol, if_pos hcontrol]
      exact ⟨_, rfl, by simp⟩
    · rw [if_neg hname, if_neg hcontrol, if_neg hname, if_neg hcontrol, if_neg hcontrol]
      exact ⟨_, rfl, by simp⟩

theorem postRecvmsgHook_eq {ctx : SyscallCtx} (hpos : 0 < ctx.ret.toInt)
    (found : Received mem (ctx.arg 1) ctx.ret.toNat) :
    ∃ cs, postRecvmsgHook mem ctx = some cs ∧
      cs.flatMap Clear.bytes = found.bytes sizeofSizeT := by
  obtain ⟨fields, hfields, hbytes⟩ := msghdrClears_eq found.toMsghdr sizeofSizeT
  refine ⟨fields ++ firstBytes found.vs ctx.ret.toNat, ?_, ?_⟩
  · rw [postRecvmsgHook, whenPositive, if_neg (not_le.2 hpos), hfields, msghdrData_eq found]
    rfl
  · rw [List.flatMap_append, hbytes, flatMap_bytes_firstBytes]
    rfl

theorem RecvmsgCall.exists_received (c : RecvmsgCall) {data : List Clear}
    (hdata : msghdrData c.after (c.ctx.arg 1) c.ctx.ret = some data) :
    Nonempty (Received c.after (c.ctx.arg 1) c.ctx.ret.toNat) := by
  have hload {addr : AddrInt} {n : ℕ} {value : BitVec 64} (h : c.before.load addr n = some value) :
      ∃ value', c.after.load addr n = some value' :=
    Option.isSome_iff_exists.1 (isSome_load c.mapped (Option.isSome_of_eq_some h))
  obtain ⟨_, hname⟩ := hload c.supplied.loadName
  obtain ⟨_, hnamelen⟩ := hload c.supplied.loadNamelen
  obtain ⟨_, hiov⟩ := hload c.supplied.loadIov
  obtain ⟨_, hiovlen⟩ := hload c.supplied.loadIovlen
  obtain ⟨_, hcontrol⟩ := hload c.supplied.loadControl
  obtain ⟨_, hcontrollen⟩ := hload c.supplied.loadControllen
  obtain ⟨r, -⟩ := Msghdr.exists_received
    ⟨_, _, _, _, _, _, hname, hnamelen, hiov, hiovlen, hcontrol, hcontrollen⟩ hdata
  exact ⟨r⟩

theorem RecvmsgCall.untags_iff_within (c : RecvmsgCall)
    (found : Received c.after (c.ctx.arg 1) c.ctx.ret.toNat) (s : FlatState T) :
    c.Untags s ↔ c.Within found s := by
  obtain ⟨cs, hcs, hbytes⟩ := postRecvmsgHook_eq c.pos found
  have hstate : clearAllFlat cs s = untag (found.bytes sizeofSizeT) s := by
    rw [clearAllFlat_eq_untag, hbytes]
  have hdata := msghdrData_eq found
  constructor
  · rintro ⟨cs', data, hcs', hdata', hreads, -, hfilled, hothers⟩
    rw [hcs, Option.some.injEq] at hcs'
    rw [hdata, Option.some.injEq] at hdata'
    subst hcs' hdata'
    rw [hstate] at hfilled hothers
    refine ⟨hreads, fun a ha ↦ ?_, fun a ha ↦ ?_⟩
    · by_cases hin : a ∈ found.bytes sizeofSizeT
      · exact .inl hin
      · exact .inr ((if_neg hin).symm.trans (hfilled a ha))
    · by_cases hin : a ∈ c.supplied.mayChange
      · exact .inl hin
      · exact .inr ((hothers a hin).symm.trans (if_pos ha))
  · intro h
    refine ⟨cs, _, hcs, hdata, h.reads, ?_, fun a ha ↦ ?_, fun a ha ↦ ?_⟩
    · rw [hstate]
      rfl
    · rw [hstate]
      rcases h.filled a ha with hin | hclear
      · exact if_pos hin
      · exact (congrArg _ hclear).trans (ite_self _)
    · rw [hstate]
      by_cases hin : a ∈ found.bytes sizeofSizeT
      · exact (if_pos hin).trans ((h.others a hin).resolve_left ha).symm
      · exact if_neg hin

theorem RecvmsgCall.untags_iff (c : RecvmsgCall) (s : FlatState T) :
    c.Untags s ↔ ∃ found, c.Within found s := by
  constructor
  · intro h
    obtain ⟨-, data, -, hdata, -⟩ := id h
    obtain ⟨found⟩ := c.exists_received hdata
    exact ⟨found, (c.untags_iff_within found s).1 h⟩
  · rintro ⟨found, h⟩
    exact (c.untags_iff_within found s).2 h

/-- With the pointers and the vector as they were supplied, only the lengths of the name and the
control buffer matter. -/
theorem RecvmsgCall.untags_iff_of_samePointers (c : RecvmsgCall)
    (found : Received c.after (c.ctx.arg 1) c.ctx.ret.toNat) (h : found.SamePointers c.supplied)
    (s : FlatState T) :
    c.Untags s ↔ ∀ a ∈ found.nameBytes ++ found.controlBytes,
      a ∈ c.supplied.mayChange ∨ s.mem a = clearedVal := by
  have hfilled : found.filled = c.supplied.filled := by
    rw [Received.filled, Received.filled, h.vs]
  rw [c.untags_iff_within found s]
  constructor
  · intro hwithin a ha
    refine hwithin.others a ?_
    rw [Received.bytes, List.append_assoc, List.append_assoc]
    exact List.mem_append_left _ ha
  · intro hheader
    refine ⟨by rw [h.vs], fun a ha ↦ .inl ?_, fun a ha ↦ ?_⟩
    · rw [Received.bytes, hfilled]
      exact List.mem_append_right _ ha
    · rw [Received.bytes, List.mem_append, List.mem_append, List.mem_append] at ha
      rcases ha with ((ha | ha) | ha) | ha
      · exact hheader a ha
      · refine .inl (List.mem_append_right _ ?_)
        rw [Msghdr.controllenBytes] at ha
        split at ha
        · cases ha
        · exact ha
      · refine .inl (List.mem_append_left _ (List.mem_append_left _ ?_))
        rw [Received.bytes]
        exact List.mem_append_left _ (List.mem_append_right _ ha)
      · refine .inl (List.mem_append_left _ (List.mem_append_left _ ?_))
        rw [Received.bytes, ← hfilled]
        exact List.mem_append_right _ ha

theorem mem_nameBytes_of_le {mem' : Memory} {msg : AddrInt} {h : Msghdr mem msg}
    {supplied : Msghdr mem' msg} (hname : h.msgName = supplied.msgName)
    (hle : h.msgNamelen.toNat ≤ supplied.msgNamelen.toNat) {a : AddrInt} (ha : a ∈ h.nameBytes) :
    a ∈ supplied.nameBytes := by
  rw [Msghdr.nameBytes, hname] at ha
  rw [Msghdr.nameBytes]
  split at ha
  · cases ha
  · rename_i hnull
    rw [if_neg hnull]
    exact (List.mem_append.1 ha).elim
      (fun hbuf ↦ List.mem_append_left _ (bytesFrom_mono _ hle hbuf)) (List.mem_append_right _)

theorem mem_controlBytes_of_le {mem' : Memory} {msg : AddrInt} {h : Msghdr mem msg}
    {supplied : Msghdr mem' msg} (hcontrol : h.msgControl = supplied.msgControl)
    (hle : h.msgControllen.toNat ≤ supplied.msgControllen.toNat) {a : AddrInt}
    (ha : a ∈ h.controlBytes) : a ∈ supplied.controlBytes := by
  rw [Msghdr.controlBytes, hcontrol] at ha
  rw [Msghdr.controlBytes]
  split at ha
  · cases ha
  · rename_i hnull
    rw [if_neg hnull]
    exact bytesFrom_mono _ hle ha

/-- Lengths that have not grown keep the hook inside the buffers. -/
theorem RecvmsgCall.mem_mayChange_of_le (c : RecvmsgCall)
    {found : Received c.after (c.ctx.arg 1) c.ctx.ret.toNat} (h : found.SamePointers c.supplied)
    (hname : found.msgNamelen.toNat ≤ c.supplied.msgNamelen.toNat)
    (hcontrol : found.msgControllen.toNat ≤ c.supplied.msgControllen.toNat) {a : AddrInt}
    (ha : a ∈ found.nameBytes ++ found.controlBytes) : a ∈ c.supplied.mayChange := by
  have hheader : a ∈ c.supplied.nameBytes ++ c.supplied.controlBytes := by
    rcases List.mem_append.1 ha with ha | ha
    · exact List.mem_append_left _ (mem_nameBytes_of_le h.msgName hname ha)
    · exact List.mem_append_right _ (mem_controlBytes_of_le h.msgControl hcontrol ha)
  refine List.mem_append_left _ (List.mem_append_left _ ?_)
  rw [Received.bytes, List.append_assoc, List.append_assoc]
  exact List.mem_append_left _ hheader

theorem HasIovecs.congr {mem' : Memory} (hvs : HasIovecs mem iov i vs)
    (h : ∀ a ∈ bytesFrom (iov + BitVec.ofNat 64 (16 * i)) (16 * vs.length), mem a = mem' a) :
    HasIovecs mem' iov i vs := by
  induction vs generalizing i with
  | nil => trivial
  | cons v vs ih =>
    rw [List.length_cons, Nat.mul_succ, Nat.add_comm, bytesFrom_add, List.forall_mem_append,
      BitVec.add_assoc, ← BitVec.ofNat_add, ← Nat.mul_succ] at h
    exact ⟨(iovec_congr h.1).symm.trans hvs.1, ih hvs.2 h.2⟩

theorem ScatterRead.hasIovecs_after (c : ScatterRead) (h : ∀ a ∈ c.filled, a ∉ c.vectorBytes) :
    HasIovecs c.after (c.ctx.arg 1) 0 c.vs := by
  refine c.vector.congr fun a ha ↦ ?_
  rw [Nat.mul_zero, BitVec.add_zero] at ha
  exact (c.kept a fun hfilled ↦ h a hfilled ha).symm

/-- The hooks for scatter reads clear the tags of what the call filled and no others exactly when
the vector and the header that they find after the call take them to the same tags: always when
the data has not been written over the vector, apart from the name and the control buffer of a
message, whose lengths the call has replaced. -/
theorem scatter_reads_untag_iff (s : FlatState T) :
    (∀ c : ReadvCall, c.Untags s ↔ ∃ found : List Iovec, found.length = c.vs.length ∧
      Readable c.after (c.ctx.arg 1) 0 found c.ctx.ret.toNat ∧
        SameTagged found c.vs c.ctx.ret.toNat s) ∧
    (∀ c : ScatterRead, c.Untags s ↔ ∃ found, HasIovecs c.after (c.ctx.arg 1) 0 found ∧
      c.ctx.ret.toNat ≤ totalLen found ∧ SameTagged found c.vs c.ctx.ret.toNat s) ∧
    (∀ c : RecvmsgCall, c.Untags s ↔ ∃ found, c.Within found s) ∧
    (∀ c : ReadvCall, (∀ a ∈ c.filled, a ∉ c.vectorBytes) → c.Untags s) ∧
    (∀ c : ScatterRead, (∀ a ∈ c.filled, a ∉ c.vectorBytes) → c.Untags s) ∧
    ∀ (c : RecvmsgCall) (found : Received c.after (c.ctx.arg 1) c.ctx.ret.toNat),
      found.SamePointers c.supplied →
        (c.Untags s ↔ ∀ a ∈ found.nameBytes ++ found.controlBytes,
          a ∈ c.supplied.mayChange ∨ s.mem a = clearedVal) := by
  have hreadv (c : ReadvCall) : c.Untags s ↔ ∃ found : List Iovec, found.length = c.vs.length ∧
      Readable c.after (c.ctx.arg 1) 0 found c.ctx.ret.toNat ∧
        SameTagged found c.vs c.ctx.ret.toNat s := by
    simp only [sameTagged_iff]
    exact c.hook_iff
  have hread (c : ScatterRead) : c.Untags s ↔ ∃ found,
      HasIovecs c.after (c.ctx.arg 1) 0 found ∧ c.ctx.ret.toNat ≤ totalLen found ∧
        SameTagged found c.vs c.ctx.ret.toNat s := by
    simp only [sameTagged_iff]
    exact c.hook_iff
  refine ⟨hreadv, hread, fun c ↦ c.untags_iff s, fun c h ↦ (hreadv c).2 ?_,
    fun c h ↦ (hread c).2 ?_, fun c found h ↦ c.untags_iff_of_samePointers found h s⟩
  · exact ⟨c.vs, rfl, (c.hasIovecs_after h).readable _, .rfl⟩
  · exact ⟨c.vs, c.hasIovecs_after h, c.le, .rfl⟩

end Hooks

/-- An I/O vector at `0x1000` with buffers of 2, 0 and 4 bytes, and a message header at `0x5000`
with that vector and a buffer for a name of `namelen` bytes. -/
def sampleMemory (namelen : BitVec 8) : Memory := fun a ↦
  if a = 0x5008 then some namelen
  else some <| match a.toNat with
    | 0x1001 => 0x20
    | 0x1008 => 2
    | 0x1011 => 0x30
    | 0x1021 => 0x40
    | 0x1028 => 4
    | 0x5001 => 0x60
    | 0x5011 => 0x10
    | 0x5018 => 3
    | _ => 0

def sampleVector : List Iovec := [⟨0x2000, 2⟩, ⟨0x3000, 0⟩, ⟨0x4000, 4⟩]

theorem hasIovecs_sampleVector (namelen : BitVec 8) :
    HasIovecs (sampleMemory namelen) 0x1000 0 sampleVector := by
  refine ⟨?_, ?_, ?_, trivial⟩ <;> revert namelen <;> decide +kernel

theorem three_pos : 0 < (3 : BitVec 64).toInt := by decide

theorem three_le_totalLen : 3 ≤ totalLen sampleVector := by decide

/-- Three bytes were read, the third of them into the last buffer. -/
def sampleRead (nr : Fin syscallMax) : ScatterRead where
  before := sampleMemory 0
  after a := if a = 0x2000 ∨ a = 0x2001 ∨ a = 0x4000 then some 0x41 else sampleMemory 0 a
  ctx := ⟨some nr, ![5, 0x1000, 3, 0, 0, 0], 3⟩
  vs := sampleVector
  pos := three_pos
  le := three_le_totalLen
  vector := hasIovecs_sampleVector 0
  kept a ha := by
    have hfilled : a ∉ [0x2000, 0x2001, 0x4000] := ha
    simp only [List.mem_cons, List.not_mem_nil, or_false] at hfilled
    exact if_neg hfilled

def sampleReadv : ReadvCall := { sampleRead 19 with count := rfl }

def sampleMessage (namelen : BitVec 8) : Received (sampleMemory namelen) 0x5000 3 where
  msgName := 0x6000
  msgNamelen := namelen.setWidth 64
  msgIov := 0x1000
  msgIovlen := 3
  msgControl := 0
  msgControllen := 0
  loadName := by revert namelen; decide +kernel
  loadNamelen := by revert namelen; decide +kernel
  loadIov := by revert namelen; decide +kernel
  loadIovlen := by revert namelen; decide +kernel
  loadControl := by revert namelen; decide +kernel
  loadControllen := by revert namelen; decide +kernel
  vs := sampleVector
  count := rfl
  readable := (hasIovecs_sampleVector namelen).readable 3

/-- A message of three bytes from a source whose address has `stored` bytes, where `supplied`
bytes were there to take it. -/
def sampleRecvmsg (supplied stored : BitVec 8) : RecvmsgCall where
  before := sampleMemory supplied
  after := sampleMemory stored
  ctx := ⟨some 47, ![5, 0x5000, 0, 0, 0, 0], 3⟩
  pos := three_pos
  supplied := sampleMessage supplied
  le := three_le_totalLen
  mapped a _ := by
    rw [sampleMemory]
    split <;> rfl
  kept a ha := by
    have hfield : a ≠ 0x5008 := by
      rintro rfl
      refine ha (List.mem_append_left _ (List.mem_append_right _ ?_))
      decide
    rw [sampleMemory, sampleMemory, if_neg hfield, if_neg hfield]

def allTagged : FlatState (Finset (BitVec 32)) := ⟨fun _ _ ↦ clearedVal, fun _ ↦ {0}⟩

theorem scatter_reads_untag_iff_sampleCalls :
    sampleReadv.Untags allTagged ∧ (sampleRead 310).Untags allTagged ∧
      (sampleRecvmsg 16 8).Untags allTagged := by
  obtain ⟨-, -, -, hreadv, hread, hrecvmsg⟩ := scatter_reads_untag_iff allTagged
  have hend : (0x1000 : AddrInt).toNat + 48 ≤ 2 ^ 64 := by decide
  have hbytes (nr) : (sampleRead nr).filled = [0x2000, 0x2001, 0x4000] := rfl
  have hfilled (nr) : ∀ a ∈ (sampleRead nr).filled, 0x1030 ≤ a.toNat := by simp [hbytes]
  have happart (nr) : ∀ a ∈ (sampleRead nr).filled, a ∉ (sampleRead nr).vectorBytes :=
    fun a ha hvector ↦ absurd ((mem_bytesFrom hend).1 hvector).2 (not_lt.2 (hfilled nr a ha))
  refine ⟨hreadv sampleReadv (happart 19), hread (sampleRead 310) (happart 310), ?_⟩
  refine (hrecvmsg _ (sampleMessage 8) ⟨rfl, rfl, rfl⟩).2 fun a ha ↦ .inl ?_
  exact (sampleRecvmsg 16 8).mem_mayChange_of_le ⟨rfl, rfl, rfl⟩ (by decide) (by decide) ha

/-- The kernel stores the full length of an address that it has cut short. -/
theorem recvmsg_untags_past_name :
    ¬ ∀ s : FlatState (Finset (BitVec 32)), (∀ c : ReadvCall, c.Untags s) ∧
      (∀ c : ScatterRead, c.Untags s) ∧ ∀ c : RecvmsgCall, c.Untags s := by
  intro h
  have huntags := (h allTagged).2.2 (sampleRecvmsg 8 16)
  rw [(sampleRecvmsg 8 16).untags_iff_of_samePointers (sampleMessage 16) ⟨rfl, rfl, rfl⟩] at huntags
  rcases huntags 0x6008 (by decide) with hin | hclear
  · revert hin
    decide
  · exact Finset.singleton_ne_empty _ hclear

end TheiaTaint.Syscalls
