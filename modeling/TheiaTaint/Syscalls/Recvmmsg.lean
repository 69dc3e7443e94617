import Mathlib
import TheiaTaint.Syscalls.Scatter

namespace TheiaTaint.Syscalls

open Tags.Directory Engine

/-- The upper half of the field `msg_controllen`, when there is ancillary data. -/
def Msghdr.upperBytes {mem : Memory} {msg : AddrInt} (h : Msghdr mem msg) : List AddrInt :=
  if h.msgControl = 0 then [] else Clear.bytes ⟨msg + 44, 4⟩

structure RecvmmsgCall (mem : Memory) where
  ctx : SyscallCtx
  nonneg : 0 ≤ ctx.ret.toInt
  msgLen : Fin ctx.ret.toNat → BitVec 64
  loadMsgLen : ∀ i : Fin ctx.ret.toNat,
    mem.load (ctx.arg 1 + sizeofMmsghdr * BitVec.ofNat 64 i + sizeofMsghdr) 4 = some (msgLen i)
  received : ∀ i : Fin ctx.ret.toNat,
    Received mem (ctx.arg 1 + sizeofMmsghdr * BitVec.ofNat 64 i) (msgLen i).toNat

namespace RecvmmsgCall

variable {mem : Memory} (c : RecvmmsgCall mem)

/-- What a `recvmsg` with the result `msg_len` and the field `msg_len` fill. -/
def messageBytes (size : BitVec 64) (i : Fin c.ctx.ret.toNat) : List AddrInt :=
  (c.received i).bytes size ++ (msgLenField (c.ctx.arg 1) i).bytes

def timeoutBytes : List AddrInt :=
  if c.ctx.arg 4 = 0 then [] else Clear.bytes ⟨c.ctx.arg 4, sizeofTimespec⟩

/-- The bytes at `NULL`, when there is no timeout. -/
def nullBytes : List AddrInt :=
  if c.ctx.arg 4 = 0 then Clear.bytes ⟨0, sizeofTimespec⟩ else []

def upperBytes : List AddrInt :=
  (List.finRange c.ctx.ret.toNat).flatMap fun i ↦ (c.received i).upperBytes

def commonBytes : List AddrInt :=
  (List.finRange c.ctx.ret.toNat).flatMap (c.messageBytes sizeofInt) ++ c.timeoutBytes

variable {T : Type*} [SemilatticeSup T] [OrderBot T]

/-- The clearing of `recvmsg` for each message, and the timeout. -/
def iteratedRecvmsg (s : FlatState T) : FlatState T :=
  untag c.timeoutBytes <|
    (List.finRange c.ctx.ret.toNat).foldl (fun s i ↦ untag (c.messageBytes sizeofSizeT i) s) s

def Iterates (s : FlatState T) : Prop :=
  (postRecvmmsgHook mem c.ctx).map (clearAllFlat · s) = some (c.iteratedRecvmsg s)

/-- Only the upper halves of `msg_controllen` and the bytes at `NULL` are cleared by one
side alone, and these bytes have no tags. -/
def Harmless (s : FlatState T) : Prop :=
  ∀ a ∉ c.commonBytes, (a ∈ c.upperBytes ↔ a ∈ c.nullBytes) ∨ s.mem a = clearedVal

end RecvmmsgCall

variable {T : Type*} [SemilatticeSup T] [OrderBot T] {mem : Memory}

theorem foldl_untag_eq {α : Type*} (bytes : α → List AddrInt) (l : List α) (s : FlatState T) :
    l.foldl (fun s i ↦ untag (bytes i) s) s = untag (l.flatMap bytes) s := by
  induction l generalizing s with
  | nil => exact (untag_nil s).symm
  | cons i l ih => rw [List.foldl_cons, ih, untag_untag, List.flatMap_cons]

theorem Msghdr.controllenBytes_sizeofSizeT {msg : AddrInt} (h : Msghdr mem msg) :
    h.controllenBytes sizeofSizeT = h.controllenBytes sizeofInt ++ h.upperBytes := by
  have hfield : Clear.bytes ⟨msg + 40, sizeofSizeT⟩ =
      Clear.bytes ⟨msg + 40, sizeofInt⟩ ++ Clear.bytes ⟨msg + 44, 4⟩ := by
    have hupper : msg + 40 + BitVec.ofNat 64 4 = msg + 44 := by
      rw [BitVec.add_assoc]
      rfl
    rw [← hupper]
    exact bytesFrom_add _ 4 4
  by_cases hcontrol : h.msgControl = 0
  · rw [controllenBytes, controllenBytes, upperBytes, if_pos hcontrol, if_pos hcontrol,
      if_pos hcontrol, List.append_nil]
  · rw [controllenBytes, controllenBytes, upperBytes, if_neg hcontrol, if_neg hcontrol,
      if_neg hcontrol, hfield]

theorem exists_mapM_clears {α : Type*} {f : α → Option (List Clear)} {bytes : α → List AddrInt}
    (h : ∀ i, ∃ cs, f i = some cs ∧ ∀ a, a ∈ cs.flatMap Clear.bytes ↔ a ∈ bytes i) (l : List α) :
    ∃ css, l.mapM f = some css ∧
      ∀ a, a ∈ css.flatten.flatMap Clear.bytes ↔ a ∈ l.flatMap bytes := by
  induction l with
  | nil => exact ⟨[], rfl, fun a ↦ Iff.rfl⟩
  | cons i l ih =>
    obtain ⟨cs, hcs, hbytes⟩ := h i
    obtain ⟨css, hcss, hrest⟩ := ih
    refine ⟨cs :: css, ?_, fun a ↦ ?_⟩
    · rw [List.mapM_cons, hcs, hcss]
      rfl
    · rw [List.flatten_cons, List.flatMap_append, List.mem_append, hbytes, hrest,
        List.flatMap_cons, List.mem_append]

namespace RecvmmsgCall

variable (c : RecvmmsgCall mem)

theorem postRecvmmsgHeader_eq (i : Fin c.ctx.ret.toNat) :
    ∃ cs, postRecvmmsgHeader mem (c.ctx.arg 1 + sizeofMmsghdr * BitVec.ofNat 64 i) = some cs ∧
      ∀ a, a ∈ cs.flatMap Clear.bytes ↔ a ∈ c.messageBytes sizeofInt i := by
  obtain ⟨fields, hfields, hbytes⟩ := msghdrClears_eq (c.received i).toMsghdr sizeofInt
  refine ⟨fields ++ msgLenField (c.ctx.arg 1) i ::
    firstBytes (c.received i).vs (c.msgLen i).toNat, ?_, fun a ↦ ?_⟩
  · simp only [postRecvmmsgHeader, hfields, c.loadMsgLen, Option.bind_eq_bind, Option.bind_some,
      msghdrData_eq (c.received i)]
    rfl
  · rw [List.flatMap_append, hbytes, List.flatMap_cons, flatMap_bytes_firstBytes, messageBytes,
      Received.bytes, Received.filled]
    simp only [List.mem_append]
    exact (or_congr_right or_comm).trans or_assoc.symm

theorem postRecvmmsgHook_eq :
    ∃ cs, postRecvmmsgHook mem c.ctx = some cs ∧
      ∀ a, a ∈ cs.flatMap Clear.bytes ↔ a ∈ c.commonBytes ∨ a ∈ c.nullBytes := by
  obtain ⟨css, hcss, hbytes⟩ :=
    exists_mapM_clears c.postRecvmmsgHeader_eq (List.finRange c.ctx.ret.toNat)
  have hrange : (List.range c.ctx.ret.toNat).mapM (fun i ↦
      postRecvmmsgHeader mem (c.ctx.arg 1 + sizeofMmsghdr * BitVec.ofNat 64 i)) = some css := by
    rw [← List.map_coe_finRange_eq_range, List.mapM_map, ← hcss]
    rfl
  refine ⟨css.flatten ++ [⟨c.ctx.arg 4, sizeofTimespec⟩], ?_, fun a ↦ ?_⟩
  · rw [postRecvmmsgHook, whenNonneg, if_neg (not_lt.2 c.nonneg), hrange]
    rfl
  · rw [List.flatMap_append, List.mem_append, hbytes, commonBytes, timeoutBytes, nullBytes,
      List.mem_append]
    by_cases hnull : c.ctx.arg 4 = 0
    · rw [if_pos hnull, if_pos hnull, hnull, List.flatMap_singleton, or_iff_left List.not_mem_nil]
    · rw [if_neg hnull, if_neg hnull, List.flatMap_singleton, or_iff_left List.not_mem_nil]

theorem mem_messageBytes_sizeofSizeT (a : AddrInt) (i : Fin c.ctx.ret.toNat) :
    a ∈ c.messageBytes sizeofSizeT i ↔
      a ∈ c.messageBytes sizeofInt i ∨ a ∈ (c.received i).upperBytes := by
  simp only [messageBytes, Received.bytes, Msghdr.controllenBytes_sizeofSizeT, List.mem_append,
    ← or_assoc]
  rw [or_right_comm (b := a ∈ (c.received i).upperBytes),
    or_right_comm (b := a ∈ (c.received i).upperBytes),
    or_right_comm (b := a ∈ (c.received i).upperBytes)]

theorem iteratedRecvmsg_eq (s : FlatState T) :
    c.iteratedRecvmsg s = untag (c.commonBytes ++ c.upperBytes) s := by
  rw [iteratedRecvmsg, foldl_untag_eq, untag_untag]
  apply untag_congr
  intro a
  simp only [commonBytes, upperBytes, List.mem_append, List.mem_flatMap,
    mem_messageBytes_sizeofSizeT]
  simp only [and_or_left, exists_or]
  exact or_right_comm

theorem iterates_iff_bytes (s : FlatState T) :
    c.Iterates s ↔ ∀ a, (a ∈ c.commonBytes ∨ a ∈ c.nullBytes ↔
      a ∈ c.commonBytes ∨ a ∈ c.upperBytes) ∨ s.mem a = clearedVal := by
  obtain ⟨cs, hcs, hbytes⟩ := c.postRecvmmsgHook_eq
  rw [Iterates, hcs, Option.map_some, Option.some.injEq, iteratedRecvmsg_eq, clearAllFlat_eq_untag,
    untag_eq_untag_iff]
  simp only [hbytes, List.mem_append]

theorem iterates_iff (s : FlatState T) : c.Iterates s ↔ c.Harmless s := by
  rw [iterates_iff_bytes]
  refine forall_congr' fun a ↦ ?_
  by_cases ha : a ∈ c.commonBytes
  · simp [ha]
  · simp only [ha, false_or, not_false_eq_true, true_implies]
    rw [iff_comm (a := a ∈ c.upperBytes)]

end RecvmmsgCall

/-- A message header at `0x1000` with ancillary data at `0x3000`, and nothing else. -/
def controlMemory : Memory := fun a ↦ some (if a = 0x1021 then 0x30 else 0)

def controlMessage : Received controlMemory 0x1000 0 where
  msgName := 0
  msgNamelen := 0
  msgIov := 0
  msgIovlen := 0
  msgControl := 0x3000
  msgControllen := 0
  loadName := by decide
  loadNamelen := by decide
  loadIov := by decide
  loadIovlen := by decide
  loadControl := by decide
  loadControllen := by decide
  vs := []
  count := rfl
  readable _ _ hv := nomatch hv

def controlCall : RecvmmsgCall controlMemory where
  ctx := ⟨some 299, ![3, 0x1000, 1, 0, 0, 0], 1⟩
  nonneg := by decide
  msgLen _ := 0
  loadMsgLen := by decide
  received := fun
    | ⟨0, _⟩ => controlMessage

theorem recvmmsg_differs :
    ¬ ∀ (mem : Memory) (c : RecvmmsgCall mem) (s : FlatState (Finset (BitVec 32))),
      c.Iterates s := by
  intro h
  have hcall := h controlMemory controlCall ⟨fun _ _ ↦ clearedVal, fun _ ↦ {0}⟩
  have hhook : postRecvmmsgHook controlMemory controlCall.ctx =
      some [⟨0x3000, 0⟩, ⟨0x1028, 4⟩, ⟨0x1030, 4⟩, ⟨0x1038, 4⟩, ⟨0, 16⟩] := by
    decide +kernel
  rw [RecvmmsgCall.Iterates, hhook, Option.map_some, Option.some.injEq] at hcall
  -- the upper half of `msg_controllen` keeps its tags
  have hupper := congrFun (congrArg FlatState.mem hcall) 0x102C
  revert hupper
  decide +kernel

end TheiaTaint.Syscalls
