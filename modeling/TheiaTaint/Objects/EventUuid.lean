import Mathlib
import TheiaTaint.Foundations.Bytes
import TheiaTaint.Objects.Uuid

namespace TheiaTaint.Objects.EventUuid

open Foundations.Bytes Objects.Uuid

/-- A shift the code performs. The language leaves the result open from the width on. -/
structure Shift where
  width : ℕ
  count : ℕ
deriving DecidableEq

def Shift.Defined (s : Shift) : Prop := s.count < s.width

variable {w : ℕ}

/-- `x >> count` of a signed operand. The processor takes the count modulo the width. -/
def sar (x : BitVec w) (count : ℕ) : BitVec w × Shift := (x.sshiftRight (count % w), ⟨w, count⟩)

/-- `x >> count` of an unsigned operand. -/
def shr (x : BitVec w) (count : ℕ) : BitVec w × Shift := (x >>> (count % w), ⟨w, count⟩)

def EVENT_UUID_TYPE : BitVec 8 := 0x10

def setUuidType (elem type : BitVec 8) : BitVec 8 := (elem &&& 0x0f) + type

/-- `for(int i=0;i<8;i++) uuid[base+i] = (x >> i*8) & 0xff;`, with the shifts it performs. -/
def fillBytes (base : Fin 16) (shift : ℕ → BitVec w × Shift) (s : CdmUuid × List Shift) :
    CdmUuid × List Shift :=
  (List.finRange 8).foldl (fun (uuid, shifts) i ↦
    let (x, performed) := shift (i.val * 8)
    (Function.update uuid (base + i.castLE (by decide)) ((x &&& 0xff).setWidth 8),
      shifts ++ [performed])) s

/-- `get_event_uuid`, and the shifts it performs in their order. -/
def getEventUuid (timestamp : BitVec 64) (seq : BitVec 32) : CdmUuid × List Shift :=
  let (uuid, shifts) := fillBytes 0 (sar timestamp) (0, [])
  let (uuid, shifts) := fillBytes 8 (shr seq) (uuid, shifts)
  (Function.update uuid 15 (setUuidType (uuid 15) EVENT_UUID_TYPE), shifts)

/-- Where the timestamp, the sequence number and the type are to be found. -/
structure Encodes (uuid : CdmUuid) (timestamp : BitVec 64) (seq : BitVec 32) : Prop where
  timestamp : ∀ k : Fin 8, uuid (k.castLE (by decide)) = leByte timestamp k.val
  seq : ∀ k : Fin 7, uuid (8 + k.castLE (by decide)) = leByte (seq.setWidth 64) k.val
  type : uuid 15 &&& 0xf0 = EVENT_UUID_TYPE

def InRange (timestamp : BitVec 64) (seq : BitVec 32) : Prop :=
  ∀ s ∈ (getEventUuid timestamp seq).2, s.Defined

def Recoverable (timestamp : BitVec 64) (seq : BitVec 32) : Prop :=
  Encodes (getEventUuid timestamp seq).1 timestamp seq ∧
    ∀ timestamp' seq', (getEventUuid timestamp' seq').1 = (getEventUuid timestamp seq).1 →
      timestamp' = timestamp ∧ seq' = seq

theorem getLsbD_low (x : BitVec w) {j : ℕ} (hj : j < 8) :
    ((x &&& 0xff).setWidth 8).getLsbD j = x.getLsbD j := by
  have hones : Nat.testBit 255 j = true :=
    (Nat.testBit_two_pow_sub_one 8 j).trans (decide_eq_true hj)
  have hmask : (0xff : BitVec w).getLsbD j = decide (j < w) := by
    rw [BitVec.ofNat_eq_ofNat, BitVec.getLsbD_ofNat, hones, Bool.and_true]
  rw [BitVec.getLsbD_setWidth, BitVec.getLsbD_and, hmask]
  by_cases hw : j < w
  · simp [hj, hw]
  · simp [hj, hw, BitVec.getLsbD_of_ge x j (not_lt.1 hw)]

theorem low_sar (x : BitVec 64) (k : Fin 8) :
    ((sar x (k.val * 8)).1 &&& 0xff).setWidth 8 = leByte x k.val := by
  refine BitVec.eq_of_getLsbD_eq fun j hj ↦ ?_
  have hcount : k.val * 8 % 64 = k.val * 8 := Nat.mod_eq_of_lt (by omega)
  have hbit : k.val * 8 + j < 64 := by omega
  have hin : j < 64 := by omega
  rw [getLsbD_low _ hj, getLsbD_leByte, sar, hcount, BitVec.getLsbD_sshiftRight]
  simp [hj, hbit, hin]

theorem low_shr (x : BitVec 32) (k : Fin 8) :
    ((shr x (k.val * 8)).1 &&& 0xff).setWidth 8 = leByte x (k.val % 4) := by
  refine BitVec.eq_of_getLsbD_eq fun j hj ↦ ?_
  have hcount : k.val * 8 % 32 = k.val % 4 * 8 := by omega
  rw [getLsbD_low _ hj, getLsbD_leByte, shr, hcount, BitVec.getLsbD_ushiftRight]
  simp [hj]

theorem fillBytes_zero (shift : ℕ → BitVec w × Shift) (s : CdmUuid × List Shift) (k : Fin 8) :
    (fillBytes 0 shift s).1 (k.castLE (by decide)) =
      ((shift (k.val * 8)).1 &&& 0xff).setWidth 8 := by
  fin_cases k <;> rfl

theorem fillBytes_eight (shift : ℕ → BitVec w × Shift) (s : CdmUuid × List Shift) (k : Fin 8) :
    (fillBytes 8 shift s).1 (8 + k.castLE (by decide)) =
      ((shift (k.val * 8)).1 &&& 0xff).setWidth 8 := by
  fin_cases k <;> rfl

theorem fillBytes_eight_below (shift : ℕ → BitVec w × Shift) (s : CdmUuid × List Shift)
    (k : Fin 8) : (fillBytes 8 shift s).1 (k.castLE (by decide)) = s.1 (k.castLE (by decide)) := by
  fin_cases k <;> rfl

theorem getEventUuid_timestamp (timestamp : BitVec 64) (seq : BitVec 32) (k : Fin 8) :
    (getEventUuid timestamp seq).1 (k.castLE (by decide)) = leByte timestamp k.val := by
  have hne : (k.castLE (by decide) : Fin 16) ≠ 15 := by
    intro h
    have hval : k.val = 15 := congrArg Fin.val h
    omega
  rw [getEventUuid]
  simp only [Function.update_of_ne hne, fillBytes_eight_below, fillBytes_zero, low_sar]

/-- The four bytes of the sequence number come twice, the count being taken modulo 32. -/
theorem getEventUuid_seq (timestamp : BitVec 64) (seq : BitVec 32) (k : Fin 7) :
    (getEventUuid timestamp seq).1 (8 + k.castLE (by decide)) = leByte seq (k.val % 4) := by
  have hne : (8 + k.castLE (by decide) : Fin 16) ≠ 15 := by
    revert k
    decide
  have hbyte := fillBytes_eight (shr seq) (fillBytes 0 (sar timestamp) (0, [])) k.castSucc
  rw [low_shr] at hbyte
  rw [getEventUuid]
  simp only [Function.update_of_ne hne]
  exact hbyte

theorem getEventUuid_type (timestamp : BitVec 64) (seq : BitVec 32) :
    (getEventUuid timestamp seq).1 15 = setUuidType (leByte seq 3) EVENT_UUID_TYPE := by
  have hbyte := fillBytes_eight (shr seq) (fillBytes 0 (sar timestamp) (0, [])) 7
  rw [low_shr] at hbyte
  rw [getEventUuid]
  simp only [Function.update_self]
  exact congrArg (setUuidType · EVENT_UUID_TYPE) hbyte

theorem setUuidType_type (elem : BitVec 8) :
    setUuidType elem EVENT_UUID_TYPE &&& 0xf0 = EVENT_UUID_TYPE := by
  revert elem
  decide

theorem leByte_setWidth_low (seq : BitVec 32) {k : ℕ} (hk : k < 4) :
    leByte (seq.setWidth 64) k = leByte seq k := by
  refine BitVec.eq_of_getLsbD_eq fun j hj ↦ ?_
  have hbit : k * 8 + j < 64 := by omega
  rw [getLsbD_leByte, getLsbD_leByte, BitVec.getLsbD_setWidth, decide_eq_true hbit, Bool.true_and]

theorem leByte_setWidth_high (seq : BitVec 32) {k : ℕ} (hk : 4 ≤ k) :
    leByte (seq.setWidth 64) k = 0 := by
  refine BitVec.eq_of_getLsbD_eq fun j hj ↦ ?_
  rw [getLsbD_leByte, BitVec.getLsbD_setWidth, BitVec.getLsbD_of_ge seq _ (by omega)]
  simp

theorem toNat_leByte (seq : BitVec 32) (k : ℕ) :
    (leByte seq k).toNat = seq.toNat / 2 ^ (k * 8) % 256 := by
  rw [leByte, BitVec.toNat_setWidth, BitVec.toNat_ushiftRight, Nat.shiftRight_eq_div_pow]

theorem low_bytes_zero_iff (seq : BitVec 32) :
    (∀ k < 3, leByte seq k = 0) ↔ 2 ^ 24 ∣ seq.toNat := by
  have hzero : ∀ k, leByte seq k = 0 ↔ seq.toNat / 2 ^ (k * 8) % 256 = 0 := by
    intro k
    rw [← toNat_leByte, ← BitVec.toNat_inj]
    rfl
  simp only [hzero]
  constructor
  · intro h
    have h0 := h 0 (by decide)
    have h1 := h 1 (by decide)
    have h2 := h 2 (by decide)
    omega
  · intro h k hk
    interval_cases k <;> omega

/-- Zero-extended is what the sequence number is not, unless its low bytes are zero. -/
theorem encodes_iff (timestamp : BitVec 64) (seq : BitVec 32) :
    Encodes (getEventUuid timestamp seq).1 timestamp seq ↔ 2 ^ 24 ∣ seq.toNat := by
  rw [← low_bytes_zero_iff]
  constructor
  · intro h k hk
    have hseq := h.seq ⟨k + 4, by omega⟩
    rw [getEventUuid_seq, leByte_setWidth_high seq (Nat.le_add_left 4 k)] at hseq
    have hmod : (k + 4) % 4 = k := by omega
    simpa only [hmod] using hseq
  · intro h
    refine ⟨getEventUuid_timestamp timestamp seq, fun k ↦ ?_, ?_⟩
    · rw [getEventUuid_seq]
      by_cases hk : k.val < 4
      · rw [Nat.mod_eq_of_lt hk, leByte_setWidth_low seq hk]
      · rw [leByte_setWidth_high seq (not_lt.1 hk)]
        exact h (k.val % 4) (by omega)
    · rw [getEventUuid_type, setUuidType_type]

theorem getEventUuid_injective {timestamp timestamp' : BitVec 64} {seq seq' : BitVec 32}
    (h : (getEventUuid timestamp' seq').1 = (getEventUuid timestamp seq).1) :
    timestamp' = timestamp ∧ seq' = seq := by
  constructor
  · refine eq_of_leByte (m := 8) rfl fun k hk ↦ ?_
    have hbyte := congrFun h (Fin.castLE (by decide) (⟨k, hk⟩ : Fin 8))
    rwa [getEventUuid_timestamp, getEventUuid_timestamp] at hbyte
  · refine eq_of_leByte (m := 4) rfl fun k hk ↦ ?_
    have hbyte := congrFun h (8 + Fin.castLE (by decide) (⟨k, by omega⟩ : Fin 7))
    rw [getEventUuid_seq, getEventUuid_seq] at hbyte
    simpa only [Nat.mod_eq_of_lt hk] using hbyte

theorem wide_shift_mem (timestamp : BitVec 64) (seq : BitVec 32) :
    ⟨32, 32⟩ ∈ (getEventUuid timestamp seq).2 := by
  have hshifts : (getEventUuid timestamp seq).2 =
      (List.range 8).map (fun i ↦ ⟨64, i * 8⟩) ++ (List.range 8).map (fun i ↦ ⟨32, i * 8⟩) := rfl
  rw [hshifts]
  decide

theorem not_inRange (timestamp : BitVec 64) (seq : BitVec 32) : ¬ InRange timestamp seq :=
  fun h ↦ absurd (h _ (wide_shift_mem timestamp seq)) (lt_irrefl 32)

/-- No call shifts within the widths only. What the processor then makes of the wide
shifts still tells two events apart, but extends the sequence number by zeros only
if its three low bytes are zero. -/
theorem event_uuid_never_exact (timestamp : BitVec 64) (seq : BitVec 32) :
    ¬ (InRange timestamp seq ∧ Recoverable timestamp seq) ∧
      (Recoverable timestamp seq ↔ 2 ^ 24 ∣ seq.toNat) ∧
      ∀ timestamp' seq', (getEventUuid timestamp' seq').1 = (getEventUuid timestamp seq).1 →
        timestamp' = timestamp ∧ seq' = seq := by
  refine ⟨fun h ↦ not_inRange timestamp seq h.1, ?_, fun _ _ ↦ getEventUuid_injective⟩
  rw [Recoverable, encodes_iff]
  exact and_iff_left fun _ _ ↦ getEventUuid_injective

theorem event_uuid_repeats_seq : ¬ (InRange 0 1 ∧ Recoverable 0 1) := by
  rintro ⟨-, hencodes, -⟩
  have hbyte := hencodes.seq 4
  exact absurd hbyte (by decide)

end TheiaTaint.Objects.EventUuid
