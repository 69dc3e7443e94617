import Mathlib
import TheiaTaint.Objects.Uuid

namespace TheiaTaint.Objects.Conversion

open Foundations.Strings Objects.Uuid

/-- `store_local_tags_to_rdb` and `get_global_tags_from_rdb` as a faithful map from query id,
subject and local tag to global tag. -/
abbrev TagMapping := Text × Text × Text → Option Text

def TagMapping.store (m : TagMapping) (queryId subjectUuid localTag globalTag : Text) : TagMapping :=
  Function.update m (queryId, subjectUuid, localTag) (some globalTag)

/-- What `global2local` leaves in its output arguments. The buffer holds elements of
`typeLen` bits, `size` is its length in bytes. -/
structure LocalTags where
  typeLen : ℕ
  localTags : List (BitVec typeLen)
  size : ℕ

def localTagsOfWidth (typeLen glbUuidsSize : ℕ) : LocalTags where
  typeLen := typeLen
  localTags := (List.range glbUuidsSize).map (BitVec.ofNat typeLen)
  size := glbUuidsSize * (typeLen / 8)

/-- `log10(n)/log10(2)`, truncated. -/
def minimalTypeLen (glbUuidsSize : ℕ) : ℕ := Nat.log 2 glbUuidsSize

def generateLocalTags (glbUuidsSize : ℕ) : Option LocalTags :=
  let typeLen := minimalTypeLen glbUuidsSize
  if typeLen ≤ 8 then some (localTagsOfWidth 8 glbUuidsSize)
  else if typeLen ≤ 16 then some (localTagsOfWidth 16 glbUuidsSize)
  else if typeLen ≤ 32 then some (localTagsOfWidth 32 glbUuidsSize)
  else if typeLen ≤ 64 then some (localTagsOfWidth 64 glbUuidsSize)
  else none

def storeTags (queryId subjectUuid : Text) : ℕ → List CdmUuid → TagMapping → TagMapping
  | _, [], m => m
  | i, u :: us, m =>
    storeTags queryId subjectUuid (i + 1) us
      (m.store queryId subjectUuid (decimal i) (uuidToString u))

/-- `global2local`, where `none` is the return value -1. -/
def global2local (queryId subjectUuid : Text) (glbUuids : List CdmUuid) (m : TagMapping) :
    Option (LocalTags × TagMapping) :=
  (generateLocalTags glbUuids.length).map fun l ↦ (l, storeTags queryId subjectUuid 0 glbUuids m)

/-- The loop of `local2global` over the elements it visits. Without a result,
`get_cdm_uuid` has thrown. -/
def readTags {w : ℕ} (uninit : CdmUuid) (queryId subjectUuid : Text) (m : TagMapping) :
    List (BitVec w) → List CdmUuid → Option (ℤ × List CdmUuid)
  | [], glbUuids => some (0, glbUuids)
  | t :: ts, glbUuids =>
    match m (queryId, subjectUuid, decimal t.toNat) with
    | none => some (-1, glbUuids)
    | some uuidStr =>
      match getCdmUuid uninit uuidStr with
      | none => none
      | some globalTag => readTags uninit queryId subjectUuid m ts (glbUuids ++ [globalTag])

/-- `local2global`: the count divides a size in bytes by a width in bits. -/
def local2global (uninit : CdmUuid) (queryId subjectUuid : Text) (l : LocalTags)
    (glbUuids : List CdmUuid) (m : TagMapping) : Option (ℤ × List CdmUuid) :=
  let numUuids := l.size / l.typeLen
  if l.typeLen = 8 ∨ l.typeLen = 16 ∨ l.typeLen = 32 ∨ l.typeLen = 64 then
    readTags uninit queryId subjectUuid m (l.localTags.take numUuids) glbUuids
  else some (-1, glbUuids)

/-- The arguments of a call, at least one UUID and no more than an `int` counts. -/
structure GlobalUuids where
  uuids : List CdmUuid
  pos : 0 < uuids.length
  fits : uuids.length < 2 ^ 31

/-- The conversion and back gives the list again, through distinct local tags. -/
def Lossless (uninit : CdmUuid) (queryId subjectUuid : Text) (us : List CdmUuid) (m : TagMapping) :
    Prop :=
  ∃ l m', global2local queryId subjectUuid us m = some (l, m') ∧ l.localTags.Nodup ∧
    local2global uninit queryId subjectUuid l [] m' = some (0, us)

variable {uninit : CdmUuid} {queryId subjectUuid : Text}

theorem get_storeTags (us : List CdmUuid) (i j : ℕ) (m : TagMapping) :
    storeTags queryId subjectUuid i us m (queryId, subjectUuid, decimal j) =
      if i ≤ j then (us[j - i]?.map uuidToString).or (m (queryId, subjectUuid, decimal j))
      else m (queryId, subjectUuid, decimal j) := by
  induction us generalizing i m with
  | nil => simp [storeTags]
  | cons u us ih =>
    rw [storeTags, ih, TagMapping.store]
    rcases lt_trichotomy i j with hij | rfl | hij
    · obtain ⟨k, rfl⟩ := Nat.exists_eq_add_of_lt hij
      have hne : decimal (i + k + 1) ≠ decimal i := fun h ↦ hij.ne' (decimal_injective h)
      have hsub : i + k + 1 - i = k + 1 := by omega
      have hsub' : i + k + 1 - (i + 1) = k := by omega
      have hle : i + 1 ≤ i + k + 1 := hij
      rw [if_pos hle, if_pos hij.le, hsub, hsub', List.getElem?_cons_succ,
        Function.update_of_ne (by simp [hne])]
    · simp
    · have hne : decimal j ≠ decimal i := fun h ↦ hij.ne (decimal_injective h)
      rw [if_neg (by omega), if_neg (by omega), Function.update_of_ne (by simp [hne])]

theorem readTags_of_stored {w : ℕ} {m : TagMapping} {ts : List (BitVec w)} {us : List CdmUuid}
    (h : ts.map (fun t ↦ m (queryId, subjectUuid, decimal t.toNat)) =
      us.map fun u ↦ some (uuidToString u)) (glbUuids : List CdmUuid) :
    readTags uninit queryId subjectUuid m ts glbUuids = some (0, glbUuids ++ us) := by
  induction ts generalizing us glbUuids with
  | nil =>
    have hus : us = [] := List.map_eq_nil_iff.1 h.symm
    rw [readTags, hus, List.append_nil]
  | cons t ts ih =>
    cases us with
    | nil => cases h
    | cons u us =>
      rw [List.map_cons, List.map_cons, List.cons.injEq] at h
      simp only [readTags, h.1, getCdmUuid_uuidToString]
      rw [ih h.2, List.append_assoc, List.singleton_append]

theorem map_take_localTags {w : ℕ} (us : List CdmUuid) (m : TagMapping) {k : ℕ}
    (hk : k ≤ us.length) (hw : k ≤ 2 ^ w) :
    (((List.range us.length).map (BitVec.ofNat w)).take k).map
        (fun t ↦ storeTags queryId subjectUuid 0 us m (queryId, subjectUuid, decimal t.toNat)) =
      (us.take k).map fun u ↦ some (uuidToString u) := by
  refine List.ext_getElem (by simp) fun i hi hi' ↦ ?_
  have hik : i < k := by simp at hi'; omega
  have hmod : i % 2 ^ w = i := Nat.mod_eq_of_lt (hik.trans_le hw)
  have hget : us[i]? = some us[i] := List.getElem?_eq_getElem (hik.trans_le hk)
  simp [get_storeTags, hmod, hget]

theorem local2global_localTagsOfWidth {w : ℕ} (hw : w = 8 ∨ w = 16 ∨ w = 32 ∨ w = 64)
    (us : List CdmUuid) (m : TagMapping) (hfit : us.length / 8 ≤ 2 ^ w) :
    local2global uninit queryId subjectUuid (localTagsOfWidth w us.length) []
        (storeTags queryId subjectUuid 0 us m) =
      some (0, us.take (us.length / 8)) := by
  have hcount : us.length * (w / 8) / w = us.length / 8 := by
    rcases hw with rfl | rfl | rfl | rfl <;> omega
  rw [local2global]
  simp only [localTagsOfWidth, hcount]
  rw [if_pos hw, readTags_of_stored (map_take_localTags us m (Nat.div_le_self _ _) hfit)]
  rfl

theorem generateLocalTags_eq {n : ℕ} (hpos : 0 < n) (hfits : n < 2 ^ 31) :
    ∃ w, (w = 8 ∨ w = 16 ∨ w = 32 ∨ w = 64) ∧ n / 8 ≤ 2 ^ w ∧
      generateLocalTags n = some (localTagsOfWidth w n) := by
  have hlog : Nat.log 2 n < 31 := Nat.log_lt_of_lt_pow hpos.ne' hfits
  have hlt : n < 2 ^ (Nat.log 2 n + 1) := Nat.lt_pow_succ_log_self (by decide) n
  rw [generateLocalTags, minimalTypeLen]
  by_cases h8 : Nat.log 2 n ≤ 8
  · have hle := Nat.pow_le_pow_right (n := 2) (by decide) (Nat.succ_le_succ h8)
    exact ⟨8, by omega, by omega, if_pos h8⟩
  · by_cases h16 : Nat.log 2 n ≤ 16
    · have hle := Nat.pow_le_pow_right (n := 2) (by decide) (Nat.succ_le_succ h16)
      exact ⟨16, by omega, by omega, by simp only [if_neg h8, if_pos h16]⟩
    · have h32 : Nat.log 2 n ≤ 32 := by omega
      exact ⟨32, by omega, by omega, by simp only [if_neg h8, if_neg h16, if_pos h32]⟩

theorem nodup_localTags_iff (w n : ℕ) : (localTagsOfWidth w n).localTags.Nodup ↔ n ≤ 2 ^ w := by
  rw [localTagsOfWidth, List.nodup_map_iff_inj_on List.nodup_range]
  simp only [List.mem_range]
  constructor
  · intro h
    by_contra hn
    have hpos := Nat.two_pow_pos w
    have hwrap : BitVec.ofNat w 0 = BitVec.ofNat w (2 ^ w) := by
      refine BitVec.eq_of_toNat_eq ?_
      rw [BitVec.toNat_ofNat, BitVec.toNat_ofNat, Nat.zero_mod, Nat.mod_self]
    exact hpos.ne (h 0 (by omega) (2 ^ w) (by omega) hwrap)
  · intro h i hi j hj hij
    have hij := congrArg BitVec.toNat hij
    rwa [BitVec.toNat_ofNat, BitVec.toNat_ofNat, Nat.mod_eq_of_lt (hi.trans_le h),
      Nat.mod_eq_of_lt (hj.trans_le h)] at hij

theorem round_trip (uninit : CdmUuid) (queryId subjectUuid : Text) (us : GlobalUuids)
    (m : TagMapping) :
    ∃ l m', global2local queryId subjectUuid us.uuids m = some (l, m') ∧
      (l.localTags.Nodup ↔ us.uuids.length ≤ 2 ^ l.typeLen) ∧
      local2global uninit queryId subjectUuid l [] m' =
        some (0, us.uuids.take (us.uuids.length / 8)) := by
  obtain ⟨w, hw, hfit, hgen⟩ := generateLocalTags_eq us.pos us.fits
  have hto : global2local queryId subjectUuid us.uuids m =
      some (localTagsOfWidth w us.uuids.length,
        storeTags queryId subjectUuid 0 us.uuids m) := by
    rw [global2local, hgen, Option.map_some]
  exact ⟨_, _, hto, nodup_localTags_iff w _, local2global_localTagsOfWidth hw us.uuids m hfit⟩

theorem not_lossless (uninit : CdmUuid) (queryId subjectUuid : Text) (us : GlobalUuids)
    (m : TagMapping) : ¬ Lossless uninit queryId subjectUuid us.uuids m := by
  obtain ⟨l, m', hto, -, hback⟩ := round_trip uninit queryId subjectUuid us m
  rintro ⟨l', m'', hto', -, hback'⟩
  rw [hto, Option.some.injEq, Prod.mk.injEq] at hto'
  obtain ⟨rfl, rfl⟩ := hto'
  rw [hback, Option.some.injEq, Prod.mk.injEq] at hback'
  have hlen := congrArg List.length hback'.2
  have hpos := us.pos
  rw [List.length_take] at hlen
  omega

/-- Only every eighth part of the list, from its start, comes back, so no list does so as
a whole; and the local tags are distinct only up to the width that was chosen. -/
theorem conversion_loses_tags (uninit : CdmUuid) (queryId subjectUuid : Text) (us : GlobalUuids)
    (m : TagMapping) :
    ¬ Lossless uninit queryId subjectUuid us.uuids m ∧
      ∃ l m', global2local queryId subjectUuid us.uuids m = some (l, m') ∧
        (l.localTags.Nodup ↔ us.uuids.length ≤ 2 ^ l.typeLen) ∧
        local2global uninit queryId subjectUuid l [] m' =
          some (0, us.uuids.take (us.uuids.length / 8)) :=
  ⟨not_lossless uninit queryId subjectUuid us m, round_trip uninit queryId subjectUuid us m⟩

theorem one_tag_is_lost :
    ¬ ∀ (uninit : CdmUuid) (queryId subjectUuid : Text) (us : GlobalUuids) (m : TagMapping),
      Lossless uninit queryId subjectUuid us.uuids m := fun h ↦
  not_lossless 0 [] [] ⟨[0], by decide, by decide⟩ (fun _ ↦ none) (h _ _ _ _ _)

end TheiaTaint.Objects.Conversion
