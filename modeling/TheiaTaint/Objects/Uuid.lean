import Mathlib
import TheiaTaint.Foundations.Bytes
import TheiaTaint.Foundations.Strings

namespace TheiaTaint.Objects.Uuid

open Foundations.Strings

abbrev CdmUuid := Fin 16 → BitVec 8

instance : LawfulBEq CdmUuid := inferInstance

def uuidToString (uuid : CdmUuid) : Text := join ' ' (List.ofFn fun i ↦ decimal (uuid i).toNat)

def getUuidArrayFromValue (value : BitVec 64) : CdmUuid := fun i ↦
  if i.val < 8 then (value >>> (i.val * 8)).setWidth 8 else 0

theorem space_not_mem_decimal (n : ℕ) : ' ' ∉ decimal n := not_mem_decimal (by decide) n

theorem mem_uuidToString {c : Char} {u : CdmUuid} (h : c ∈ uuidToString u) :
    c = ' ' ∨ c.isDigit = true := by
  refine (mem_join h).imp_right ?_
  rintro ⟨t, ht, hc⟩
  obtain ⟨i, rfl⟩ := (List.mem_ofFn' _ _).1 ht
  exact isDigit_of_mem_decimal hc

theorem uuidToString_injective : Function.Injective uuidToString := by
  intro u v h
  have hl := join_injective (by simp [space_not_mem_decimal]) (by simp [space_not_mem_decimal])
    (by simp) (by simp) h
  funext i
  have hi := congrFun (List.ofFn_injective hl) i
  exact BitVec.eq_of_toNat_eq (decimal_injective hi)

theorem getLsbD_getUuidArrayFromValue (value : BitVec 64) {i : ℕ} (hi : i < 64) :
    (getUuidArrayFromValue value ⟨i / 8, by omega⟩).getLsbD (i % 8) = value.getLsbD i := by
  have hlow : i / 8 < 8 := by omega
  have hbit : i % 8 < 8 := by omega
  have hsum : i / 8 * 8 + i % 8 = i := by omega
  simp only [getUuidArrayFromValue, hlow, if_true, BitVec.getLsbD_setWidth, hbit, decide_true,
    Bool.true_and, BitVec.getLsbD_ushiftRight, hsum]

theorem getUuidArrayFromValue_injective : Function.Injective getUuidArrayFromValue := by
  intro a b h
  refine BitVec.eq_of_getLsbD_eq fun i hi ↦ ?_
  rw [← getLsbD_getUuidArrayFromValue a hi, ← getLsbD_getUuidArrayFromValue b hi, h]

def tagUuidString (value : BitVec 64) : Text := uuidToString (getUuidArrayFromValue value)

theorem tagUuidString_injective : Function.Injective tagUuidString :=
  uuidToString_injective.comp getUuidArrayFromValue_injective

/-- The loop of `get_cdm_uuid`. A failed `stoi` and an index past the sixteen
bytes both end it without a result. -/
def getCdmUuidLoop (substring : Text) (index : ℕ) (uuid : CdmUuid) : Option CdmUuid :=
  if h : index < 16 then
    match find ' ' substring with
    | none => (stoi substring).map fun v ↦ Function.update uuid ⟨index, h⟩ (BitVec.ofInt 8 v)
    | some pos =>
      match stoi (substr substring 0 pos) with
      | none => none
      | some v =>
        getCdmUuidLoop (substring.drop (pos + 1)) (index + 1)
          (Function.update uuid ⟨index, h⟩ (BitVec.ofInt 8 v))
  else none
termination_by 16 - index

/-- `uninit` is the indeterminate content of the local array. -/
def getCdmUuid (uninit : CdmUuid) (uuidStr : Text) : Option CdmUuid :=
  getCdmUuidLoop uuidStr 0 uninit

theorem stoi_byte (b : BitVec 8) : (stoi (decimal b.toNat)).map (BitVec.ofInt 8) = some b := by
  have hb := b.isLt
  rw [stoi_decimal (by omega)]
  simp

theorem getCdmUuidLoop_join (bs : List (BitVec 8)) (index : ℕ) (uuid : CdmUuid)
    (hlen : index + bs.length = 16) (hne : bs ≠ []) :
    getCdmUuidLoop (join ' ' (bs.map fun b ↦ decimal b.toNat)) index uuid =
      some fun i ↦ if index ≤ i.val then bs.getD (i.val - index) 0 else uuid i := by
  induction bs generalizing index uuid with
  | nil => exact absurd rfl hne
  | cons b bs ih =>
    have hindex : index < 16 := by simp only [List.length_cons] at hlen; omega
    have hb := stoi_byte b
    obtain ⟨v, hv, hvb⟩ := Option.map_eq_some_iff.1 hb
    cases bs with
    | nil =>
      have hlast : index = 15 := by simpa using hlen
      subst hlast
      rw [getCdmUuidLoop, dif_pos hindex]
      simp only [List.map_cons, List.map_nil, join_singleton,
        find_eq_none (space_not_mem_decimal _), hv, Option.map_some, hvb, Option.some.injEq]
      funext i
      by_cases hi : i = 15
      · subst hi; simp
      · have hi' : ¬ 15 ≤ i.val := by omega
        rw [if_neg hi', Function.update_of_ne (by simpa [Fin.ext_iff] using hi)]
    | cons c bs =>
      have hrec := ih (index + 1) (Function.update uuid ⟨index, hindex⟩ b)
        (by simp only [List.length_cons] at hlen ⊢; omega) (by simp)
      simp only [List.map_cons] at hrec ⊢
      rw [getCdmUuidLoop, dif_pos hindex, join_cons_cons, find_append _ (space_not_mem_decimal _)]
      simp only [substr, List.drop_zero, take_append_cons, drop_append_cons, hv, hvb]
      rw [hrec, Option.some.injEq]
      funext i
      by_cases hi : i.val = index
      · have hi' : i = ⟨index, hindex⟩ := Fin.ext hi
        subst hi'
        simp
      · by_cases hle : index ≤ i.val
        · obtain ⟨k, hk⟩ := Nat.exists_eq_add_of_lt (Nat.lt_of_le_of_ne hle (Ne.symm hi))
          have h1 : i.val - index = k + 1 := by omega
          have h2 : i.val - (index + 1) = k := by omega
          rw [if_pos (by omega), if_pos hle, h1, h2, List.getD_cons_succ]
        · rw [if_neg (by omega), if_neg hle,
            Function.update_of_ne (fun h ↦ hi (congrArg Fin.val h))]

theorem getCdmUuid_uuidToString (uninit uuid : CdmUuid) :
    getCdmUuid uninit (uuidToString uuid) = some uuid := by
  have h := getCdmUuidLoop_join (List.ofFn uuid) 0 uninit (by simp) (by simp)
  rw [List.map_ofFn] at h
  rw [getCdmUuid, uuidToString]
  refine h.trans (congrArg some (funext fun i ↦ ?_))
  rw [if_pos (Nat.zero_le _), Nat.sub_zero, List.getD_eq_getElem _ _ (by simp), List.getElem_ofFn]

end TheiaTaint.Objects.Uuid
