import Mathlib
import TheiaTaint.Foundations.History
import TheiaTaint.Objects.Uuid

namespace TheiaTaint.Objects.UuidText

open Foundations.History Foundations.Strings Objects.Uuid

def stringToUuidLoop : List Text → ℕ → CdmUuid → CdmUuid
  | [], _, uuidArray => uuidArray
  | s :: tokens, index, uuidArray =>
    if h : 15 < index then uuidArray
    else
      stringToUuidLoop tokens (index + 1)
        (Function.update uuidArray ⟨index, by omega⟩ ((strtoul s).setWidth 8))

/-- `string_to_uuid`, with the words of the string stream as tokens. -/
def stringToUuid (uuidString : Text) : CdmUuid := stringToUuidLoop (words uuidString) 0 0

def hexByte (b : BitVec 8) : Text := [Nat.digitChar (b.toNat / 16), Nat.digitChar (b.toNat % 16)]

/-- `str(uuid.UUID(bytes=...))`, five groups of hexadecimal digits. -/
def normalText (u : CdmUuid) : Text :=
  join '-' [[u 0, u 1, u 2, u 3].flatMap hexByte, [u 4, u 5].flatMap hexByte,
    [u 6, u 7].flatMap hexByte, [u 8, u 9].flatMap hexByte,
    [u 10, u 11, u 12, u 13, u 14, u 15].flatMap hexByte]

def bytesOfHex : Text → Option (List (BitVec 8))
  | [] => some []
  | [_] => none
  | high :: low :: hex => do
    let h ← digitValue 16 high
    let l ← digitValue 16 low
    let bytes ← bytesOfHex hex
    return BitVec.ofNat 8 (16 * h + l) :: bytes

/-- The constructor `uuid.UUID(bytes=...)`. -/
def uuidOfBytes (bytes : List (BitVec 8)) : Option CdmUuid :=
  if h : bytes.length = 16 then some fun i ↦ bytes.get (i.cast h.symm) else none

/-- The constructor `uuid.UUID(hex)` on 32 digits, which may be grouped by hyphens. -/
def uuidOfHex (hex : Text) : Option CdmUuid :=
  (bytesOfHex (hex.filter (· ≠ '-'))).bind uuidOfBytes

/-- `normal_to_yang_uuid`. Its type test always succeeds, since `str` makes a `str`. -/
def normalToYangUuid (nUuid : Text) : Option Text :=
  (uuidOfHex nUuid).map fun normal ↦ join ' ' (List.ofFn fun i ↦ decimal (normal i).toNat)

def pyInt (s : Text) : Option ℤ :=
  let body := ((s.dropWhile isSpace).reverse.dropWhile isSpace).reverse
  let negative := body.head? = some '-'
  let digits := if negative ∨ body.head? = some '+' then body.tail else body
  if digits ≠ [] ∧ digits.all Char.isDigit then
    some (if negative then -(Nat.ofDigitChars 10 digits 0 : ℕ) else Nat.ofDigitChars 10 digits 0)
  else none

def chrInt (b : Text) : Option (BitVec 8) :=
  (pyInt b).bind fun v ↦ if 0 ≤ v ∧ v < 256 then some (BitVec.ofInt 8 v) else none

def yangToNormalUuid (yangUuid : Text) : Option CdmUuid :=
  ((yangUuid.splitOn ' ').mapM chrInt).bind uuidOfBytes

theorem stringToUuidLoop_map (bs : List (BitVec 8)) (index : ℕ) (uuid : CdmUuid)
    (hlen : index + bs.length = 16) :
    stringToUuidLoop (bs.map fun b ↦ decimal b.toNat) index uuid =
      fun i ↦ if index ≤ i.val then bs.getD (i.val - index) 0 else uuid i := by
  induction bs generalizing index uuid with
  | nil =>
    funext i
    have hi : ¬ index ≤ i.val := by
      rw [List.length_nil] at hlen
      omega
    simp [stringToUuidLoop, hi]
  | cons b bs ih =>
    rw [List.length_cons] at hlen
    have hindex : ¬ 15 < index := by omega
    have hb : (strtoul (decimal b.toNat)).setWidth 8 = b := by
      rw [strtoul_decimal (b.isLt.trans (by decide)), BitVec.ofNat_toNat]
      exact BitVec.setWidth_setWidth_of_le b (by decide)
    rw [List.map_cons, stringToUuidLoop, dif_neg hindex, hb, ih (index + 1) _ (by omega)]
    funext i
    rcases lt_trichotomy i.val index with hi | hi | hi
    · have hne : i ≠ ⟨index, by omega⟩ := fun h ↦ hi.ne (congrArg Fin.val h)
      simp [Nat.not_le.2 hi, show ¬ index + 1 ≤ i.val by omega, Function.update_of_ne hne]
    · subst hi
      simp
    · obtain ⟨k, hk⟩ := Nat.exists_eq_add_of_lt hi
      have hsub : i.val - index = k + 1 := by omega
      have hsub' : i.val - (index + 1) = k := by omega
      rw [if_pos (Nat.succ_le_of_lt hi), if_pos hi.le, hsub, hsub', List.getD_cons_succ]

theorem getD_ofFn (u : CdmUuid) (i : Fin 16) : (List.ofFn u).getD i.val 0 = u i := by
  rw [List.getD_eq_getElem _ _ (by simp), List.getElem_ofFn]

theorem stringToUuid_uuidToString (u : CdmUuid) : stringToUuid (uuidToString u) = u := by
  have hwords : words (uuidToString u) = (List.ofFn u).map fun b ↦ decimal b.toNat := by
    rw [List.map_ofFn, uuidToString, words_join]
    · rfl
    · intro t ht c hc
      obtain ⟨i, rfl⟩ := (List.mem_ofFn' _ _).1 ht
      exact isSpace_of_isDigit (isDigit_of_mem_decimal hc)
    · intro t ht
      obtain ⟨i, rfl⟩ := (List.mem_ofFn' _ _).1 ht
      exact decimal_ne_nil _
  rw [stringToUuid, hwords, stringToUuidLoop_map _ _ _ (by simp)]
  funext i
  rw [if_pos (Nat.zero_le _), Nat.sub_zero, getD_ofFn]

theorem digitValue_digitChar : ∀ d < 16, digitValue 16 (Nat.digitChar d) = some d := by
  decide

theorem digitChar_ne_hyphen : ∀ d < 16, Nat.digitChar d ≠ '-' := by
  decide

theorem bytesOfHex_flatMap (bs : List (BitVec 8)) : bytesOfHex (bs.flatMap hexByte) = some bs := by
  induction bs with
  | nil => rfl
  | cons b bs ih =>
    have hb := b.isLt
    have hbyte : 16 * (b.toNat / 16) + b.toNat % 16 = b.toNat := Nat.div_add_mod b.toNat 16
    rw [List.flatMap_cons, hexByte, List.cons_append, List.cons_append, List.nil_append, bytesOfHex,
      digitValue_digitChar _ (by omega), digitValue_digitChar _ (Nat.mod_lt _ (by decide)), ih]
    simp [hbyte]

theorem filter_hexByte (b : BitVec 8) : (hexByte b).filter (· ≠ '-') = hexByte b := by
  have hb := b.isLt
  rw [List.filter_eq_self]
  intro c hc
  rw [decide_eq_true_eq]
  rcases List.mem_pair.1 hc with rfl | rfl
  · exact digitChar_ne_hyphen _ (by omega)
  · exact digitChar_ne_hyphen _ (Nat.mod_lt _ (by decide))

theorem uuidOfBytes_ofFn (u : CdmUuid) : uuidOfBytes (List.ofFn u) = some u := by
  rw [uuidOfBytes, dif_pos (List.length_ofFn), Option.some.injEq]
  funext i
  exact List.get_ofFn u _

theorem uuidOfHex_normalText (u : CdmUuid) : uuidOfHex (normalText u) = some u := by
  have hfilter : (normalText u).filter (· ≠ '-') = (List.ofFn u).flatMap hexByte := by
    rw [normalText, filter_join]
    simp only [List.flatMap_cons, List.flatMap_nil, List.append_nil, List.filter_append,
      filter_hexByte]
    simp [List.ofFn_succ]
  rw [uuidOfHex, hfilter, bytesOfHex_flatMap, Option.bind_some, uuidOfBytes_ofFn]

theorem normalToYangUuid_normalText (u : CdmUuid) :
    normalToYangUuid (normalText u) = some (uuidToString u) := by
  rw [normalToYangUuid, uuidOfHex_normalText]
  rfl

theorem pyInt_decimal (n : ℕ) : pyInt (decimal n) = some (n : ℤ) := by
  have hdigit : ∀ c ∈ decimal n, c.isDigit = true := fun c hc ↦ isDigit_of_mem_decimal hc
  have hspace : ∀ c ∈ decimal n, isSpace c = false := fun c hc ↦ isSpace_of_isDigit (hdigit c hc)
  have hbody : (((decimal n).dropWhile isSpace).reverse.dropWhile isSpace).reverse = decimal n := by
    rw [dropWhile_isSpace hspace,
      dropWhile_isSpace fun c hc ↦ hspace c (List.mem_reverse.1 hc), List.reverse_reverse]
  have hminus : (decimal n).head? ≠ some '-' := fun h ↦
    absurd (hdigit '-' (List.mem_of_mem_head? h)) (by decide)
  have hplus : (decimal n).head? ≠ some '+' := fun h ↦
    absurd (hdigit '+' (List.mem_of_mem_head? h)) (by decide)
  have hall : (decimal n).all Char.isDigit = true := List.all_eq_true.2 hdigit
  simp [pyInt, hbody, hminus, hplus, hall, decimal_ne_nil, ofDigitChars_decimal]

theorem chrInt_decimal (b : BitVec 8) : chrInt (decimal b.toNat) = some b := by
  have hlt : (b.toNat : ℤ) < 256 := by exact_mod_cast b.isLt
  rw [chrInt, pyInt_decimal, Option.bind_some, if_pos ⟨Int.natCast_nonneg _, hlt⟩]
  simp

theorem yangToNormalUuid_uuidToString (u : CdmUuid) :
    yangToNormalUuid (uuidToString u) = some u := by
  have hsplit : (uuidToString u).splitOn ' ' = (List.ofFn u).map fun b ↦ decimal b.toNat := by
    rw [List.map_ofFn]
    exact List.splitOn_intercalate ' ' (by simp [space_not_mem_decimal]) (by simp)
  have hbytes : ((List.ofFn u).map fun b ↦ decimal b.toNat).mapM chrInt = some (List.ofFn u) := by
    rw [mapM_eq_some_iff, List.map_map]
    exact List.map_congr_left fun b _ ↦ chrInt_decimal b
  rw [yangToNormalUuid, hsplit, hbytes, Option.bind_some, uuidOfBytes_ofFn]

/-- Every reader gives back the sixteen bytes whose text it reads. -/
theorem uuid_text_round_trip (uninit u : CdmUuid) :
    stringToUuid (uuidToString u) = u ∧ getCdmUuid uninit (uuidToString u) = some u ∧
      normalToYangUuid (normalText u) = some (uuidToString u) ∧
      (normalToYangUuid (normalText u)).bind yangToNormalUuid = some u ∧
      ∀ v : CdmUuid, uuidToString u = uuidToString v ↔ u = v := by
  refine ⟨stringToUuid_uuidToString u, getCdmUuid_uuidToString uninit u,
    normalToYangUuid_normalText u, ?_, fun v ↦ uuidToString_injective.eq_iff⟩
  rw [normalToYangUuid_normalText, Option.bind_some, yangToNormalUuid_uuidToString]

end TheiaTaint.Objects.UuidText
