import Mathlib
import TheiaTaint.Foundations.Bytes
import TheiaTaint.Objects.Uuid

namespace TheiaTaint.Objects.ObjectUuid

open Foundations.Strings Foundations.Bytes Objects.Uuid

abbrev IpArray := Fin 4 → BitVec 8

theorem lt_four_of_lt_three {ctr : ℕ} (h : ctr < 3) : ctr < 4 := by
  omega

/-- The loop of `get_ip_array`. The fourth number is read right after the third
dot; a `stoi` that throws ends the tool. -/
def getIpArrayLoop (substrIp : Text) (ctr : ℕ) (ips : IpArray) : Option IpArray :=
  match find '.' substrIp with
  | none => some ips
  | some pos =>
    if hctr : ctr < 3 then
      match stoi (substr substrIp 0 pos) with
      | none => none
      | some v =>
        let rest := substrIp.drop (pos + 1)
        let ips := Function.update ips ⟨ctr, lt_four_of_lt_three hctr⟩ (BitVec.ofInt 8 v)
        if ctr + 1 = 3 then
          match stoi rest with
          | none => none
          | some v => getIpArrayLoop rest (ctr + 1) (Function.update ips 3 (BitVec.ofInt 8 v))
        else getIpArrayLoop rest (ctr + 1) ips
    else some ips
termination_by 3 - ctr

def getIpArray (ips : IpArray) (ip : Text) : Option IpArray := getIpArrayLoop ip 0 ips

def getFileUuid (dev : BitVec 32) (ino : BitVec 64) (crtime : BitVec 32) : CdmUuid := fun i ↦
  if i.val < 4 then leByte dev i.val
  else if i.val < 12 then leByte ino (i.val - 4)
  else leByte crtime (i.val - 12)

def contains (pattern text : Text) : Bool := decide (pattern <:+: text)

/-- The four bytes of the local address and the static array afterwards. -/
def localBytes (ips : IpArray) (lip : Text) : Option (IpArray × IpArray) :=
  if lip = "NA".toList then some (![0xff, 0xff, 0xff, 0xff], ips)
  else if lip = "LOCAL".toList then some (![0xfe, 0xff, 0xff, 0xff], ips)
  else if contains "X11".toList lip then some (![0xfd, 0xff, 0xff, 0xff], ips)
  else (getIpArray ips lip).map fun lips ↦ (lips, lips)

/-- The remote address has no case of its own for `X11`. -/
def remoteBytes (ips : IpArray) (rip : Text) : Option (IpArray × IpArray) :=
  if rip = "NA".toList then some (![0xff, 0xff, 0xff, 0xff], ips)
  else if rip = "LOCAL".toList then some (![0xfe, 0xff, 0xff, 0xff], ips)
  else (getIpArray ips rip).map fun rips ↦ (rips, rips)

/-- `get_netflow_uuid`, and what the static array of `get_ip_array` holds afterwards. -/
def getNetflowUuid (ips : IpArray) (lip : Text) (lport : BitVec 16) (rip : Text)
    (rport : BitVec 16) : Option (CdmUuid × IpArray) := do
  let (lips, ips) ← localBytes ips lip
  let (rips, ips) ← remoteBytes ips rip
  let uuid : CdmUuid := fun i ↦
    if h : i.val < 4 then lips ⟨i.val, h⟩
    else if i.val < 6 then leByte lport (i.val - 4)
    else if h : i.val < 10 then rips ⟨i.val - 6, by omega⟩
    else if i.val < 12 then leByte rport (i.val - 10)
    else 0
  return (uuid, ips)

inductive Endpoint
  | NA
  | LOCAL
  | ipv4 (a b c d : BitVec 8)
deriving DecidableEq

def Endpoint.text : Endpoint → Text
  | .NA => "NA".toList
  | .LOCAL => "LOCAL".toList
  | .ipv4 a b c d => join '.' [decimal a.toNat, decimal b.toNat, decimal c.toNat, decimal d.toNat]

/-- The four address bytes as one word; a named endpoint is the word of a dotted quad. -/
def Endpoint.word : Endpoint → BitVec 32
  | .NA => 0xffffffff
  | .LOCAL => 0xfffffffe
  | .ipv4 a b c d => d ++ c ++ b ++ a

def Endpoint.bytes (e : Endpoint) : IpArray := fun i ↦ leByte e.word i.val

inductive Object
  | file (dev : BitVec 32) (ino : BitVec 64) (crtime : BitVec 32)
  | netflow (lip : Endpoint) (lport : BitVec 16) (rip : Endpoint) (rport : BitVec 16)
deriving DecidableEq

def Object.uuid (ips : IpArray) : Object → Option CdmUuid
  | .file dev ino crtime => some (getFileUuid dev ino crtime)
  | .netflow lip lport rip rport => (getNetflowUuid ips lip.text lport rip.text rport).map Prod.fst

theorem dot_not_mem_decimal (n : ℕ) : '.' ∉ decimal n := not_mem_decimal (by decide) n

theorem getIpArrayLoop_dot (n : BitVec 8) (rest : Text) {ctr : ℕ} (hctr : ctr < 2) (ips : IpArray) :
    getIpArrayLoop (decimal n.toNat ++ '.' :: rest) ctr ips =
      getIpArrayLoop rest (ctr + 1) (Function.update ips ⟨ctr, by omega⟩ n) := by
  obtain ⟨v, hv, hvn⟩ := Option.map_eq_some_iff.1 (stoi_byte n)
  have hlt : ctr < 3 := by omega
  have hne : ctr + 1 ≠ 3 := by omega
  rw [getIpArrayLoop, find_append rest (dot_not_mem_decimal _)]
  simp only [dif_pos hlt, substr, List.drop_zero, take_append_cons, hv, hvn, if_neg hne,
    drop_append_cons]

theorem getIpArrayLoop_lastDot (n m : BitVec 8) (ips : IpArray) :
    getIpArrayLoop (decimal n.toNat ++ '.' :: decimal m.toNat) 2 ips =
      some (Function.update (Function.update ips 2 n) 3 m) := by
  obtain ⟨v, hv, hvn⟩ := Option.map_eq_some_iff.1 (stoi_byte n)
  obtain ⟨u, hu, hum⟩ := Option.map_eq_some_iff.1 (stoi_byte m)
  rw [getIpArrayLoop, find_append _ (dot_not_mem_decimal _)]
  simp only [dif_pos (show 2 < 3 by decide), substr, List.drop_zero, take_append_cons, hv, hvn,
    drop_append_cons, hu, hum, if_true]
  rw [getIpArrayLoop, find_eq_none (dot_not_mem_decimal _)]
  rfl

theorem getIpArray_ipv4 (ips : IpArray) (a b c d : BitVec 8) :
    getIpArray ips (Endpoint.ipv4 a b c d).text = some ![a, b, c, d] := by
  rw [getIpArray, Endpoint.text, join_cons_cons, join_cons_cons, join_cons_cons, join_singleton,
    getIpArrayLoop_dot a _ (by decide), getIpArrayLoop_dot b _ (by decide),
    getIpArrayLoop_lastDot, Option.some.injEq]
  funext i
  fin_cases i <;> rfl

def ofWord (x : BitVec 128) : CdmUuid := fun i ↦ leByte x i.val

theorem ofWord_injective : Function.Injective ofWord := fun _ _ h ↦
  eq_of_leByte (m := 16) rfl fun k hk ↦ congrFun h ⟨k, hk⟩

def Object.word : Object → BitVec 128
  | .file dev ino crtime => crtime ++ ino ++ dev
  | .netflow lip lport rip rport => (0 : BitVec 32) ++ rport ++ rip.word ++ lport ++ lip.word

theorem getFileUuid_eq (dev : BitVec 32) (ino : BitVec 64) (crtime : BitVec 32) :
    getFileUuid dev ino crtime = ofWord (crtime ++ ino ++ dev) := by
  funext i
  rw [getFileUuid, ofWord]
  split
  · exact (leByte_append_low _ _ (by omega)).symm
  · rw [leByte_append_high (crtime ++ ino) dev (l := i.val - 4) (by omega)]
    split
    · exact (leByte_append_low _ _ (by omega)).symm
    · exact (leByte_append_high _ _ (by omega)).symm

theorem Endpoint.bytes_ipv4 (a b c d : BitVec 8) : (Endpoint.ipv4 a b c d).bytes = ![a, b, c, d] := by
  have h0 : leByte (d ++ c ++ b ++ a) 0 = a := by
    rw [leByte_append_low (d ++ c ++ b) a (k := 0) (by decide), leByte_byte]
  have h1 : leByte (d ++ c ++ b ++ a) 1 = b := by
    rw [leByte_append_high (d ++ c ++ b) a (l := 0) rfl,
      leByte_append_low (d ++ c) b (k := 0) (by decide), leByte_byte]
  have h2 : leByte (d ++ c ++ b ++ a) 2 = c := by
    rw [leByte_append_high (d ++ c ++ b) a (l := 1) rfl, leByte_append_high (d ++ c) b (l := 0) rfl,
      leByte_append_low d c (k := 0) (by decide), leByte_byte]
  have h3 : leByte (d ++ c ++ b ++ a) 3 = d := by
    rw [leByte_append_high (d ++ c ++ b) a (l := 2) rfl, leByte_append_high (d ++ c) b (l := 1) rfl,
      leByte_append_high d c (l := 0) rfl, leByte_byte]
  funext i
  match i with
  | 0 => exact h0
  | 1 => exact h1
  | 2 => exact h2
  | 3 => exact h3

theorem Endpoint.bytes_NA : Endpoint.NA.bytes = ![0xff, 0xff, 0xff, 0xff] := by
  decide

theorem Endpoint.bytes_LOCAL : Endpoint.LOCAL.bytes = ![0xfe, 0xff, 0xff, 0xff] := by
  decide

theorem mem_text_ipv4 {a b c d : BitVec 8} {x : Char} (h : x ∈ (Endpoint.ipv4 a b c d).text) :
    x = '.' ∨ x.isDigit = true := by
  refine (mem_join h).imp_right ?_
  rintro ⟨t, ht, hx⟩
  simp only [List.mem_cons, List.not_mem_nil, or_false] at ht
  rcases ht with rfl | rfl | rfl | rfl <;> exact isDigit_of_mem_decimal hx

theorem ne_text_ipv4 {t : Text} (h : ∃ x ∈ t, x ≠ '.' ∧ x.isDigit = false) (a b c d : BitVec 8) :
    (Endpoint.ipv4 a b c d).text ≠ t := by
  rintro rfl
  obtain ⟨x, hx, hdot, hdigit⟩ := h
  rcases mem_text_ipv4 hx with rfl | hx
  · exact hdot rfl
  · exact absurd (hdigit.symm.trans hx) (by decide)

theorem text_ipv4_ne_NA (a b c d : BitVec 8) : (Endpoint.ipv4 a b c d).text ≠ "NA".toList :=
  ne_text_ipv4 ⟨'N', List.mem_cons_self, by decide, by decide⟩ a b c d

theorem text_ipv4_ne_LOCAL (a b c d : BitVec 8) : (Endpoint.ipv4 a b c d).text ≠ "LOCAL".toList :=
  ne_text_ipv4 ⟨'L', List.mem_cons_self, by decide, by decide⟩ a b c d

theorem contains_text_ipv4 (a b c d : BitVec 8) :
    contains "X11".toList (Endpoint.ipv4 a b c d).text = false := by
  rw [contains, decide_eq_false_iff_not]
  intro h
  rcases mem_text_ipv4 (h.subset (List.mem_cons_self : 'X' ∈ "X11".toList)) with h | h
  · exact absurd h (by decide)
  · exact absurd h (by decide)

theorem localBytes_text (ips : IpArray) (e : Endpoint) :
    ∃ ips', localBytes ips e.text = some (e.bytes, ips') := by
  cases e with
  | NA => exact ⟨ips, by rw [localBytes, Endpoint.text, if_pos rfl, Endpoint.bytes_NA]⟩
  | LOCAL =>
    refine ⟨ips, ?_⟩
    rw [localBytes, Endpoint.text, if_neg (by decide), if_pos rfl, Endpoint.bytes_LOCAL]
  | ipv4 a b c d =>
    refine ⟨![a, b, c, d], ?_⟩
    rw [localBytes, if_neg (text_ipv4_ne_NA a b c d), if_neg (text_ipv4_ne_LOCAL a b c d),
      contains_text_ipv4, getIpArray_ipv4, Endpoint.bytes_ipv4]
    rfl

theorem remoteBytes_text (ips : IpArray) (e : Endpoint) :
    ∃ ips', remoteBytes ips e.text = some (e.bytes, ips') := by
  cases e with
  | NA => exact ⟨ips, by rw [remoteBytes, Endpoint.text, if_pos rfl, Endpoint.bytes_NA]⟩
  | LOCAL =>
    refine ⟨ips, ?_⟩
    rw [remoteBytes, Endpoint.text, if_neg (by decide), if_pos rfl, Endpoint.bytes_LOCAL]
  | ipv4 a b c d =>
    refine ⟨![a, b, c, d], ?_⟩
    rw [remoteBytes, if_neg (text_ipv4_ne_NA a b c d), if_neg (text_ipv4_ne_LOCAL a b c d),
      getIpArray_ipv4, Endpoint.bytes_ipv4]
    rfl

theorem netflow_word (lip rip : Endpoint) (lport rport : BitVec 16) (i : Fin 16) :
    ofWord (Object.netflow lip lport rip rport).word i =
      if h : i.val < 4 then lip.bytes ⟨i.val, h⟩
      else if i.val < 6 then leByte lport (i.val - 4)
      else if h : i.val < 10 then rip.bytes ⟨i.val - 6, by omega⟩
      else if i.val < 12 then leByte rport (i.val - 10)
      else 0 := by
  rw [ofWord, Object.word]
  split
  · exact leByte_append_low _ _ (by omega)
  · rw [leByte_append_high _ lip.word (l := i.val - 4) (by omega)]
    split
    · exact leByte_append_low _ _ (by omega)
    · rw [leByte_append_high _ lport (l := i.val - 6) (by omega)]
      split
      · exact leByte_append_low _ _ (by omega)
      · rw [leByte_append_high _ rip.word (l := i.val - 10) (by omega)]
        split
        · exact leByte_append_low _ _ (by omega)
        · rw [leByte_append_high _ rport (l := i.val - 12) (by omega), leByte_zero]

/-- No object makes `stoi` throw, and the static array does not show in the UUID. -/
theorem Object.uuid_eq (ips : IpArray) (o : Object) : o.uuid ips = some (ofWord o.word) := by
  cases o with
  | file dev ino crtime => rw [Object.uuid, getFileUuid_eq, Object.word]
  | netflow lip lport rip rport =>
    obtain ⟨ips₁, hl⟩ := localBytes_text ips lip
    obtain ⟨ips₂, hr⟩ := remoteBytes_text ips₁ rip
    simp only [Object.uuid, getNetflowUuid, hl, hr, Option.bind_eq_bind, Option.bind_some,
      Option.pure_def, Option.map_some, Option.some.injEq]
    funext i
    exact (netflow_word lip rip lport rport i).symm

/-- What keeps two objects apart once a named endpoint is the dotted quad it is
written as, and once a flow is a file with creation time 0. -/
def Apart : Object → Object → Prop
  | .file dev ino crtime, .file dev' ino' crtime' => dev ≠ dev' ∨ ino ≠ ino' ∨ crtime ≠ crtime'
  | .netflow lip lport rip rport, .netflow lip' lport' rip' rport' =>
    lip.word ≠ lip'.word ∨ lport ≠ lport' ∨ rip.word ≠ rip'.word ∨ rport ≠ rport'
  | .file dev ino crtime, .netflow lip lport rip rport
  | .netflow lip lport rip rport, .file dev ino crtime =>
    crtime ≠ 0 ∨ ino ≠ rport ++ rip.word ++ lport ∨ dev ≠ lip.word

theorem word_file_inj {dev dev' crtime crtime' : BitVec 32} {ino ino' : BitVec 64} :
    (Object.file dev ino crtime).word = (Object.file dev' ino' crtime').word ↔
      (crtime = crtime' ∧ ino = ino') ∧ dev = dev' :=
  (append_inj (m := 96) (n := 32)).trans (and_congr_left' (append_inj (m := 32) (n := 64)))

theorem word_netflow_inj {lip lip' rip rip' : Endpoint} {lport lport' rport rport' : BitVec 16} :
    (Object.netflow lip lport rip rport).word = (Object.netflow lip' lport' rip' rport').word ↔
      ((rport = rport' ∧ rip.word = rip'.word) ∧ lport = lport') ∧ lip.word = lip'.word := by
  refine (append_inj (m := 96) (n := 32)).trans (and_congr_left' ?_)
  refine (append_inj (m := 80) (n := 16)).trans (and_congr_left' ?_)
  refine (append_inj (m := 48) (n := 32)).trans (and_congr_left' ?_)
  exact BitVec.append_right_inj 0

theorem word_file_eq_netflow {dev crtime : BitVec 32} {ino : BitVec 64} {lip rip : Endpoint}
    {lport rport : BitVec 16} :
    (Object.file dev ino crtime).word = (Object.netflow lip lport rip rport).word ↔
      (crtime = 0 ∧ ino = rport ++ rip.word ++ lport) ∧ dev = lip.word := by
  refine (append_inj (m := 96) (n := 32)).trans (and_congr_left' ?_)
  have hassoc : ((0 : BitVec 32) ++ rport ++ rip.word ++ lport : BitVec 96) =
      (0 : BitVec 32) ++ (rport ++ rip.word ++ lport : BitVec 64) := by
    rw [BitVec.append_assoc, BitVec.append_assoc, BitVec.append_assoc]
    rfl
  rw [hassoc]
  exact append_inj (m := 32) (n := 64)

theorem word_ne_iff (o o' : Object) : o.word ≠ o'.word ↔ Apart o o' := by
  cases o with
  | file dev ino crtime =>
    cases o' with
    | file dev' ino' crtime' =>
      rw [ne_eq, word_file_inj, Apart]
      tauto
    | netflow lip lport rip rport =>
      rw [ne_eq, word_file_eq_netflow, Apart]
      tauto
  | netflow lip lport rip rport =>
    cases o' with
    | file dev ino crtime =>
      rw [ne_eq, eq_comm, word_file_eq_netflow, Apart]
      tauto
    | netflow lip' lport' rip' rport' =>
      rw [ne_eq, word_netflow_inj, Apart]
      tauto

def Distinguished (ips ips' : IpArray) (o o' : Object) : Prop :=
  ∃ u v, o.uuid ips = some u ∧ o'.uuid ips' = some v ∧ u ≠ v

theorem distinguished_iff (ips ips' : IpArray) (o o' : Object) :
    Distinguished ips ips' o o' ↔ Apart o o' := by
  rw [← word_ne_iff, ← ofWord_injective.ne_iff]
  simp [Distinguished, Object.uuid_eq]

/-- Two objects have different UUIDs exactly when they are apart, and a UUID selects
only its own object from a list under the same condition. -/
theorem object_uuids_identify_iff (ips ips' : IpArray) (o : Object) :
    (∀ o', (o ≠ o' → Distinguished ips ips' o o') ↔ (o ≠ o' → Apart o o')) ∧
      ∀ os : List Object, (∀ o' ∈ os, o.uuid ips = o'.uuid ips' ↔ o = o') ↔
        ∀ o' ∈ os, o ≠ o' → Apart o o' := by
  refine ⟨fun o' ↦ by rw [distinguished_iff], fun os ↦ forall₂_congr fun o' _ ↦ ?_⟩
  rw [← word_ne_iff, Object.uuid_eq, Object.uuid_eq, Option.some.injEq, ofWord_injective.eq_iff]
  constructor
  · intro h hne hword
    exact hne (h.1 hword)
  · intro h
    refine ⟨fun hword ↦ ?_, fun heq ↦ heq ▸ rfl⟩
    by_contra hne
    exact h hne hword

theorem named_endpoint_collides :
    ¬ ∀ (ips ips' : IpArray) (o o' : Object), o ≠ o' → Distinguished ips ips' o o' := by
  intro h
  have hapart := (distinguished_iff _ _ _ _).1 (h 0 0 (.netflow .NA 0 .NA 0)
    (.netflow (.ipv4 255 255 255 255) 0 .NA 0) (by decide))
  exact absurd hapart (by simp [Apart, Endpoint.word])

end TheiaTaint.Objects.ObjectUuid
