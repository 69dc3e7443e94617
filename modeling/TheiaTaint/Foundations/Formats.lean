import Mathlib

namespace TheiaTaint.Foundations.Formats

abbrev Byte := BitVec 8

/-- A way to write values that can be read off the front of a byte string. What is read is
written back as it was. -/
structure Format (α : Type*) where
  encode : α → List Byte
  decode : List Byte → Option (α × List Byte)
  decode_encode : ∀ a rest, decode (encode a ++ rest) = some (a, rest)
  encode_of_decode : ∀ bs a rest, decode bs = some (a, rest) → encode a ++ rest = bs

def leBytes : ℕ → ℕ → List Byte
  | 0, _ => []
  | m + 1, v => BitVec.ofNat 8 v :: leBytes m (v / 256)

def leValue : List Byte → ℕ
  | [] => 0
  | b :: bs => b.toNat + 256 * leValue bs

@[simp] theorem length_leBytes (m v : ℕ) : (leBytes m v).length = m := by
  induction m generalizing v with
  | zero => rfl
  | succ m ih => rw [leBytes, List.length_cons, ih]

theorem leValue_lt (bs : List Byte) : leValue bs < 256 ^ bs.length := by
  induction bs with
  | nil => exact Nat.one_pos
  | cons b bs ih =>
    have hb : b.toNat < 256 := b.isLt
    rw [leValue, List.length_cons, pow_succ]
    omega

theorem leValue_leBytes {m v : ℕ} (h : v < 256 ^ m) : leValue (leBytes m v) = v := by
  induction m generalizing v with
  | zero =>
    rw [pow_zero, Nat.lt_one_iff] at h
    exact h.symm
  | succ m ih =>
    have hdiv : v / 256 < 256 ^ m := by
      rw [pow_succ] at h
      omega
    rw [leBytes, leValue, ih hdiv, BitVec.toNat_ofNat]
    exact Nat.mod_add_div v 256

theorem leBytes_leValue (bs : List Byte) : leBytes bs.length (leValue bs) = bs := by
  induction bs with
  | nil => rfl
  | cons b bs ih =>
    have hb : b.toNat < 256 := b.isLt
    have hdiv : (b.toNat + 256 * leValue bs) / 256 = leValue bs := by omega
    have hmod : BitVec.ofNat 8 (b.toNat + 256 * leValue bs) = b := by
      apply BitVec.eq_of_toNat_eq
      rw [BitVec.toNat_ofNat]
      omega
    rw [List.length_cons, leBytes, leValue, hdiv, hmod, ih]

/-- The word that the bytes spell. -/
def leWord (m : ℕ) (bs : List Byte) : BitVec (8 * m) := BitVec.ofNat (8 * m) (leValue bs)

theorem pow_256 (m : ℕ) : 256 ^ m = 2 ^ (8 * m) := by
  rw [pow_mul]
  rfl

theorem toNat_leWord {m : ℕ} {bs : List Byte} (h : bs.length = m) :
    (leWord m bs).toNat = leValue bs := by
  have hlt := leValue_lt bs
  rw [h, pow_256] at hlt
  rw [leWord, BitVec.toNat_ofNat, Nat.mod_eq_of_lt hlt]

namespace Format

variable {α β : Type*}

theorem decode_eq_some_iff (f : Format α) {bs : List Byte} {a : α} {rest : List Byte} :
    f.decode bs = some (a, rest) ↔ f.encode a ++ rest = bs := by
  refine ⟨f.encode_of_decode bs a rest, ?_⟩
  rintro rfl
  exact f.decode_encode a rest

/-- A word of `m` bytes. -/
def word (m : ℕ) : Format (BitVec (8 * m)) where
  encode x := leBytes m x.toNat
  decode bs := if m ≤ bs.length then some (leWord m (bs.take m), bs.drop m) else none
  decode_encode x rest := by
    have hlen : m ≤ (leBytes m x.toNat ++ rest).length := by simp
    have htake : (leBytes m x.toNat ++ rest).take m = leBytes m x.toNat :=
      List.take_left' (length_leBytes m _)
    have hdrop : (leBytes m x.toNat ++ rest).drop m = rest :=
      List.drop_left' (length_leBytes m _)
    have hlt : x.toNat < 256 ^ m := by
      rw [pow_256]
      exact x.isLt
    rw [if_pos hlen, htake, hdrop, leWord, leValue_leBytes hlt, BitVec.ofNat_toNat,
      BitVec.setWidth_eq]
  encode_of_decode bs x rest h := by
    split at h
    · rename_i hlen
      rw [Option.some.injEq, Prod.mk.injEq] at h
      obtain ⟨rfl, rfl⟩ := h
      have htake : (bs.take m).length = m := by simp [hlen]
      have hback := leBytes_leValue (bs.take m)
      rw [htake] at hback
      rw [toNat_leWord htake, hback, List.take_append_drop]
    · cases h

/-- One value after the other. -/
def pair (f : Format α) (g : Format β) : Format (α × β) where
  encode p := f.encode p.1 ++ g.encode p.2
  decode bs := (f.decode bs).bind fun r ↦ (g.decode r.2).map fun r' ↦ ((r.1, r'.1), r'.2)
  decode_encode p rest := by
    rw [List.append_assoc, f.decode_encode, Option.bind_some, g.decode_encode, Option.map_some]
  encode_of_decode bs p rest h := by
    obtain ⟨⟨a, mid⟩, hf, hg⟩ := Option.bind_eq_some_iff.1 h
    obtain ⟨⟨b, rest'⟩, hb, heq⟩ := Option.map_eq_some_iff.1 hg
    rw [Prod.mk.injEq] at heq
    obtain ⟨rfl, rfl⟩ := heq
    rw [List.append_assoc, g.encode_of_decode _ _ _ hb, f.encode_of_decode _ _ _ hf]

/-- Bytes that a word counts can number. -/
abbrev Counted (m : ℕ) := {bs : List Byte // bs.length < 2 ^ (8 * m)}

/-- Bytes after their number. -/
def counted (m : ℕ) : Format (Counted m) where
  encode bs := (word m).encode (BitVec.ofNat (8 * m) bs.1.length) ++ bs.1
  decode bs := ((word m).decode bs).bind fun r ↦
    if r.1.toNat ≤ r.2.length then
      some (⟨r.2.take r.1.toNat, (List.length_take_le _ _).trans_lt r.1.isLt⟩,
        r.2.drop r.1.toNat)
    else none
  decode_encode bs rest := by
    obtain ⟨bs, hbs⟩ := bs
    have hcount : (BitVec.ofNat (8 * m) bs.length).toNat = bs.length := by
      rw [BitVec.toNat_ofNat, Nat.mod_eq_of_lt hbs]
    simp only
    rw [List.append_assoc, (word m).decode_encode, Option.bind_some]
    simp [hcount]
  encode_of_decode bs a rest h := by
    obtain ⟨⟨n, mid⟩, hn, hrest⟩ := Option.bind_eq_some_iff.1 h
    simp only at hrest
    split at hrest
    · rename_i hlen
      rw [Option.some.injEq, Prod.mk.injEq] at hrest
      obtain ⟨rfl, rfl⟩ := hrest
      have htake : (mid.take n.toNat).length = n.toNat := by simp [hlen]
      simp only
      rw [htake, BitVec.ofNat_toNat, BitVec.setWidth_eq, List.append_assoc,
        List.take_append_drop, (word m).encode_of_decode _ _ _ hn]
    · cases hrest

end Format

end TheiaTaint.Foundations.Formats
