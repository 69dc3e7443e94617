import Mathlib
import TheiaTaint.Engine.Tagmap

namespace TheiaTaint.Engine.Tagmap

open Foundations.BitField Foundations.Tiling Tags.Directory BitmapState

def alignOffMax : ℕ := 8
def assertFast : ℕ := 32

/-- `alg_off`, which is 0 for an aligned address. -/
def algOff (addr : AddrInt) : ℕ := if virt2bit addr = 0 then 0 else alignOffMax - virt2bit addr

variable {σ υ : Type*}

/-- The loop over 32 bytes at a time. -/
def fastPath (block : AddrInt → σ → Option σ) (addr : AddrInt) (num : ℕ) (s : σ) :
    Option (AddrInt × ℕ × σ) :=
  if assertFast ≤ num then do
    let s ← block addr s
    fastPath block (addr + 32) (num - assertFast) s
  else some (addr, num, s)
termination_by num
decreasing_by
  rename_i hnum
  have hpos : 0 < assertFast := by decide
  omega

/-- The loop over whatever is left, at most eight bytes at a time. -/
def slowPath (bytes : ℕ → AddrInt → σ → Option σ) (addr : AddrInt) (num : ℕ) (s : σ) : Option σ :=
  if num = 0 then some s
  else do
    let n := min num alignOffMax
    let s ← bytes n addr s
    slowPath bytes (addr + BitVec.ofNat 64 n) (num - n) s
termination_by num
decreasing_by
  have hpos : 0 < alignOffMax := by decide
  omega

/-- The calls for single bytes, one after the other. -/
def byteCalls (byte : AddrInt → σ → Option σ) : AddrInt → ℕ → σ → Option σ
  | _, 0, s => some s
  | addr, num + 1, s => (byte addr s).bind (byteCalls byte (addr + 1) num)

/-- An interval of the 48-bit address space. -/
structure Range where
  addr : AddrInt
  num : ℕ
  inside : addr.toNat + num ≤ 2 ^ 48

def BlocksFit (a num : ℕ) : Prop := ∀ j < num / 32, Fits 4 (a + 32 * j)

def ChunksFit (a num : ℕ) : Prop := ∀ j, 8 * j < num → Fits 2 (a + 8 * j)

/-- What the fast path leaves of an interval of more than eight bytes. -/
def tailLen (addr : AddrInt) (num : ℕ) : ℕ := (num - algOff addr) % 32
def tailStart (addr : AddrInt) (num : ℕ) : ℕ := addr.toNat + num - tailLen addr num

/-- The accesses before the tail stay in their segments. -/
structure HeadFits (addr : AddrInt) (num : ℕ) : Prop where
  align : addr.toNat % 8 ≠ 0 → Fits 2 addr.toNat
  blocks : BlocksFit (addr.toNat + algOff addr) (num - algOff addr)

/-- Steps over up to eight bytes and over 32 bytes, which relate their interval as `rel` says. -/
structure Access (rel : ℕ → ℕ → σ → σ → Prop) (bytes : ℕ → AddrInt → σ → Option σ)
    (block : AddrInt → σ → Option σ) : Prop where
  tiles : Tiles rel
  bytes : ∀ n addr, n ≤ 8 → addr.toNat + n ≤ 2 ^ 48 →
    Does (bytes n addr) (0 < n → Fits 2 addr.toNat) (rel addr.toNat (addr.toNat + n))
  block : ∀ addr, addr.toNat + 32 ≤ 2 ^ 48 → addr.toNat % 8 = 0 →
    Does (block addr) (Fits 4 addr.toNat) (rel addr.toNat (addr.toNat + 32))

variable {addr : AddrInt} {num : ℕ} {rel : ℕ → ℕ → σ → σ → Prop}
  {bytes : ℕ → AddrInt → σ → Option σ} {block : AddrInt → σ → Option σ}

theorem blocksFit_succ {a : ℕ} (h : 32 ≤ num) :
    BlocksFit a num ↔ Fits 4 a ∧ BlocksFit (a + 32) (num - 32) := by
  have hdiv : num / 32 = (num - 32) / 32 + 1 := by omega
  rw [BlocksFit, hdiv, Nat.forall_lt_succ_left]
  simp only [BlocksFit, Nat.mul_zero, Nat.add_zero, Nat.mul_add, Nat.mul_one, Nat.add_assoc,
    Nat.add_comm 32]

theorem chunksFit_succ {a : ℕ} (h : 0 < num) :
    ChunksFit a num ↔ Fits 2 a ∧ ChunksFit (a + min num 8) (num - min num 8) := by
  have hnext : ∀ j, 8 * j < num - min num 8 → a + min num 8 + 8 * j = a + 8 * (j + 1) := by
    intro j hj
    omega
  constructor
  · intro hfits
    refine ⟨hfits 0 h, fun j hj ↦ ?_⟩
    rw [hnext j hj]
    exact hfits (j + 1) (by omega)
  · rintro ⟨hfirst, hrest⟩ j hj
    cases j with
    | zero => exact hfirst
    | succ j =>
      have hj' : 8 * j < num - min num 8 := by omega
      rw [← hnext j hj']
      exact hrest j hj'

theorem toNat_add_ofNat {n : ℕ} (h : addr.toNat + n ≤ 2 ^ 48) :
    (addr + BitVec.ofNat 64 n).toNat = addr.toNat + n := by
  rw [BitVec.toNat_add, BitVec.toNat_ofNat]
  omega

theorem algOff_eq (addr : AddrInt) : algOff addr = (8 - addr.toNat % 8) % 8 := by
  rw [algOff, virt2bit_eq, alignOffMax]
  split <;> omega

theorem headFits_iff :
    HeadFits addr num ↔ (0 < algOff addr → Fits 2 addr.toNat) ∧
      BlocksFit (addr.toNat + algOff addr) (num - algOff addr) := by
  have halg := algOff_eq addr
  have hoff : 0 < algOff addr ↔ addr.toNat % 8 ≠ 0 := by omega
  rw [hoff]
  exact ⟨fun h ↦ ⟨h.align, h.blocks⟩, fun h ↦ ⟨h.1, h.2⟩⟩

theorem tailStart_mod (addr : AddrInt) (h : 8 < num) : tailStart addr num % 8 = 0 := by
  have halg := algOff_eq addr
  rw [tailStart, tailLen]
  omega

theorem tailStart_add_tailLen (addr : AddrInt) (num : ℕ) :
    tailStart addr num + tailLen addr num = addr.toNat + num := by
  rw [tailStart, tailLen]
  omega

theorem algOff_le_tailStart (addr : AddrInt) (h : 8 < num) :
    addr.toNat + algOff addr ≤ tailStart addr num := by
  have halg := algOff_eq addr
  rw [tailStart, tailLen]
  omega

theorem fastPath_of_le (h : 32 ≤ num) (s : σ) :
    fastPath block addr num s = (block addr s).bind (fastPath block (addr + 32) (num - 32)) := by
  rw [fastPath, if_pos (show assertFast ≤ num from h)]
  rfl

theorem fastPath_of_lt (h : num < 32) (s : σ) :
    fastPath block addr num s = some (addr, num, s) := by
  rw [fastPath, if_neg (show ¬assertFast ≤ num from not_le.2 h)]

theorem slowPath_of_pos (h : 0 < num) (s : σ) :
    slowPath bytes addr num s = (bytes (min num 8) addr s).bind
      (slowPath bytes (addr + BitVec.ofNat 64 (min num 8)) (num - min num 8)) := by
  rw [slowPath, if_neg (Nat.ne_of_gt h)]
  rfl

namespace Access

/-- The fast path, and what follows it. -/
theorem does_fastPath (h : Access rel bytes block) {rest : AddrInt → ℕ → σ → Option υ} {q : Prop}
    {relRest : σ → υ → Prop} (hbound : addr.toNat + num ≤ 2 ^ 48) (halign : addr.toNat % 8 = 0)
    (hrest : Does (rest (addr + BitVec.ofNat 64 (32 * (num / 32))) (num % 32)) q relRest) :
    Does (fun s ↦ (fastPath block addr num s).bind fun t ↦ rest t.1 t.2.1 t.2.2)
      (BlocksFit addr.toNat num ∧ q)
      fun s u ↦ ∃ t, rel addr.toNat (addr.toNat + 32 * (num / 32)) s t ∧ relRest t u := by
  induction num using Nat.strong_induction_on generalizing addr with
  | _ num ih =>
    by_cases hnum : 32 ≤ num
    · have hadd : (addr + 32).toNat = addr.toNat + 32 := toNat_add_ofNat (n := 32) (by omega)
      have hblocks : 32 * (num / 32) = 32 + 32 * ((num - 32) / 32) := by omega
      have haddr : addr + BitVec.ofNat 64 (32 * (num / 32)) =
          addr + 32 + BitVec.ofNat 64 (32 * ((num - 32) / 32)) := by
        rw [hblocks, BitVec.ofNat_add, BitVec.add_assoc]
        rfl
      have hmod : num % 32 = (num - 32) % 32 := by omega
      rw [haddr, hmod] at hrest
      have hstep := ih (num - 32) (by omega) (by omega) (by omega) hrest
      rw [hadd, Nat.add_assoc, ← hblocks] at hstep
      simp only [fastPath_of_le hnum, Option.bind_assoc]
      refine ((h.block addr (by omega) halign).bind hstep).mono ?_ fun s u ↦ ?_
      · rw [blocksFit_succ hnum, and_assoc]
      · rintro ⟨t, hst, t', htt', hu⟩
        exact ⟨t', h.tiles.trans (by omega) (by omega) hst htt', hu⟩
    · have hzero : num / 32 = 0 := by omega
      have hmod : num % 32 = num := by omega
      have hfits : BlocksFit addr.toNat num := by
        intro j hj
        omega
      have haddr : addr + BitVec.ofNat 64 0 = addr := BitVec.add_zero addr
      rw [hzero, hmod, Nat.mul_zero, haddr] at hrest
      simp only [fastPath_of_lt (not_le.1 hnum), Option.bind_some, hzero]
      refine hrest.mono (by simp [hfits]) fun s u hu ↦ ⟨s, ?_, hu⟩
      exact h.tiles.refl _ s

theorem does_slowPath (h : Access rel bytes block) (hbound : addr.toNat + num ≤ 2 ^ 48) :
    Does (slowPath bytes addr num) (ChunksFit addr.toNat num)
      (rel addr.toNat (addr.toNat + num)) := by
  induction num using Nat.strong_induction_on generalizing addr with
  | _ num ih =>
    cases Nat.eq_zero_or_pos num with
    | inl hzero =>
      subst hzero
      intro s
      have hfits : ChunksFit addr.toNat 0 := by
        intro j hj
        omega
      rw [slowPath, if_pos rfl]
      exact ⟨fun _ ↦ ⟨s, rfl, h.tiles.refl _ s⟩, fun hnot ↦ absurd hfits hnot⟩
    | inr hpos =>
      have hadd : (addr + BitVec.ofNat 64 (min num 8)).toNat = addr.toNat + min num 8 :=
        toNat_add_ofNat (by omega)
      have hend : addr.toNat + num = addr.toNat + min num 8 + (num - min num 8) := by omega
      have hbound' : (addr + BitVec.ofNat 64 (min num 8)).toNat + (num - min num 8) ≤ 2 ^ 48 := by
        omega
      have hstep := ih (num - min num 8) (by omega) hbound'
      rw [hadd, ← hend] at hstep
      have hall := h.tiles.bind (by omega) (by omega)
        (h.bytes _ addr (Nat.min_le_right num 8) (by omega)) hstep
      have hfun : slowPath bytes addr num = fun s ↦ (bytes (min num 8) addr s).bind
          (slowPath bytes (addr + BitVec.ofNat 64 (min num 8)) (num - min num 8)) :=
        funext (slowPath_of_pos hpos)
      rw [hfun]
      have hmin : 0 < min num 8 := by omega
      exact hall.mono (by rw [chunksFit_succ hpos]; simp [hmin]) fun _ _ ↦ id

theorem does_head (h : Access rel bytes block) (rest : AddrInt → ℕ → σ → Option υ) {q : Prop}
    {relRest : σ → υ → Prop} (hbound : addr.toNat + num ≤ 2 ^ 48) (hlong : 8 < num)
    (hrest : ∀ tail : AddrInt, tail.toNat = tailStart addr num →
      Does (rest tail (tailLen addr num)) q relRest) :
    Does (fun s ↦ (fastPath block (addr + BitVec.ofNat 64 (algOff addr)) (num - algOff addr) s).bind
        fun t ↦ rest t.1 t.2.1 t.2.2)
      (BlocksFit (addr.toNat + algOff addr) (num - algOff addr) ∧ q)
      fun s u ↦ ∃ t, rel (addr.toNat + algOff addr) (tailStart addr num) s t ∧ relRest t u := by
  have halg := algOff_eq addr
  have hstart : (addr + BitVec.ofNat 64 (algOff addr)).toNat = addr.toNat + algOff addr :=
    toNat_add_ofNat (by omega)
  have htail : addr.toNat + algOff addr + 32 * ((num - algOff addr) / 32) =
      tailStart addr num := by
    rw [tailStart, tailLen]
    omega
  have hbound' : (addr + BitVec.ofNat 64 (algOff addr)).toNat + (num - algOff addr) ≤ 2 ^ 48 := by
    omega
  have hfast := h.does_fastPath hbound' (by omega)
    (hrest _ (by rw [toNat_add_ofNat (by omega), hstart, htail]))
  rwa [hstart, htail] at hfast

theorem does_walk (h : Access rel bytes block) (hbound : addr.toNat + num ≤ 2 ^ 48)
    (hlong : 8 < num) :
    Does (fun s ↦ (bytes (algOff addr) addr s).bind fun s ↦
        (fastPath block (addr + BitVec.ofNat 64 (algOff addr)) (num - algOff addr) s).bind
          fun t ↦ slowPath bytes t.1 t.2.1 t.2.2)
      (HeadFits addr num ∧ ChunksFit (tailStart addr num) (tailLen addr num))
      (rel addr.toNat (addr.toNat + num)) := by
  have halg := algOff_eq addr
  have hlen := tailStart_add_tailLen addr num
  have hrest : ∀ tail : AddrInt, tail.toNat = tailStart addr num →
      Does (slowPath bytes tail (tailLen addr num))
        (ChunksFit (tailStart addr num) (tailLen addr num))
        (rel (tailStart addr num) (addr.toNat + num)) := by
    intro tail htail
    rw [← hlen, ← htail]
    exact h.does_slowPath (by omega)
  have hhead := h.bytes (algOff addr) addr (by omega) (by omega)
  refine (hhead.bind (h.does_head (slowPath bytes) hbound hlong hrest)).mono ?_ fun s u ↦ ?_
  · rw [headFits_iff, and_assoc]
  · rintro ⟨t, hst, t', htt', hu⟩
    have hlow := algOff_le_tailStart addr hlong
    exact h.tiles.trans (by omega) (by omega) hst (h.tiles.trans hlow (by omega) htt' hu)

theorem rel_of_byteCalls (h : Access rel bytes block) (hbound : addr.toNat + num ≤ 2 ^ 48) {s u : σ}
    (hs : byteCalls (bytes 1) addr num s = some u) : rel addr.toNat (addr.toNat + num) s u := by
  induction num generalizing addr s with
  | zero =>
    rw [byteCalls, Option.some.injEq] at hs
    subst hs
    exact h.tiles.refl _ s
  | succ num ih =>
    have hadd : (addr + 1).toNat = addr.toNat + 1 := toNat_add_ofNat (n := 1) (by omega)
    rw [byteCalls, Option.bind_eq_some_iff] at hs
    obtain ⟨t, ht, hu⟩ := hs
    have hfirst := (h.bytes 1 addr (by decide) (by omega)).rel_of_eq ht
    have hrest := ih (by omega) hu
    rw [hadd, Nat.add_assoc, Nat.add_comm 1] at hrest
    exact h.tiles.trans (by omega) (by omega) hfirst hrest

end Access

end TheiaTaint.Engine.Tagmap
