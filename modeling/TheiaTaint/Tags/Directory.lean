import Mathlib
import TheiaTaint.Foundations.History

namespace TheiaTaint.Tags.Directory

open Foundations.History

abbrev AddrInt := BitVec 64

def dirPageBits : ℕ := 12
def dirPageSz : ℕ := 1 <<< dirPageBits
def dirPageMask : AddrInt := BitVec.ofNat 64 (dirPageSz - 1)
def dirTableBits : ℕ := 10
def dirTableSz : ℕ := 1 <<< dirTableBits
def dirTableMask : AddrInt := BitVec.ofNat 64 (dirTableSz - 1)
def dirBits : ℕ := 10
def dirSz : ℕ := 1 <<< dirBits
def dirMask : AddrInt := BitVec.ofNat 64 (dirSz - 1)

instance : NeZero dirSz := ⟨by decide⟩
instance : NeZero dirTableSz := ⟨by decide⟩
instance : NeZero dirPageSz := ⟨by decide⟩

def virt2table (addr : AddrInt) : Fin dirSz :=
  Fin.ofNat dirSz ((addr >>> (dirPageBits + dirTableBits)) &&& dirMask).toNat

def virt2page (addr : AddrInt) : Fin dirTableSz :=
  Fin.ofNat dirTableSz ((addr >>> dirPageBits) &&& dirTableMask).toNat

def virt2offset (addr : AddrInt) : Fin dirPageSz :=
  Fin.ofNat dirPageSz (addr &&& dirPageMask).toNat

theorem toNat_and_mask (x : AddrInt) {k : ℕ} (hk : k ≤ 64) :
    (x &&& BitVec.ofNat 64 (1 <<< k - 1)).toNat = x.toNat % 2 ^ k := by
  have hlt : 2 ^ k - 1 < 2 ^ 64 := by
    have := Nat.pow_le_pow_right (n := 2) (by decide) hk
    have := Nat.two_pow_pos k
    omega
  rw [BitVec.toNat_and, BitVec.toNat_ofNat, Nat.one_shiftLeft, Nat.mod_eq_of_lt hlt,
    Nat.and_two_pow_sub_one_eq_mod]

theorem val_virt2table (addr : AddrInt) :
    (virt2table addr).val = addr.toNat / 2 ^ 22 % 2 ^ 10 := by
  have h := toNat_and_mask (addr >>> 22) (k := 10) (by decide)
  rw [BitVec.toNat_ushiftRight, Nat.shiftRight_eq_div_pow] at h
  exact (congrArg (· % 2 ^ 10) h).trans (Nat.mod_mod _ _)

theorem val_virt2page (addr : AddrInt) :
    (virt2page addr).val = addr.toNat / 2 ^ 12 % 2 ^ 10 := by
  have h := toNat_and_mask (addr >>> 12) (k := 10) (by decide)
  rw [BitVec.toNat_ushiftRight, Nat.shiftRight_eq_div_pow] at h
  exact (congrArg (· % 2 ^ 10) h).trans (Nat.mod_mod _ _)

theorem val_virt2offset (addr : AddrInt) :
    (virt2offset addr).val = addr.toNat % 2 ^ 12 := by
  have h := toNat_and_mask addr (k := 12) (by decide)
  exact (congrArg (· % 2 ^ 12) h).trans (Nat.mod_mod _ _)

/-- The part of an address that the three indices see. -/
def low32 (addr : AddrInt) : BitVec 32 := addr.setWidth 32

theorem indices_eq_iff (a b : AddrInt) :
    (virt2table a = virt2table b ∧ virt2page a = virt2page b ∧ virt2offset a = virt2offset b) ↔
      low32 a = low32 b := by
  simp only [Fin.ext_iff, val_virt2table, val_virt2page, val_virt2offset, low32,
    BitVec.toNat_eq, BitVec.toNat_setWidth]
  omega

variable {T : Type*} [SemilatticeSup T] [OrderBot T]

abbrev TagPage (T : Type*) := Fin dirPageSz → T
abbrev TagTable (T : Type*) := Fin dirTableSz → Option (TagPage T)
abbrev TagDir (T : Type*) := Fin dirSz → Option (TagTable T)

/-- `tag_traits<tag_t>::cleared_val`, which is `∅` for the set-valued tags. -/
abbrev clearedVal : T := ⊥

abbrev tagCombine (lhs rhs : T) : T := lhs ⊔ rhs

def emptyDir : TagDir T := fun _ ↦ none

def tagDirGetb (dir : TagDir T) (addr : AddrInt) : T :=
  match dir (virt2table addr) with
  | some table =>
    match table (virt2page addr) with
    | some page => page (virt2offset addr)
    | none => clearedVal
  | none => clearedVal

/-- Missing tables and pages are allocated on the way down: a new table has no
pages, and a new page is filled with the cleared tag. -/
def tagDirSetb (dir : TagDir T) (addr : AddrInt) (tag : T) : TagDir T :=
  let table := (dir (virt2table addr)).getD fun _ ↦ none
  let page := (table (virt2page addr)).getD fun _ ↦ clearedVal
  Function.update dir (virt2table addr) <| some <|
    Function.update table (virt2page addr) <| some <|
      Function.update page (virt2offset addr) tag

@[simp] theorem getb_emptyDir (addr : AddrInt) : tagDirGetb (emptyDir : TagDir T) addr = ⊥ := rfl

theorem getb_setb (dir : TagDir T) (a b : AddrInt) (tag : T) :
    tagDirGetb (tagDirSetb dir a tag) b =
      if low32 a = low32 b then tag else tagDirGetb dir b := by
  simp only [← indices_eq_iff]
  by_cases ht : virt2table a = virt2table b
  · by_cases hp : virt2page a = virt2page b
    · by_cases ho : virt2offset a = virt2offset b
      · simp [tagDirGetb, tagDirSetb, ht, hp, ho]
      · cases hd : dir (virt2table b) with
        | none => simp [tagDirGetb, tagDirSetb, ht, hp, ho, hd, Function.update_of_ne (Ne.symm ho)]
        | some table =>
          cases hg : table (virt2page b) <;>
            simp [tagDirGetb, tagDirSetb, ht, hp, ho, hd, hg, Function.update_of_ne (Ne.symm ho)]
    · cases hd : dir (virt2table b) <;>
        simp [tagDirGetb, tagDirSetb, ht, hp, hd, Function.update_of_ne (Ne.symm hp)]
  · simp [tagDirGetb, tagDirSetb, ht, Function.update_of_ne (Ne.symm ht)]

theorem directory_aliased : Aliased tagDirGetb (tagDirSetb (T := T)) low32 :=
  ⟨fun s a v b ↦ getb_setb s a b v⟩

theorem getb_foldl_setb (addrs : List AddrInt) (t : T) (dir : TagDir T) (b : AddrInt) :
    tagDirGetb (addrs.foldl (fun dir i ↦ tagDirSetb dir i t) dir) b =
      if ∃ a ∈ addrs, low32 a = low32 b then t else tagDirGetb dir b := by
  rw [← directory_aliased.get_writeAll_const, writeAll, List.foldl_map]

def afterWrites (ws : List (AddrInt × T)) : TagDir T := writeAll tagDirSetb emptyDir ws

/-- The tag given by the last write whose address is exactly `a`. -/
def lastWritten (ws : List (AddrInt × T)) (a : AddrInt) : T :=
  (lastWhere (fun b ↦ decide (b = a)) ws).getD clearedVal

/-- The tag given by the last write whose address agrees with `a` modulo `2 ^ 32`. -/
def lastAliased (ws : List (AddrInt × T)) (a : AddrInt) : T :=
  (lastWhere (fun b ↦ decide (low32 b = low32 a)) ws).getD clearedVal

theorem getb_afterWrites (ws : List (AddrInt × T)) (a : AddrInt) :
    tagDirGetb (afterWrites ws) a = lastAliased ws a :=
  directory_aliased.get_writeAll emptyDir ws a

theorem getb_setb_eq_iff (dir : TagDir T) (a b : AddrInt) (t : T) :
    tagDirGetb (tagDirSetb dir b t) a = tagDirGetb dir a ↔
      low32 b ≠ low32 a ∨ t = tagDirGetb dir a := by
  rw [getb_setb]
  by_cases h : low32 b = low32 a <;> simp [h]

/-- Reading `a` gives the last tag written there exactly when no address that
differs from `a` only above bit 31 has since been given another tag; one more
write elsewhere leaves the tag of `a` alone under the same condition. -/
theorem directory_faithful_iff (ws : List (AddrInt × T)) (a : AddrInt) :
    (tagDirGetb (afterWrites ws) a = lastWritten ws a ↔ lastAliased ws a = lastWritten ws a) ∧
      ∀ b t,
        (tagDirGetb (tagDirSetb (afterWrites ws) b t) a = tagDirGetb (afterWrites ws) a ↔
          low32 b ≠ low32 a ∨ t = lastAliased ws a) := by
  refine ⟨by rw [getb_afterWrites], fun b t ↦ ?_⟩
  rw [getb_setb_eq_iff, getb_afterWrites]

theorem directory_not_faithful :
    ¬ ∀ (ws : List (AddrInt × Finset (BitVec 32))) (a : AddrInt), a.toNat < 2 ^ 48 →
      tagDirGetb (afterWrites ws) a = lastWritten ws a := by
  intro h
  have h0 := h [(0x100000000, {1})] 0 (by decide)
  rw [getb_afterWrites] at h0
  exact absurd h0 (by decide)

end TheiaTaint.Tags.Directory
