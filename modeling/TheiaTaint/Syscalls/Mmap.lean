import Mathlib
import TheiaTaint.Syscalls.PostHooks
import TheiaTaint.Syscalls.Interval

namespace TheiaTaint.Syscalls

open Tags.Directory Engine
open Hooks.Source (byteRange)

/-- A length rounded up to whole pages. -/
def roundUpPages (length : ℕ) : ℕ := (length + 4095) / 4096 * 4096

/-- A finished `mmap` of at least one byte that does not grow downwards, with the mapping
inside the address space. -/
structure MmapCall where
  ctx : SyscallCtx
  success : ctx.ret ≠ mapFailed
  aligned : 4096 ∣ ctx.ret.toNat
  pos : 0 < (ctx.arg 1).toNat
  up : growsdown ctx = false
  fits : ctx.ret.toNat + roundUpPages (ctx.arg 1).toNat ≤ 2 ^ 64

namespace MmapCall

variable (c : MmapCall)

def length : ℕ := (c.ctx.arg 1).toNat

def mapping : List AddrInt := bytesFrom c.ctx.ret (roundUpPages c.length)

/-- The page after the mapping. -/
def nextPage : List AddrInt :=
  bytesFrom (c.ctx.ret + BitVec.ofNat 64 (roundUpPages c.length)) 4096

/-- Where the hook means to stop. -/
def clearedEnd : ℕ :=
  c.ctx.ret.toNat + roundUpPages c.length + if 4096 ∣ c.length then 4096 else 0

variable {T : Type*} [SemilatticeSup T] [OrderBot T]

def Fresh (s : FlatState T) : Prop :=
  (postMmapHook c.ctx).map (fun cs ↦ cs.foldl (fun s cl ↦ tagmapClrnFlat cl s) s) =
    some (untag c.mapping s)

/-- A mapping of whole pages is followed by a page without tags. Where the hook would stop
past the last address, it clears nothing. -/
def Harmless (s : FlatState T) : Prop :=
  if c.clearedEnd < 2 ^ 64 then 4096 ∣ c.length → ∀ a ∈ c.nextPage, s.mem a = clearedVal
  else ∀ a ∈ c.mapping, s.mem a = clearedVal

end MmapCall

/-- The offset has one page too many when the length is a multiple of the page size. -/
theorem toNat_mmapOffset {length : BitVec 64} (hpos : 0 < length.toNat) :
    (mmapOffset length).toNat =
      (roundUpPages length.toNat + if 4096 ∣ length.toNat then 4096 else 0) % 2 ^ 64 := by
  have hpage : (4096 : BitVec 64).toNat = 4096 := rfl
  have hlt := length.isLt
  rw [mmapOffset, pageSz, roundUpPages]
  split
  · rename_i hshort
    rw [BitVec.lt_def, hpage] at hshort
    rw [if_neg (fun h ↦ absurd (Nat.le_of_dvd hpos h) (by omega)), hpage]
    omega
  · rw [BitVec.toNat_sub, BitVec.toNat_add, BitVec.toNat_umod, hpage]
    split <;> omega

namespace MmapCall

variable (c : MmapCall)

/-- The bytes that the hook clears. -/
def cleared : List AddrInt := byteRange c.ctx.ret (mmapOffset (c.ctx.arg 1))

theorem cleared_of_lt (h : c.clearedEnd < 2 ^ 64) :
    c.cleared = if 4096 ∣ c.length then c.mapping ++ c.nextPage else c.mapping := by
  have hoffset := toNat_mmapOffset c.pos
  rw [clearedEnd, length] at h
  have hend : (c.ctx.ret + mmapOffset (c.ctx.arg 1)).toNat - c.ctx.ret.toNat =
      roundUpPages c.length + if 4096 ∣ c.length then 4096 else 0 := by
    rw [BitVec.toNat_add, hoffset, length]
    omega
  rw [cleared, byteRange_eq_bytesFrom, hend, mapping, nextPage]
  split
  · exact bytesFrom_add _ _ _
  · rw [Nat.add_zero]

theorem cleared_of_le (h : 2 ^ 64 ≤ c.clearedEnd) : c.cleared = [] := by
  have hoffset := toNat_mmapOffset c.pos
  have hfits := c.fits
  have haligned := c.aligned
  have hlen := (c.ctx.arg 1).isLt
  rw [clearedEnd, length] at h
  rw [roundUpPages] at h hfits hoffset
  have hend : (c.ctx.ret + mmapOffset (c.ctx.arg 1)).toNat - c.ctx.ret.toNat = 0 := by
    rw [BitVec.toNat_add, hoffset]
    by_cases hdvd : 4096 ∣ (c.ctx.arg 1).toNat
    · rw [if_pos hdvd] at h ⊢
      omega
    · rw [if_neg hdvd] at h ⊢
      omega
  rw [cleared, byteRange_eq_bytesFrom, hend]
  rfl

variable {T : Type*} [SemilatticeSup T] [OrderBot T]

theorem fresh_iff_cleared (s : FlatState T) :
    c.Fresh s ↔ untag c.cleared s = untag c.mapping s := by
  rw [Fresh, postMmapHook]
  simp only [c.up, if_neg c.success, Bool.false_eq_true, if_false, Option.map_some,
    List.foldl_cons, List.foldl_nil, Option.some.injEq, tagmapClrnFlat_eq_untag]
  rfl

theorem not_mem_mapping_of_mem_nextPage (h : c.clearedEnd < 2 ^ 64) (hdvd : 4096 ∣ c.length)
    {a : AddrInt} (ha : a ∈ c.nextPage) : a ∉ c.mapping := by
  rw [clearedEnd, if_pos hdvd] at h
  have hstart : (c.ctx.ret + BitVec.ofNat 64 (roundUpPages c.length)).toNat =
      c.ctx.ret.toNat + roundUpPages c.length := by
    rw [BitVec.toNat_add, BitVec.toNat_ofNat]
    omega
  rw [nextPage, mem_bytesFrom (by omega), hstart] at ha
  rw [mapping, mem_bytesFrom (by omega)]
  omega

/-- The hook clears exactly the mapping unless the length is a multiple of the page size and
the next page has tags. -/
theorem fresh_iff (s : FlatState T) : c.Fresh s ↔ c.Harmless s := by
  rw [fresh_iff_cleared, untag_eq_untag_iff, Harmless]
  split
  · rename_i hlt
    rw [c.cleared_of_lt hlt]
    by_cases hdvd : 4096 ∣ c.length
    · simp only [hdvd, true_implies]
      refine forall_congr' fun a ↦ ?_
      by_cases ha : a ∈ c.nextPage
      · simp [ha, c.not_mem_mapping_of_mem_nextPage hlt hdvd ha]
      · simp [ha]
    · simp [hdvd]
  · rename_i hle
    rw [c.cleared_of_le (not_lt.1 hle)]
    refine forall_congr' fun a ↦ ?_
    by_cases ha : a ∈ c.mapping <;> simp [ha]

end MmapCall

/-- A page at `0x10000`. -/
def onePage : MmapCall where
  ctx := ⟨some 9, ![0, 0x1000, 3, 0x22, 0, 0], 0x10000⟩
  success := by decide
  aligned := by decide
  pos := by decide
  up := by decide
  fits := by decide

theorem mmap_clears_next_page :
    ¬ ∀ (c : MmapCall) (s : FlatState (Finset (BitVec 32))), c.Fresh s := by
  intro h
  have hfresh := h onePage ⟨fun _ _ ↦ clearedVal, fun _ ↦ {0}⟩
  rw [MmapCall.fresh_iff_cleared, untag_eq_untag_iff] at hfresh
  have hin : (0x11000 : AddrInt) ∈ onePage.cleared := by
    rw [MmapCall.cleared, byteRange_eq_bytesFrom, mem_bytesFrom (by decide)]
    decide
  have hout : (0x11000 : AddrInt) ∉ onePage.mapping := by
    rw [MmapCall.mapping, mem_bytesFrom (by decide)]
    decide
  rcases hfresh 0x11000 with hiff | hclear
  · exact hout (hiff.1 hin)
  · exact absurd hclear (by decide)

end TheiaTaint.Syscalls
