import Mathlib
import TheiaTaint.Foundations.Components
import TheiaTaint.Engine.TagmapSetn
import TheiaTaint.Engine.TagmapClrn

namespace TheiaTaint.Engine.Tagmap

open Foundations.BitField Foundations.Tiling Foundations.Components Tags.Directory BitmapState

/-- The suffix of the calls for one, two, four and eight bytes. -/
inductive AccessSize
  | b
  | w
  | l
  | q

def AccessSize.bytes : AccessSize → ℕ
  | b => 1
  | w => 2
  | l => 4
  | q => 8

inductive TagmapCall
  | alloc
  | free
  | clean
  | set (size : AccessSize) (addr : AddrInt)
  | clr (size : AccessSize) (addr : AddrInt)
  | get (size : AccessSize) (addr : AddrInt)
  | setn (r : Range)
  | clrn (r : Range)
  | issetn (r : Range)

-- What the calls are for: a set of tagged bytes, which is there between `tagmap_alloc`
-- and `tagmap_free`.
def bytesAt (addr : AddrInt) (num : ℕ) : Set ℕ := Set.Ico addr.toNat (addr.toNat + num)

/-- The reply of a query is whether one of its bytes has a tag. -/
def taggedBytes : Purpose TagmapCall (Option (Set ℕ)) (Option Prop)
  | .alloc, _ => (none, some ∅)
  | .free, _ => (none, none)
  | .clean, t => (none, t.map fun _ ↦ ∅)
  | .set size addr, t => (none, t.map (· ∪ bytesAt addr size.bytes))
  | .clr size addr, t => (none, t.map (· \ bytesAt addr size.bytes))
  | .get size addr, t => (some (∃ tagged ∈ t, ∃ p ∈ bytesAt addr size.bytes, p ∈ tagged), t)
  | .setn r, t => (none, t.map (· ∪ bytesAt r.addr r.num))
  | .clrn r, t => (none, t.map (· \ bytesAt r.addr r.num))
  | .issetn r, t => (some (∃ tagged ∈ t, ∃ p ∈ bytesAt r.addr r.num, p ∈ tagged), t)

def setAt : AccessSize → AddrInt → BitmapState → Option BitmapState
  | .b => tagmapSetb
  | .w => tagmapSetw
  | .l => tagmapSetl
  | .q => tagmapSetq

def clrAt : AccessSize → AddrInt → BitmapState → Option BitmapState
  | .b => tagmapClrb
  | .w => tagmapClrw
  | .l => tagmapClrl
  | .q => tagmapClrq

def getAt : AccessSize → AddrInt → BitmapState → Option (BitVec 64 × BitmapState)
  | .b => tagmapGetb
  | .w => tagmapGetw
  | .l => tagmapGetl
  | .q => tagmapGetq

/-- Whether `STAB` is there, and the segments it has. -/
structure SegmentTable where
  allocated : Bool
  bitmap : BitmapState

namespace SegmentTable

def dropSegments (s : SegmentTable) : BitmapState := { s.bitmap with stab := fun _ ↦ none }

def tagmapAlloc (s : SegmentTable) : SegmentTable := ⟨true, s.dropSegments⟩

def tagmapFree (s : SegmentTable) : SegmentTable :=
  if s.allocated then ⟨false, s.dropSegments⟩ else s

def tagmapClean (s : SegmentTable) : SegmentTable :=
  if s.allocated then ⟨true, s.dropSegments⟩ else s

/-- An access to an entry reads `STAB` first. -/
def write (touches : Bool) (f : BitmapState → Option BitmapState) (s : SegmentTable) :
    Option (Option (BitVec 64) × SegmentTable) :=
  if touches && !s.allocated then none
  else (f s.bitmap).map fun b ↦ (none, ⟨s.allocated, b⟩)

def read (touches : Bool) (f : BitmapState → Option (BitVec 64 × BitmapState))
    (s : SegmentTable) : Option (Option (BitVec 64) × SegmentTable) :=
  if touches && !s.allocated then none
  else (f s.bitmap).map fun t ↦ (some t.1, ⟨s.allocated, t.2⟩)

def call : Component TagmapCall SegmentTable (Option (BitVec 64))
  | .alloc, s => some (none, s.tagmapAlloc)
  | .free, s => some (none, s.tagmapFree)
  | .clean, s => some (none, s.tagmapClean)
  | .set size addr, s => s.write true (setAt size addr)
  | .clr size addr, s => s.write true (clrAt size addr)
  | .get size addr, s => s.read true (getAt size addr)
  | .setn r, s => s.write (decide (0 < r.num)) (tagmapSetn r.addr r.num)
  | .clrn r, s => s.write (decide (0 < r.num)) (tagmapClrn r.addr r.num)
  | .issetn r, s => s.read (decide (0 < r.num)) (tagmapIssetn r.addr r.num)

/-- The bits of the segments are the tagged bytes. -/
def Holds (s : SegmentTable) : Option (Set ℕ) → Prop
  | none => s.allocated = false ∧ ∀ p, s.bitmap.memBit p = false
  | some tagged => s.allocated = true ∧ ∀ p, s.bitmap.memBit p = true ↔ p ∈ tagged

end SegmentTable

/-- The bytes at the end of an interval that the last loop of `tagmap_clrn` leaves alone or
copies, and those beyond it that the copies end up at. -/
def Range.missed (r : Range) : Set ℕ :=
  if tailLen r.addr r.num % 8 = 7 then
    Set.Ico (tailStart r.addr r.num)
      (max (tailStart r.addr r.num + 16) (r.addr.toNat + r.num))
  else Set.Ico (tailStart r.addr r.num + 8) (r.addr.toNat + r.num)

/-- `tagmap_clrn` stays in its segments, and has no tags to miss. -/
def Range.ClrnFits (r : Range) (tagged : Set ℕ) : Prop :=
  if r.num ≤ 8 then r.WindowsFit
  else HeadFits r.addr r.num ∧ (0 < tailLen r.addr r.num → Fits 2 (tailStart r.addr r.num)) ∧
    Disjoint r.missed tagged

/-- The table is there for an access, and the access stays in its segments. -/
def TagmapCall.Fits : TagmapCall → Option (Set ℕ) → Prop
  | .alloc, _ => True
  | .free, _ => True
  | .clean, _ => True
  | .set _ addr, t => t ≠ none ∧ addr.toNat < 2 ^ 48 ∧ Tagmap.Fits 2 addr.toNat
  | .clr _ addr, t => t ≠ none ∧ addr.toNat < 2 ^ 48 ∧ Tagmap.Fits 2 addr.toNat
  | .get _ addr, t => t ≠ none ∧ addr.toNat < 2 ^ 48 ∧ Tagmap.Fits 2 addr.toNat
  | .setn r, t => (0 < r.num → t ≠ none) ∧ r.WindowsFit
  | .clrn r, t => (0 < r.num → t ≠ none) ∧ r.ClrnFits (t.getD ∅)
  | .issetn r, t => (0 < r.num → t ≠ none) ∧ r.WindowsFit

section Access

variable {addr : AddrInt} (h : addr.toNat < 2 ^ 48) (size : AccessSize)
include h

theorem does_setAt : Does (setAt size addr) (Fits 2 addr.toNat)
    (SetTo true addr.toNat (addr.toNat + size.bytes)) := by
  cases size with
  | b => exact does_setMask (n := 1) h (by decide)
  | w => exact does_setMask (n := 2) h (by decide)
  | l => exact does_setMask (n := 4) h (by decide)
  | q => exact does_setMask (n := 8) h (by decide)

theorem does_clrAt : Does (clrAt size addr) (Fits 2 addr.toNat)
    (SetTo false addr.toNat (addr.toNat + size.bytes)) := by
  cases size with
  | b => exact does_clrMask (n := 1) h (by decide)
  | w => exact does_clrMask (n := 2) h (by decide)
  | l => exact does_clrMask (n := 4) h (by decide)
  | q => exact does_clrMask (n := 8) h (by decide)

theorem does_getAt : Does (getAt size addr) (Fits 2 addr.toNat)
    (Reads addr.toNat (addr.toNat + size.bytes)) := by
  cases size with
  | b => exact does_getMask (n := 1) h (by decide)
  | w => exact does_getMask (n := 2) h (by decide)
  | l => exact does_getMask (n := 4) h (by decide)
  | q => exact does_getMask (n := 8) h (by decide)

end Access

namespace SegmentTable

variable {s : SegmentTable} {t : Option (Set ℕ)} {tagged : Set ℕ} {touches : Bool}

theorem memBit_dropSegments (s : SegmentTable) (p : ℕ) : s.dropSegments.memBit p = false := rfl

theorem holds_tagmapAlloc (s : SegmentTable) : s.tagmapAlloc.Holds (some ∅) :=
  ⟨rfl, fun p ↦ by simp [tagmapAlloc, memBit_dropSegments]⟩

theorem holds_tagmapFree (h : s.Holds t) : s.tagmapFree.Holds none := by
  cases t with
  | none =>
    rw [tagmapFree, if_neg (by simp [h.1])]
    exact h
  | some tagged =>
    rw [tagmapFree, if_pos h.1]
    exact ⟨rfl, memBit_dropSegments s⟩

theorem holds_tagmapClean (h : s.Holds t) : s.tagmapClean.Holds (t.map fun _ ↦ ∅) := by
  cases t with
  | none =>
    rw [tagmapClean, if_neg (by simp [h.1])]
    exact h
  | some tagged =>
    rw [tagmapClean, if_pos h.1]
    exact ⟨rfl, fun p ↦ by simp [memBit_dropSegments]⟩

theorem touches_eq (h : s.Holds t) (htouch : touches = true → t ≠ none) :
    (touches && !s.allocated) = false := by
  cases t with
  | none =>
    have hnot : touches = false := Bool.eq_false_of_not_eq_true fun ht ↦ htouch ht rfl
    rw [hnot, Bool.false_and]
  | some tagged => rw [h.1, Bool.not_true, Bool.and_false]

theorem holds_of_setTo (h : s.Holds t) {v : Bool} {addr : AddrInt} {num : ℕ} {b : BitmapState}
    (hb : SetTo v addr.toNat (addr.toNat + num) s.bitmap b) (hpos : 0 < num → t ≠ none) :
    (⟨s.allocated, b⟩ : SegmentTable).Holds
      (t.map fun tagged ↦ if v then tagged ∪ bytesAt addr num else tagged \ bytesAt addr num) := by
  cases t with
  | none =>
    have hzero : num = 0 := by
      by_contra hnum
      exact hpos (Nat.pos_of_ne_zero hnum) rfl
    refine ⟨h.1, fun p ↦ ?_⟩
    rw [hb p, if_neg (by omega), h.2]
  | some tagged =>
    refine ⟨h.1, fun p ↦ ?_⟩
    have hmem : p ∈ bytesAt addr num ↔ addr.toNat ≤ p ∧ p < addr.toNat + num := Iff.rfl
    rw [hb p]
    by_cases hp : addr.toNat ≤ p ∧ p < addr.toNat + num
    · rw [if_pos hp]
      cases v <;> simp [hmem, hp]
    · rw [if_neg hp, h.2]
      cases v <;> simp [hmem, hp]

theorem holds_of_reads (h : s.Holds t) {lo hi : ℕ} {u : BitVec 64 × BitmapState}
    (hu : Reads lo hi s.bitmap u) : (⟨s.allocated, u.2⟩ : SegmentTable).Holds t := by
  cases t with
  | none => exact ⟨h.1, fun p ↦ (hu.1 p).trans (h.2 p)⟩
  | some tagged => exact ⟨h.1, fun p ↦ (Bool.eq_iff_iff.1 (hu.1 p)).trans (h.2 p)⟩

theorem exists_memBit_iff (h : s.Holds t) (addr : AddrInt) (num : ℕ) :
    (∃ p, addr.toNat ≤ p ∧ p < addr.toNat + num ∧ s.bitmap.memBit p = true) ↔
      ∃ tagged ∈ t, ∃ p ∈ bytesAt addr num, p ∈ tagged := by
  cases t with
  | none => simp [h.2]
  | some tagged => simp [h.2, bytesAt, and_assoc]

/-- What an answer says of a query. -/
def Says : Option (BitVec 64) → Option Prop → Prop := Option.Rel fun tag w ↦ (tag ≠ 0 ↔ w)

theorem write_eq {f : BitmapState → Option BitmapState} {v : Bool} {addr : AddrInt} {num : ℕ}
    (h : s.Holds t) (htouch : touches = true → t ≠ none) (hpos : 0 < num → t ≠ none)
    (hf : ∃ b, f s.bitmap = some b ∧ SetTo v addr.toNat (addr.toNat + num) s.bitmap b) :
    ∃ s', s.write touches f = some (none, s') ∧ s'.Holds (t.map fun tagged ↦
      if v then tagged ∪ bytesAt addr num else tagged \ bytesAt addr num) := by
  obtain ⟨b, hb, hset⟩ := hf
  refine ⟨⟨s.allocated, b⟩, ?_, holds_of_setTo h hset hpos⟩
  rw [write, touches_eq h htouch, hb]
  rfl

theorem read_eq {f : BitmapState → Option (BitVec 64 × BitmapState)} {addr : AddrInt} {num : ℕ}
    (h : s.Holds t) (htouch : touches = true → t ≠ none)
    (hf : ∃ u, f s.bitmap = some u ∧ Reads addr.toNat (addr.toNat + num) s.bitmap u) :
    ∃ a s', s.read touches f = some (a, s') ∧
      Says a (some (∃ tagged ∈ t, ∃ p ∈ bytesAt addr num, p ∈ tagged)) ∧ s'.Holds t := by
  obtain ⟨u, hu, hreads⟩ := hf
  refine ⟨some u.1, ⟨s.allocated, u.2⟩, ?_, .some ?_, holds_of_reads h hreads⟩
  · rw [read, touches_eq h htouch, hu]
    rfl
  · rw [hreads.2, exists_memBit_iff h]

end SegmentTable

theorem entry_eq_zero {b : BitmapState} {addr : AddrInt} (hin : Inside addr)
    (halign : addr.toNat % 8 = 0)
    (hclear : ∀ p, addr.toNat ≤ p → p < addr.toNat + 16 → b.memBit p = false) :
    b.entry addr = 0 := by
  have hstart : 8 * (addr.toNat / 8) = addr.toNat := by omega
  refine BitVec.eq_of_getLsbD_eq fun i _ ↦ ?_
  have hzero : (0 : BitVec 32).getLsbD i = false := BitVec.getLsbD_zero
  rw [hzero]
  by_cases hi : i < 16
  · rw [getLsbD_entry hin b hi, hstart]
    exact hclear _ (by omega) (by omega)
  · exact getLsbD_entry_of_ge b addr (not_lt.1 hi)

theorem tailHarmless_of_clear {b : BitmapState} {addr : AddrInt} {num : ℕ}
    (hin : 0 < num → Inside addr) (halign : addr.toNat % 8 = 0)
    (hclear : ∀ p, (if num % 8 = 7
        then addr.toNat ≤ p ∧ p < max (addr.toNat + 16) (addr.toNat + num)
        else addr.toNat + 8 ≤ p ∧ p < addr.toNat + num) → b.memBit p = false) :
    TailHarmless addr num b := by
  rw [TailHarmless]
  by_cases hmod : num % 8 = 7
  · simp only [if_pos hmod] at hclear ⊢
    split_ifs with hseven hfifteen
    · rw [entry_eq_zero (hin (by omega)) halign fun p hle hlt ↦ hclear p ⟨hle, by omega⟩]
      decide
    · rw [hclear _ ⟨by omega, by omega⟩, hclear _ ⟨by omega, by omega⟩]
    · exact ⟨hclear _ ⟨by omega, by omega⟩, fun p hle hlt ↦ hclear p ⟨by omega, by omega⟩⟩
  · simp only [if_neg hmod] at hclear ⊢
    exact fun p hle hlt ↦ hclear p ⟨hle, hlt⟩

theorem Range.clrnHarmless {r : Range} {tagged : Set ℕ} (hfits : r.ClrnFits tagged)
    {b : BitmapState} (hb : ∀ p, b.memBit p = true ↔ p ∈ tagged) : r.ClrnHarmless b := by
  by_cases hsmall : r.num ≤ 8
  · rw [ClrnFits, if_pos hsmall, WindowsFit, if_pos hsmall] at hfits
    rw [ClrnHarmless, if_pos hsmall]
    exact hfits
  · rw [ClrnFits, if_neg hsmall] at hfits
    obtain ⟨hhead, htail, hmissed⟩ := hfits
    have hmod := tailStart_mod r.addr (not_le.1 hsmall)
    have hlen := tailStart_add_tailLen r.addr r.num
    have htoNat := r.toNat_tail
    have hinside := r.inside
    rw [ClrnHarmless, if_neg hsmall]
    refine ⟨hhead, htail, tailHarmless_of_clear (fun hpos ↦ ?_) (by omega) fun p hp ↦ ?_⟩
    · rw [inside_iff (by omega), htoNat]
      exact htail hpos
    · have hmem : p ∈ r.missed := by
        rw [missed]
        rw [htoNat, hlen] at hp
        split_ifs at hp ⊢
        · exact hp
        · exact hp
      have hnot : p ∉ tagged := Set.disjoint_left.1 hmissed hmem
      rw [← hb p] at hnot
      exact Bool.eq_false_of_not_eq_true hnot

theorem Range.clrnHarmless_of_num_eq_zero {r : Range} (hzero : r.num = 0) (b : BitmapState) :
    r.ClrnHarmless b := by
  rw [ClrnHarmless, if_pos (by omega)]
  omega

namespace SegmentTable

/-- A call whose accesses fit does to the segments what it is for. -/
theorem implements : Implements call taggedBytes TagmapCall.Fits Holds Says where
  call {k s t} hs hfits := by
    have hpos : ∀ {num : ℕ}, (0 < num → t ≠ none) → (decide (0 < num) = true → t ≠ none) :=
      fun himp hnum ↦ himp (of_decide_eq_true hnum)
    cases k with
    | alloc => exact ⟨none, s.tagmapAlloc, rfl, .none, holds_tagmapAlloc s⟩
    | free => exact ⟨none, s.tagmapFree, rfl, .none, holds_tagmapFree hs⟩
    | clean => exact ⟨none, s.tagmapClean, rfl, .none, holds_tagmapClean hs⟩
    | set size addr =>
      obtain ⟨hsome, hlt, hfit⟩ := hfits
      obtain ⟨s', hcall, hs'⟩ := write_eq hs (fun _ ↦ hsome) (fun _ ↦ hsome)
        ((does_setAt hlt size s.bitmap).1 hfit)
      exact ⟨none, s', hcall, .none, hs'⟩
    | clr size addr =>
      obtain ⟨hsome, hlt, hfit⟩ := hfits
      obtain ⟨s', hcall, hs'⟩ := write_eq hs (fun _ ↦ hsome) (fun _ ↦ hsome)
        ((does_clrAt hlt size s.bitmap).1 hfit)
      exact ⟨none, s', hcall, .none, hs'⟩
    | get size addr =>
      obtain ⟨hsome, hlt, hfit⟩ := hfits
      exact read_eq hs (fun _ ↦ hsome) ((does_getAt hlt size s.bitmap).1 hfit)
    | setn r =>
      obtain ⟨s', hcall, hs'⟩ := write_eq hs (hpos hfits.1) hfits.1
        ((r.does_tagmapSetn s.bitmap).1 hfits.2)
      exact ⟨none, s', hcall, .none, hs'⟩
    | clrn r =>
      obtain ⟨hsome, hfit⟩ := hfits
      have hharmless : r.ClrnHarmless s.bitmap := by
        cases t with
        | none =>
          have hnone : ¬0 < r.num := fun hnum ↦ hsome hnum rfl
          exact r.clrnHarmless_of_num_eq_zero (by omega) s.bitmap
        | some tagged => exact r.clrnHarmless hfit hs.2
      obtain ⟨b, hb, hset⟩ := (r.exists_setTo_iff s.bitmap).2 hharmless
      obtain ⟨s', hcall, hs'⟩ := write_eq hs (hpos hsome) hsome ⟨b, hb, hset⟩
      exact ⟨none, s', hcall, .none, hs'⟩
    | issetn r => exact read_eq hs (hpos hfits.1) (r.exists_reads s.bitmap hfits.2)

/-- Before `tagmap_alloc`. -/
def initial : SegmentTable := ⟨false, Range.emptyBitmap⟩

theorem holds_initial : initial.Holds none := ⟨rfl, fun _ ↦ rfl⟩

/-- Eight bytes across two entries, of which four lose their tags. -/
def someCalls : List TagmapCall :=
  [.alloc, .setn ⟨6, 8, by decide⟩, .clrn ⟨8, 4, by decide⟩, .get .l 8, .get .w 5]

theorem fits_someCalls : taggedBytes.Allowed TagmapCall.Fits someCalls none := by
  simp [someCalls, Purpose.Allowed, taggedBytes, TagmapCall.Fits, Range.WindowsFit,
    Range.ClrnFits, Fits]

end SegmentTable

namespace ByteTags

variable {T : Type*} [SemilatticeSup T] [OrderBot T]

section Calls

variable (setVal : T)

def tagmapSetb (addr : AddrInt) (dir : TagDir T) : TagDir T := tagDirSetb dir addr setVal

def tagmapSetw (addr : AddrInt) (dir : TagDir T) : TagDir T :=
  tagmapSetb setVal (addr + 1) (tagmapSetb setVal addr dir)

def tagmapSetl (addr : AddrInt) (dir : TagDir T) : TagDir T :=
  tagmapSetw setVal (addr + 2) (tagmapSetw setVal addr dir)

def tagmapSetq (addr : AddrInt) (dir : TagDir T) : TagDir T :=
  tagmapSetl setVal (addr + 4) (tagmapSetl setVal addr dir)

def tagmapGetb (addr : AddrInt) (dir : TagDir T) : T := tagDirGetb dir addr

def tagmapGetw (addr : AddrInt) (dir : TagDir T) : T :=
  tagCombine (tagmapGetb addr dir) (tagmapGetb (addr + 1) dir)

def tagmapGetl (addr : AddrInt) (dir : TagDir T) : T :=
  tagCombine (tagmapGetw addr dir) (tagmapGetw (addr + 2) dir)

def tagmapGetq (addr : AddrInt) (dir : TagDir T) : T :=
  tagCombine (tagmapGetl addr dir) (tagmapGetl (addr + 4) dir)

/-- The loop over the bytes of an interval. -/
def tagmapSetn (r : Range) (dir : TagDir T) : TagDir T :=
  (List.range r.num).foldl (fun dir i ↦ tagmapSetb setVal (r.addr + BitVec.ofNat 64 i) dir) dir

def setAt : AccessSize → AddrInt → TagDir T → TagDir T
  | .b => tagmapSetb setVal
  | .w => tagmapSetw setVal
  | .l => tagmapSetl setVal
  | .q => tagmapSetq setVal

def getAt : AccessSize → AddrInt → TagDir T → T
  | .b => tagmapGetb
  | .w => tagmapGetw
  | .l => tagmapGetl
  | .q => tagmapGetq

/-- Untagging writes the cleared value with the same calls, and `tagmap_alloc`, `tagmap_free`
and `tagmap_clean` do nothing. There is no `tagmap_issetn`. -/
def call : Component TagmapCall (TagDir T) (Option T)
  | .alloc, dir => some (none, dir)
  | .free, dir => some (none, dir)
  | .clean, dir => some (none, dir)
  | .set size addr, dir => some (none, setAt setVal size addr dir)
  | .clr size addr, dir => some (none, setAt clearedVal size addr dir)
  | .get size addr, dir => some (some (getAt size addr dir), dir)
  | .setn r, dir => some (none, tagmapSetn setVal r dir)
  | .clrn r, dir => some (none, tagmapSetn clearedVal r dir)
  | .issetn _, _ => none

end Calls

/-- The bytes below `2 ^ 32` whose tags are not clear are the tagged bytes. -/
def Holds (dir : TagDir T) (t : Option (Set ℕ)) : Prop :=
  ∀ p < 2 ^ 32, tagDirGetb dir (BitVec.ofNat 64 p) ≠ ⊥ ↔ ∃ tagged ∈ t, p ∈ tagged

end ByteTags

/-- The bytes are below `2 ^ 32`, and no tags are left when the table goes. -/
def TagmapCall.Low : TagmapCall → Option (Set ℕ) → Prop
  | .alloc, t => t.getD ∅ = ∅
  | .free, t => t.getD ∅ = ∅
  | .clean, t => t.getD ∅ = ∅
  | .set size addr, t => t ≠ none ∧ addr.toNat + size.bytes ≤ 2 ^ 32
  | .clr size addr, _ => addr.toNat + size.bytes ≤ 2 ^ 32
  | .get size addr, _ => addr.toNat + size.bytes ≤ 2 ^ 32
  | .setn r, t => (0 < r.num → t ≠ none) ∧ r.addr.toNat + r.num ≤ 2 ^ 32
  | .clrn r, _ => r.addr.toNat + r.num ≤ 2 ^ 32
  | .issetn _, _ => False

namespace ByteTags

variable {T : Type*} [SemilatticeSup T] [OrderBot T] {dir : TagDir T} {t : Option (Set ℕ)}

/-- The addresses of an access, in the order it goes through them. -/
def addrsAt (addr : AddrInt) (num : ℕ) : List AddrInt :=
  (List.range num).map fun i ↦ addr + BitVec.ofNat 64 i

theorem setAt_eq (v : T) (size : AccessSize) (addr : AddrInt) (dir : TagDir T) :
    setAt v size addr dir =
      (addrsAt addr size.bytes).foldl (fun dir a ↦ tagDirSetb dir a v) dir := by
  cases size <;>
    simp [setAt, tagmapSetq, tagmapSetl, tagmapSetw, tagmapSetb, addrsAt, AccessSize.bytes,
      List.range_succ, BitVec.add_assoc]

theorem tagmapSetn_eq (v : T) (r : Range) (dir : TagDir T) :
    tagmapSetn v r dir = (addrsAt r.addr r.num).foldl (fun dir a ↦ tagDirSetb dir a v) dir := by
  rw [tagmapSetn, addrsAt, List.foldl_map]
  rfl

theorem getAt_ne_bot_iff (size : AccessSize) (addr : AddrInt) (dir : TagDir T) :
    getAt size addr dir ≠ ⊥ ↔ ∃ a ∈ addrsAt addr size.bytes, tagDirGetb dir a ≠ ⊥ := by
  cases size <;>
    simp [getAt, tagmapGetq, tagmapGetl, tagmapGetw, tagmapGetb, addrsAt, AccessSize.bytes,
      List.range_succ, BitVec.add_assoc, sup_eq_bot_iff, imp_iff_not_or, or_assoc]

theorem mem_addrsAt_iff {addr : AddrInt} {num : ℕ} (hbound : addr.toNat + num ≤ 2 ^ 32)
    {a : AddrInt} : a ∈ addrsAt addr num ↔ a.toNat ∈ bytesAt addr num := by
  have hadd : ∀ i < num, (addr + BitVec.ofNat 64 i).toNat = addr.toNat + i := by
    intro i hi
    exact toNat_add_ofNat (by omega)
  rw [addrsAt, List.mem_map]
  constructor
  · rintro ⟨i, hi, rfl⟩
    rw [List.mem_range] at hi
    rw [hadd i hi]
    exact ⟨Nat.le_add_right _ _, by omega⟩
  · rintro ⟨hle, hlt⟩
    refine ⟨a.toNat - addr.toNat, List.mem_range.2 (by omega), BitVec.eq_of_toNat_eq ?_⟩
    rw [hadd _ (by omega), Nat.add_sub_cancel' hle]

theorem exists_low32_eq_iff {addr : AddrInt} {num p : ℕ} (hbound : addr.toNat + num ≤ 2 ^ 32)
    (hp : p < 2 ^ 32) :
    (∃ a ∈ addrsAt addr num, low32 a = low32 (BitVec.ofNat 64 p)) ↔ p ∈ bytesAt addr num := by
  have htoNat : (BitVec.ofNat 64 p).toNat = p := by
    rw [BitVec.toNat_ofNat]
    omega
  constructor
  · rintro ⟨a, ha, hlow⟩
    rw [mem_addrsAt_iff hbound] at ha
    have heq : a.toNat = p := by
      have hlt := ha.2
      have hmod := congrArg BitVec.toNat hlow
      rw [low32, low32, BitVec.toNat_setWidth, BitVec.toNat_setWidth, htoNat] at hmod
      omega
    exact heq ▸ ha
  · intro hmem
    refine ⟨BitVec.ofNat 64 p, (mem_addrsAt_iff hbound).2 ?_, rfl⟩
    rwa [htoNat]

theorem holds_foldl_setb (h : Holds dir t) {v : T} {addr : AddrInt} {num : ℕ}
    (hbound : addr.toNat + num ≤ 2 ^ 32) (hsome : v ≠ ⊥ → 0 < num → t ≠ none) {b : Bool}
    (hv : v ≠ ⊥ ↔ b = true) :
    Holds ((addrsAt addr num).foldl (fun dir a ↦ tagDirSetb dir a v) dir)
      (t.map fun tagged ↦ if b then tagged ∪ bytesAt addr num else tagged \ bytesAt addr num) := by
  classical
  intro p hp
  have hwritten := exists_low32_eq_iff hbound hp
  rw [getb_foldl_setb]
  by_cases hmem : p ∈ bytesAt addr num
  · rw [if_pos (hwritten.2 hmem), hv]
    have hpos : 0 < num := by
      obtain ⟨hle, hlt⟩ := hmem
      omega
    cases t with
    | none =>
      refine iff_of_false (fun hb ↦ hsome (hv.2 hb) hpos rfl) ?_
      rintro ⟨_, ⟨⟩, -⟩
    | some tagged => cases b <;> simp [hmem]
  · rw [if_neg (mt hwritten.1 hmem), h p hp]
    cases t with
    | none => rfl
    | some tagged => cases b <;> simp [hmem]

theorem exists_addrsAt_iff (h : Holds dir t) {addr : AddrInt} {num : ℕ}
    (hbound : addr.toNat + num ≤ 2 ^ 32) :
    (∃ a ∈ addrsAt addr num, tagDirGetb dir a ≠ ⊥) ↔
      ∃ tagged ∈ t, ∃ p ∈ bytesAt addr num, p ∈ tagged := by
  have hlow : ∀ a : AddrInt, a.toNat ∈ bytesAt addr num →
      (tagDirGetb dir a ≠ ⊥ ↔ ∃ tagged ∈ t, a.toNat ∈ tagged) := by
    intro a ha
    have hget := h a.toNat (lt_of_lt_of_le ha.2 hbound)
    rwa [BitVec.ofNat_toNat, BitVec.setWidth_eq] at hget
  constructor
  · rintro ⟨a, ha, htag⟩
    rw [mem_addrsAt_iff hbound] at ha
    obtain ⟨tagged, htagged, hmem⟩ := (hlow a ha).1 htag
    exact ⟨tagged, htagged, a.toNat, ha, hmem⟩
  · rintro ⟨tagged, htagged, p, hp, hmem⟩
    have htoNat : (BitVec.ofNat 64 p).toNat = p := by
      have hlt := hp.2
      rw [BitVec.toNat_ofNat]
      omega
    have ha : (BitVec.ofNat 64 p).toNat ∈ bytesAt addr num := by rwa [htoNat]
    refine ⟨BitVec.ofNat 64 p, (mem_addrsAt_iff hbound).2 ha, (hlow _ ha).2 ⟨tagged, htagged, ?_⟩⟩
    rwa [htoNat]

theorem holds_of_nothing {t' : Option (Set ℕ)} (h : Holds dir t) (ht : t.getD ∅ = ∅)
    (ht' : t'.getD ∅ = ∅) : Holds dir t' := by
  have hnone : ∀ {u : Option (Set ℕ)}, u.getD ∅ = ∅ → ∀ p, ¬∃ tagged ∈ u, p ∈ tagged := by
    rintro u hu p ⟨tagged, rfl, hmem⟩
    rw [Option.getD_some] at hu
    exact Set.notMem_empty p (hu ▸ hmem)
  intro p hp
  rw [h p hp]
  exact iff_of_false (hnone ht p) (hnone ht' p)

def Says : Option T → Option Prop → Prop := Option.Rel fun tag w ↦ (tag ≠ ⊥ ↔ w)

theorem implements {setVal : T} (hset : setVal ≠ ⊥) :
    Implements (call setVal) taggedBytes TagmapCall.Low Holds Says where
  call {k dir t} hdir hlow := by
    have hclear : (clearedVal : T) ≠ ⊥ ↔ false = true := by simp
    cases k with
    | alloc => exact ⟨none, dir, rfl, .none, holds_of_nothing hdir hlow rfl⟩
    | free => exact ⟨none, dir, rfl, .none, holds_of_nothing hdir hlow rfl⟩
    | clean =>
      refine ⟨none, dir, rfl, .none, holds_of_nothing hdir hlow ?_⟩
      cases t <;> rfl
    | set size addr =>
      refine ⟨none, _, rfl, .none, ?_⟩
      rw [setAt_eq]
      exact holds_foldl_setb hdir hlow.2 (fun _ _ ↦ hlow.1) (b := true) (by simp [hset])
    | clr size addr =>
      refine ⟨none, _, rfl, .none, ?_⟩
      rw [setAt_eq]
      exact holds_foldl_setb hdir hlow (fun hne ↦ absurd rfl hne) hclear
    | get size addr =>
      refine ⟨some (getAt size addr dir), dir, rfl, .some ?_, hdir⟩
      rw [getAt_ne_bot_iff, exists_addrsAt_iff hdir hlow]
    | setn r =>
      refine ⟨none, _, rfl, .none, ?_⟩
      rw [tagmapSetn_eq]
      exact holds_foldl_setb hdir hlow.2 (fun _ ↦ hlow.1) (b := true) (by simp [hset])
    | clrn r =>
      refine ⟨none, _, rfl, .none, ?_⟩
      rw [tagmapSetn_eq]
      exact holds_foldl_setb hdir hlow (fun hne ↦ absurd rfl hne) hclear
    | issetn r => exact hlow.elim

theorem holds_emptyDir : Holds (emptyDir : TagDir T) none := by
  intro p _
  refine iff_of_false (fun hne ↦ hne (getb_emptyDir _)) ?_
  rintro ⟨_, ⟨⟩, -⟩

end ByteTags

open SegmentTable (initial someCalls fits_someCalls)

theorem low_someCalls : taggedBytes.Allowed TagmapCall.Low someCalls none := by
  simp [someCalls, Purpose.Allowed, taggedBytes, TagmapCall.Low, AccessSize.bytes]

end TheiaTaint.Engine.Tagmap
