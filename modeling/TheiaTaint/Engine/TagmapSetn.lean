import Mathlib
import TheiaTaint.Engine.TagmapRanges

namespace TheiaTaint.Engine.Tagmap

open Foundations.BitField Foundations.Tiling Tags.Directory BitmapState

def tagmapSetn (addr : AddrInt) (num : ℕ) (b : BitmapState) : Option BitmapState :=
  if num ≤ alignOffMax then setBytes num addr b
  else do
    let b ← setBytes (algOff addr) addr b
    let (addr, num, b) ←
      fastPath (setBlock (~~~0)) (addr + BitVec.ofNat 64 (algOff addr)) (num - algOff addr) b
    slowPath setBytes addr num b

def orBytes (num : ℕ) (addr : AddrInt) (t : BitVec 64 × BitmapState) :
    Option (BitVec 64 × BitmapState) :=
  (getBytes num addr t.2).map fun u ↦ (t.1 ||| u.1, u.2)

def orBlock (addr : AddrInt) (t : BitVec 64 × BitmapState) : Option (BitVec 64 × BitmapState) :=
  (getBlock addr t.2).map fun u ↦ (t.1 ||| u.1, u.2)

def tagmapIssetn (addr : AddrInt) (num : ℕ) (b : BitmapState) :
    Option (BitVec 64 × BitmapState) :=
  if num ≤ alignOffMax then getBytes num addr b
  else do
    let (tag, b) ← getBytes (algOff addr) addr b
    if tag ≠ 0 then return (tag, b)
    let (addr, num, tag, b) ←
      fastPath orBlock (addr + BitVec.ofNat 64 (algOff addr)) (num - algOff addr) (0, b)
    if tag ≠ 0 then return (tag, b)
    slowPath orBytes addr num (tag, b)

variable {addr : AddrInt} {num : ℕ}

theorem setBytes_access : Access (SetTo true) setBytes (setBlock (~~~0)) where
  tiles := setTo_tiles true
  bytes n addr hn hbound := by
    cases Nat.eq_zero_or_pos n with
    | inl hzero =>
      subst hzero
      exact fun b ↦ ⟨fun _ ↦ ⟨b, rfl, (setTo_tiles true).refl _ b⟩, by simp⟩
    | inr hpos =>
      rw [setBytes_eq hpos hn]
      exact (does_setMask (by omega) hn).mono (by simp [hpos]) fun _ _ ↦ id
  block _ hbound halign := does_setBlock hbound halign true fun i hi ↦ by
    have hzero : (0 : BitVec 32).getLsbD i = false := BitVec.getLsbD_zero
    rw [BitVec.getLsbD_not, hzero, decide_eq_true hi]
    rfl

/-- A read keeps the tag bits and adds to the tag those of its interval. -/
def Seen (lo hi : ℕ) (t u : BitVec 64 × BitmapState) : Prop :=
  (∀ p, u.2.memBit p = t.2.memBit p) ∧
    (u.1 ≠ 0 ↔ t.1 ≠ 0 ∨ ∃ p, lo ≤ p ∧ p < hi ∧ t.2.memBit p = true)

theorem seen_tiles : Tiles Seen where
  refl a t := by
    refine ⟨fun p ↦ rfl, ?_⟩
    have hnone : ¬∃ p, a ≤ p ∧ p < a ∧ t.2.memBit p = true := by
      rintro ⟨p, hle, hlt, -⟩
      omega
    rw [or_iff_left hnone]
  trans {a b c s t u} hab hbc hst htu := by
    refine ⟨fun p ↦ (htu.1 p).trans (hst.1 p), ?_⟩
    simp only [htu.2, hst.2, hst.1, or_assoc]
    refine or_congr_right ⟨?_, ?_⟩
    · rintro (⟨p, hle, hlt, hp⟩ | ⟨p, hle, hlt, hp⟩)
      · exact ⟨p, hle, by omega, hp⟩
      · exact ⟨p, by omega, hlt, hp⟩
    · rintro ⟨p, hle, hlt, hp⟩
      by_cases hpb : p < b
      · exact .inl ⟨p, hle, hpb, hp⟩
      · exact .inr ⟨p, by omega, hlt, hp⟩

theorem does_or {lo hi : ℕ} {p : Prop} {r : BitmapState → Option (BitVec 64 × BitmapState)}
    (h : Does r p (Reads lo hi)) :
    Does (fun t : BitVec 64 × BitmapState ↦ (r t.2).map fun u ↦ (t.1 ||| u.1, u.2)) p
      (Seen lo hi) := by
  intro t
  constructor
  · intro hp
    obtain ⟨u, hu, hbits, htag⟩ := (h t.2).1 hp
    refine ⟨(t.1 ||| u.1, u.2), ?_, hbits, ?_⟩
    · simp only [hu, Option.map_some]
    · rw [← htag]
      exact (not_congr BitVec.or_eq_zero_iff).trans not_and_or
  · intro hp
    simp only [(h t.2).2 hp, Option.map_none]

theorem does_getBytes (n : ℕ) (addr : AddrInt) (hn : n ≤ 8) (hbound : addr.toNat + n ≤ 2 ^ 48) :
    Does (getBytes n addr) (0 < n → Fits 2 addr.toNat) (Reads addr.toNat (addr.toNat + n)) := by
  cases Nat.eq_zero_or_pos n with
  | inl hzero =>
    subst hzero
    have hnone : ∀ b : BitmapState,
        ¬∃ p, addr.toNat ≤ p ∧ p < addr.toNat + 0 ∧ b.memBit p = true := by
      rintro b ⟨p, hle, hlt, -⟩
      omega
    intro b
    refine ⟨fun _ ↦ ⟨(0, b), rfl, fun _ ↦ rfl, ?_⟩, by simp⟩
    exact ⟨fun h ↦ absurd rfl h, fun h ↦ absurd h (hnone b)⟩
  | inr hpos =>
    rw [getBytes_eq hpos hn]
    exact (does_getMask (by omega) hn).mono (by simp [hpos]) fun _ _ ↦ id

theorem orBytes_access : Access Seen orBytes orBlock where
  tiles := seen_tiles
  bytes n addr hn hbound := does_or (does_getBytes n addr hn hbound)
  block _ hbound halign := does_or (does_getBlock hbound halign)

namespace Range

variable (r : Range) (b : BitmapState)

/-- No access of the walk leaves its segment. -/
def WindowsFit : Prop :=
  if r.num ≤ 8 then 0 < r.num → Fits 2 r.addr.toNat
  else HeadFits r.addr r.num ∧ ChunksFit (tailStart r.addr r.num) (tailLen r.addr r.num)

/-- `tagmap_setn` tags exactly the interval, as the calls of `tagmap_setb` do. -/
def SetnExact : Prop :=
  ∃ b', tagmapSetn r.addr r.num b = some b' ∧
    SetTo true r.addr.toNat (r.addr.toNat + r.num) b b' ∧
    ∀ b'', byteCalls tagmapSetb r.addr r.num b = some b'' → ∀ p, b''.memBit p = b'.memBit p

/-- `tagmap_issetn` finds a tag exactly where there is one, as the calls of `tagmap_getb` do. -/
def IssetnExact : Prop :=
  ∃ t, tagmapIssetn r.addr r.num b = some t ∧
    Reads r.addr.toNat (r.addr.toNat + r.num) b t ∧
    ∀ t', byteCalls (orBytes 1) r.addr r.num (0, b) = some t' → (t'.1 ≠ 0 ↔ t.1 ≠ 0)

theorem does_tagmapSetn :
    Does (tagmapSetn r.addr r.num) r.WindowsFit
      (SetTo true r.addr.toNat (r.addr.toNat + r.num)) := by
  by_cases hsmall : r.num ≤ 8
  · have hfun : tagmapSetn r.addr r.num = setBytes r.num r.addr :=
      funext fun b ↦ by rw [tagmapSetn, if_pos (show r.num ≤ alignOffMax from hsmall)]
    rw [hfun, WindowsFit, if_pos hsmall]
    exact setBytes_access.bytes r.num r.addr hsmall r.inside
  · have hfun : tagmapSetn r.addr r.num = fun b ↦ (setBytes (algOff r.addr) r.addr b).bind
        fun b ↦ (fastPath (setBlock (~~~0)) (r.addr + BitVec.ofNat 64 (algOff r.addr))
          (r.num - algOff r.addr) b).bind fun t ↦ slowPath setBytes t.1 t.2.1 t.2.2 :=
      funext fun b ↦ by
        rw [tagmapSetn, if_neg (show ¬r.num ≤ alignOffMax from hsmall)]
        rfl
    rw [hfun, WindowsFit, if_neg hsmall]
    exact setBytes_access.does_walk r.inside (not_le.1 hsmall)

theorem setnExact_iff : r.SetnExact b ↔ r.WindowsFit := by
  constructor
  · rintro ⟨b', hb', -⟩
    exact (r.does_tagmapSetn.exists_iff b).1 ⟨b', hb'⟩
  · intro hfit
    obtain ⟨b', hb', hset⟩ := (r.does_tagmapSetn b).1 hfit
    refine ⟨b', hb', hset, fun b'' hcalls p ↦ ?_⟩
    rw [setBytes_access.rel_of_byteCalls r.inside hcalls p, hset p]

/-- With a tag in hand, there is nothing left to look for. -/
theorem does_slowPath_unless (hbound : addr.toNat + num ≤ 2 ^ 48)
    (hfits : ChunksFit addr.toNat num) :
    Does (fun t : BitVec 64 × BitmapState ↦ if t.1 ≠ 0 then some t else slowPath orBytes addr num t)
      True (Seen addr.toNat (addr.toNat + num)) := by
  intro t
  refine ⟨fun _ ↦ ?_, fun hnot ↦ absurd trivial hnot⟩
  by_cases htag : t.1 ≠ 0
  · simp only [if_pos htag]
    exact ⟨t, rfl, fun _ ↦ rfl, fun _ ↦ .inl htag, fun _ ↦ htag⟩
  · simp only [if_neg htag]
    exact (orBytes_access.does_slowPath hbound t).1 hfits

theorem reads_of_seen {lo mid hi : ℕ} {b₁ : BitmapState} {u : BitVec 64 × BitmapState}
    (hlow : lo ≤ mid) (hread : Reads lo mid b (0, b₁)) (hseen : Seen mid hi (0, b₁) u) :
    Reads lo hi b u := by
  obtain ⟨hbits, htag⟩ := hread
  have hclear : ∀ p, lo ≤ p → p < mid → b.memBit p ≠ true := by
    intro p hle hlt hp
    exact htag.2 ⟨p, hle, hlt, hp⟩ rfl
  refine ⟨fun p ↦ (hseen.1 p).trans (hbits p), ?_⟩
  rw [hseen.2, or_iff_right (fun h ↦ h rfl)]
  constructor
  · rintro ⟨p, hle, hlt, hp⟩
    exact ⟨p, by omega, hlt, (hbits p).symm.trans hp⟩
  · rintro ⟨p, hle, hlt, hp⟩
    have hstart : mid ≤ p := by
      by_contra hbefore
      exact hclear p hle (not_le.1 hbefore) hp
    exact ⟨p, hstart, hlt, (hbits p).trans hp⟩

theorem exists_reads_walk (hlong : 8 < r.num) (hhead : HeadFits r.addr r.num)
    (hchunks : ChunksFit (tailStart r.addr r.num) (tailLen r.addr r.num)) :
    ∃ t, tagmapIssetn r.addr r.num b = some t ∧
      Reads r.addr.toNat (r.addr.toNat + r.num) b t := by
  have hinside := r.inside
  have halg := algOff_eq r.addr
  have hlen := tailStart_add_tailLen r.addr r.num
  have hrest : ∀ tail : AddrInt, tail.toNat = tailStart r.addr r.num →
      Does (fun t : BitVec 64 × BitmapState ↦
          if t.1 ≠ 0 then some t else slowPath orBytes tail (tailLen r.addr r.num) t)
        True (Seen (tailStart r.addr r.num) (r.addr.toNat + r.num)) := by
    intro tail htail
    rw [← hlen, ← htail]
    exact does_slowPath_unless (by omega) (htail ▸ hchunks)
  obtain ⟨⟨tag, b₁⟩, hget, hread⟩ :=
    (does_getBytes (algOff r.addr) r.addr (by omega) (by omega) b).1
      fun hpos ↦ hhead.align (by omega)
  rw [tagmapIssetn, if_neg (show ¬r.num ≤ alignOffMax from not_le.2 hlong), hget,
    Option.bind_eq_bind, Option.bind_some]
  by_cases hzero : tag = 0
  · subst hzero
    have hfast := orBytes_access.does_head
      (fun a n t ↦ if t.1 ≠ 0 then some t else slowPath orBytes a n t) hinside hlong hrest
    obtain ⟨u, hu, t, hbefore, hafter⟩ := (hfast (0, b₁)).1 ⟨hhead.blocks, trivial⟩
    have hlow := algOff_le_tailStart r.addr hlong
    have hseen := seen_tiles.trans hlow (by omega) hbefore hafter
    exact ⟨u, hu, reads_of_seen b (by omega) hread hseen⟩
  · refine ⟨(tag, b₁), ?_, hread.1, ?_⟩
    · simp only [ne_eq, hzero, not_false_eq_true, if_true]
      rfl
    · obtain ⟨p, hle, hlt, hp⟩ := hread.2.1 hzero
      exact ⟨fun _ ↦ ⟨p, hle, by omega, hp⟩, fun _ ↦ hzero⟩

theorem exists_reads (h : r.WindowsFit) :
    ∃ t, tagmapIssetn r.addr r.num b = some t ∧
      Reads r.addr.toNat (r.addr.toNat + r.num) b t := by
  by_cases hsmall : r.num ≤ 8
  · rw [WindowsFit, if_pos hsmall] at h
    rw [tagmapIssetn, if_pos (show r.num ≤ alignOffMax from hsmall)]
    exact (does_getBytes r.num r.addr hsmall r.inside b).1 h
  · rw [WindowsFit, if_neg hsmall] at h
    exact r.exists_reads_walk b (not_le.1 hsmall) h.1 h.2

theorem issetnExact_of_windowsFit (h : r.WindowsFit) : r.IssetnExact b := by
  obtain ⟨t, ht, hreads⟩ := r.exists_reads b h
  refine ⟨t, ht, hreads, fun t' hcalls ↦ ?_⟩
  have hseen := orBytes_access.rel_of_byteCalls r.inside hcalls
  rw [hseen.2, hreads.2]
  exact or_iff_right (fun h ↦ h rfl)

/-- Both functions treat the interval exactly when no access leaves its segment. -/
theorem setn_issetn_iff : r.SetnExact b ∧ r.IssetnExact b ↔ r.WindowsFit := by
  constructor
  · intro h
    exact (r.setnExact_iff b).1 h.1
  · intro h
    exact ⟨(r.setnExact_iff b).2 h, r.issetnExact_of_windowsFit b h⟩

/-- Eight bytes around the end of the first segment. -/
def acrossSegments : Range := ⟨0x3FFFFFC, 8, by decide⟩

def emptyBitmap : BitmapState := ⟨fun _ ↦ 0, fun _ ↦ none⟩

theorem setn_leaves_segment :
    ¬ ∀ (r : Range) (b : BitmapState), r.SetnExact b ∧ r.IssetnExact b := by
  intro h
  have hfit := ((acrossSegments.setnExact_iff emptyBitmap).1 (h _ _).1)
  exact absurd (hfit (by decide)) (by decide)

end Range

end TheiaTaint.Engine.Tagmap
