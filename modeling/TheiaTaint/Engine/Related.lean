import Mathlib
import TheiaTaint.Engine.Field

namespace TheiaTaint.Engine

open Foundations.BitField Foundations.Moves Tags.Directory BitmapState

variable {T : Type*} [SemilatticeSup T] [OrderBot T]

/-- A tag of one build is set where the other holds a nonempty tag. The scratch
register is left out. -/
structure Related (s : TagState T) (b : BitmapState) : Prop where
  agree : ∀ l : Loc, l.Visible → (s.get l ≠ ⊥ ↔ b.bit l = true)
  small : ∀ r, r ≠ gprScratch → (b.gpr r).toNat ≤ 0xFF

def TagState.cleared : TagState T := ⟨fun _ _ ↦ clearedVal, emptyDir⟩

def BitmapState.cleared : BitmapState := ⟨fun _ ↦ 0, fun _ ↦ none⟩

theorem related_cleared : Related (TagState.cleared : TagState T) .cleared where
  agree l _ := by
    cases l with
    | reg r i => simp [TagState.get, TagState.cleared, BitmapState.bit, BitmapState.cleared]
    | mem addr =>
      simp [TagState.get, TagState.cleared, BitmapState.bit, BitmapState.cleared, memBit]
  small _ _ := Nat.zero_le _

/-- The tags of a list are nonempty where the bits of `y` are set. -/
structure Matches (ts : List T) (n : ℕ) (y : BitVec 32) : Prop where
  length : ts.length = n
  fits : Fits n y
  agree : ∀ i (hi : i < ts.length), (ts[i] ≠ ⊥ ↔ y.getLsbD i = true)

theorem Related.fits {s : TagState T} {b : BitmapState} (h : Related s b) {r : Reg}
    (hr : r ≠ gprScratch) : Fits 8 (b.gpr r) :=
  (fits_iff_toNat_lt 8 _).2 (Nat.lt_succ_of_le (h.small r hr))

theorem matches_load {s : TagState T} {b : BitmapState} (h : Related s b) {f : Field}
    (hf : f.Within) : Matches (loadTags s f.locs) f.size (f.read b) where
  length := by rw [loadTags, length_load, Field.length_locs]
  fits := Field.fits_read
  agree i hi := by
    have hi' : i < f.size := by simpa [loadTags] using hi
    rw [Field.getLsbD_read hf hi', ← h.agree _ (Field.visible_loc hf hi')]
    simp [loadTags, load, Field.locs]

theorem Matches.combine {ts us : List T} {n : ℕ} {y z : BitVec 32} (ht : Matches ts n y)
    (hu : Matches us n z) : Matches (combine ts us) n (y ||| z) where
  length := by simp [Engine.combine, ht.length, hu.length]
  fits := ht.fits.or hu.fits
  agree i hi := by
    have hlen : i < ts.length ∧ i < us.length := by simpa [Engine.combine] using hi
    have hsup : (Engine.combine ts us)[i] = ts[i] ⊔ us[i] := by simp [Engine.combine]
    rw [hsup, ne_eq, sup_eq_bot_iff, not_and_or, BitVec.getLsbD_or, Bool.or_eq_true]
    exact or_congr (ht.agree i hlen.1) (hu.agree i hlen.2)

theorem matches_clear (ls : List Loc) : Matches (clear ls : List T) ls.length 0 where
  length := List.length_replicate
  fits := fits_zero _
  agree i hi := by simp [clear]

theorem Matches.extend {ts : List T} {n : ℕ} {y : BitVec 32} (h : Matches ts n y) (m : ℕ) :
    Matches (ts ++ List.replicate m clearedVal) (n + m) y where
  length := by simp [h.length]
  fits := h.fits.mono (Nat.le_add_right n m)
  agree i hi := by
    by_cases hin : i < ts.length
    · rw [List.getElem_append_left hin]
      exact h.agree i hin
    · have hbit : y.getLsbD i = false := h.fits i (by rw [← h.length]; omega)
      rw [List.getElem_append_right (by omega), List.getElem_replicate, hbit]
      simp

theorem Matches.double {ts : List T} {y : BitVec 32} (h : Matches ts 1 y) :
    Matches (ts ++ ts) 2 (if y.getLsbD 0 then mask 32 2 else 0) := by
  obtain ⟨t, rfl⟩ := List.length_eq_one_iff.1 h.length
  have hagree := h.agree 0 Nat.one_pos
  refine ⟨rfl, ?_, fun i hi ↦ ?_⟩
  · split
    · exact fits_mask 2
    · exact fits_zero 2
  · have hi2 : i < 2 := hi
    have hget : ([t] ++ [t])[i] = t := by
      interval_cases i <;> rfl
    rw [hget, show t ≠ ⊥ ↔ y.getLsbD 0 = true from hagree]
    cases y.getLsbD 0 with
    | true => simp [hi2, (show i < 32 by omega)]
    | false => simp

theorem related_store {s : TagState T} {b : BitmapState} (h : Related s b) {f : Field}
    (hf : f.Within) (hmap : f.Mapped b) {ts : List T} {y : BitVec 32}
    (hts : Matches ts f.size y) : Related (storeTags s f.locs ts) (f.write b y) where
  agree l hl := by
    have hlen : f.locs.length = ts.length := by rw [Field.length_locs, hts.length]
    rcases exists_cell_or_forall_ne Loc.cell f.locs l with ⟨i, hi, hcell⟩ | hne
    · have hi' : i < f.size := by simpa using hi
      have hloc : f.locs[i] = f.loc i := by simp [Field.locs]
      have hl' : f.loc i = l :=
        Loc.eq_of_cell_eq (Field.visible_loc hf hi') hl (hloc ▸ hcell)
      have hget : (storeTags s f.locs ts).get l = ts[i] :=
        get_store_getElem aliased (Field.nodup_cell_locs hf) hlen s hi hcell
      rw [hget, ← hl', Field.bit_write_loc hf hmap hts.fits hi']
      exact hts.agree i (hlen ▸ hi)
    · have hget : (storeTags s f.locs ts).get l = s.get l :=
        get_store_of_forall_ne aliased hne s ts
      rw [hget, h.agree l hl, Field.bit_write_of_ne hf hmap hts.fits hl]
      intro i hi hil
      exact hne _ (Field.mem_locs.2 ⟨i, hi, rfl⟩) (congrArg Loc.cell hil)
  small r hr := by
    have hfits := Field.fits_gpr_write hf hts.fits (h.fits hr)
    exact Nat.le_of_lt_succ ((fits_iff_toNat_lt 8 _).1 hfits)

def SameTags (s s' : TagState T) : Prop := ∀ l : Loc, l.Visible → s.get l = s'.get l

theorem SameTags.related {s s' : TagState T} {b : BitmapState} (h : SameTags s s')
    (hs : Related s' b) : Related s b where
  agree l hl := by
    rw [h l hl]
    exact hs.agree l hl
  small := hs.small

theorem mapped_write {f g : Field} {b : BitmapState} (h : f.Mapped b) (y : BitVec 32) :
    f.Mapped (g.write b y) := by
  cases f with
  | reg r o n => trivial
  | mem addr n =>
    cases g with
    | reg r o n => exact h
    | mem addr' n' =>
      rw [Field.Mapped, Field.write, setEntry]
      by_cases haddr : segIndex addr = segIndex addr'
      · simpa [haddr] using haddr ▸ h
      · simp only [Function.update_of_ne haddr]
        exact h

/-- Two stores in one build, made in the other order in the other build. -/
theorem related_store_swap {s : TagState T} {b : BitmapState} (h : Related s b) {f g : Field}
    (hf : f.Within) (hg : g.Within) (hfmap : f.Mapped b) (hgmap : g.Mapped b) {ts us : List T}
    {y z : BitVec 32} (hts : Matches ts f.size y) (hus : Matches us g.size z)
    (hagree : ∀ (i j : ℕ) (hi : i < ts.length) (hj : j < us.length), f.loc i = g.loc j →
      ts[i] = us[j]) :
    Related (storeTags (storeTags s f.locs ts) g.locs us) (f.write (g.write b z) y) := by
  have hswap : SameTags (storeTags (storeTags s f.locs ts) g.locs us)
      (storeTags (storeTags s g.locs us) f.locs ts) := by
    intro l _
    refine get_store_comm aliased (Field.nodup_cell_locs hf) (Field.nodup_cell_locs hg)
      (by rw [Field.length_locs, hts.length]) (by rw [Field.length_locs, hus.length])
      (fun i j hi hj hcell ↦ ?_) s l
    have hi' : i < f.size := by simpa using hi
    have hj' : j < g.size := by simpa using hj
    refine hagree i j (hts.length ▸ hi') (hus.length ▸ hj') ?_
    simp only [Field.locs, List.getElem_map, List.getElem_range] at hcell
    exact Loc.eq_of_cell_eq (Field.visible_loc hf hi') (Field.visible_loc hg hj') hcell
  exact hswap.related (related_store (related_store h hg hgmap hus) hf (mapped_write hfmap z) hts)

/-- `VIRT2ENTRY` inside a segment succeeds and keeps the relation. -/
theorem related_virt2entry {s : TagState T} {b : BitmapState} (h : Related s b) {addr : AddrInt}
    (haddr : InSegment addr) :
    ∃ b', b.virt2entry addr = some b' ∧ Related s b' ∧ (∀ n, (Field.mem addr n).Mapped b') ∧
      ∀ f : Field, f.Mapped b → f.Mapped b' := by
  obtain ⟨b', hb', hmap, hgpr, hmem, hkeep⟩ := virt2entry_eq haddr.inside b
  refine ⟨b', hb', ⟨fun l hl ↦ ?_, fun r hr ↦ hgpr ▸ h.small r hr⟩, fun _ ↦ hmap, fun f hf ↦ ?_⟩
  · rw [h.agree l hl]
    cases l with
    | reg r i => rw [bit, bit, hgpr]
    | mem addr' => rw [bit, bit, hmem]
  · cases f with
    | reg r o n => trivial
    | mem addr' n => exact hkeep _ hf

end TheiaTaint.Engine
