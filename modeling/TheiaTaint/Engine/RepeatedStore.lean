import Mathlib
import TheiaTaint.Engine.Flat

namespace TheiaTaint.Engine

open Foundations.Moves Foundations.Assign Tags.Directory

section Intervals

variable {T : Type*} {s : FlatState T} {a : AddrInt} {m k : ℕ} {t u : ℕ → T}

theorem get_write_reg (r : Reg) (i : Fin 8) :
    (s.write (.mem a m) t).get (.reg r i) = s.get (.reg r i) := by
  apply get_write_of_ne
  intro j _
  exact Loc.noConfusion

theorem add_ofNat_toNat_sub (a x : AddrInt) : a + BitVec.ofNat 64 (x - a).toNat = x := by
  rw [BitVec.ofNat_toNat, BitVec.setWidth_eq, BitVec.add_comm, BitVec.sub_add_cancel]

theorem toNat_add_ofNat_sub (a : AddrInt) {o : ℕ} (ho : o < 2 ^ 64) :
    (a + BitVec.ofNat 64 o - a).toNat = o := by
  rw [BitVec.add_comm, BitVec.add_sub_cancel, BitVec.toNat_ofNat, Nat.mod_eq_of_lt ho]

theorem get_write_mem (hm : m ≤ 2 ^ 64) (x : AddrInt) :
    (s.write (.mem a m) t).get (.mem x) =
      if (x - a).toNat < m then t (x - a).toNat else s.get (.mem x) := by
  split
  · next hin =>
    have hproper : (Field.mem a m).Proper := hm
    have hx : (Field.mem a m).loc (x - a).toNat = .mem x :=
      congrArg Loc.mem (add_ofNat_toNat_sub a x)
    rw [← hx, get_write_loc hproper hin]
  · next hout =>
    apply get_write_of_ne
    intro i hi hix
    have hoff : (x - a).toNat = i := by
      rw [← Loc.mem.inj hix, toNat_add_ofNat_sub a (lt_of_lt_of_le hi hm)]
    exact hout (hoff ▸ hi)

theorem toNat_sub_add (x a : AddrInt) (hm : m < 2 ^ 64) :
    (x - (a + BitVec.ofNat 64 m)).toNat = ((x - a).toNat + (2 ^ 64 - m)) % 2 ^ 64 := by
  have hsub : x - (a + BitVec.ofNat 64 m) = x - a - BitVec.ofNat 64 m := by
    simp only [BitVec.sub_eq_add_neg, BitVec.neg_add, BitVec.add_assoc]
  rw [hsub, BitVec.toNat_sub, BitVec.toNat_ofNat, Nat.mod_eq_of_lt hm, Nat.add_comm]

theorem write_write (h : m + k ≤ 2 ^ 64) (hm : m < 2 ^ 64) :
    (s.write (.mem a m) t).write (.mem (a + BitVec.ofNat 64 m) k) u =
      s.write (.mem a (m + k)) fun j ↦ if j < m then t j else u (j - m) := by
  apply FlatState.ext_get
  intro l
  cases l with
  | reg r i => rw [get_write_reg, get_write_reg, get_write_reg]
  | mem x =>
    have hlt := (x - a).isLt
    rw [get_write_mem (by omega), get_write_mem (by omega), get_write_mem h, toNat_sub_add x a hm]
    generalize (x - a).toNat = o at hlt
    by_cases hom : o < m
    · rw [if_neg (by omega), if_pos hom, if_pos (by omega), if_pos hom]
    · have hoff : (o + (2 ^ 64 - m)) % 2 ^ 64 = o - m := by omega
      rw [hoff, if_neg hom, if_neg hom]
      by_cases hok : o < m + k
      · rw [if_pos (by omega), if_pos hok]
      · rw [if_neg (by omega), if_neg hok]

theorem write_write_comm (h : m + k ≤ 2 ^ 64) (hm : m < 2 ^ 64) :
    (s.write (.mem (a + BitVec.ofNat 64 m) k) u).write (.mem a m) t =
      (s.write (.mem a m) t).write (.mem (a + BitVec.ofNat 64 m) k) u := by
  apply FlatState.ext_get
  intro l
  cases l with
  | reg r i => rw [get_write_reg, get_write_reg, get_write_reg, get_write_reg]
  | mem x =>
    have hlt := (x - a).isLt
    rw [get_write_mem (by omega), get_write_mem (by omega), get_write_mem (by omega),
      get_write_mem (by omega), toNat_sub_add x a hm]
    generalize (x - a).toNat = o at hlt
    by_cases hom : o < m
    · rw [if_pos hom, if_pos hom, if_neg (by omega)]
    · rw [if_neg hom, if_neg hom]

/-- The same tags written `d` bytes apart, in terms of the lower interval. -/
theorem write_eq_write_iff {d : ℕ} (h : m + d ≤ 2 ^ 64) (hd : d < 2 ^ 64) :
    s.write (.mem a m) t = s.write (.mem (a + BitVec.ofNat 64 d) m) u ↔
      ∀ o < m + d, (if o < m then t o else s.mem (a + BitVec.ofNat 64 o)) =
        if d ≤ o then u (o - d) else s.mem (a + BitVec.ofNat 64 o) := by
  have hget : ∀ x : AddrInt, (s.write (.mem a m) t).get (.mem x) =
        (s.write (.mem (a + BitVec.ofNat 64 d) m) u).get (.mem x) ↔
      ((x - a).toNat < m + d →
        (if (x - a).toNat < m then t (x - a).toNat else s.mem x) =
          if d ≤ (x - a).toNat then u ((x - a).toNat - d) else s.mem x) := by
    intro x
    have hlt := (x - a).isLt
    rw [get_write_mem (by omega), get_write_mem (by omega), toNat_sub_add x a hd]
    generalize (x - a).toNat = o at hlt
    by_cases hin : o < m + d
    · by_cases hdo : d ≤ o
      · have hoff : (o + (2 ^ 64 - d)) % 2 ^ 64 = o - d := by omega
        rw [hoff, if_pos (show o - d < m by omega), if_pos hdo, imp_iff_right hin]
        rfl
      · have hoff : ¬ (o + (2 ^ 64 - d)) % 2 ^ 64 < m := by omega
        rw [if_neg hoff, if_neg hdo, imp_iff_right hin]
        rfl
    · have hoff : ¬ (o + (2 ^ 64 - d)) % 2 ^ 64 < m := by omega
      rw [if_neg hoff, if_neg (show ¬ o < m by omega)]
      simp [hin]
  constructor
  · intro heq o ho
    have hx := toNat_add_ofNat_sub a (show o < 2 ^ 64 by omega)
    have hox := (hget (a + BitVec.ofNat 64 o)).1 (congrArg (FlatState.get · _) heq)
    rw [hx] at hox
    exact hox ho
  · intro hall
    apply FlatState.ext_get
    intro l
    cases l with
    | reg r i => rw [get_write_reg, get_write_reg]
    | mem x =>
      refine (hget x).2 fun hx ↦ ?_
      have hox := hall (x - a).toNat hx
      rwa [add_ofNat_toNat_sub a x] at hox

theorem eq_write_iff (hm : m ≤ 2 ^ 64) :
    s = s.write (.mem a m) t ↔ ∀ o < m, s.mem (a + BitVec.ofNat 64 o) = t o := by
  constructor
  · intro heq o ho
    have hget := congrArg (FlatState.get · (.mem (a + BitVec.ofNat 64 o))) heq
    have hproper : (Field.mem a m).Proper := hm
    exact hget.trans (get_write_loc hproper ho)
  · intro hall
    apply FlatState.ext_get
    intro l
    cases l with
    | reg r i => rw [get_write_reg]
    | mem x =>
      rw [get_write_mem hm]
      split
      · next hin =>
        have hx := hall (x - a).toNat hin
        rwa [add_ofNat_toNat_sub a x] at hx
      · rfl

end Intervals

inductive StosForm
  | opb
  | opw
  | opl
  | opq

namespace StosForm

def shift : StosForm → ℕ
  | .opb => 0
  | .opw => 1
  | .opl => 2
  | .opq => 3

def size (f : StosForm) : ℕ := 2 ^ f.shift

def src (f : StosForm) : Field := .reg gprEax 0 f.size

def repeated : StosForm → AddrInt → AddrInt → Bool → Handler
  | .opb, dst, count, df => .r2mXferOpbn dst count df
  | .opw, dst, count, df => .r2mXferOpwn dst count df
  | .opl, dst, count, df => .r2mXferOpln dst count df
  | .opq, dst, count, df => .r2mXferOpqn dst count df

def single : StosForm → AddrInt → Handler
  | .opb, dst => .narrow (.r2mXfer .opbL dst gprEax)
  | .opw, dst => .narrow (.r2mXfer .opw dst gprEax)
  | .opl, dst => .r2mXferOpl dst gprEax
  | .opq, dst => .narrow (.r2mXfer .opq dst gprEax)

/-- The address of the `i`-th element. -/
def element (f : StosForm) (df : Bool) (dst : AddrInt) (i : ℕ) : AddrInt :=
  if df then dst - BitVec.ofNat 64 (i * f.size) else dst + BitVec.ofNat 64 (i * f.size)

theorem size_pos (f : StosForm) : 0 < f.size := Nat.two_pow_pos _

theorem size_le (f : StosForm) : f.size ≤ 8 := by
  cases f <;> decide

theorem element_zero (f : StosForm) (df : Bool) (dst : AddrInt) : f.element df dst 0 = dst := by
  simp [element]

theorem element_succ (f : StosForm) (df : Bool) (dst : AddrInt) (i : ℕ) :
    f.element df dst (i + 1) = f.element df (f.element df dst 1) i := by
  have hsize : (i + 1) * f.size = f.size + i * f.size := by ring
  cases df with
  | false => simp [element, hsize, BitVec.ofNat_add, BitVec.add_assoc]
  | true =>
    simp only [element, if_true, hsize, BitVec.ofNat_add, Nat.one_mul]
    ring

end StosForm

/-- A `REP STOS` whose elements lie inside the address space. -/
structure RepStos where
  form : StosForm
  dst : AddrInt
  count : AddrInt
  df : Bool
  inside : ∀ i < count.toNat,
    if df then i * form.size ≤ dst.toNat ∧ dst.toNat - i * form.size + form.size ≤ 2 ^ 64
    else dst.toNat + i * form.size + form.size ≤ 2 ^ 64

variable {T : Type*} [SemilatticeSup T] [OrderBot T]

/-- The single stores one after the other. -/
def stosSteps (f : StosForm) (df : Bool) : ℕ → AddrInt → FlatState T → FlatState T
  | 0, _, s => s
  | n + 1, dst, s => stosSteps f df n (f.element df dst 1) ((f.single dst).run s)

namespace StosForm

variable {f : StosForm} {df : Bool} {s : FlatState T} {dst : AddrInt} {n : ℕ}

theorem run_single (f : StosForm) (dst : AddrInt) (s : FlatState T) :
    (f.single dst).run s = s.write (.mem dst f.size) fun i ↦ s.get (f.src.loc i) := by
  have hsize : f.src.size = (Field.mem dst f.size).size := rfl
  rw [run_flat]
  cases f with
  | opb | opw | opq => exact runBlocks_xfer hsize
  | opl =>
    rw [single, Handler.program, m32Tag_eq]
    exact runBlocks_xfer hsize

theorem run_repeated (f : StosForm) (dst count : AddrInt) (df : Bool) (s : FlatState T) :
    (f.repeated dst count df).run s =
      s.write (.mem (repAddr dst (count <<< f.shift) df) (count <<< f.shift).toNat)
        fun i ↦ s.get (f.src.loc (i % f.size)) := by
  have hpos : 0 < f.src.size := f.size_pos
  have hprogram : (f.repeated dst count df).program =
      [Shape.fill (repAddr dst (count <<< f.shift) df) (count <<< f.shift).toNat f.src.locs] := by
    cases f with
    | opb =>
      have hshift : count <<< shift .opb = count := BitVec.shiftLeft_zero count
      rw [hshift]
      rfl
    | opw | opl | opq => rfl
  rw [run_flat, hprogram, runBlocks_fill hpos]
  rfl

theorem get_stosSteps_of_ne {l : Loc}
    (hl : ∀ i < n, ∀ j < f.size, Loc.mem (f.element df dst i + BitVec.ofNat 64 j) ≠ l) :
    (stosSteps f df n dst s).get l = s.get l := by
  induction n generalizing dst s with
  | zero => rfl
  | succ n ih =>
    have hfirst : ∀ j < (Field.mem dst f.size).size, (Field.mem dst f.size).loc j ≠ l := by
      intro j hj
      have hzero := hl 0 (Nat.succ_pos n) j hj
      rwa [element_zero] at hzero
    have hrest : ∀ i < n, ∀ j < f.size,
        Loc.mem (f.element df (f.element df dst 1) i + BitVec.ofNat 64 j) ≠ l := by
      intro i hi j hj
      rw [← element_succ]
      exact hl (i + 1) (Nat.succ_lt_succ hi) j hj
    rw [stosSteps, ih hrest, run_single, get_write_of_ne hfirst]

theorem stosSteps_up (h : n * f.size ≤ 2 ^ 64) :
    stosSteps f false n dst s =
      s.write (.mem dst (n * f.size)) fun j ↦ s.get (f.src.loc (j % f.size)) := by
  induction n generalizing dst s with
  | zero => simp [stosSteps, FlatState.write, Field.locs, Field.size]
  | succ n ih =>
    have hsize := f.size_le
    have hsucc : (n + 1) * f.size = f.size + n * f.size := by ring
    have hnext : f.element false dst 1 = dst + BitVec.ofNat 64 f.size := by simp [element]
    rw [stosSteps, ih (by omega), run_single, hnext]
    simp only [src, Field.loc, get_write_reg]
    rw [write_write (by omega) (by omega), hsucc]
    apply write_congr
    intro j _
    by_cases hj : j < f.size
    · rw [if_pos hj, Nat.mod_eq_of_lt hj]
    · rw [if_neg hj, ← Nat.mod_eq_sub_mod (Nat.le_of_not_lt hj)]

/-- Downwards the elements are written from the last byte interval to the first. -/
theorem stosSteps_down (h : n * f.size ≤ 2 ^ 64) :
    stosSteps f true n dst s =
      s.write (.mem (dst + BitVec.ofNat 64 f.size - BitVec.ofNat 64 (n * f.size)) (n * f.size))
        fun j ↦ s.get (f.src.loc (j % f.size)) := by
  induction n generalizing dst s with
  | zero => simp [stosSteps, FlatState.write, Field.locs, Field.size]
  | succ n ih =>
    have hsize := f.size_le
    have hpos := f.size_pos
    have hsucc : (n + 1) * f.size = n * f.size + f.size := by ring
    have hnext : f.element true dst 1 = dst - BitVec.ofNat 64 f.size := by simp [element]
    generalize hlow : dst - BitVec.ofNat 64 (n * f.size) = low
    have hlow' : dst - BitVec.ofNat 64 f.size + BitVec.ofNat 64 f.size -
        BitVec.ofNat 64 (n * f.size) = low := by
      rw [BitVec.sub_add_cancel, hlow]
    have hlow'' : dst + BitVec.ofNat 64 f.size - BitVec.ofNat 64 (n * f.size + f.size) = low := by
      rw [← hlow, BitVec.ofNat_add]
      ring
    have hdst : dst = low + BitVec.ofNat 64 (n * f.size) := by
      rw [← hlow, BitVec.sub_add_cancel]
    rw [stosSteps, ih (by omega), run_single, hnext, hlow', hsucc, hlow'']
    simp only [src, Field.loc, get_write_reg]
    rw [hdst, write_write_comm (by omega) (by omega), write_write (by omega) (by omega)]
    apply write_congr
    intro j hj
    have hj' : j < n * f.size + f.size := hj
    by_cases hjn : j < n * f.size
    · rw [if_pos hjn]
    · have hmod : j % f.size = j - n * f.size := by
        have hle : f.size * n ≤ j := by
          rw [Nat.mul_comm]
          exact Nat.le_of_not_lt hjn
        rw [← Nat.sub_mul_mod hle, Nat.mul_comm, Nat.mod_eq_of_lt (by omega)]
      rw [if_neg hjn, hmod]

end StosForm

namespace RepStos

variable {s : FlatState T}

def bytes (r : RepStos) : ℕ := r.count.toNat * r.form.size

/-- The address of the lowest element. -/
def low (r : RepStos) : AddrInt :=
  if r.df then r.dst + BitVec.ofNat 64 r.form.size - BitVec.ofNat 64 r.bytes else r.dst

def repeated (r : RepStos) : Handler := r.form.repeated r.dst r.count r.df

def steps (r : RepStos) (s : FlatState T) : FlatState T :=
  stosSteps r.form r.df r.count.toNat r.dst s

/-- The tag of byte `i` of the stored register. -/
def tag (r : RepStos) (s : FlatState T) (i : ℕ) : T := s.get (r.form.src.loc (i % r.form.size))

theorem bytes_le (r : RepStos) : r.bytes ≤ 2 ^ 64 := by
  obtain ⟨f, dst, count, df, hinside⟩ := r
  simp only [bytes]
  cases hn : count.toNat with
  | zero => simp
  | succ n =>
    have hlast := hinside n (by omega)
    have hfirst := hinside 0 (by omega)
    have hsucc : (n + 1) * f.size = n * f.size + f.size := by ring
    rw [hsucc]
    cases df with
    | false =>
      rw [if_neg Bool.false_ne_true] at hlast
      omega
    | true =>
      rw [if_pos rfl, Nat.zero_mul] at hfirst
      rw [if_pos rfl] at hlast
      omega

theorem steps_eq (r : RepStos) (s : FlatState T) :
    r.steps s = s.write (.mem r.low r.bytes) (r.tag s) := by
  have hbytes := r.bytes_le
  rw [steps, low]
  cases hdf : r.df with
  | false => exact StosForm.stosSteps_up hbytes
  | true => exact StosForm.stosSteps_down hbytes

theorem toNat_shifted (r : RepStos) :
    (r.count <<< r.form.shift).toNat = r.bytes % 2 ^ 64 := by
  rw [BitVec.toNat_shiftLeft, Nat.shiftLeft_eq]
  rfl

/-- Where the handler starts when the direction flag is set. -/
def start (r : RepStos) : AddrInt := r.dst - BitVec.ofNat 64 r.bytes + 1

theorem run_repeated (r : RepStos) (s : FlatState T) :
    r.repeated.run s =
      s.write (.mem (if r.df then r.start else r.dst) (r.bytes % 2 ^ 64)) (r.tag s) := by
  have hshifted : r.count <<< r.form.shift = BitVec.ofNat 64 r.bytes := by
    rw [BitVec.toNat_eq, toNat_shifted, BitVec.toNat_ofNat]
  rw [repeated, StosForm.run_repeated, toNat_shifted, hshifted]
  rfl

/-- The interval of the handler lies `size - 1` bytes below the elements, and the tags
there and in the register hide this. -/
structure ShiftHidden (r : RepStos) (s : FlatState T) : Prop where
  below : ∀ o < r.form.size - 1, s.mem (r.start + BitVec.ofNat 64 o) = r.tag s o
  within : ∀ o, r.form.size - 1 ≤ o → o < r.bytes → r.tag s o = r.tag s (o + 1)
  above : ∀ o, r.bytes ≤ o → o < r.bytes + (r.form.size - 1) →
    s.mem (r.start + BitVec.ofNat 64 o) = r.tag s (o + 1)

/-- When the one-shot handler does what the single stores do. A count that overflows
stores nothing. -/
def Agrees (r : RepStos) (s : FlatState T) : Prop :=
  if r.bytes = 2 ^ 64 then
    ∀ o < r.bytes, s.mem (r.low + BitVec.ofNat 64 o) = r.tag s o
  else
    r.df = false ∨ r.count.toNat = 0 ∨ r.ShiftHidden s

/-- The handler does what the single stores do, and changes no byte outside them. -/
structure SameAsSteps (r : RepStos) (s s' : FlatState T) : Prop where
  same : s' = r.steps s
  other : ∀ l, (∀ i < r.count.toNat, ∀ j < r.form.size,
    Loc.mem (r.form.element r.df r.dst i + BitVec.ofNat 64 j) ≠ l) → s'.get l = s.get l

theorem sameAsSteps_iff (r : RepStos) (s s' : FlatState T) :
    r.SameAsSteps s s' ↔ s' = r.steps s := by
  constructor
  · intro h
    exact h.same
  · rintro rfl
    refine ⟨rfl, ?_⟩
    intro l hl
    exact StosForm.get_stosSteps_of_ne hl

omit [SemilatticeSup T] [OrderBot T] in
theorem tag_add_size (r : RepStos) (s : FlatState T) {o : ℕ} (ho : r.form.size - 1 ≤ o) :
    r.tag s (o - (r.form.size - 1)) = r.tag s (o + 1) := by
  have hpos := r.form.size_pos
  have hsum : o + 1 = o - (r.form.size - 1) + r.form.size := by omega
  rw [tag, tag, hsum, Nat.add_mod_right]

omit [SemilatticeSup T] [OrderBot T] in
theorem shiftHidden_iff (r : RepStos) (hcount : r.count.toNat ≠ 0) :
    (∀ o < r.bytes + (r.form.size - 1),
      (if o < r.bytes then r.tag s o else s.mem (r.start + BitVec.ofNat 64 o)) =
        if r.form.size - 1 ≤ o then r.tag s (o - (r.form.size - 1))
        else s.mem (r.start + BitVec.ofNat 64 o)) ↔ r.ShiftHidden s := by
  have hpos := r.form.size_pos
  have hbytes : r.form.size ≤ r.bytes := Nat.le_mul_of_pos_left _ (Nat.pos_of_ne_zero hcount)
  constructor
  · intro h
    refine ⟨?_, ?_, ?_⟩
    · intro o ho
      have hval := h o (by omega)
      rw [if_pos (by omega), if_neg (by omega)] at hval
      exact hval.symm
    · intro o ho hlt
      have hval := h o (by omega)
      rwa [if_pos hlt, if_pos ho, tag_add_size r s ho] at hval
    · intro o ho hlt
      have hval := h o hlt
      rwa [if_neg (by omega), if_pos (by omega), tag_add_size r s (by omega)] at hval
  · rintro ⟨hbelow, hwithin, habove⟩ o ho
    by_cases hd : r.form.size - 1 ≤ o
    · rw [if_pos hd, tag_add_size r s hd]
      by_cases hin : o < r.bytes
      · rw [if_pos hin, hwithin o hd hin]
      · rw [if_neg hin, habove o (by omega) ho]
    · rw [if_neg hd, if_pos (by omega), hbelow o (by omega)]

theorem low_eq (r : RepStos) (hdf : r.df = true) :
    r.low = r.start + BitVec.ofNat 64 (r.form.size - 1) := by
  have hpos := r.form.size_pos
  have hsize : r.form.size = 1 + (r.form.size - 1) := by omega
  have hone : BitVec.ofNat 64 1 = (1 : AddrInt) := rfl
  rw [low, if_pos hdf, start]
  nth_rewrite 1 [hsize]
  rw [BitVec.ofNat_add, hone]
  ring

theorem shifted_le (r : RepStos) (h : r.bytes < 2 ^ 64) :
    r.bytes + (r.form.size - 1) ≤ 2 ^ 64 := by
  rw [bytes] at h ⊢
  cases hf : r.form <;> simp only [hf, StosForm.size, StosForm.shift] at h ⊢ <;> omega

/-- The one-shot handler is the repeated single store exactly where the two intervals are
the same or their difference does not show. -/
theorem repStos_iff (r : RepStos) (s : FlatState T) :
    Computes r.repeated.program (r.repeated.run (S := TagState T)) ∧
      (r.SameAsSteps s (r.repeated.run s) ↔ r.Agrees s) := by
  refine ⟨computes_run r.repeated, ?_⟩
  rw [sameAsSteps_iff, run_repeated, steps_eq, Agrees]
  by_cases hfull : r.bytes = 2 ^ 64
  · have hmod : r.bytes % 2 ^ 64 = 0 := by omega
    rw [if_pos hfull, hmod]
    exact eq_write_iff r.bytes_le
  · have hlt : r.bytes < 2 ^ 64 := lt_of_le_of_ne r.bytes_le hfull
    rw [if_neg hfull, Nat.mod_eq_of_lt hlt]
    cases hdf : r.df with
    | false =>
      rw [if_neg Bool.false_ne_true, low, hdf, if_neg Bool.false_ne_true]
      exact iff_of_true rfl (.inl rfl)
    | true =>
      rw [if_pos rfl]
      by_cases hcount : r.count.toNat = 0
      · have hbytes : r.bytes = 0 := by rw [bytes, hcount, Nat.zero_mul]
        rw [hbytes]
        exact iff_of_true rfl (.inr (.inl hcount))
      · have hsize := r.form.size_le
        rw [low_eq r hdf, write_eq_write_iff (r.shifted_le hlt) (by omega),
          shiftHidden_iff r hcount]
        simp [hcount]

/-- With the direction flag set, one two-byte store misses its element by one byte. -/
theorem downward_stos_is_shifted :
    ¬ ∀ (r : RepStos) (s : FlatState (Finset ℕ)), r.SameAsSteps s (r.repeated.run s) := by
  intro h
  let r : RepStos := ⟨.opw, 0x1000, 1, true, by decide⟩
  let s : FlatState (Finset ℕ) :=
    ⟨fun r i ↦ if r = gprEax ∧ i = 0 then {1} else ∅, fun _ ↦ ∅⟩
  have hsame := congrArg (FlatState.get · (.mem 0x1000)) (h r s).same
  exact absurd hsame (by decide)

end RepStos

end TheiaTaint.Engine
