import Mathlib
import TheiaTaint.Database.Sql

namespace TheiaTaint.Server.RecIndex

open Foundations.Strings
open Database.Sql (varchar varchar_eq_some_self varchar_length)

/-- A row of `rec_index`, where `none` is `NULL`. -/
structure Row where
  procname : Option Text
  dir : Option Text
deriving DecidableEq

/-- Comparison in SQL: it does not hold of `NULL`. -/
def sqlEq {α : Type*} [DecidableEq α] : Option α → Option α → Bool
  | some a, some b => decide (a = b)
  | _, _ => false

/-- `SELECT dir FROM rec_index WHERE procname = %s`, of which the first row is fetched. -/
def fetchRec (recIndex : List Row) (procname : Text) : Option Row :=
  recIndex.find? fun r ↦ sqlEq r.procname (some procname)

/-- Python's `str` of a column of type `INT`. -/
def str : Option ℤ → Text
  | none => "None".toList
  | some (.ofNat n) => decimal n
  | some (.negSucc n) => '-' :: decimal (n + 1)

def procname (pid : Option ℤ) (path : Text) : Text := str pid ++ path

def basename (p : Text) : Text := p.rtakeWhile fun c ↦ decide (c ≠ '/')

/-- An entry of `parse_ckpts`, with the file name as the checkpoint has it. -/
structure Ckpt where
  logDir : Text
  pid : ℕ
  filename : Text

namespace Ckpt

def basename (c : Ckpt) : Text := RecIndex.basename c.filename

def procname (c : Ckpt) : Text := RecIndex.procname (some (c.pid : ℤ)) c.basename

def Is (c : Ckpt) (pid : Option ℤ) (path : Text) : Prop :=
  pid = some (c.pid : ℤ) ∧ c.basename = path

end Ckpt

/-- `INSERT INTO rec_index SELECT .. WHERE NOT EXISTS ..`, where `none` is an error. -/
def insertCkpt (width : ℕ) (recIndex : List Row) (c : Ckpt) : Option (List Row) :=
  if (fetchRec recIndex c.procname).isSome then some recIndex
  else do
    let procname ← varchar width c.procname
    let dir ← varchar width c.logDir
    return recIndex ++ [⟨some procname, some dir⟩]

/-- `proc_index`, from the emptied table, whose columns are `VARCHAR(width)`. -/
def procIndex (width : ℕ) (ckpts : List Ckpt) : Option (List Row) :=
  ckpts.foldlM (insertCkpt width) []

/-- What `get_subjects_to_taint` finds for a pid and a path. -/
def lookupDir (recIndex : List Row) (pid : Option ℤ) (path : Text) : Option Text :=
  (fetchRec recIndex (procname pid path)).bind Row.dir

/-- A table with the checkpoints that `proc_index` has stored in it. Their log
directories come from one listing of the file system. -/
structure Indexed (width : ℕ) where
  ckpts : List Ckpt
  nodup : (ckpts.map Ckpt.logDir).Nodup
  dirs_fit : ∀ c ∈ ckpts, c.logDir.length ≤ width
  recIndex : List Row
  stored : procIndex width ckpts = some recIndex

structure KeyedByProcess {width : ℕ} (x : Indexed width) (pid : Option ℤ) (path : Text) : Prop where
  sound : ∀ dir, lookupDir x.recIndex pid path = some dir →
    ∃ c ∈ x.ckpts, c.logDir = dir ∧ c.Is pid path
  complete : (∃ c ∈ x.ckpts, c.Is pid path) → (lookupDir x.recIndex pid path).isSome

variable {width : ℕ}

def firstStored (width : ℕ) (ckpts : List Ckpt) (procname : Text) : Option Ckpt :=
  ckpts.find? fun c ↦ decide (varchar width c.procname = some procname)

theorem sqlEq_some {α : Type*} [DecidableEq α] (a b : α) :
    sqlEq (some a) (some b) = decide (a = b) := rfl

theorem sqlEq_eq_true_iff {α : Type*} [DecidableEq α] {a b : Option α} :
    sqlEq a b = true ↔ ∃ x, a = some x ∧ b = some x := by
  cases a <;> cases b <;> simp [sqlEq, eq_comm]

theorem procname_of_fetchRec {recIndex : List Row} {procname : Text} {r : Row}
    (h : fetchRec recIndex procname = some r) : r ∈ recIndex ∧ r.procname = some procname := by
  have hname := List.find?_some h
  obtain ⟨x, hx, hx'⟩ := sqlEq_eq_true_iff.1 hname
  exact ⟨List.mem_of_find?_eq_some h, hx.trans hx'.symm⟩

theorem exists_fetchRec {recIndex : List Row} {procname : Text} {r : Row} (hr : r ∈ recIndex)
    (hname : r.procname = some procname) : ∃ r', fetchRec recIndex procname = some r' := by
  rw [← Option.isSome_iff_exists, fetchRec, List.find?_isSome]
  exact ⟨r, hr, by rw [hname, sqlEq_eq_true_iff]; exact ⟨_, rfl, rfl⟩⟩

theorem firstStored_length {ckpts : List Ckpt} {procname : Text} {c : Ckpt}
    (h : firstStored width ckpts procname = some c) : procname.length ≤ width := by
  have hname := List.find?_some h
  exact varchar_length (of_decide_eq_true hname)

theorem procIndex_concat (ckpts : List Ckpt) (c : Ckpt) :
    procIndex width (ckpts ++ [c]) =
      (procIndex width ckpts).bind fun recIndex ↦ insertCkpt width recIndex c := by
  rw [procIndex, List.foldlM_append, ← procIndex]
  simp

theorem fetchRec_procIndex {ckpts : List Ckpt} (hdirs : ∀ c ∈ ckpts, c.logDir.length ≤ width)
    {recIndex : List Row} (h : procIndex width ckpts = some recIndex) (procname : Text) :
    fetchRec recIndex procname =
      (firstStored width ckpts procname).map fun c ↦ ⟨some procname, some c.logDir⟩ := by
  induction ckpts using List.reverseRecOn generalizing recIndex procname with
  | nil =>
    cases h
    rfl
  | append_singleton ckpts c ih =>
    rw [procIndex_concat] at h
    obtain ⟨rows, hrows, hinsert⟩ := Option.bind_eq_some_iff.1 h
    have ih := fun name ↦ ih (fun d hd ↦ hdirs d (List.mem_append_left _ hd)) hrows name
    rw [insertCkpt] at hinsert
    rw [firstStored, List.find?_append, ← firstStored]
    by_cases hfound : (fetchRec rows c.procname).isSome
    · -- the text is taken, so this checkpoint is not the first one stored under it
      rw [if_pos hfound, Option.some.injEq] at hinsert
      subst hinsert
      rw [ih] at hfound ⊢
      rw [Option.isSome_map] at hfound
      obtain ⟨c', hc'⟩ := Option.isSome_iff_exists.1 hfound
      have hself : varchar width c.procname = some c.procname :=
        varchar_eq_some_self.2 (firstStored_length hc')
      by_cases hname : c.procname = procname
      · rw [← hname, hc', Option.some_or]
      · simp [hself, hname]
    · rw [if_neg hfound] at hinsert
      obtain ⟨name, hname, hinsert⟩ := Option.bind_eq_some_iff.1 hinsert
      obtain ⟨dir, hdir, hinsert⟩ := Option.bind_eq_some_iff.1 hinsert
      rw [varchar_eq_some_self.2 (hdirs c (by simp)), Option.some.injEq] at hdir
      rw [Option.pure_def, Option.some.injEq] at hinsert
      rw [← hinsert, fetchRec, List.find?_append, ← fetchRec, ih, ← hdir]
      cases firstStored width ckpts procname with
      | some c' => rfl
      | none => by_cases hn : name = procname <;> simp [sqlEq_some, hname, hn]

theorem lookupDir_eq (x : Indexed width) (pid : Option ℤ) (path : Text) :
    lookupDir x.recIndex pid path =
      (firstStored width x.ckpts (procname pid path)).map Ckpt.logDir := by
  rw [lookupDir, fetchRec_procIndex x.dirs_fit x.stored]
  cases firstStored width x.ckpts (procname pid path) <;> rfl

theorem Ckpt.Is.procname_eq {c : Ckpt} {pid : Option ℤ} {path : Text} (h : c.Is pid path) :
    c.procname = RecIndex.procname pid path := by
  rw [Ckpt.procname, h.1, h.2]

theorem keyedByProcess_iff (x : Indexed width) (pid : Option ℤ) (path : Text) :
    KeyedByProcess x pid path ↔
      (∀ c, firstStored width x.ckpts (procname pid path) = some c → c.Is pid path) ∧
        ∀ c ∈ x.ckpts, c.Is pid path → c.procname.length ≤ width := by
  constructor
  · intro h
    refine ⟨fun c hc ↦ ?_, fun c hc his ↦ ?_⟩
    · obtain ⟨c', hc', hdir, his⟩ := h.sound c.logDir (by rw [lookupDir_eq, hc, Option.map_some])
      have hmem := List.mem_of_find?_eq_some hc
      rwa [List.inj_on_of_nodup_map x.nodup hc' hmem hdir] at his
    · have hsome := h.complete ⟨c, hc, his⟩
      rw [lookupDir_eq, Option.isSome_map] at hsome
      obtain ⟨c', hc'⟩ := Option.isSome_iff_exists.1 hsome
      rw [his.procname_eq]
      exact firstStored_length hc'
  · rintro ⟨hfirst, hfits⟩
    refine ⟨fun dir hdir ↦ ?_, ?_⟩
    · rw [lookupDir_eq] at hdir
      obtain ⟨c, hc, hdir⟩ := Option.map_eq_some_iff.1 hdir
      exact ⟨c, List.mem_of_find?_eq_some hc, hdir, hfirst c hc⟩
    · rintro ⟨c, hc, his⟩
      rw [lookupDir_eq, Option.isSome_map, firstStored, List.find?_isSome]
      refine ⟨c, hc, decide_eq_true ?_⟩
      rw [← his.procname_eq]
      exact varchar_eq_some_self.2 (hfits c hc his)

def Ckpt.OneReading (c : Ckpt) : Prop :=
  c.pid = 0 ∨ c.pid < 10 ∧ ∀ d ∈ c.basename.head?, d.isDigit = false

theorem takeWhile_isDigit_decimal_append (n : ℕ) (t : Text) :
    (decimal n ++ t).takeWhile Char.isDigit = decimal n ++ t.takeWhile Char.isDigit :=
  List.takeWhile_append_of_pos fun _ hc ↦ isDigit_of_mem_decimal hc

theorem decimal_append_inj_of_zero {n : ℕ} {s t : Text} (h : decimal n ++ s = decimal 0 ++ t) :
    n = 0 := by
  by_contra hn
  have hhead := congrArg List.head? h
  rw [List.head?_append_of_ne_nil _ (decimal_ne_nil n)] at hhead
  exact head?_decimal_ne_zero hn hhead

theorem decimal_append_inj_of_lt {m n : ℕ} {s t : Text} (hm : m < 10)
    (ht : ∀ d ∈ t.head?, d.isDigit = false) (h : decimal n ++ s = decimal m ++ t) : n = m := by
  have hdigits := congrArg (List.takeWhile Char.isDigit) h
  have hnil : t.takeWhile Char.isDigit = [] := by
    cases t with
    | nil => rfl
    | cons d t => rw [List.takeWhile_cons_of_neg (by simp [ht d rfl])]
  rw [takeWhile_isDigit_decimal_append, takeWhile_isDigit_decimal_append, hnil,
    List.append_nil] at hdigits
  have hlen := congrArg List.length hdigits
  have hone : (decimal m).length = 1 := by
    rw [decimal, Nat.toDigits_of_lt_base hm, List.length_singleton]
  have hpos := List.length_pos_of_ne_nil (decimal_ne_nil n)
  rw [List.length_append, hone] at hlen
  rw [List.eq_nil_of_length_eq_zero (l := s.takeWhile Char.isDigit) (by omega),
    List.append_nil] at hdigits
  exact decimal_injective hdigits

theorem is_of_procname_eq {c : Ckpt} (h : c.OneReading) {pid : Option ℤ} {path : Text}
    (heq : procname pid path = c.procname) : c.Is pid path := by
  obtain ⟨d, s, hs⟩ := List.exists_cons_of_ne_nil (decimal_ne_nil c.pid)
  have hd : d.isDigit = true := isDigit_of_mem_decimal (n := c.pid) (by simp [hs])
  have hkey : c.procname = decimal c.pid ++ c.basename := rfl
  match pid with
  | none =>
    rw [hkey, hs] at heq
    have hhead : 'N' = d := List.head_eq_of_cons_eq heq
    exact absurd hd (by rw [← hhead]; decide)
  | some (.negSucc n) =>
    rw [hkey, hs] at heq
    have hhead : '-' = d := List.head_eq_of_cons_eq heq
    exact absurd hd (by rw [← hhead]; decide)
  | some (.ofNat n) =>
    have heq : decimal n ++ path = decimal c.pid ++ c.basename := heq
    have hpid : n = c.pid := by
      rcases h with hzero | ⟨hlt, hbase⟩
      · rw [hzero] at heq ⊢
        exact decimal_append_inj_of_zero heq
      · exact decimal_append_inj_of_lt hlt hbase heq
    rw [hpid] at heq ⊢
    exact ⟨rfl, (List.append_cancel_left heq).symm⟩

/-- The boundary between pid and name may move over a digit, to the left of it or to
the right. -/
theorem exists_reading {c : Ckpt} (h : ¬ c.OneReading) :
    ∃ (n : ℕ) (path : Text), procname (some (n : ℤ)) path = c.procname ∧ n ≠ c.pid := by
  rw [Ckpt.OneReading, not_or, not_and'] at h
  obtain ⟨hzero, hsmall⟩ := h
  have hkey : c.procname = decimal c.pid ++ c.basename := rfl
  by_cases hlt : c.pid < 10
  · have hhead : ¬ ∀ d ∈ c.basename.head?, d.isDigit = false := fun hall ↦ hsmall hall hlt
    cases hbase : c.basename with
    | nil => exact absurd (by simp [hbase]) hhead
    | cons d rest =>
      have hd : d.isDigit = true := by simpa [hbase] using hhead
      refine ⟨10 * c.pid + (d.toNat - 48), rest, ?_, by omega⟩
      have hdigit := decimal_append_digit (Nat.pos_of_ne_zero hzero) hd
      rw [hkey, hbase, List.append_cons, hdigit]
      rfl
  · refine ⟨c.pid / 10, decimal (c.pid % 10) ++ c.basename, ?_, by omega⟩
    have hsplit : decimal (c.pid / 10) ++ decimal (c.pid % 10) = decimal c.pid := by
      rw [decimal, decimal, Nat.toDigits_append_toDigits (by decide) (by omega)
        (Nat.mod_lt _ (by decide)), Nat.div_add_mod]
      rfl
    rw [hkey, ← hsplit, List.append_assoc]
    rfl

/-- For one subject the index is right exactly when the first checkpoint stored under the
subject's text is one of the subject's and no checkpoint of the subject has lost the end of
its text. A list is right for all subjects exactly when no text can be read in two ways. -/
theorem rec_index_keyed_iff (x : Indexed width) :
    (∀ (pid : Option ℤ) (path : Text), KeyedByProcess x pid path ↔
      (∀ c, firstStored width x.ckpts (procname pid path) = some c → c.Is pid path) ∧
        ∀ c ∈ x.ckpts, c.Is pid path → c.procname.length ≤ width) ∧
    ((∀ (pid : Option ℤ) (path : Text), KeyedByProcess x pid path) ↔
      ∀ c ∈ x.ckpts, c.procname.length ≤ width ∧ c.OneReading) := by
  refine ⟨keyedByProcess_iff x, fun h c hc ↦ ?_, fun h pid path ↦ ?_⟩
  · have hself := (keyedByProcess_iff x (some c.pid) c.basename).1 (h _ _)
    have hfits : c.procname.length ≤ width := hself.2 c hc ⟨rfl, rfl⟩
    refine ⟨hfits, ?_⟩
    by_contra hreading
    obtain ⟨n, path, hname, hne⟩ := exists_reading hreading
    obtain ⟨c₁, hc₁⟩ : ∃ c₁, firstStored width x.ckpts c.procname = some c₁ := by
      rw [← Option.isSome_iff_exists, firstStored, List.find?_isSome]
      exact ⟨c, hc, decide_eq_true (varchar_eq_some_self.2 hfits)⟩
    have his := hself.1 c₁ hc₁
    have his' := ((keyedByProcess_iff x (some n) path).1 (h _ _)).1 c₁ (by rw [hname, hc₁])
    have heq : (c.pid : ℤ) = n := Option.some.inj (his.1.trans his'.1.symm)
    omega
  · rw [keyedByProcess_iff]
    refine ⟨fun c hc ↦ ?_, fun c hc _ ↦ (h c hc).1⟩
    have hmem := List.mem_of_find?_eq_some hc
    have hname := List.find?_some hc
    have hstored := of_decide_eq_true hname
    rw [varchar_eq_some_self.2 (h c hmem).1, Option.some.injEq] at hstored
    exact is_of_procname_eq (h c hmem).2 hstored.symm

def sampleIndexed : Indexed 100 where
  ckpts := [⟨"/data/0badcafe/replay_logdb/rec_1".toList, 1, "/bin/2x".toList⟩]
  nodup := List.nodup_singleton _
  dirs_fit := by decide
  recIndex := [⟨some "12x".toList, some "/data/0badcafe/replay_logdb/rec_1".toList⟩]
  stored := by decide

theorem pid_and_name_run_together :
    ¬ ∀ (width : ℕ) (x : Indexed width) (pid : Option ℤ) (path : Text),
      KeyedByProcess x pid path := by
  intro h
  obtain ⟨c, hc, -, hpid, -⟩ :=
    (h 100 sampleIndexed (some 12) "x".toList).sound "/data/0badcafe/replay_logdb/rec_1".toList
      (by decide)
  rw [sampleIndexed, List.mem_singleton] at hc
  subst hc
  cases hpid

end TheiaTaint.Server.RecIndex
