import Mathlib
import TheiaTaint.Foundations.Formats
import TheiaTaint.Server.RecIndex

namespace TheiaTaint.Server.Checkpoint

open Foundations.Strings
open Foundations.Formats
open Database.Sql (varchar)
open RecIndex

/-- A record group's log, with what reading its `ckpt` yields: `none` is an `IOError`. -/
structure Log where
  dir : Text
  ckpt : Option (List Byte)

inductive CkptError
  | structError
  | replayError (err_msg : Text)
deriving DecidableEq

/-- The four values that `unpack_ckpt` returns. -/
structure Unpacked where
  pid : BitVec 32
  rId : BitVec 64
  rpId : BitVec 64
  filename : List Byte
deriving DecidableEq

def unpackCkpt (ckpt : Text) : Option (List Byte) → Except CkptError Unpacked
  | none => .error (.replayError ("Error: Bad Checkpoint for ".toList ++ ckpt))
  | some infile =>
      let header := infile.take 24
      -- `struct.unpack` takes exactly as many bytes as its format counts
      if header.length = 24 then
        let cnt : BitVec 32 := leWord 4 (header.drop 20)
        let filename := (infile.drop 24).take cnt.toNat
        if filename.length = cnt.toNat then
          .ok
            { pid := leWord 4 (header.take 4)
              rId := leWord 8 ((header.drop 4).take 8)
              rpId := leWord 8 ((header.drop 12).take 8)
              filename := filename.dropLast }
        else .error .structError
      else .error .structError

def text (bs : List Byte) : Text := bs.map fun b ↦ Char.ofNat b.toNat

/-- The body of the loop of `parse_ckpts`; `none` is `continue`. -/
def parseCkpt (l : Log) : Option Ckpt :=
  match unpackCkpt (l.dir ++ "/ckpt".toList) l.ckpt with
  | .ok c => some ⟨l.dir, c.pid.toNat, text c.filename⟩
  | .error .structError => none
  | .error (.replayError _) => none

/-- `parse_ckpts`, of the logs that `glob` lists. -/
def parseCkpts (logs : List Log) : List Ckpt := logs.filterMap parseCkpt

abbrev Record := BitVec 32 × BitVec 64 × BitVec 64 × Format.Counted 4

def format : Format Record :=
  (Format.word 4).pair ((Format.word 8).pair ((Format.word 8).pair (Format.counted 4)))

/-- The name is stored with the character that ends it. -/
def Record.unpacked (r : Record) : Unpacked := ⟨r.1, r.2.1, r.2.2.1, r.2.2.2.1.dropLast⟩

theorem length_format (r : Record) :
    (format.encode r).length = 24 + r.2.2.2.1.length := by
  simp only [format, Format.pair, Format.word, Format.counted, List.length_append,
    length_leBytes]
  omega

theorem decode_format_eq_none {infile : List Byte} (h : ¬ 24 ≤ infile.length) :
    format.decode infile = none := by
  rw [← Option.not_isSome_iff_eq_none]
  intro hsome
  obtain ⟨⟨r, rest⟩, hr⟩ := Option.isSome_iff_exists.1 hsome
  rw [Format.decode_eq_some_iff] at hr
  rw [← hr, List.length_append, length_format] at h
  omega

/-- The two reads of the source and the format have the same words and the same errors. -/
theorem unpackCkpt_some (ckpt : Text) (infile : List Byte) :
    unpackCkpt ckpt (some infile) =
      ((format.decode infile).map fun p ↦ p.1.unpacked).elim (.error .structError) .ok := by
  by_cases h : 24 ≤ infile.length
  · have h4 : 4 ≤ infile.length := by omega
    have h8 : 8 ≤ infile.length - 4 := by omega
    have h16 : 8 ≤ infile.length - 12 := by omega
    have h20 : 4 ≤ infile.length - 20 := by omega
    by_cases hcnt : (leWord 4 ((infile.drop 20).take 4)).toNat ≤ infile.length - 24
    · simp [unpackCkpt, format, Record.unpacked, Format.pair, Format.word, Format.counted,
        List.drop_take, List.take_take, h, h4, h8, h16, h20, hcnt]
    · simp [unpackCkpt, format, Format.pair, Format.word, Format.counted, List.drop_take, h, h4, h8,
        h16, h20, hcnt]
  · have hread : (infile.take 24).length ≠ 24 := by
      rw [List.length_take]
      omega
    rw [decode_format_eq_none h, unpackCkpt]
    simp only [hread, if_false]
    rfl

theorem unpackCkpt_eq_ok_iff {ckpt : Text} {file : Option (List Byte)} {u : Unpacked} :
    unpackCkpt ckpt file = .ok u ↔
      ∃ r rest, file = some (format.encode r ++ rest) ∧ r.unpacked = u := by
  cases file with
  | none =>
    constructor
    · intro h
      cases h
    · rintro ⟨r, rest, h, -⟩
      cases h
  | some infile =>
    rw [unpackCkpt_some]
    constructor
    · intro h
      cases hdec : format.decode infile with
      | none =>
        rw [hdec] at h
        cases h
      | some p =>
        rw [hdec] at h
        refine ⟨p.1, p.2, ?_, Except.ok.inj h⟩
        rw [format.encode_of_decode infile p.1 p.2 hdec]
    · rintro ⟨r, rest, h, rfl⟩
      rw [Option.some.inj h, format.decode_encode]
      rfl

/-- A checkpoint stands in the log under the name of a process. -/
def Log.Records (width : ℕ) (l : Log) (name : Text) : Prop :=
  ∃ (r : Record) (rest : List Byte), l.ckpt = some (format.encode r ++ rest) ∧
    varchar width (procname (some (r.1.toNat : ℤ)) (basename (text r.unpacked.filename))) =
      some name

theorem any_parseCkpt_iff {width : ℕ} {l : Log} {name : Text} :
    (parseCkpt l).any (fun c ↦ decide (varchar width c.procname = some name)) = true ↔
      l.Records width name := by
  rw [Option.any_eq_true]
  constructor
  · rintro ⟨c, hc, hname⟩
    have hname := of_decide_eq_true hname
    rw [parseCkpt] at hc
    split at hc
    · rename_i u hu
      obtain ⟨r, rest, hfile, rfl⟩ := unpackCkpt_eq_ok_iff.1 hu
      cases hc
      exact ⟨r, rest, hfile, hname⟩
    · cases hc
    · cases hc
  · rintro ⟨r, rest, hfile, hname⟩
    have hu : unpackCkpt (l.dir ++ "/ckpt".toList) l.ckpt = .ok r.unpacked :=
      unpackCkpt_eq_ok_iff.2 ⟨r, rest, hfile, rfl⟩
    refine ⟨⟨l.dir, r.1.toNat, text r.unpacked.filename⟩, ?_, decide_eq_true hname⟩
    rw [parseCkpt, hu]
    rfl

theorem logDir_of_parseCkpt {l : Log} {c : Ckpt} (h : parseCkpt l = some c) :
    c.logDir = l.dir := by
  rw [parseCkpt] at h
  split at h <;> cases h
  rfl

/-- The replay database, with the index that `proc_index` has made of it. `glob` lists no
log twice and the names are ASCII. -/
structure ReplayDb (width : ℕ) where
  logs : List Log
  nodup : (logs.map Log.dir).Nodup
  dirs_fit : ∀ l ∈ logs, l.dir.length ≤ width
  ascii : ∀ c ∈ parseCkpts logs, ∀ x ∈ c.filename, 0 < x.toNat ∧ x.toNat < 128
  recIndex : List Row
  stored : procIndex width (parseCkpts logs) = some recIndex

variable {width : ℕ}

theorem logDir_parseCkpts_sublist (logs : List Log) :
    ((parseCkpts logs).map Ckpt.logDir).Sublist (logs.map Log.dir) := by
  induction logs with
  | nil => exact List.Sublist.slnil
  | cons l logs ih =>
    rw [parseCkpts, List.filterMap_cons, List.map_cons]
    cases hl : parseCkpt l with
    | none => exact ih.cons _
    | some c =>
      rw [List.map_cons, logDir_of_parseCkpt hl]
      exact ih.cons_cons _

def ReplayDb.indexed (d : ReplayDb width) : Indexed width where
  ckpts := parseCkpts d.logs
  nodup := (logDir_parseCkpts_sublist d.logs).nodup d.nodup
  dirs_fit c hc := by
    have hmem := (logDir_parseCkpts_sublist d.logs).subset (List.mem_map_of_mem hc)
    obtain ⟨l, hl, hdir⟩ := List.mem_map.1 hmem
    rw [← hdir]
    exact d.dirs_fit l hl
  recIndex := d.recIndex
  stored := d.stored

theorem logDir_firstStored (logs : List Log) (name : Text) :
    (firstStored width (parseCkpts logs) name).map Ckpt.logDir =
      (logs.find? fun l ↦ (parseCkpt l).any fun c ↦
        decide (varchar width c.procname = some name)).map Log.dir := by
  rw [firstStored, parseCkpts, List.find?_filterMap]
  cases hfind : logs.find? _ with
  | none => rfl
  | some l =>
    have hany := List.find?_some hfind
    obtain ⟨c, hc, -⟩ := (Option.any_eq_true _ _).1 hany
    rw [Option.bind_some, hc, Option.map_some, Option.map_some, logDir_of_parseCkpt hc]

def sampleCkpt : List Byte :=
  [12, 0, 0, 0, 5, 0, 0, 0, 0, 0, 0, 0, 0, 0, 0, 0, 0, 0, 0, 0, 7, 0, 0, 0,
    0x2F, 0x62, 0x69, 0x6E, 0x2F, 0x78, 0]

def sampleLogs : List Log :=
  [⟨"/data/rec_1".toList, none⟩, ⟨"/data/rec_2".toList, some (sampleCkpt.take 30)⟩,
    ⟨"/data/rec_3".toList, some sampleCkpt⟩]

theorem parseCkpts_sampleLogs :
    parseCkpts sampleLogs = [⟨"/data/rec_3".toList, 12, "/bin/x".toList⟩] := rfl

/-- Of three logs one cannot be read, one is cut short and one is whole. -/
def sampleDb : ReplayDb 100 where
  logs := sampleLogs
  nodup := by decide
  dirs_fit := by decide
  ascii := by
    rw [parseCkpts_sampleLogs, List.forall_mem_singleton]
    simp
  recIndex := [⟨some "12x".toList, some "/data/rec_3".toList⟩]
  stored := by
    rw [parseCkpts_sampleLogs]
    decide

end TheiaTaint.Server.Checkpoint
