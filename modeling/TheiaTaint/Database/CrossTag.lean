import Mathlib
import TheiaTaint.Foundations.Scanning
import TheiaTaint.Objects.FlowHistory

namespace TheiaTaint.Database.CrossTag

open Foundations.Strings Foundations.Scanning Objects.Uuid Objects.ObjectUuid Objects.FlowHistory

inductive Token
  | word (w : Text)
  | number (n : ℕ)
  | literal (t : Text)
  | equals
  | semicolon
deriving DecidableEq

/-- What the characters since the last token are the beginning of. After a quote in
a literal it is open whether it was the last one. -/
inductive State
  | space
  | word (w : Text)
  | number (ds : Text)
  | literal (t : Text)
  | literalQuote (t : Text)
deriving DecidableEq

def isIdentStart (c : Char) : Bool := c.isAlpha || c == '_'

def isIdentChar (c : Char) : Bool := isIdentStart c || c.isDigit

def quote : Char := '\''

/-- A character that does not go on with the token before it. -/
def begins (before : List Token) (c : Char) : Option (List Token × State) :=
  if isSpace c then some (before, .space)
  else if isIdentStart c then some (before, .word [c.toLower])
  else if c.isDigit then some (before, .number [c])
  else if c = quote then some (before, .literal [])
  else if c = '=' then some (before ++ [.equals], .space)
  else if c = ';' then some (before ++ [.semicolon], .space)
  else none

/-- Words are folded to lower case, a doubled quote in a literal is one. -/
def sql : Scanner Char State Token where
  step
    | .space, c => begins [] c
    | .word w, c =>
      if isIdentChar c then some ([], .word (w ++ [c.toLower])) else begins [.word w] c
    | .number ds, c =>
      if c.isDigit then some ([], .number (ds ++ [c]))
      else begins [.number (Nat.ofDigitChars 10 ds 0)] c
    | .literal t, c => some ([], if c = quote then .literalQuote t else .literal (t ++ [c]))
    | .literalQuote t, c =>
      if c = quote then some ([], .literal (t ++ [quote])) else begins [.literal t] c
  finish
    | .space => some []
    | .word w => some [.word w]
    | .number ds => some [.number (Nat.ofDigitChars 10 ds 0)]
    | .literal _ => none
    | .literalQuote t => some [.literal t]

inductive Value
  | number (n : ℕ)
  | text (t : Text)
deriving DecidableEq

structure Condition where
  column : Text
  value : Value
deriving DecidableEq

/-- `SELECT column FROM table WHERE condition AND ...;` -/
structure Select where
  column : Text
  table : Text
  conditions : List Condition
deriving DecidableEq

def reserved : List Text := ["select".toList, "from".toList, "where".toList, "and".toList]

def Token.value : Token → Option Value
  | .number n => some (.number n)
  | .literal t => some (.text t)
  | _ => none

def parseConditions : List Token → Option (List Condition)
  | .word column :: .equals :: v :: rest => do
    let value ← v.value
    match rest with
    | [] | [.semicolon] => return [⟨column, value⟩]
    | .word w :: rest =>
      if w = "and".toList then
        let conditions ← parseConditions rest
        return ⟨column, value⟩ :: conditions
      else none
    | _ => none
  | _ => none

def parseWhere : List Token → Option (List Condition)
  | [] | [.semicolon] => some []
  | .word w :: rest => if w = "where".toList then parseConditions rest else none
  | _ => none

/-- A word after the table that is not reserved is another name for the table. -/
def afterAlias : List Token → List Token
  | .word w :: rest => if w ∈ reserved then .word w :: rest else rest
  | ts => ts

def parseSelect : List Token → Option Select
  | .word s :: .word column :: .word f :: .word table :: rest =>
    if s = "select".toList ∧ f = "from".toList ∧ column ∉ reserved ∧ table ∉ reserved then
      (parseWhere (afterAlias rest)).map fun conditions ↦ ⟨column, table, conditions⟩
    else none
  | _ => none

structure Row where
  tag : BitVec 32
  lip : Text
  rip : Text
  lport : ℕ
  rport : ℕ
deriving DecidableEq

def Condition.holds (c : Condition) (r : Row) : Option Bool :=
  match c.value with
  | .text t =>
    if c.column = "lip".toList then some (r.lip = t)
    else if c.column = "rip".toList then some (r.rip = t)
    else none
  | .number n =>
    if c.column = "lport".toList then some (r.lport = n)
    else if c.column = "rport".toList then some (r.rport = n)
    else none

/-- The tags of the selected rows, where `none` is an error. -/
def execSelect (rtags : List Row) (q : Select) : Option (List (BitVec 32)) :=
  if q.table = "rtags".toList ∧ q.column = "tag".toList then do
    let selected ← rtags.mapM fun r ↦ do
      let holds ← q.conditions.mapM (Condition.holds · r)
      return if holds.all id then [r.tag] else []
    return selected.flatten
  else none

structure Db where
  isOpen : Bool
  rtags : List Row

def Db.exec (db : Db) (text : Text) : Option (List (BitVec 32)) := do
  let tokens ← scan sql .space text
  let q ← parseSelect tokens
  execSelect db.rtags q

def selectLip : Text := "SELECT tag FROM rtags WHERE lip = '".toList

def andRip : Text := "AND rip = '".toList

def andLport : Text := "AND lport = ".toList

def andRport : Text := "AND rport = ".toList

def spacedQuery (lip rip : Text) (lport rport : BitVec 16) : Text :=
  selectLip ++ (lip ++ quote :: ' ' :: (andRip ++ (rip ++ quote :: ' ' ::
    (andLport ++ (decimal lport.toNat ++ ' ' :: (andRport ++ (decimal rport.toNat ++ [';'])))))))

def Row.isFor (lip rip : Text) (lport rport : BitVec 16) (r : Row) : Bool :=
  decide (r.lip = lip ∧ r.rip = rip ∧ r.lport = lport.toNat ∧ r.rport = rport.toNat)

theorem run_literal {s : Text} (hs : quote ∉ s) (t : Text) :
    run sql (.literal t) s = some ([], .literal (t ++ s)) := by
  induction s generalizing t with
  | nil => simp [run]
  | cons c s ih =>
    have hc : c ≠ quote := fun h ↦ hs (h ▸ List.mem_cons_self)
    have hstep : sql.step (.literal t) c = some ([], .literal (t ++ [c])) := by
      simp [sql, hc]
    have hrest := ih (fun h ↦ hs (List.mem_cons_of_mem c h)) (t ++ [c])
    rw [run, hstep, Option.bind_some, hrest]
    simp

theorem run_number {s : Text} (hs : ∀ c ∈ s, c.isDigit = true) (ds : Text) :
    run sql (.number ds) s = some ([], .number (ds ++ s)) := by
  induction s generalizing ds with
  | nil => simp [run]
  | cons c s ih =>
    have hstep : sql.step (.number ds) c = some ([], .number (ds ++ [c])) := by
      simp [sql, hs c List.mem_cons_self]
    have hrest := ih (fun d hd ↦ hs d (List.mem_cons_of_mem c hd)) (ds ++ [c])
    rw [run, hstep, Option.bind_some, hrest]
    simp

theorem begins_digit {c : Char} (hc : c.isDigit = true) (before : List Token) :
    begins before c = some (before, .number [c]) := by
  have hstart : isIdentStart c = false := by
    obtain ⟨hlow, hhigh⟩ := Char.isDigit_iff_toNat.1 hc
    have hlow' : 48 ≤ c.toNat := hlow
    have hhigh' : c.toNat ≤ 57 := hhigh
    rw [← Char.ofNat_toNat c]
    interval_cases c.toNat <;> rfl
  rw [begins, if_neg (by simp [isSpace_of_isDigit hc]), if_neg (by simp [hstart]), if_pos hc]

theorem run_decimal (n : ℕ) : run sql .space (decimal n) = some ([], .number (decimal n)) := by
  obtain ⟨c, s, hs⟩ := List.exists_cons_of_ne_nil (decimal_ne_nil n)
  have hdigit : ∀ d ∈ c :: s, d.isDigit = true := fun d hd ↦ isDigit_of_mem_decimal (hs ▸ hd)
  have hstep : sql.step .space c = some ([], .number [c]) := begins_digit (hdigit c (by simp)) []
  have hrest := run_number (fun d hd ↦ hdigit d (List.mem_cons_of_mem c hd)) [c]
  rw [hs, run, hstep, Option.bind_some, hrest]
  rfl

def spacedTokens (lip rip : Text) (lport rport : BitVec 16) : List Token :=
  [.word "select".toList, .word "tag".toList, .word "from".toList, .word "rtags".toList,
    .word "where".toList, .word "lip".toList, .equals, .literal lip, .word "and".toList,
    .word "rip".toList, .equals, .literal rip, .word "and".toList, .word "lport".toList, .equals,
    .number lport.toNat, .word "and".toList, .word "rport".toList, .equals, .number rport.toNat,
    .semicolon]

theorem run_closing (t : Text) :
    run sql (.literal t) [quote, ' '] = some ([.literal t], .space) := rfl

theorem run_number_space (ds : Text) :
    run sql (.number ds) [' '] = some ([.number (Nat.ofDigitChars 10 ds 0)], .space) := rfl

theorem scan_literal {t : Text} (ht : quote ∉ t) (rest : Text) :
    scan sql (.literal []) (t ++ quote :: ' ' :: rest) =
      (scan sql .space rest).map fun ts ↦ .literal t :: ts := by
  rw [scan_append (run_literal ht [])]
  have hclosing := scan_append (run_closing t) rest
  simp only [List.nil_append, Option.map_id', List.cons_append] at hclosing ⊢
  exact hclosing

theorem scan_decimal (n : ℕ) (rest : Text) :
    scan sql .space (decimal n ++ ' ' :: rest) =
      (scan sql .space rest).map fun ts ↦ .number n :: ts := by
  rw [scan_append (run_decimal n)]
  have hspace := scan_append (run_number_space (decimal n)) rest
  simp only [List.nil_append, Option.map_id', List.cons_append, ofDigitChars_decimal] at hspace ⊢
  exact hspace

theorem scan_last (n : ℕ) :
    scan sql .space (decimal n ++ [';']) = some [.number n, .semicolon] := by
  rw [scan_append (run_decimal n)]
  have hlast : scan sql (.number (decimal n)) [';'] =
      some [.number (Nat.ofDigitChars 10 (decimal n) 0), .semicolon] := rfl
  rw [hlast, ofDigitChars_decimal]
  rfl

theorem scan_spacedQuery {lip rip : Text} (hlip : quote ∉ lip) (hrip : quote ∉ rip)
    (lport rport : BitVec 16) :
    scan sql .space (spacedQuery lip rip lport rport) = some (spacedTokens lip rip lport rport) := by
  have hselect : run sql .space selectLip =
      some ([.word "select".toList, .word "tag".toList, .word "from".toList, .word "rtags".toList,
        .word "where".toList, .word "lip".toList, .equals], .literal []) := by
    decide +kernel
  have hrip' : run sql .space andRip =
      some ([.word "and".toList, .word "rip".toList, .equals], .literal []) := by
    decide +kernel
  have hlport : run sql .space andLport =
      some ([.word "and".toList, .word "lport".toList, .equals], .space) := by
    decide +kernel
  have hrport : run sql .space andRport =
      some ([.word "and".toList, .word "rport".toList, .equals], .space) := by
    decide +kernel
  rw [spacedQuery, scan_append hselect, scan_literal hlip, scan_append hrip', scan_literal hrip,
    scan_append hlport, scan_decimal, scan_append hrport, scan_last]
  simp only [Option.map_some, List.cons_append, List.nil_append, spacedTokens]

theorem parseSelect_spacedTokens (lip rip : Text) (lport rport : BitVec 16) :
    parseSelect (spacedTokens lip rip lport rport) = some ⟨"tag".toList, "rtags".toList,
      [⟨"lip".toList, .text lip⟩, ⟨"rip".toList, .text rip⟩,
        ⟨"lport".toList, .number lport.toNat⟩, ⟨"rport".toList, .number rport.toNat⟩]⟩ := by
  simp [spacedTokens, parseSelect, afterAlias, parseWhere, parseConditions, Token.value, reserved]

/-- With its spaces the statement selects the tags of the rows for the flow. -/
theorem exec_spacedQuery (db : Db) {lip rip : Text} (hlip : quote ∉ lip) (hrip : quote ∉ rip)
    (lport rport : BitVec 16) :
    db.exec (spacedQuery lip rip lport rport) =
      some ((db.rtags.filter (Row.isFor lip rip lport rport)).map Row.tag) := by
  rw [Db.exec, scan_spacedQuery hlip hrip]
  simp only [Option.bind_eq_bind, Option.bind_some, parseSelect_spacedTokens]
  have hrow : ∀ r : Row, ([⟨"lip".toList, .text lip⟩, ⟨"rip".toList, .text rip⟩,
      ⟨"lport".toList, .number lport.toNat⟩, ⟨"rport".toList, .number rport.toNat⟩] :
        List Condition).mapM (Condition.holds · r) =
      some [decide (r.lip = lip), decide (r.rip = rip), decide (r.lport = lport.toNat),
        decide (r.rport = rport.toNat)] := by
    intro r
    simp [Condition.holds]
  have hall : ∀ r : Row, [decide (r.lip = lip), decide (r.rip = rip),
      decide (r.lport = lport.toNat), decide (r.rport = rport.toNat)].all id =
      Row.isFor lip rip lport rport r := by
    intro r
    simp [Row.isFor]
  rw [execSelect, if_pos ⟨rfl, rfl⟩]
  simp only [hrow, Option.bind_eq_bind, Option.bind_some, hall]
  obtain ⟨_, rtags⟩ := db
  induction rtags with
  | nil => rfl
  | cons r rtags ih =>
    simp only [List.mapM_cons, Option.bind_eq_bind, Option.pure_def, Option.bind_some] at ih ⊢
    obtain ⟨selected, hselected, hflat⟩ := Option.bind_eq_some_iff.1 ih
    rw [hselected, Option.bind_some, Option.bind_some, List.flatten_cons, Option.some.inj hflat]
    cases hr : Row.isFor lip rip lport rport r <;> simp [hr]

/-- What the statement begins with. No space stands after `WHERE`. -/
def beginning : Text := "SELECT tag FROM rtags WHERE".toList ++ "lip = '".toList

/-- The statement that `search_cross_tag` builds, with the local end of a row given first. -/
def buildQuery (lip rip : Text) (lport rport : BitVec 16) : Text :=
  beginning ++ lip ++ "' AND rip = '".toList ++ rip ++ "' AND lport = ".toList ++
    decimal lport.toNat ++ "AND rport = ".toList ++ decimal rport.toNat ++ ";".toList

/-- The returned text and the tags afterwards. `uninit` is the indeterminate content of
`uuid1`. Both results come from the first statement, and an exception that is caught
gives the empty text. -/
def searchCrossTag (db : Db) (ips : IpArray) (uninit : CdmUuid) (f : Call)
    (tags : Finset (BitVec 32)) : Text × Finset (BitVec 32) :=
  if db.isOpen then
    let buff1 := buildQuery f.rip f.lip f.rport f.lport
    let _buff2 := buildQuery f.lip f.rip f.lport f.rport
    let searched : Option (CdmUuid × List (BitVec 32) × List (BitVec 32)) := do
      let r1 ← db.exec buff1
      let uuid1 ←
        if r1 = [] then pure uninit
        else (getNetflowUuid ips f.rip f.rport f.lip f.lport).map Prod.fst
      let r2 ← db.exec buff1
      return (uuid1, r1, r2)
    match searched with
    | some (uuid1, tags1, tags2) =>
      (uuidToString uuid1, tags ∪ (tags1.toFinset.filter fun t ↦ t ∈ tags2.toFinset))
    | none => ([], tags)
  else ([], tags)

/-- A row holds the tag for the flow as its local end sees it. -/
def Stored (rtags : List Row) (t : BitVec 32) (lip rip : Text) (lport rport : BitVec 16) : Prop :=
  ∃ r ∈ rtags, r = ⟨t, lip, rip, lport.toNat, rport.toNat⟩

/-- The search succeeds and adds the tags that are stored for both ends of the flow. -/
structure Reports (db : Db) (f : Call) (tags : Finset (BitVec 32))
    (result : Text × Finset (BitVec 32)) : Prop where
  succeeds : result.1 ≠ []
  tags : ∀ t, t ∈ result.2 ↔ t ∈ tags ∨
    Stored db.rtags t f.rip f.lip f.rport f.lport ∧ Stored db.rtags t f.lip f.rip f.lport f.rport

/-- The tokens every statement begins with. -/
def firstTokens : List Token :=
  [.word "select".toList, .word "tag".toList, .word "from".toList, .word "rtags".toList,
    .word "wherelip".toList, .equals]

theorem run_beginning : run sql .space beginning = some (firstTokens, .literal []) := by
  decide +kernel

/-- The word becomes another name of the table, after which no condition can follow. -/
theorem parseSelect_firstTokens (rest : List Token) : parseSelect (firstTokens ++ rest) = none := by
  have halias : afterAlias (.word "wherelip".toList :: .equals :: rest) = .equals :: rest := by
    rw [afterAlias, if_neg (by decide)]
  have hwhere : parseWhere (.equals :: rest) = none := rfl
  rw [firstTokens]
  simp only [List.cons_append, List.nil_append, parseSelect, halias, hwhere, Option.map_none,
    ite_self]

/-- Whatever the addresses hold, the statement is an error. -/
theorem exec_buildQuery (db : Db) (lip rip : Text) (lport rport : BitVec 16) :
    db.exec (buildQuery lip rip lport rport) = none := by
  have hsplit : ∃ rest, buildQuery lip rip lport rport = beginning ++ rest := by
    simp only [buildQuery, List.append_assoc]
    exact ⟨_, rfl⟩
  obtain ⟨rest, hrest⟩ := hsplit
  rw [Db.exec, hrest]
  cases hscan : scan sql .space (beginning ++ rest) with
  | none => rfl
  | some tokens =>
    obtain ⟨last, rfl⟩ := prefix_of_scan run_beginning hscan
    simp only [Option.bind_eq_bind, Option.bind_some, parseSelect_firstTokens, Option.bind_none]

theorem searchCrossTag_eq (db : Db) (ips : IpArray) (uninit : CdmUuid) (f : Call)
    (tags : Finset (BitVec 32)) : searchCrossTag db ips uninit f tags = ([], tags) := by
  rw [searchCrossTag]
  split
  · simp only [exec_buildQuery, Option.bind_eq_bind, Option.bind_none]
  · rfl

/-- No search ever succeeds, and none adds a tag. -/
theorem cross_tag_never_found (db : Db) (ips : IpArray) (uninit : CdmUuid) (f : Call)
    (tags : Finset (BitVec 32)) :
    ¬ Reports db f tags (searchCrossTag db ips uninit f tags) ∧
      (searchCrossTag db ips uninit f tags).2 = tags := by
  rw [searchCrossTag_eq]
  exact ⟨fun h ↦ h.succeeds rfl, rfl⟩

/-- A flow whose tag both ends have stored. -/
def sharedDb : Db where
  isOpen := true
  rtags := [⟨7, "10.0.0.2".toList, "10.0.0.1".toList, 80, 4000⟩,
    ⟨7, "10.0.0.1".toList, "10.0.0.2".toList, 4000, 80⟩]

def sharedFlow : Call := ⟨"10.0.0.1".toList, 4000, "10.0.0.2".toList, 80⟩

theorem shared_tag_is_not_found :
    ¬ Reports sharedDb sharedFlow ∅ (searchCrossTag sharedDb initialIps 0 sharedFlow ∅) := by
  intro h
  rw [searchCrossTag_eq] at h
  have hremote : Stored sharedDb.rtags 7 "10.0.0.2".toList "10.0.0.1".toList 80 4000 :=
    ⟨_, List.mem_cons_self, by decide⟩
  have hlocal : Stored sharedDb.rtags 7 "10.0.0.1".toList "10.0.0.2".toList 4000 80 :=
    ⟨_, List.mem_cons_of_mem _ List.mem_cons_self, by decide⟩
  have hmem := (h.tags 7).2 (.inr ⟨hremote, hlocal⟩)
  exact absurd hmem (Finset.notMem_empty 7)

end TheiaTaint.Database.CrossTag
