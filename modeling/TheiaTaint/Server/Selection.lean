import Mathlib
import TheiaTaint.Foundations.Keyed
import TheiaTaint.Server.RecIndex

namespace TheiaTaint.Server.Selection

open Foundations.Strings Foundations.Keyed RecIndex

structure SubjectRow where
  uuid : Text
  path : Option Text
  pid : Option ℤ
  localPrincipal : Option Text

/-- The columns of `subgraph` that the query reads. -/
structure SubgraphRow where
  queryId : Option Text
  subjectUuid : Option Text
  eventType : Option Text
  eventSize : Option ℤ

structure Db where
  subject : Table SubjectRow.uuid
  subgraph : List SubgraphRow
  recIndex : List RecIndex.Row

structure Fetched where
  pid : Option ℤ
  path : Option Text
  uuid : Text
  localPrincipal : Option Text
  eventType : Option Text
  eventSize : Option ℤ
deriving DecidableEq

def fetched (s : SubjectRow) (g : SubgraphRow) : Fetched where
  pid := s.pid
  path := s.path
  uuid := s.uuid
  localPrincipal := s.localPrincipal
  eventType := g.eventType
  eventSize := g.eventSize

/-- The join with its `WHERE` clause. In the query `query_id` is the column again. -/
def joined (db : Db) : List Fetched :=
  db.subject.rows.flatMap fun s ↦
    (db.subgraph.filter fun g ↦ sqlEq (some s.uuid) g.subjectUuid && sqlEq g.queryId g.queryId).map
      (fetched s)

/-- The answer to a `SELECT DISTINCT`, in whatever order. -/
structure Answer (db : Db) where
  rows : List Fetched
  nodup : rows.Nodup
  mem_iff : ∀ f, f ∈ rows ↔ f ∈ joined db

structure Subject where
  row : Fetched
  logdir : Option Text

def Subject.eq (s t : Subject) : Bool :=
  decide (s.row.pid = t.row.pid) && decide (s.row.path = t.row.path)

/-- `set(subjects)`: the positions of the objects it keeps, each the first of those equal
to it. -/
def setOf (subjects : List Subject) : List ℕ :=
  (List.range subjects.length).filter fun i ↦
    match subjects[i]? with
    | some s => !(subjects.take i).any s.eq
    | none => false

/-- `str(subj.pid) + subj.path`; without a path it raises. -/
def Subject.procname (s : Subject) : Option Text := s.row.path.map (RecIndex.procname s.row.pid)

/-- A turn of the loop over the set, for the object at a position of the list. -/
def assignLogdir (recIndex : List RecIndex.Row) (subjects : List Subject) (i : ℕ) :
    Option (List Subject) := do
  let subj ← subjects[i]?
  let procname ← subj.procname
  match fetchRec recIndex procname with
  | some row => some (subjects.set i { subj with logdir := row.dir })
  | none => some subjects

/-- The returned list, from the rows the query has fetched. -/
def getSubjectsToTaint (recIndex : List RecIndex.Row) (rows : List Fetched) :
    Option (List Subject) :=
  let subjects := rows.map fun row ↦ ⟨row, none⟩
  (setOf subjects).foldlM (assignLogdir recIndex) subjects

def truthy : Option Text → Bool
  | some dir => decide (dir ≠ [])
  | none => false

/-- The subjects that `handle_query` replays. -/
def replayedSubjects (subjects : List Subject) : List Subject :=
  subjects.filter fun s ↦ truthy s.logdir

def Related (db : Db) (q : Text) (uuid : Text) : Prop :=
  ∃ g ∈ db.subgraph, g.queryId = some q ∧ g.subjectUuid = some uuid

structure Selects (db : Db) (q : Text) (returned : List Subject) : Prop where
  related : ∀ s ∈ db.subject.rows, (∃ o ∈ returned, o.row.uuid = s.uuid) ↔ Related db q s.uuid
  indexed : ∀ o ∈ returned, ∀ procname, o.procname = some procname →
    (∃ r ∈ db.recIndex, r.procname = some procname) →
      (∃ r ∈ db.recIndex, r.procname = some procname ∧ o.logdir = r.dir) ∧
        o ∈ replayedSubjects returned

/-- No other query has rows for further subjects, every path is set, and a process with a
replay log is in one row only. -/
structure Selectable (db : Db) (q : Text) : Prop where
  related : ∀ s ∈ db.subject.rows, (∃ q', Related db q' s.uuid) → Related db q s.uuid
  path : ∀ f ∈ joined db, f.path ≠ none
  alone : ∀ f ∈ joined db, ∀ path, f.path = some path →
    ∀ r, fetchRec db.recIndex (RecIndex.procname f.pid path) = some r →
      truthy r.dir = true ∧ ∀ g ∈ joined db, g.pid = f.pid → g.path = f.path → g = f

def Subject.withLogdir (recIndex : List RecIndex.Row) (s : Subject) : Subject :=
  match s.procname.bind (fetchRec recIndex) with
  | some row => { s with logdir := row.dir }
  | none => s

theorem Subject.eq_iff (s t : Subject) :
    s.eq t = true ↔ s.row.pid = t.row.pid ∧ s.row.path = t.row.path := by
  simp [Subject.eq]

theorem mem_setOf_iff {subjects : List Subject} {i : ℕ} :
    i ∈ setOf subjects ↔
      ∃ s, subjects[i]? = some s ∧ ∀ t ∈ subjects.take i, s.eq t = false := by
  simp only [setOf, List.mem_filter, List.mem_range]
  cases hs : subjects[i]? with
  | none => simp
  | some s =>
    have hi : i < subjects.length := (List.getElem?_eq_some_iff.1 hs).1
    simp [hi]

theorem setOf_inj {subjects : List Subject} {i j : ℕ} (hi : i ∈ setOf subjects)
    (hj : j ∈ setOf subjects) {s t : Subject} (hs : subjects[i]? = some s)
    (ht : subjects[j]? = some t) (hst : s.eq t = true) : i = j := by
  have key : ∀ {i j : ℕ} {s t : Subject}, j ∈ setOf subjects → subjects[i]? = some s →
      subjects[j]? = some t → t.eq s = true → ¬ i < j := by
    intro i j s t hj hs ht hts hij
    obtain ⟨t', ht', hfirst⟩ := mem_setOf_iff.1 hj
    rw [ht, Option.some.injEq] at ht'
    subst ht'
    have hmem : s ∈ subjects.take j := by
      refine List.mem_of_getElem? (i := i) ?_
      rw [List.getElem?_take_of_lt hij, hs]
    rw [hfirst s hmem] at hts
    cases hts
  have hts : t.eq s = true := by
    rw [Subject.eq_iff] at hst ⊢
    exact ⟨hst.1.symm, hst.2.symm⟩
  have h₁ := key hj hs ht hts
  have h₂ := key hi ht hs hst
  omega

theorem exists_mem_setOf {subjects : List Subject} {i : ℕ} {s : Subject}
    (hs : subjects[i]? = some s) :
    ∃ j ∈ setOf subjects, ∃ t, subjects[j]? = some t ∧ s.eq t = true := by
  induction i using Nat.strong_induction_on generalizing s with
  | h i ih =>
    by_cases hfirst : ∀ t ∈ subjects.take i, s.eq t = false
    · exact ⟨i, mem_setOf_iff.2 ⟨s, hs, hfirst⟩, s, hs, by rw [Subject.eq_iff]; exact ⟨rfl, rfl⟩⟩
    · push Not at hfirst
      obtain ⟨t, ht, hst⟩ := hfirst
      obtain ⟨k, hk⟩ := List.mem_iff_getElem?.1 ht
      have hki : k < i := by
        have hlen := (List.getElem?_eq_some_iff.1 hk).1
        rw [List.length_take] at hlen
        omega
      rw [List.getElem?_take_of_lt hki] at hk
      obtain ⟨j, hj, u, hu, htu⟩ := ih k hki hk
      refine ⟨j, hj, u, hu, ?_⟩
      rw [ne_eq, Bool.not_eq_false] at hst
      rw [Subject.eq_iff] at hst htu ⊢
      exact ⟨hst.1.trans htu.1, hst.2.trans htu.2⟩

variable {recIndex : List RecIndex.Row} {subjects : List Subject}

@[simp] theorem Subject.withLogdir_row (s : Subject) : (s.withLogdir recIndex).row = s.row := by
  rw [Subject.withLogdir]
  split <;> rfl

theorem Subject.withLogdir_withLogdir (s : Subject) :
    (s.withLogdir recIndex).withLogdir recIndex = s.withLogdir recIndex := by
  have hprocname : (s.withLogdir recIndex).procname = s.procname := by
    rw [Subject.procname, Subject.withLogdir_row, Subject.procname]
  rw [Subject.withLogdir, hprocname, Subject.withLogdir]
  cases s.procname.bind (fetchRec recIndex) <;> rfl

theorem assignLogdir_eq_some_iff {i : ℕ} {out : List Subject} :
    assignLogdir recIndex subjects i = some out ↔
      ∃ s, subjects[i]? = some s ∧ s.row.path ≠ none ∧
        out = subjects.set i (s.withLogdir recIndex) := by
  rw [assignLogdir]
  cases hs : subjects[i]? with
  | none => simp
  | some s =>
    cases hpath : s.row.path with
    | none => simp [Subject.procname, hpath]
    | some path =>
      have hself : subjects.set i s = subjects := by
        obtain ⟨hi, rfl⟩ := List.getElem?_eq_some_iff.1 hs
        exact List.set_getElem_self hi
      simp only [Subject.withLogdir, Subject.procname, hpath, Option.map_some, Option.bind_eq_bind,
        Option.bind_some, Option.some.injEq, exists_eq_left', ne_eq, reduceCtorEq,
        not_false_eq_true, true_and]
      cases fetchRec recIndex (RecIndex.procname s.row.pid path) <;> simp [hself, eq_comm]

theorem getElem?_set_withLogdir {i : ℕ} {s : Subject} (hs : subjects[i]? = some s) (j : ℕ) :
    (subjects.set i (s.withLogdir recIndex))[j]? =
      subjects[j]?.map fun t ↦ if i = j then t.withLogdir recIndex else t := by
  rw [List.getElem?_set]
  by_cases hij : i = j
  · subst hij
    obtain ⟨hi, rfl⟩ := List.getElem?_eq_some_iff.1 hs
    simp [hi]
  · simp [hij]

theorem foldlM_assignLogdir_eq_some_iff {is : List ℕ} {out : List Subject} :
    is.foldlM (assignLogdir recIndex) subjects = some out ↔
      (∀ i ∈ is, ∃ s, subjects[i]? = some s ∧ s.row.path ≠ none) ∧
        out = subjects.mapIdx fun i s ↦ if i ∈ is then s.withLogdir recIndex else s := by
  induction is generalizing subjects with
  | nil =>
    have hid : (subjects.mapIdx fun _ s ↦ s) = subjects := List.ext_getElem? fun j ↦ by simp
    simp [hid, eq_comm]
  | cons i is ih =>
    have hvisit : ∀ {s}, subjects[i]? = some s →
        ((∀ j ∈ is, ∃ t, (subjects.set i (s.withLogdir recIndex))[j]? = some t ∧
            t.row.path ≠ none) ↔ ∀ j ∈ is, ∃ t, subjects[j]? = some t ∧ t.row.path ≠ none) ∧
          ((subjects.set i (s.withLogdir recIndex)).mapIdx fun j t ↦
              if j ∈ is then t.withLogdir recIndex else t) =
            subjects.mapIdx fun j t ↦ if j ∈ i :: is then t.withLogdir recIndex else t := by
      intro s hs
      refine ⟨forall₂_congr fun j _ ↦ ?_, List.ext_getElem? fun j ↦ ?_⟩
      · rw [getElem?_set_withLogdir hs]
        cases subjects[j]? with
        | none => simp
        | some t => by_cases hij : i = j <;> simp [hij]
      · rw [List.getElem?_mapIdx, List.getElem?_mapIdx, getElem?_set_withLogdir hs]
        cases subjects[j]? with
        | none => rfl
        | some t =>
          by_cases hij : i = j
          · subst hij
            by_cases hi : i ∈ is <;> simp [hi, Subject.withLogdir_withLogdir]
          · have hji : ¬ j = i := fun h ↦ hij h.symm
            simp [hij, hji]
    rw [List.foldlM_cons, Option.bind_eq_bind, Option.bind_eq_some_iff]
    simp only [assignLogdir_eq_some_iff, ih, List.forall_mem_cons]
    constructor
    · rintro ⟨-, ⟨s, hs, hpath, rfl⟩, hrest, rfl⟩
      exact ⟨⟨⟨s, hs, hpath⟩, (hvisit hs).1.1 hrest⟩, (hvisit hs).2⟩
    · rintro ⟨⟨⟨s, hs, hpath⟩, hrest⟩, rfl⟩
      exact ⟨_, ⟨s, hs, hpath, rfl⟩, (hvisit hs).1.2 hrest, (hvisit hs).2.symm⟩

def objects (rows : List Fetched) : List Subject := rows.map fun row ↦ ⟨row, none⟩

theorem getSubjectsToTaint_eq_some_iff {rows : List Fetched} {out : List Subject} :
    getSubjectsToTaint recIndex rows = some out ↔
      (∀ f ∈ rows, f.path ≠ none) ∧
        out = (objects rows).mapIdx fun i s ↦
          if i ∈ setOf (objects rows) then s.withLogdir recIndex else s := by
  rw [getSubjectsToTaint, foldlM_assignLogdir_eq_some_iff, ← objects]
  refine and_congr_left fun _ ↦ ⟨fun h f hf ↦ ?_, fun h i hi ↦ ?_⟩
  · obtain ⟨i, hi⟩ := List.mem_iff_getElem?.1 hf
    have hs : (objects rows)[i]? = some ⟨f, none⟩ := by rw [objects, List.getElem?_map, hi]; rfl
    obtain ⟨j, hj, t, ht, heq⟩ := exists_mem_setOf hs
    obtain ⟨t', ht', hpath⟩ := h j hj
    rw [ht, Option.some.injEq] at ht'
    subst ht'
    rw [Subject.eq_iff] at heq
    rwa [heq.2]
  · obtain ⟨s, hs, -⟩ := mem_setOf_iff.1 hi
    obtain ⟨f, hf, rfl⟩ := List.mem_map.1 (List.mem_of_getElem? hs)
    exact ⟨_, hs, h f hf⟩

def logdirAt (recIndex : List RecIndex.Row) (rows : List Fetched) (i : ℕ) (f : Fetched) :
    Option Text :=
  if i ∈ setOf (objects rows) then
    (f.path.bind fun path ↦ fetchRec recIndex (RecIndex.procname f.pid path)).bind RecIndex.Row.dir
  else none

theorem getElem?_returned {rows : List Fetched} {out : List Subject}
    (h : getSubjectsToTaint recIndex rows = some out) (i : ℕ) :
    out[i]? = rows[i]?.map fun f ↦ ⟨f, logdirAt recIndex rows i f⟩ := by
  rw [(getSubjectsToTaint_eq_some_iff.1 h).2, List.getElem?_mapIdx, objects, List.getElem?_map,
    ← objects]
  cases rows[i]? with
  | none => rfl
  | some f =>
    rw [Option.map_some, Option.map_some, Option.map_some, logdirAt]
    split
    · rw [Subject.withLogdir, Subject.procname]
      cases f.path with
      | none => rfl
      | some path =>
        rw [Option.map_some, Option.bind_some, Option.bind_some]
        cases fetchRec recIndex (RecIndex.procname f.pid path) <;> rfl
    · rfl

theorem mem_returned_iff {rows : List Fetched} {out : List Subject}
    (h : getSubjectsToTaint recIndex rows = some out) {o : Subject} :
    o ∈ out ↔ ∃ i, rows[i]? = some o.row ∧ o.logdir = logdirAt recIndex rows i o.row := by
  rw [List.mem_iff_getElem?]
  refine exists_congr fun i ↦ ?_
  rw [getElem?_returned h]
  constructor
  · intro ho
    obtain ⟨f, hf, rfl⟩ := Option.map_eq_some_iff.1 ho
    exact ⟨hf, rfl⟩
  · rintro ⟨hrow, hlogdir⟩
    rw [hrow, Option.map_some, ← hlogdir]

theorem mem_joined {db : Db} {f : Fetched} :
    f ∈ joined db ↔ ∃ s ∈ db.subject.rows, ∃ g ∈ db.subgraph,
      (g.subjectUuid = some s.uuid ∧ g.queryId ≠ none) ∧ fetched s g = f := by
  have hself : ∀ a : Option Text, (∃ x, a = some x ∧ a = some x) ↔ a ≠ none := by
    intro a
    cases a <;> simp
  simp only [joined, List.mem_flatMap, List.mem_map, List.mem_filter, Bool.and_eq_true,
    sqlEq_eq_true_iff, hself, Option.some.injEq, exists_eq_left', and_assoc]

variable {db : Db} {q : Text}

/-- A process in the index is replayed from every row it is in, so the object of each such
row is in the set. -/
theorem Selects.mem_setOf {a : Answer db} {out : List Subject}
    (hout : getSubjectsToTaint db.recIndex a.rows = some out) (h : Selects db q out)
    {f : Fetched} {path : Text} {r : RecIndex.Row} (hpath : f.path = some path)
    (hr : fetchRec db.recIndex (RecIndex.procname f.pid path) = some r) {i : ℕ}
    (hi : a.rows[i]? = some f) : i ∈ setOf (objects a.rows) ∧ truthy r.dir = true := by
  have ho : (⟨f, logdirAt db.recIndex a.rows i f⟩ : Subject) ∈ out :=
    (mem_returned_iff hout).2 ⟨i, hi, rfl⟩
  have hprocname : Subject.procname ⟨f, logdirAt db.recIndex a.rows i f⟩ =
      some (RecIndex.procname f.pid path) := by
    rw [Subject.procname, hpath, Option.map_some]
  obtain ⟨-, hreplayed⟩ := h.indexed _ ho _ hprocname ⟨r, procname_of_fetchRec hr⟩
  have htrue : truthy (logdirAt db.recIndex a.rows i f) = true := (List.mem_filter.1 hreplayed).2
  rw [logdirAt] at htrue
  split at htrue
  · rename_i hset
    rw [hpath, Option.bind_some, hr, Option.bind_some] at htrue
    exact ⟨hset, htrue⟩
  · cases htrue

theorem exists_returned_iff {a : Answer db} {out : List Subject}
    (hout : getSubjectsToTaint db.recIndex a.rows = some out) {s : SubjectRow}
    (hs : s ∈ db.subject.rows) :
    (∃ o ∈ out, o.row.uuid = s.uuid) ↔ ∃ q', Related db q' s.uuid := by
  constructor
  · rintro ⟨o, ho, huuid⟩
    obtain ⟨i, hrow, -⟩ := (mem_returned_iff hout).1 ho
    obtain ⟨s', -, g, hg, ⟨hg', hquery⟩, hf⟩ :=
      mem_joined.1 ((a.mem_iff _).1 (List.mem_of_getElem? hrow))
    obtain ⟨q', hq'⟩ := Option.ne_none_iff_exists'.1 hquery
    have hsame : s'.uuid = s.uuid := by rw [← huuid, ← hf, fetched]
    exact ⟨q', g, hg, hq', by rw [hg', hsame]⟩
  · rintro ⟨q', g, hg, hq', huuid⟩
    have hmem : fetched s g ∈ joined db :=
      mem_joined.2 ⟨s, hs, g, hg, ⟨huuid, by simp [hq']⟩, rfl⟩
    obtain ⟨i, hi⟩ := List.mem_iff_getElem?.1 ((a.mem_iff _).2 hmem)
    exact ⟨⟨fetched s g, logdirAt db.recIndex a.rows i (fetched s g)⟩,
      (mem_returned_iff hout).2 ⟨i, hi, rfl⟩, rfl⟩

theorem Selects.selectable {a : Answer db} {out : List Subject}
    (hout : getSubjectsToTaint db.recIndex a.rows = some out) (h : Selects db q out) :
    Selectable db q where
  related s hs hany := (h.related s hs).1 ((exists_returned_iff hout hs).2 hany)
  path f hf := (getSubjectsToTaint_eq_some_iff.1 hout).1 f ((a.mem_iff f).2 hf)
  alone f hf path hpath r hr := by
    obtain ⟨i, hi⟩ := List.mem_iff_getElem?.1 ((a.mem_iff f).2 hf)
    obtain ⟨hset, htrue⟩ := h.mem_setOf hout hpath hr hi
    refine ⟨htrue, fun g hg hpid hpath' ↦ ?_⟩
    obtain ⟨j, hj⟩ := List.mem_iff_getElem?.1 ((a.mem_iff g).2 hg)
    obtain ⟨hset', -⟩ := h.mem_setOf hout (hpath'.trans hpath) (by rw [hpid, hr]) hj
    have hij : i = j := by
      refine setOf_inj hset hset' (s := ⟨f, none⟩) (t := ⟨g, none⟩) ?_ ?_ ?_
      · rw [objects, List.getElem?_map, hi, Option.map_some]
      · rw [objects, List.getElem?_map, hj, Option.map_some]
      · exact (Subject.eq_iff _ _).2 ⟨hpid.symm, hpath'.symm⟩
    rw [← hij, hi, Option.some.injEq] at hj
    exact hj.symm

theorem mem_setOf_of_alone {a : Answer db} {f : Fetched} {i : ℕ} (hi : a.rows[i]? = some f)
    (h : ∀ g ∈ joined db, g.pid = f.pid → g.path = f.path → g = f) :
    i ∈ setOf (objects a.rows) := by
  refine mem_setOf_iff.2 ⟨⟨f, none⟩, by rw [objects, List.getElem?_map, hi]; rfl, fun t ht ↦ ?_⟩
  rw [objects, ← List.map_take] at ht
  obtain ⟨g, hg, rfl⟩ := List.mem_map.1 ht
  by_contra heq
  rw [Bool.not_eq_false, Subject.eq_iff] at heq
  have hgf : g = f :=
    h g ((a.mem_iff g).1 (List.mem_of_mem_take hg)) heq.1.symm heq.2.symm
  subst hgf
  obtain ⟨k, hk⟩ := List.mem_iff_getElem?.1 hg
  have hki : k < i := by
    have hlen := (List.getElem?_eq_some_iff.1 hk).1
    rw [List.length_take] at hlen
    omega
  rw [List.getElem?_take_of_lt hki] at hk
  have hlen := (List.getElem?_eq_some_iff.1 hk).1
  exact hki.ne ((List.getElem?_inj hlen a.nodup).1 (hk.trans hi.symm))

theorem Selectable.selects (h : Selectable db q) {a : Answer db} {out : List Subject}
    (hout : getSubjectsToTaint db.recIndex a.rows = some out) : Selects db q out where
  related s hs := by
    rw [exists_returned_iff hout hs]
    exact ⟨h.related s hs, fun hq ↦ ⟨q, hq⟩⟩
  indexed o ho procname hprocname := by
    rintro ⟨r', hr', hname⟩
    obtain ⟨i, hi, hlogdir⟩ := (mem_returned_iff hout).1 ho
    obtain ⟨path, hpath, rfl⟩ := Option.map_eq_some_iff.1 hprocname
    obtain ⟨r, hr⟩ := exists_fetchRec hr' hname
    have hf := (a.mem_iff _).1 (List.mem_of_getElem? hi)
    obtain ⟨htrue, halone⟩ := h.alone o.row hf path hpath r hr
    rw [logdirAt, if_pos (mem_setOf_of_alone hi halone), hpath, Option.bind_some, hr,
      Option.bind_some] at hlogdir
    refine ⟨⟨r, (procname_of_fetchRec hr).1, (procname_of_fetchRec hr).2, hlogdir⟩, ?_⟩
    rw [replayedSubjects, List.mem_filter, hlogdir]
    exact ⟨ho, htrue⟩

/-- The selection is right exactly when the other queries are about subjects of this one
too and each process with a replay log has a single row in the join. -/
theorem subject_selection_iff (db : Db) (q : Text) (a : Answer db) :
    (∃ out, getSubjectsToTaint db.recIndex a.rows = some out ∧ Selects db q out) ↔
      Selectable db q := by
  constructor
  · rintro ⟨out, hout, h⟩
    exact h.selectable hout
  · intro h
    have hpath : ∀ f ∈ a.rows, f.path ≠ none := fun f hf ↦ h.path f ((a.mem_iff f).1 hf)
    have hout : getSubjectsToTaint db.recIndex a.rows = some _ :=
      getSubjectsToTaint_eq_some_iff.2 ⟨hpath, rfl⟩
    exact ⟨_, hout, h.selects hout⟩

def sampleDb : Db where
  subject := ⟨[⟨"5".toList, some "cat".toList, some 1, none⟩], List.nodup_singleton _⟩
  subgraph := [⟨some "2".toList, some "5".toList, none, none⟩]
  recIndex := []

def sampleAnswer : Answer sampleDb where
  rows := joined sampleDb
  nodup := by decide
  mem_iff _ := Iff.rfl

theorem other_query_is_selected :
    ¬ ∀ (db : Db) (q : Text) (a : Answer db),
      ∃ out, getSubjectsToTaint db.recIndex a.rows = some out ∧ Selects db q out := by
  intro h
  obtain ⟨out, hout, hselects⟩ := h sampleDb "1".toList sampleAnswer
  obtain ⟨g, hg, hquery, -⟩ := (hselects.selectable hout).related _ List.mem_cons_self
    ⟨"2".toList, _, List.mem_cons_self, rfl, rfl⟩
  rw [sampleDb, List.mem_singleton] at hg
  subst hg
  exact absurd hquery (by decide)

end TheiaTaint.Server.Selection
