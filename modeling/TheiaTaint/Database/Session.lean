import Mathlib
import TheiaTaint.Foundations.Trace

namespace TheiaTaint.Database.Session

open Foundations.Trace

structure Connection where
  id : ℕ
  isOpen : Bool

/-- The two globals. `N` is known by the connection it was created on, and `live`
lists the connections that have a live transaction object. -/
structure Globals where
  next : ℕ
  C : Option Connection
  N : Option ℕ
  live : List ℕ

def initial : Globals := ⟨0, none, none, []⟩

inductive Use
  | exec (s : Globals)
  | work (s : Globals)

def Use.Proper : Use → Prop
  | .exec s => ∃ c, s.C = some c ∧ c.isOpen = true ∧ s.N = some c.id
  | .work s => ∀ c, s.C = some c → c.id ∉ s.live

inductive Attempt
  | opened
  | unopened
  | thrown

/-- How a statement ends. A statement may also fail while its result is read. -/
inductive Reply
  | done
  | failed
  | lost

/-- What the database answers during one call. -/
structure Answers where
  attempt : Attempt
  first : Reply
  second : Reply
  stored : Reply

abbrev Db := Action Globals Use

def Globals.isOpen (s : Globals) : Bool := s.C.any Connection.isOpen

/-- The first lines of every function. A pointer that outlives the connection it
deleted, since the new one could not be made, is read as a closed connection. -/
def establish (attempt : Attempt) : Db := fun s ↦
  if s.isOpen then returning id s
  else
    match attempt with
    | .opened => returning (fun s ↦ { s with next := s.next + 1, C := some ⟨s.next, true⟩ }) s
    | .unopened => throwing (fun s ↦ { s with next := s.next + 1, C := some ⟨s.next, false⟩ }) s
    | .thrown => throwing id s

/-- `if(N == NULL) N = new nontransaction(*C);` -/
def openN : Db := fun s ↦
  match s.N, s.C with
  | none, some c =>
    if c.id ∈ s.live then throwing id s
    else returning (fun s ↦ { s with N := some c.id, live := c.id :: s.live }) s
  | _, _ => returning id s

def Globals.close (s : Globals) : Globals :=
  { s with C := s.C.map fun c ↦ { c with isOpen := false } }

/-- The connection with this identity is lost. -/
def Globals.lose (k : Option ℕ) (s : Globals) : Globals :=
  { s with C := s.C.map fun c ↦ if k = some c.id then { c with isOpen := false } else c }

def answer (reply : Reply) (k : Globals → Option ℕ) : Db :=
  match reply with
  | .done => returning id
  | .failed => throwing id
  | .lost => throwing fun s ↦ s.lose (k s)

def execN (reply : Reply) : Db := andThen (observe Use.exec) (answer reply Globals.N)

/-- `work W(*C); W.exec(..); W.commit();`, after which `W` is gone again. -/
def work (reply : Reply) : Db :=
  andThen (observe Use.work) fun s ↦
    match s.C with
    | some c => if c.id ∈ s.live then throwing id s else answer reply (fun _ ↦ some c.id) s
    | none => throwing id s

def query (a : Answers) : Db :=
  andThen (establish a.attempt) (andThen openN (execN a.first))

def getGlobalTagsFromRdb (a : Answers) : Db := caught (query a)

def getInboundForTaint (a : Answers) : Db := caught (query a)

def getOutboundForTaint (a : Answers) : Db := caught (query a)

def theiaTagOverlayQuery (a : Answers) : Db := caught (andThen (query a) (returning Globals.close))

def searchCrossTag (a : Answers) : Db := caught (andThen (query a) (execN a.second))

def storeLocalTagsToRdb (a : Answers) : Db :=
  caught (andThen (establish a.attempt) (andThen (getGlobalTagsFromRdb a) (work a.stored)))

def theiaTagOverlayInsert (a : Answers) : Db :=
  caught (andThen (establish a.attempt) (andThen (theiaTagOverlayQuery a) (work a.stored)))

inductive Call
  | getInboundForTaint (a : Answers)
  | getOutboundForTaint (a : Answers)
  | getGlobalTagsFromRdb (a : Answers)
  | storeLocalTagsToRdb (a : Answers)
  | theiaTagOverlayQuery (a : Answers)
  | theiaTagOverlayInsert (a : Answers)
  | searchCrossTag (a : Answers)

def Call.run : Call → Db
  | .getInboundForTaint a => Session.getInboundForTaint a
  | .getOutboundForTaint a => Session.getOutboundForTaint a
  | .getGlobalTagsFromRdb a => Session.getGlobalTagsFromRdb a
  | .storeLocalTagsToRdb a => Session.storeLocalTagsToRdb a
  | .theiaTagOverlayQuery a => Session.theiaTagOverlayQuery a
  | .theiaTagOverlayInsert a => Session.theiaTagOverlayInsert a
  | .searchCrossTag a => Session.searchCrossTag a

def Call.answers : Call → Answers
  | .getInboundForTaint a | .getOutboundForTaint a | .getGlobalTagsFromRdb a
  | .storeLocalTagsToRdb a | .theiaTagOverlayQuery a | .theiaTagOverlayInsert a
  | .searchCrossTag a => a

/-- The calls that open a transaction of their own after a nested query. -/
def Call.stores : Call → Bool
  | .storeLocalTagsToRdb _ | .theiaTagOverlayInsert _ => true
  | _ => false

def Reaches (c : Call) (s : Globals) : Prop := s.isOpen = true ∨ c.answers.attempt = .opened

/-- A call that reaches the database is a query, and the connection of a cached
`N` is still open. -/
def Allowed (c : Call) (s : Globals) : Prop :=
  Reaches c s → c.stores = false ∧ (s.N ≠ none → s.isOpen = true)

/-- `N` is the only live transaction object, and an open connection in `C` is
the one it was created on. -/
structure Bound (s : Globals) : Prop where
  live : s.live = s.N.toList
  made : ∀ c, s.C = some c → c.id < s.next
  cached : ∀ n, s.N = some n → n < s.next
  same : ∀ n c, s.N = some n → s.C = some c → c.isOpen = true → c.id = n

def Held (s : Globals) : Prop :=
  ∃ c, s.C = some c ∧ s.N = some c.id ∧ s.live = [c.id] ∧ c.id < s.next

theorem bound_initial : Bound initial where
  live := rfl
  made c h := by cases h
  cached n h := by cases h
  same n c h := by cases h

theorem Held.bound {s : Globals} (h : Held s) : Bound s := by
  obtain ⟨c, hC, hN, hlive, hlt⟩ := h
  refine ⟨by rw [hlive, hN]; rfl, ?_, ?_, ?_⟩
  · intro c' hc'
    rw [hC, Option.some.injEq] at hc'
    exact hc' ▸ hlt
  · intro n hn
    rw [hN, Option.some.injEq] at hn
    exact hn ▸ hlt
  · intro n c' hn hc' _
    rw [hN, Option.some.injEq] at hn
    rw [hC, Option.some.injEq] at hc'
    exact hc' ▸ hn

theorem isOpen_iff {s : Globals} :
    s.isOpen = true ↔ ∃ c, s.C = some c ∧ c.isOpen = true := by
  cases hC : s.C with
  | none => simp [Globals.isOpen, hC]
  | some c => simp [Globals.isOpen, hC]

theorem Held.proper_exec {s : Globals} (h : Held s) (hopen : s.isOpen = true) :
    (Use.exec s).Proper := by
  obtain ⟨c, hC, hN, -⟩ := h
  obtain ⟨c', hC', hc'⟩ := isOpen_iff.1 hopen
  rw [hC, Option.some.injEq] at hC'
  exact ⟨c, hC, hC' ▸ hc', hN⟩

theorem Held.not_proper_work {s : Globals} (h : Held s) : ¬ (Use.work s).Proper := by
  obtain ⟨c, hC, hN, hlive, -⟩ := h
  intro hproper
  exact hproper c hC (by simp [hlive])

theorem Held.close {s : Globals} (h : Held s) : Held s.close := by
  obtain ⟨c, hC, hN, hlive, hlt⟩ := h
  exact ⟨{ c with isOpen := false }, by simp [Globals.close, hC], hN, hlive, hlt⟩

theorem Held.lose {s : Globals} (k : Option ℕ) (h : Held s) : Held (s.lose k) := by
  obtain ⟨c, hC, hN, hlive, hlt⟩ := h
  by_cases hk : k = some c.id
  · exact ⟨{ c with isOpen := false }, by simp [Globals.lose, hC, hk], hN, hlive, hlt⟩
  · exact ⟨c, by simp [Globals.lose, hC, hk], hN, hlive, hlt⟩

theorem Held.answer {s : Globals} (h : Held s) (reply : Reply) (k : Globals → Option ℕ) :
    Held (answer reply k s).state := by
  cases reply with
  | done => exact h
  | failed => exact h
  | lost => exact h.lose (k s)

theorem answer_seen (reply : Reply) (k : Globals → Option ℕ) (s : Globals) :
    (answer reply k s).seen = [] := by
  cases reply <;> rfl

theorem answer_state_of_done {reply : Reply} {k : Globals → Option ℕ} {s : Globals}
    (h : (answer reply k s).done = true) : (answer reply k s).state = s := by
  cases reply with
  | done => rfl
  | failed => cases h
  | lost => cases h

theorem execN_eq (reply : Reply) (s : Globals) :
    execN reply s = ⟨(answer reply Globals.N s).state, [.exec s],
      (answer reply Globals.N s).done⟩ := by
  rw [execN, andThen_of_done rfl]
  simp [observe, answer_seen]

theorem mem_seen_work (reply : Reply) (s : Globals) : Use.work s ∈ (work reply s).seen :=
  mem_seen_andThen (List.mem_singleton.2 rfl)

theorem establish_of_not_reaches {attempt : Attempt} {s : Globals} (hs : Bound s)
    (h : ¬ (s.isOpen = true ∨ attempt = .opened)) :
    ∃ s', establish attempt s = ⟨s', [], false⟩ ∧ Bound s' := by
  rw [not_or] at h
  simp only [establish, if_neg h.1]
  cases attempt with
  | opened => exact absurd rfl h.2
  | thrown => exact ⟨s, rfl, hs⟩
  | unopened =>
    refine ⟨_, rfl, hs.live, ?_, ?_, ?_⟩
    · intro c hc
      cases hc
      exact Nat.lt_succ_self _
    · intro n hn
      exact (hs.cached n hn).trans (Nat.lt_succ_self _)
    · intro n c _ hc hopen
      cases hc
      cases hopen

theorem establish_of_reaches {attempt : Attempt} {s : Globals}
    (h : s.isOpen = true ∨ attempt = .opened) :
    ∃ s', establish attempt s = ⟨s', [], true⟩ ∧ establish attempt s' = ⟨s', [], true⟩ := by
  have hopen : ∀ s' : Globals, s'.isOpen = true → establish attempt s' = ⟨s', [], true⟩ := by
    intro s' hs'
    simp only [establish, if_pos hs']
    rfl
  by_cases hs : s.isOpen = true
  · exact ⟨s, hopen s hs, hopen s hs⟩
  · have hopened := h.resolve_left hs
    refine ⟨{ s with next := s.next + 1, C := some ⟨s.next, true⟩ }, ?_, hopen _ rfl⟩
    simp only [establish, if_neg hs, hopened]
    rfl

theorem openN_eq {s : Globals} {c : Connection} (hs : Bound s) (hC : s.C = some c)
    (hN : s.N = none ∨ s.N = some c.id) :
    ∃ s', openN s = ⟨s', [], true⟩ ∧ s'.C = some c ∧ Held s' := by
  have hlt := hs.made c hC
  rcases hN with hN | hN
  · have hlive : s.live = [] := by rw [hs.live, hN]; rfl
    refine ⟨{ s with N := some c.id, live := [c.id] }, ?_, hC, c, hC, rfl, rfl, hlt⟩
    simp [openN, hN, hC, hlive, returning]
  · have hlive : s.live = [c.id] := by rw [hs.live, hN]; rfl
    exact ⟨s, by simp [openN, hN, returning], hC, c, hC, hN, hlive, hlt⟩

theorem query_eq {a : Answers} {s : Globals} (hs : Bound s)
    (hreach : s.isOpen = true ∨ a.attempt = .opened) (hN : s.N ≠ none → s.isOpen = true) :
    ∃ s', s'.isOpen = true ∧ Held s' ∧
      query a s = ⟨(answer a.first Globals.N s').state, [.exec s'],
        (answer a.first Globals.N s').done⟩ := by
  obtain ⟨s₁, c, hest, hs₁, hC, hopen, hN₁⟩ : ∃ s₁ c, establish a.attempt s = ⟨s₁, [], true⟩ ∧
      Bound s₁ ∧ s₁.C = some c ∧ c.isOpen = true ∧ (s₁.N = none ∨ s₁.N = some c.id) := by
    by_cases hso : s.isOpen = true
    · obtain ⟨c, hC, hc⟩ := isOpen_iff.1 hso
      refine ⟨s, c, by simp only [establish, if_pos hso]; rfl, hs, hC, hc, ?_⟩
      cases hn : s.N with
      | none => exact .inl rfl
      | some n => exact .inr (by rw [hs.same n c hn hC hc])
    · have hnone : s.N = none := not_not.1 fun h ↦ hso (hN h)
      have hopened := hreach.resolve_left hso
      refine ⟨{ s with next := s.next + 1, C := some ⟨s.next, true⟩ }, ⟨s.next, true⟩, ?_, ?_, rfl,
        rfl, .inl hnone⟩
      · simp only [establish, if_neg hso, hopened]
        rfl
      · refine ⟨hs.live, ?_, ?_, ?_⟩
        · intro c hc
          cases hc
          exact Nat.lt_succ_self _
        · intro n hn
          exact (hs.cached n hn).trans (Nat.lt_succ_self _)
        · intro n c hn
          exact absurd (hn.symm.trans hnone) (by simp)
  obtain ⟨s₂, hopenN, hC₂, hheld⟩ := openN_eq hs₁ hC hN₁
  refine ⟨s₂, isOpen_iff.2 ⟨c, hC₂, hopen⟩, hheld, ?_⟩
  rw [query, andThen_of_eq hest, andThen_of_eq hopenN, execN_eq]
  rfl

theorem query_stale {a : Answers} {s : Globals} (hs : Bound s) (hattempt : a.attempt = .opened)
    (hclosed : s.isOpen = false) (hN : s.N ≠ none) :
    ∃ u ∈ (query a s).seen, ¬ u.Proper := by
  obtain ⟨n, hn⟩ := Option.ne_none_iff_exists'.1 hN
  let s' : Globals := { s with next := s.next + 1, C := some ⟨s.next, true⟩ }
  have hest : establish a.attempt s = ⟨s', [], true⟩ := by
    simp only [establish, hclosed, hattempt]
    rfl
  have hopenN : openN s' = ⟨s', [], true⟩ := by
    simp only [openN, s', hn]
    rfl
  refine ⟨.exec s', ?_, ?_⟩
  · rw [query, andThen_of_eq hest, andThen_of_eq hopenN, execN_eq]
    simp
  · rintro ⟨c, hC, -, hcached⟩
    have hlt := hs.cached n hn
    have hid : n = c.id := Option.some.inj (hn.symm.trans hcached)
    cases hC
    exact absurd hid hlt.ne

theorem run_of_not_stores {c : Call} (h : c.stores = false) :
    ∃ tail : Db, c.run = caught (andThen (query c.answers) tail) ∧
      ∀ s, Held s → s.isOpen = true →
        (∀ u ∈ (tail s).seen, u.Proper) ∧ Bound (tail s).state := by
  have hquery : ∀ a, caught (query a) = caught (andThen (query a) (returning id)) := fun a ↦ by
    rw [andThen_returning_id]
  have hid : ∀ s, Held s → s.isOpen = true →
      (∀ u ∈ (returning id s : Outcome Globals Use).seen, u.Proper) ∧
        Bound (returning id s : Outcome Globals Use).state :=
    fun s hs _ ↦ ⟨by simp [returning], hs.bound⟩
  cases c with
  | getInboundForTaint a => exact ⟨returning id, hquery a, hid⟩
  | getOutboundForTaint a => exact ⟨returning id, hquery a, hid⟩
  | getGlobalTagsFromRdb a => exact ⟨returning id, hquery a, hid⟩
  | theiaTagOverlayQuery a =>
    exact ⟨returning Globals.close, rfl, fun s hs _ ↦ ⟨by simp [returning], hs.close.bound⟩⟩
  | searchCrossTag a =>
    refine ⟨execN a.second, rfl, fun s hs hopen ↦ ?_⟩
    rw [execN_eq]
    exact ⟨by simpa using hs.proper_exec hopen, (hs.answer _ _).bound⟩
  | storeLocalTagsToRdb a => cases h
  | theiaTagOverlayInsert a => cases h

theorem run_of_stores {c : Call} (h : c.stores = true) :
    ∃ tail : Db, c.run = caught (andThen (establish c.answers.attempt)
        (andThen (caught (andThen (query c.answers) tail)) (work c.answers.stored))) ∧
      ∀ s, Held s → Held (tail s).state := by
  cases c with
  | storeLocalTagsToRdb a =>
    refine ⟨returning id, ?_, fun s hs ↦ hs⟩
    rw [andThen_returning_id]
    rfl
  | theiaTagOverlayInsert a => exact ⟨returning Globals.close, rfl, fun s hs ↦ hs.close⟩
  | getInboundForTaint a => cases h
  | getOutboundForTaint a => cases h
  | getGlobalTagsFromRdb a => cases h
  | theiaTagOverlayQuery a => cases h
  | searchCrossTag a => cases h

theorem run_of_not_reaches {c : Call} {s : Globals} (hs : Bound s) (h : ¬ Reaches c s) :
    (c.run s).seen = [] ∧ Bound (c.run s).state := by
  obtain ⟨s', hest, hs'⟩ := establish_of_not_reaches hs h
  have hnot : ∀ rest : Db, andThen (establish c.answers.attempt) rest s = ⟨s', [], false⟩ :=
    fun rest ↦ by rw [andThen_of_not_done (by rw [hest]), hest]
  cases hst : c.stores with
  | true =>
    obtain ⟨tail, hrun, -⟩ := run_of_stores hst
    rw [hrun, caught_seen, caught_state, hnot]
    exact ⟨rfl, hs'⟩
  | false =>
    obtain ⟨tail, hrun, -⟩ := run_of_not_stores hst
    have hq : query c.answers s = ⟨s', [], false⟩ := hnot _
    rw [hrun, caught_seen, caught_state, andThen_of_not_done (by rw [hq]), hq]
    exact ⟨rfl, hs'⟩

theorem run_of_reaches_stores {c : Call} {s : Globals} (hs : Bound s) (h : Reaches c s)
    (hst : c.stores = true) : ∃ u ∈ (c.run s).seen, ¬ u.Proper := by
  obtain ⟨tail, hrun, htail⟩ := run_of_stores hst
  obtain ⟨s₁, hest, hest₁⟩ := establish_of_reaches h
  have hquery : query c.answers s₁ = query c.answers s := by
    rw [query, andThen_of_eq hest₁, andThen_of_eq hest]
  rw [hrun, caught_seen, andThen_of_eq hest, List.nil_append]
  by_cases hN : s.N ≠ none → s.isOpen = true
  · obtain ⟨s₂, -, hheld, hq⟩ := query_eq hs h hN
    have hnested : Held (caught (andThen (query c.answers) tail) s₁).state := by
      rw [caught_state]
      cases hd : (answer c.answers.first Globals.N s₂).done with
      | true =>
        rw [andThen_of_done (by rw [hquery, hq, hd]), hquery, hq, answer_state_of_done hd]
        exact htail s₂ hheld
      | false =>
        rw [andThen_of_not_done (by rw [hquery, hq, hd]), hquery, hq]
        exact hheld.answer _ _
    refine ⟨_, ?_, hnested.not_proper_work⟩
    rw [andThen_of_done rfl]
    exact List.mem_append_right _ (mem_seen_work _ _)
  · rw [Classical.not_imp, Bool.not_eq_true] at hN
    have hattempt := h.resolve_left (by simp [hN.2])
    obtain ⟨u, hu, hbad⟩ := query_stale hs hattempt hN.2 hN.1
    exact ⟨u, mem_seen_andThen (mem_seen_andThen (hquery ▸ hu)), hbad⟩

theorem run_of_reaches {c : Call} {s : Globals} (hs : Bound s) (h : Reaches c s)
    (hst : c.stores = false) (hN : s.N ≠ none → s.isOpen = true) :
    (∀ u ∈ (c.run s).seen, u.Proper) ∧ Bound (c.run s).state := by
  obtain ⟨tail, hrun, htail⟩ := run_of_not_stores hst
  obtain ⟨s', hopen, hheld, hq⟩ := query_eq hs h hN
  have hproper := hheld.proper_exec hopen
  rw [hrun, caught_seen, caught_state]
  cases hd : (answer c.answers.first Globals.N s').done with
  | true =>
    have hstate := answer_state_of_done hd
    obtain ⟨hseen, hbound⟩ := htail s' hheld hopen
    rw [andThen_of_done (by rw [hq, hd]), hq, hstate]
    exact ⟨by simpa using ⟨hproper, hseen⟩, hbound⟩
  | false =>
    rw [andThen_of_not_done (by rw [hq, hd]), hq]
    exact ⟨by simpa using hproper, (hheld.answer _ _).bound⟩

theorem run_stale {c : Call} {s : Globals} (hs : Bound s) (h : Reaches c s)
    (hst : c.stores = false) (hN : ¬ (s.N ≠ none → s.isOpen = true)) :
    ∃ u ∈ (c.run s).seen, ¬ u.Proper := by
  rw [Classical.not_imp, Bool.not_eq_true] at hN
  obtain ⟨tail, hrun, -⟩ := run_of_not_stores hst
  have hattempt := h.resolve_left (by simp [hN.2])
  obtain ⟨u, hu, hbad⟩ := query_stale hs hattempt hN.2 hN.1
  exact ⟨u, hrun ▸ mem_seen_andThen hu, hbad⟩

theorem bound_run {c : Call} {s : Globals} (hs : Bound s) (h : Allowed c s) :
    Bound (c.run s).state := by
  by_cases hreach : Reaches c s
  · obtain ⟨hst, hN⟩ := h hreach
    exact (run_of_reaches hs hreach hst hN).2
  · exact (run_of_not_reaches hs hreach).2

theorem proper_run_iff {c : Call} {s : Globals} (hs : Bound s) :
    (∀ u ∈ (c.run s).seen, u.Proper) ↔ Allowed c s := by
  constructor
  · intro hproper hreach
    have hst : c.stores = false := Bool.eq_false_iff.2 fun hst ↦ by
      obtain ⟨u, hu, hbad⟩ := run_of_reaches_stores hs hreach hst
      exact hbad (hproper u hu)
    refine ⟨hst, by_contra fun hN ↦ ?_⟩
    obtain ⟨u, hu, hbad⟩ := run_stale hs hreach hst hN
    exact hbad (hproper u hu)
  · intro h u hu
    by_cases hreach : Reaches c s
    · obtain ⟨hst, hN⟩ := h hreach
      exact (run_of_reaches hs hreach hst hN).1 u hu
    · rw [(run_of_not_reaches hs hreach).1] at hu
      cases hu

/-- Over a whole run every use of the session is proper exactly when the calls that
reach the database only query, and do so while the connection of a cached `N` is open. -/
theorem session_proper_iff (calls : List Call) :
    (∀ u ∈ (runAll Call.run calls initial).seen, u.Proper) ↔
      Meets Call.run Allowed calls initial :=
  forall_seen_runAll_iff (fun _ _ ↦ proper_run_iff) (fun _ _ ↦ bound_run) calls bound_initial

theorem overlay_insert_improper :
    ¬ ∀ calls : List Call, ∀ u ∈ (runAll Call.run calls initial).seen, u.Proper := by
  intro h
  let calls := [Call.theiaTagOverlayInsert ⟨.opened, .done, .done, .done⟩]
  have hwork : Use.work ⟨1, some ⟨0, false⟩, some 0, [0]⟩ ∈
      (runAll Call.run calls initial).seen := by
    simp [calls, runAll, Call.run, theiaTagOverlayInsert, theiaTagOverlayQuery, query, establish,
      openN, execN, work, answer, andThen, caught, observe, returning, throwing, initial,
      Globals.isOpen, Globals.close]
  exact h calls _ hwork ⟨0, false⟩ rfl (List.mem_singleton.2 rfl)

end TheiaTaint.Database.Session
