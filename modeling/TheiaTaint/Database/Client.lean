import Mathlib
import TheiaTaint.Database.Session

namespace TheiaTaint.Database

open Foundations.Trace Session

/-- `N->exec` has a result only on the connection that `N` was made on, which has to be open. A
second transaction object on a connection is refused, which is a result. -/
def defined : Use → Bool
  | .exec s => s.C.any fun c ↦ c.isOpen && s.N == some c.id
  | .work _ => true

/-- A function of the source at work on a table of a reachable database: the globals and the
table are its state, and it may throw. A run without a result is one that the source leaves
undefined. -/
abbrev Client (Tab : Type) := OptionT (StateT (Globals × Tab) Option)

namespace Client

variable {Tab R α β : Type}

def run (c : Client Tab α) (s : Globals × Tab) : Option (Option α × Globals × Tab) :=
  StateT.run (OptionT.run c) s

/-- What the database answers to a statement, which is an error if it has no result. -/
def reply (result : Option R) : Reply := if result.isSome then .done else .failed

/-- A database that takes every connection. -/
def reached (result : Option R) : Answers := ⟨.opened, reply result, reply result, reply result⟩

/-- The lines of the source up to the result of `N->exec`. -/
def query (select : Tab → Option R) : Client Tab R :=
  OptionT.mk fun s ↦
    let r := Session.query (reached (select s.2)) s.1
    if r.seen.all defined then some (if r.done then select s.2 else none, r.state, s.2) else none

def establish : Client Tab Unit :=
  OptionT.mk fun s ↦
    let r := Session.establish .opened s.1
    some (if r.done then some () else none, r.state, s.2)

/-- `C->disconnect();` -/
def disconnect : Client Tab Unit := OptionT.mk fun s ↦ some (some (), s.1.close, s.2)

/-- `work W(*C); W.exec(..); W.commit();` -/
def work (change : Tab → Option Tab) : Client Tab Unit :=
  OptionT.mk fun s ↦
    let r := Session.work (reply (change s.2)) s.1
    if r.done then some (some (), r.state, (change s.2).getD s.2)
    else some (none, r.state, s.2)

theorem run_pure (a : α) (s : Globals × Tab) :
    (pure a : Client Tab α).run s = some (some a, s) := rfl

theorem run_bind (c : Client Tab α) (f : α → Client Tab β) (s : Globals × Tab) :
    (c >>= f).run s = (c.run s).bind fun p ↦
      match p.1 with
      | some a => (f a).run p.2
      | none => some (none, p.2) := by
  rw [run, run, OptionT.run_bind, Option.elimM, StateT.run_bind]
  refine congrArg (Option.bind _) (funext fun p ↦ ?_)
  cases p.1 <;> rfl

theorem run_catch (c d : Client Tab α) (s : Globals × Tab) :
    (c <|> d).run s = (c.run s).bind fun p ↦
      match p.1 with
      | some a => some (some a, p.2)
      | none => d.run p.2 := by
  rw [run, run, OptionT.run_orElse, Option.elimM, StateT.run_bind]
  refine congrArg (Option.bind _) (funext fun p ↦ ?_)
  cases p.1 <;> rfl

section Compose

variable {c d : Client Tab α} {f : α → Client Tab β} {s s' : Globals × Tab} {a : α}

theorem run_bind_of_returned (h : c.run s = some (some a, s')) :
    (c >>= f).run s = (f a).run s' := by
  rw [run_bind, h]
  rfl

theorem run_bind_of_thrown (h : c.run s = some (none, s')) :
    (c >>= f).run s = some (none, s') := by
  rw [run_bind, h]
  rfl

theorem run_bind_of_undefined (h : c.run s = none) : (c >>= f).run s = none := by
  rw [run_bind, h]
  rfl

theorem run_catch_of_returned (h : c.run s = some (some a, s')) :
    (c <|> d).run s = some (some a, s') := by
  rw [run_catch, h]
  rfl

theorem run_catch_of_thrown (h : c.run s = some (none, s')) : (c <|> d).run s = d.run s' := by
  rw [run_catch, h]
  rfl

theorem run_catch_of_undefined (h : c.run s = none) : (c <|> d).run s = none := by
  rw [run_catch, h]
  rfl

end Compose

/-- The connection that `N` was made on is still open, if there is an `N`. -/
def Usable (s : Globals) : Prop := s.N ≠ none → s.isOpen = true

theorem usable_initial : Usable initial := fun h ↦ absurd rfl h

theorem defined_of_proper {s : Globals} (h : (Use.exec s).Proper) : defined (.exec s) = true := by
  obtain ⟨c, hC, hopen, hN⟩ := h
  simp [defined, hC, hopen, hN]

theorem proper_of_defined {s : Globals} (h : defined (.exec s) = true) : (Use.exec s).Proper := by
  cases hC : s.C with
  | none => simp [defined, hC] at h
  | some c =>
    simp only [defined, hC, Option.any_some, Bool.and_eq_true, beq_iff_eq] at h
    exact ⟨c, hC, h.1, h.2⟩

theorem run_query_eq (select : Tab → Option R) (s : Globals) (tab : Tab) :
    (query select).run (s, tab) =
      if (Session.query (reached (select tab)) s).seen.all defined then
        some (if (Session.query (reached (select tab)) s).done then select tab else none,
          (Session.query (reached (select tab)) s).state, tab)
      else none := rfl

theorem run_work_eq (change : Tab → Option Tab) (s : Globals) (tab : Tab) :
    (work change).run (s, tab) =
      if (Session.work (reply (change tab)) s).done then
        some (some (), (Session.work (reply (change tab)) s).state, (change tab).getD tab)
      else some (none, (Session.work (reply (change tab)) s).state, tab) := rfl

theorem run_establish (s : Globals) (tab : Tab) :
    ∃ s', (establish : Client Tab Unit).run (s, tab) = some (some (), s', tab) ∧
      ∀ {R : Type} (select : Tab → Option R),
        (query select).run (s', tab) = (query select).run (s, tab) := by
  obtain ⟨s', hs, hs'⟩ : ∃ s', Session.establish .opened s = ⟨s', [], true⟩ ∧
      Session.establish .opened s' = ⟨s', [], true⟩ := establish_of_reaches (.inr rfl)
  have hrun : (establish : Client Tab Unit).run (s, tab) =
      some (if (Session.establish .opened s).done then some () else none,
        (Session.establish .opened s).state, tab) := rfl
  refine ⟨s', by rw [hrun, hs]; rfl, fun select ↦ ?_⟩
  have hquery : Session.query (reached (select tab)) s' =
      Session.query (reached (select tab)) s :=
    (andThen_of_eq hs').trans (andThen_of_eq hs).symm
  rw [run_query_eq, run_query_eq, hquery]

theorem answer_reply (result : Option R) (k : Globals → Option ℕ) (s : Globals) :
    answer (reply result) k s = ⟨s, [], result.isSome⟩ := by
  cases result <;> rfl

theorem exec_of_mem_query (a : Answers) (s : Globals) :
    ∀ u ∈ (Session.query a s).seen, ∃ s', u = .exec s' := by
  refine forall_seen_andThen (fun s u hu ↦ ?_)
    (forall_seen_andThen (fun s u hu ↦ ?_) fun s u hu ↦ ?_) s
  · unfold Session.establish at hu
    split at hu
    · cases hu
    · split at hu <;> cases hu
  · unfold openN at hu
    split at hu
    · split at hu <;> cases hu
    · cases hu
  · rw [execN_eq, List.mem_singleton] at hu
    exact ⟨s, hu⟩

section Runs

variable {s : Globals} (tab : Tab)

/-- A query leaves its `N` on the connection, which stays open. -/
theorem run_query (hs : Bound s) (hN : Usable s) (select : Tab → Option R) :
    ∃ s', (query select).run (s, tab) = some (select tab, s', tab) ∧ Held s' ∧
      s'.isOpen = true := by
  obtain ⟨s', hopen, hheld, hq⟩ := query_eq (a := reached (select tab)) hs (.inr rfl) hN
  rw [reached, answer_reply] at hq
  have hdefined := defined_of_proper (hheld.proper_exec hopen)
  refine ⟨s', ?_, hheld, hopen⟩
  rw [run_query_eq, reached, hq]
  cases select tab <;> simp [hdefined]

/-- A query on an `N` of a lost connection is undefined. -/
theorem run_query_stale (hs : Bound s) (hN : ¬ Usable s) (select : Tab → Option R) :
    (query select).run (s, tab) = none := by
  rw [Usable, Classical.not_imp, Bool.not_eq_true] at hN
  obtain ⟨u, hu, hbad⟩ := query_stale (a := reached (select tab)) hs rfl hN.2 hN.1
  obtain ⟨s', rfl⟩ := exec_of_mem_query _ _ u hu
  rw [run_query_eq, if_neg]
  intro hall
  exact hbad (proper_of_defined (List.all_eq_true.1 hall _ hu))

theorem run_work (h : Held s) (change : Tab → Option Tab) :
    (work change).run (s, tab) = some (none, s, tab) := by
  obtain ⟨c, hC, -, hlive, -⟩ := h
  have hmem : c.id ∈ s.live := by simp [hlive]
  have hwork : Session.work (reply (change tab)) s = ⟨s, [.work s], false⟩ := by
    rw [Session.work, andThen_of_done rfl]
    simp [observe, hC, hmem, throwing]
  rw [run_work_eq, hwork]
  rfl

end Runs

/-- The client moves the globals as the action of the session does, and throws when it does. -/
def Follows (c : Client Tab α) (db : Db) (s : Globals × Tab) : Prop :=
  ∀ r s', c.run s = some (r, s') → (db s.1).state = s'.1 ∧ (db s.1).done = r.isSome

section Follows

variable {s : Globals × Tab} {c : Client Tab α} {db db' : Db}

theorem Follows.bind {f : α → Client Tab β} (h : Follows c db s)
    (h' : ∀ a s', c.run s = some (some a, s') → Follows (f a) db' s') :
    Follows (c >>= f) (andThen db db') s := by
  intro r s' hrun
  rw [run_bind, Option.bind_eq_some_iff] at hrun
  obtain ⟨⟨mid, s₁⟩, hc, hf⟩ := hrun
  obtain ⟨hstate, hdone⟩ := h mid s₁ hc
  cases mid with
  | some a =>
    obtain ⟨hstate', hdone'⟩ := h' a s₁ hc r s' hf
    rw [andThen_of_done hdone, hstate]
    exact ⟨hstate', hdone'⟩
  | none =>
    obtain ⟨rfl, rfl⟩ := Prod.mk.inj (Option.some.inj hf)
    rw [andThen_of_not_done hdone]
    exact ⟨hstate, hdone⟩

/-- What comes after the last use of the session. -/
theorem Follows.bind_idle {f : α → Client Tab β} (h : Follows c db s)
    (h' : ∀ a s', Follows (f a) (returning id) s') : Follows (c >>= f) db s := by
  have hbind := h.bind fun a s' _ ↦ h' a s'
  rwa [andThen_returning_id] at hbind

theorem Follows.catch (h : Follows c db s) (a : α) : Follows (c <|> pure a) (caught db) s := by
  intro r s' hrun
  rw [run_catch, Option.bind_eq_some_iff] at hrun
  obtain ⟨⟨mid, s₁⟩, hc, hcatch⟩ := hrun
  have hstate := (h mid s₁ hc).1
  cases mid with
  | some b =>
    obtain ⟨rfl, rfl⟩ := Prod.mk.inj (Option.some.inj hcatch)
    exact ⟨hstate, rfl⟩
  | none =>
    obtain ⟨rfl, rfl⟩ := Prod.mk.inj (Option.some.inj hcatch)
    exact ⟨hstate, rfl⟩

theorem follows_pure (a : α) (s : Globals × Tab) :
    Follows (pure a : Client Tab α) (returning id) s := by
  intro r s' hrun
  obtain ⟨rfl, rfl⟩ := Prod.mk.inj (Option.some.inj hrun)
  exact ⟨rfl, rfl⟩

theorem follows_establish (s : Globals × Tab) :
    Follows (establish : Client Tab Unit) (Session.establish .opened) s := by
  intro r s' hrun
  obtain ⟨rfl, rfl⟩ := Prod.mk.inj (Option.some.inj hrun)
  refine ⟨rfl, ?_⟩
  cases (Session.establish .opened s.1).done <;> rfl

theorem tab_establish {r : Option Unit} {s s' : Globals × Tab}
    (h : (establish : Client Tab Unit).run s = some (r, s')) : s'.2 = s.2 := by
  obtain ⟨-, rfl⟩ := Prod.mk.inj (Option.some.inj h)
  rfl

theorem follows_disconnect (s : Globals × Tab) :
    Follows (disconnect : Client Tab Unit) (returning Globals.close) s := by
  intro r s' hrun
  obtain ⟨rfl, rfl⟩ := Prod.mk.inj (Option.some.inj hrun)
  exact ⟨rfl, rfl⟩

theorem isSome_of_done {result : Option R} {s : Globals}
    (h : (Session.query (reached result) s).done = true) : result.isSome = true := by
  have hexec := done_of_andThen (done_of_andThen h)
  rw [execN_eq] at hexec
  cases result with
  | some r => rfl
  | none => cases hexec

theorem follows_query {a : Answers} (select : Tab → Option R) (s : Globals × Tab)
    (hattempt : a.attempt = .opened) (hfirst : a.first = reply (select s.2)) :
    Follows (query select) (Session.query a) s := by
  have hsame : Session.query a s.1 = Session.query (reached (select s.2)) s.1 := by
    rw [Session.query, Session.query, hattempt, hfirst]
    rfl
  intro r s' hrun
  rw [run_query_eq] at hrun
  split at hrun
  · obtain ⟨rfl, rfl⟩ := Prod.mk.inj (Option.some.inj hrun)
    rw [hsame]
    refine ⟨rfl, ?_⟩
    cases hdone : (Session.query (reached (select s.2)) s.1).done with
    | true => exact (isSome_of_done hdone).symm
    | false => rfl
  · cases hrun

theorem follows_work (change : Tab → Option Tab) (s : Globals × Tab) :
    Follows (work change) (Session.work (reply (change s.2))) s := by
  intro r s' hrun
  rw [run_work_eq] at hrun
  split at hrun
  · rename_i hdone
    obtain ⟨rfl, rfl⟩ := Prod.mk.inj (Option.some.inj hrun)
    exact ⟨rfl, hdone⟩
  · rename_i hdone
    obtain ⟨rfl, rfl⟩ := Prod.mk.inj (Option.some.inj hrun)
    exact ⟨rfl, Bool.eq_false_iff.2 hdone⟩

end Follows

end Client

end TheiaTaint.Database
