import Mathlib
import TheiaTaint.Foundations.Interleaving

namespace TheiaTaint.Syscalls.Compensation

open Foundations.Interleaving

/-- `struct thread_data`. By one word of it the kernel tells the system calls of the process
from those of Pin; there it also leaves a mark when a call has to wait for the clock. -/
structure ThreadData where
  appSyscall : BitVec 64
  recordPid : BitVec 32
  syscallCnt : BitVec 32
  sysnum : BitVec 32
  ignoreFlag : BitVec 64

/-- The `int` at each address. -/
abbrev Memory := BitVec 64 → BitVec 32

inductive Request
  | setPinAddr
  | checkBefore (syscall : BitVec 32)
  | checkAfter
deriving DecidableEq

/-- The word of a thread outside its system calls, and the mark of the kernel. -/
def idle : BitVec 64 := 997
def marked : BitVec 64 := 999

/-- The calls that are not logged. -/
def unlogged : List (BitVec 32) := [400, 401, 402, 403, 404, 405, 406, 407, 154, 525, 205, 211]

/-- The calls whose clock is checked before they start. -/
def clocked : List (BitVec 32) := [12, 11, 56, 10, 13, 14, 58, 9]

theorem idle_ne_marked : idle ≠ marked := by decide

def counts (mem : Memory) (tdata : ThreadData) (syscallNum : BitVec 32) : Bool :=
  decide (syscallNum ∉ unlogged) && (tdata.ignoreFlag == 0 || mem tdata.ignoreFlag == 0)

/-- What a callback does: the new data of the thread, the requests to the replay device, and
what it adds to `global_syscall_cnt`. -/
structure Effect where
  tdata : ThreadData
  requests : List Request
  added : BitVec 64

def incrementSyscallCnt (mem : Memory) (r : Effect) (syscallNum : BitVec 32) : Effect :=
  if counts mem r.tdata syscallNum then
    { r with
      tdata := { r.tdata with syscallCnt := r.tdata.syscallCnt + 1 }
      added := r.added + 1 }
  else r

/-- The data that `malloc` returned is not initialized. -/
def threadStart (uninit : ThreadData) (recordPid : BitVec 32) : Effect where
  tdata := { uninit with appSyscall := idle, recordPid := recordPid, syscallCnt := 0 }
  requests := [.setPinAddr]
  added := 0

def setAddressOne (syscallNum syscallarg1 : BitVec 64) (tdata : ThreadData) : Effect :=
  let sysnum := syscallNum.setWidth 32
  let tdata := if sysnum = 401 then { tdata with ignoreFlag := syscallarg1 } else tdata
  { tdata := { tdata with appSyscall := syscallNum, sysnum := sysnum }
    requests := if sysnum ∈ clocked then [.checkBefore sysnum] else []
    added := 0 }

def instSyscallEnd (mem : Memory) (tdata : ThreadData) : Effect :=
  let tdata := if tdata.appSyscall ≠ marked then { tdata with appSyscall := idle } else tdata
  let r := incrementSyscallCnt mem ⟨tdata, [], 0⟩ tdata.sysnum
  let r := { r with tdata := { r.tdata with sysnum := 997 } }
  incrementSyscallCnt mem r r.tdata.sysnum

def syscallAfter (tdata : ThreadData) : Effect :=
  if tdata.appSyscall = marked then ⟨{ tdata with appSyscall := idle }, [.checkAfter], 0⟩
  else ⟨tdata, [], 0⟩

def afterForkInChild (recordPid : BitVec 32) (tdata : ThreadData) : Effect :=
  ⟨{ tdata with recordPid := recordPid, syscallCnt := 0 }, [], 0⟩

/-- The kernel marks a call that has to wait. -/
def kernelWait (tdata : ThreadData) : Effect := ⟨{ tdata with appSyscall := marked }, [], 0⟩

inductive ThreadEvent
  | threadStart (uninit : ThreadData) (recordPid : BitVec 32)
  | setAddressOne (syscallNum syscallarg1 : BitVec 64)
  | instSyscallEnd
  | syscallAfter
  | afterForkInChild (recordPid : BitVec 32)
  | kernelWait

/-- The other callbacks are for threads that have started. -/
def threadStep (mem : Memory) : Option ThreadData → ThreadEvent → Option Effect
  | _, .threadStart uninit recordPid => some (threadStart uninit recordPid)
  | some tdata, .setAddressOne syscallNum arg1 => some (setAddressOne syscallNum arg1 tdata)
  | some tdata, .instSyscallEnd => some (instSyscallEnd mem tdata)
  | some tdata, .syscallAfter => some (syscallAfter tdata)
  | some tdata, .afterForkInChild recordPid => some (afterForkInChild recordPid tdata)
  | some tdata, .kernelWait => some (kernelWait tdata)
  | none, _ => none

/-- The process under replay. -/
structure Replay where
  mem : Memory
  threads : ℕ → Option ThreadData
  globalSyscallCnt : BitVec 64
  requests : List (ℕ × Request)

def started (mem : Memory) : Replay := ⟨mem, fun _ ↦ none, 0, []⟩

/-- The process stores an `int`, or a thread has an event. -/
abbrev ReplayEvent := Event ℕ (BitVec 64 × BitVec 32) ThreadEvent

def Replay.apply (s : Replay) : ReplayEvent → Replay
  | .configure (addr, value) => { s with mem := Function.update s.mem addr value }
  | .step tid ev =>
    match threadStep s.mem (s.threads tid) ev with
    | none => s
    | some r =>
      { s with
        threads := Function.update s.threads tid (some r.tdata)
        globalSyscallCnt := s.globalSyscallCnt + r.added
        requests := s.requests ++ r.requests.map fun o ↦ (tid, o) }

def run (evs : List ReplayEvent) (s : Replay) : Replay := evs.foldl Replay.apply s

def machine : Machine Memory (Option ThreadData) (BitVec 64 × BitVec 32) ThreadEvent Request where
  configure c mem := Function.update mem c.1 c.2
  step mem tdata ev :=
    match threadStep mem tdata ev with
    | none => (tdata, [])
    | some r => (some r.tdata, r.requests)

def Replay.system (s : Replay) : System ℕ Memory (Option ThreadData) Request :=
  ⟨s.mem, s.threads, s.requests⟩

theorem system_apply (s : Replay) (ev : ReplayEvent) :
    (s.apply ev).system = machine.apply s.system ev := by
  cases ev with
  | configure c => rfl
  | step tid ev =>
    simp only [Replay.apply, Replay.system, Machine.apply, machine]
    cases threadStep s.mem (s.threads tid) ev with
    | none => simp
    | some r => rfl

theorem system_run (evs : List ReplayEvent) (s : Replay) :
    (run evs s).system = machine.run evs s.system := by
  induction evs generalizing s with
  | nil => rfl
  | cons ev evs ih => rw [run, List.foldl_cons, ← run, ih, system_apply]; rfl

/-- The events of one thread. -/
def ownEvents (tid : ℕ) (evs : List ReplayEvent) : List ThreadEvent :=
  evs.filterMap fun ev ↦ (ev.seen tid).bind Sum.getRight?

def IsStart (ev : ThreadEvent) : Prop := ∃ uninit recordPid, ev = .threadStart uninit recordPid

/-- The kernel leaves its mark, or the number of the call is the mark. -/
def Marks (ev : ThreadEvent) : Prop :=
  ev = .kernelWait ∨ ∃ syscallNum arg1, syscallNum = marked ∧ ev = .setAddressOne syscallNum arg1

/-- An event after which an older mark counts no longer. -/
def Settles : ThreadEvent → Prop
  | .threadStart _ _ => True
  | .setAddressOne _ _ => True
  | .syscallAfter => True
  | _ => False

def HasStarted (own : List ThreadEvent) : Prop := ∃ ev ∈ own, IsStart ev

/-- The thread has a mark that it did not act on. -/
def Waiting (own : List ThreadEvent) : Prop :=
  ∃ before ev after, own = before ++ ev :: after ∧ HasStarted before ∧ Marks ev ∧
    ∀ ev' ∈ after, ¬ Settles ev'

open Classical in
/-- What a thread asks of the device at an event, by its own events before. -/
noncomputable def asked (own : List ThreadEvent) : ThreadEvent → List Request
  | .threadStart _ _ => [.setPinAddr]
  | .setAddressOne syscallNum _ =>
    if HasStarted own ∧ syscallNum.setWidth 32 ∈ clocked then
      [.checkBefore (syscallNum.setWidth 32)] else []
  | .syscallAfter => if Waiting own then [.checkAfter] else []
  | _ => []

noncomputable def askedFrom : List ThreadEvent → List ThreadEvent → List Request
  | _, [] => []
  | own, ev :: evs => asked own ev ++ askedFrom (own ++ [ev]) evs

theorem hasStarted_concat (own : List ThreadEvent) (ev : ThreadEvent) :
    HasStarted (own ++ [ev]) ↔ HasStarted own ∨ IsStart ev := by
  simp [HasStarted, or_and_right, exists_or]

theorem waiting_concat (own : List ThreadEvent) (ev : ThreadEvent) :
    Waiting (own ++ [ev]) ↔ HasStarted own ∧ Marks ev ∨ Waiting own ∧ ¬ Settles ev := by
  constructor
  · rintro ⟨before, m, after, hown, hstarted, hmark, hafter⟩
    cases after using List.reverseRecOn with
    | nil =>
      obtain ⟨rfl, hm⟩ := List.append_inj' hown rfl
      obtain rfl := List.singleton_inj.1 hm
      exact .inl ⟨hstarted, hmark⟩
    | append_singleton after last =>
      rw [← List.cons_append, ← List.append_assoc] at hown
      obtain ⟨rfl, hlast⟩ := List.append_inj' hown rfl
      obtain rfl := List.singleton_inj.1 hlast
      exact .inr ⟨⟨before, m, after, rfl, hstarted, hmark, fun e he ↦
        hafter e (List.mem_append_left _ he)⟩, hafter _ (by simp)⟩
  · rintro (⟨hstarted, hmark⟩ | ⟨⟨before, m, after, rfl, hstarted, hmark, hafter⟩, hlast⟩)
    · exact ⟨own, ev, [], rfl, hstarted, hmark, by simp⟩
    · refine ⟨before, m, after ++ [ev], by simp, hstarted, hmark, fun e he ↦ ?_⟩
      rcases List.mem_append.1 he with he | he
      · exact hafter e he
      · exact List.mem_singleton.1 he ▸ hlast

theorem Waiting.hasStarted {own : List ThreadEvent} (h : Waiting own) : HasStarted own := by
  obtain ⟨before, ev, after, rfl, ⟨e, he, hstart⟩, -⟩ := h
  exact ⟨e, List.mem_append_left _ he, hstart⟩

/-- The data of a thread tells whether it has started and whether it waits. -/
structure Tracks (own : List ThreadEvent) (tdata : Option ThreadData) : Prop where
  isSome : tdata.isSome = true ↔ HasStarted own
  mark : ∀ t, tdata = some t → (t.appSyscall = marked ↔ Waiting own)

theorem appSyscall_instSyscallEnd (mem : Memory) (tdata : ThreadData) :
    (instSyscallEnd mem tdata).tdata.appSyscall = marked ↔ tdata.appSyscall = marked := by
  have hkeep (r : Effect) (n : BitVec 32) :
      (incrementSyscallCnt mem r n).tdata.appSyscall = r.tdata.appSyscall := by
    rw [incrementSyscallCnt]
    split <;> rfl
  simp only [instSyscallEnd, hkeep]
  by_cases hmark : tdata.appSyscall = marked
  · rw [if_neg (not_not.2 hmark)]
  · rw [if_pos hmark]
    exact iff_of_false idle_ne_marked hmark

theorem instSyscallEnd_requests (mem : Memory) (tdata : ThreadData) :
    (instSyscallEnd mem tdata).requests = [] := by
  have hkeep (r : Effect) (n : BitVec 32) :
      (incrementSyscallCnt mem r n).requests = r.requests := by
    rw [incrementSyscallCnt]
    split <;> rfl
  simp only [instSyscallEnd, hkeep]

theorem appSyscall_setAddressOne (syscallNum arg1 : BitVec 64) (tdata : ThreadData) :
    (setAddressOne syscallNum arg1 tdata).tdata.appSyscall = syscallNum := rfl

theorem tracks_nil : Tracks [] none where
  isSome := by simp [HasStarted]
  mark := by simp

theorem Tracks.of_some {own : List ThreadEvent} {t : ThreadData} (hstart : HasStarted own)
    (hmark : t.appSyscall = marked ↔ Waiting own) : Tracks own (some t) where
  isSome := by simp [hstart]
  mark t' ht' := by
    obtain rfl := Option.some_inj.1 ht'
    exact hmark

theorem Tracks.threadStart (own : List ThreadEvent) (mem : Memory) (tdata : Option ThreadData)
    (uninit : ThreadData) (recordPid : BitVec 32) :
    Tracks (own ++ [.threadStart uninit recordPid])
      (machine.step mem tdata (.threadStart uninit recordPid)).1 := by
  refine .of_some ((hasStarted_concat _ _).2 (.inr ⟨_, _, rfl⟩)) ?_
  rw [waiting_concat]
  refine iff_of_false idle_ne_marked ?_
  simp [Marks, Settles]

theorem Tracks.step_none {own : List ThreadEvent} (h : Tracks own none) (mem : Memory)
    (ev : ThreadEvent) :
    Tracks (own ++ [ev]) (machine.step mem none ev).1 ∧
      (machine.step mem none ev).2 = asked own ev := by
  have hno : ¬ HasStarted own := fun hs ↦ by simpa using h.isSome.2 hs
  have hwait : ¬ Waiting own := fun hw ↦ hno hw.hasStarted
  have hquiet (hev : ¬ IsStart ev) : Tracks (own ++ [ev]) none :=
    ⟨by simp [hasStarted_concat, hno, hev], by simp⟩
  cases ev with
  | threadStart uninit recordPid => exact ⟨.threadStart own mem none uninit recordPid, rfl⟩
  | setAddressOne syscallNum arg1 =>
    exact ⟨hquiet (by simp [IsStart]), by simp [machine, threadStep, asked, hno]⟩
  | instSyscallEnd => exact ⟨hquiet (by simp [IsStart]), rfl⟩
  | syscallAfter =>
    exact ⟨hquiet (by simp [IsStart]), by simp [machine, threadStep, asked, hwait]⟩
  | afterForkInChild recordPid => exact ⟨hquiet (by simp [IsStart]), rfl⟩
  | kernelWait => exact ⟨hquiet (by simp [IsStart]), rfl⟩

theorem Tracks.step_some {own : List ThreadEvent} {t : ThreadData} (h : Tracks own (some t))
    (mem : Memory) (ev : ThreadEvent) :
    Tracks (own ++ [ev]) (machine.step mem (some t) ev).1 ∧
      (machine.step mem (some t) ev).2 = asked own ev := by
  have hyes : HasStarted own := h.isSome.1 rfl
  have hwait : t.appSyscall = marked ↔ Waiting own := h.mark t rfl
  have hstart : HasStarted (own ++ [ev]) := (hasStarted_concat own ev).2 (.inl hyes)
  have hmark := waiting_concat own ev
  cases ev with
  | threadStart uninit recordPid => exact ⟨.threadStart own mem (some t) uninit recordPid, rfl⟩
  | setAddressOne syscallNum arg1 =>
    refine ⟨.of_some hstart ?_, ?_⟩
    · rw [appSyscall_setAddressOne, hmark]
      simp [hyes, Marks, Settles]
    · simp [machine, threadStep, setAddressOne, asked, hyes]
  | instSyscallEnd =>
    refine ⟨.of_some hstart ?_, instSyscallEnd_requests mem t⟩
    rw [appSyscall_instSyscallEnd, hwait, hmark]
    simp [Marks, Settles]
  | syscallAfter =>
    have hsettled : ¬ Waiting (own ++ [.syscallAfter]) := by simp [hmark, Marks, Settles]
    by_cases hw : Waiting own
    · have hs := hwait.2 hw
      refine ⟨.of_some hstart ?_, ?_⟩
      · simp only [syscallAfter, if_pos hs]
        exact iff_of_false idle_ne_marked hsettled
      · simp [machine, threadStep, syscallAfter, asked, hs, hw]
    · have hs := mt hwait.1 hw
      refine ⟨.of_some hstart ?_, ?_⟩
      · simp only [syscallAfter, if_neg hs]
        exact iff_of_false hs hsettled
      · simp [machine, threadStep, syscallAfter, asked, hs, hw]
  | afterForkInChild recordPid =>
    refine ⟨.of_some hstart ?_, rfl⟩
    rw [hmark]
    simpa [afterForkInChild, Marks, Settles] using hwait
  | kernelWait =>
    refine ⟨.of_some hstart ?_, rfl⟩
    rw [hmark]
    exact iff_of_true rfl (.inl ⟨hyes, .inl rfl⟩)

theorem Tracks.step {own : List ThreadEvent} {tdata : Option ThreadData} (h : Tracks own tdata)
    (mem : Memory) (ev : ThreadEvent) :
    Tracks (own ++ [ev]) (machine.step mem tdata ev).1 ∧
      (machine.step mem tdata ev).2 = asked own ev := by
  cases tdata with
  | none => exact h.step_none mem ev
  | some t => exact h.step_some mem ev

theorem log_runAlone (evs : List ((BitVec 64 × BitVec 32) ⊕ ThreadEvent))
    {own : List ThreadEvent} {p : Part Memory (Option ThreadData) Request}
    (h : Tracks own p.state) :
    (machine.runAlone evs p).log = p.log ++ askedFrom own (evs.filterMap Sum.getRight?) := by
  induction evs generalizing own p with
  | nil => simp [Machine.runAlone, askedFrom]
  | cons ev evs ih =>
    rw [Machine.runAlone, List.foldl_cons, ← Machine.runAlone]
    cases ev with
    | inl c => exact ih h
    | inr e =>
      obtain ⟨hnext, hasked⟩ := h.step p.config e
      rw [ih hnext]
      simp [Machine.applyAlone, hasked, askedFrom, List.append_assoc]

def cnt (tdata : Option ThreadData) : BitVec 32 := (tdata.map ThreadData.syscallCnt).getD 0

/-- What an event takes off the counter of a thread: a fork and a new start set it to zero. -/
def lostBy (s : Replay) : ReplayEvent → BitVec 32
  | .step tid (.threadStart _ _) => cnt (s.threads tid)
  | .step tid (.afterForkInChild _) => cnt (s.threads tid)
  | _ => 0

def lost : List ReplayEvent → Replay → BitVec 32
  | [], _ => 0
  | ev :: evs, s => lostBy s ev + lost evs (s.apply ev)

/-- The threads that a run is about. -/
def threadsOf (evs : List ReplayEvent) : Finset ℕ :=
  (evs.filterMap fun ev ↦
    match ev with
    | .step tid _ => some tid
    | .configure _ => none).toFinset

/-- What the thread has on its counter over `base` went to the global one too. -/
def Effect.Balanced (base : BitVec 32) (r : Effect) : Prop :=
  r.tdata.syscallCnt = base + r.added.setWidth 32

theorem Effect.Balanced.increment {base : BitVec 32} {r : Effect} (h : r.Balanced base)
    (mem : Memory) (n : BitVec 32) : (incrementSyscallCnt mem r n).Balanced base := by
  rw [incrementSyscallCnt]
  split
  · have hone : (1 : BitVec 64).setWidth 32 = 1 := by decide
    rw [Balanced] at h ⊢
    rw [BitVec.setWidth_add _ _ (by decide), hone, ← BitVec.add_assoc, ← h]
  · exact h

theorem balanced_instSyscallEnd (mem : Memory) (t : ThreadData) :
    (instSyscallEnd mem t).Balanced t.syscallCnt := by
  refine Effect.Balanced.increment (r := ⟨{ (Effect.tdata _) with sysnum := 997 }, _, _⟩) ?_ mem _
  refine Effect.Balanced.increment (r := ⟨_, [], 0⟩) ?_ mem _
  split <;> simp [Effect.Balanced]

/-- An event of a thread: its counter and the global one go up alike, but for what is lost. -/
theorem threadStep_counts {s : Replay} {tid : ℕ} {ev : ThreadEvent} {r : Effect}
    (h : threadStep s.mem (s.threads tid) ev = some r) :
    r.Balanced (cnt (s.threads tid) - lostBy s (.step tid ev)) := by
  cases ht : s.threads tid with
  | none =>
    rw [ht] at h
    cases ev with
    | threadStart uninit recordPid =>
      obtain rfl := Option.some_inj.1 h
      simp [Effect.Balanced, threadStart, lostBy, ht]
    | _ => cases h
  | some t =>
    rw [ht] at h
    cases ev with
    | threadStart uninit recordPid =>
      obtain rfl := Option.some_inj.1 h
      simp [Effect.Balanced, threadStart, lostBy, ht]
    | setAddressOne syscallNum arg1 =>
      obtain rfl := Option.some_inj.1 h
      simp only [Effect.Balanced, setAddressOne, lostBy]
      split <;> simp [cnt]
    | instSyscallEnd =>
      obtain rfl := Option.some_inj.1 h
      simpa [lostBy, cnt] using balanced_instSyscallEnd s.mem t
    | syscallAfter =>
      obtain rfl := Option.some_inj.1 h
      simp only [Effect.Balanced, syscallAfter, lostBy]
      split <;> simp [cnt]
    | afterForkInChild recordPid =>
      obtain rfl := Option.some_inj.1 h
      simp [Effect.Balanced, afterForkInChild, lostBy, ht]
    | kernelWait =>
      obtain rfl := Option.some_inj.1 h
      simp [Effect.Balanced, kernelWait, lostBy, cnt]

theorem lostBy_of_none {s : Replay} {tid : ℕ} {ev : ThreadEvent}
    (h : threadStep s.mem (s.threads tid) ev = none) : lostBy s (.step tid ev) = 0 := by
  cases ht : s.threads tid with
  | none =>
    rw [ht] at h
    cases ev with
    | afterForkInChild recordPid => simp [lostBy, ht, cnt]
    | threadStart uninit recordPid => cases h
    | _ => rfl
  | some t =>
    rw [ht] at h
    cases ev <;> cases h

theorem apply_counts (s : Replay) (ev : ReplayEvent) {T : Finset ℕ}
    (hT : ∀ tid e, ev = .step tid e → tid ∈ T) :
    (s.apply ev).globalSyscallCnt.setWidth 32 + ∑ tid ∈ T, cnt (s.threads tid) =
      s.globalSyscallCnt.setWidth 32 + ∑ tid ∈ T, cnt ((s.apply ev).threads tid) + lostBy s ev := by
  cases ev with
  | configure c => simp [Replay.apply, lostBy]
  | step tid e =>
    have htid : tid ∈ T := hT tid e rfl
    cases hstep : threadStep s.mem (s.threads tid) e with
    | none => simp [Replay.apply, hstep, lostBy_of_none hstep]
    | some r =>
      have hcount : r.tdata.syscallCnt = _ := threadStep_counts hstep
      have hrest : ∑ j ∈ T.erase tid, cnt (Function.update s.threads tid (some r.tdata) j) =
          ∑ j ∈ T.erase tid, cnt (s.threads j) :=
        Finset.sum_congr rfl fun j hj ↦ by rw [Function.update_of_ne (Finset.ne_of_mem_erase hj)]
      have hnew : cnt (some r.tdata) = r.tdata.syscallCnt := rfl
      simp only [Replay.apply, hstep]
      rw [← Finset.add_sum_erase T (fun j ↦ cnt (s.threads j)) htid,
        ← Finset.add_sum_erase T (fun j ↦ cnt (Function.update s.threads tid _ j)) htid,
        hrest, Function.update_self, hnew, hcount, BitVec.setWidth_add _ _ (by decide)]
      ring

theorem mem_threadsOf_cons {evs : List ReplayEvent} {ev : ReplayEvent} {tid : ℕ} :
    tid ∈ threadsOf (ev :: evs) ↔ (∃ e, ev = .step tid e) ∨ tid ∈ threadsOf evs := by
  cases ev with
  | configure c => simp [threadsOf]
  | step j e => simp [threadsOf, eq_comm]

theorem run_counts (evs : List ReplayEvent) (s : Replay) {T : Finset ℕ} (hT : threadsOf evs ⊆ T) :
    (run evs s).globalSyscallCnt.setWidth 32 + ∑ tid ∈ T, cnt (s.threads tid) =
      s.globalSyscallCnt.setWidth 32 + ∑ tid ∈ T, cnt ((run evs s).threads tid) + lost evs s := by
  induction evs generalizing s with
  | nil => simp [run, lost]
  | cons ev evs ih =>
    have hstep := apply_counts s ev fun tid e he ↦ hT (mem_threadsOf_cons.2 (.inl ⟨e, he⟩))
    have hrest := ih (s.apply ev) fun tid h ↦ hT (mem_threadsOf_cons.2 (.inr h))
    rw [run, List.foldl_cons, ← run, lost]
    refine add_right_cancel (b := ∑ tid ∈ T, cnt ((s.apply ev).threads tid)) ?_
    calc
      _ = ((run evs (s.apply ev)).globalSyscallCnt.setWidth 32 +
            ∑ tid ∈ T, cnt ((s.apply ev).threads tid)) + ∑ tid ∈ T, cnt (s.threads tid) := by ring
      _ = ((s.apply ev).globalSyscallCnt.setWidth 32 + ∑ tid ∈ T, cnt (s.threads tid)) +
            ∑ tid ∈ T, cnt ((run evs (s.apply ev)).threads tid) + lost evs (s.apply ev) := by
          rw [hrest]; ring
      _ = _ := by rw [hstep]; ring

/-- In every run the global counter is the sum of the threads' counters and of what the threads
had counted before a fork or a new start. -/
theorem counters_agree (mem : Memory) (evs : List ReplayEvent) :
    (run evs (started mem)).globalSyscallCnt.setWidth 32 =
      ∑ tid ∈ threadsOf evs, cnt ((run evs (started mem)).threads tid) +
        lost evs (started mem) := by
  have hrun := run_counts evs (started mem) (subset_refl (threadsOf evs))
  simpa [started, cnt] using hrun

end TheiaTaint.Syscalls.Compensation
