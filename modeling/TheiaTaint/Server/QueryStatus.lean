import Mathlib
import TheiaTaint.Foundations.Logged
import TheiaTaint.Foundations.Strings

namespace TheiaTaint.Server.QueryStatus

open Foundations.Logged Foundations.Strings

inductive Raised
  | jobTimeout
  | replayError (message : Text)

/-- What `update_status` is called with. -/
inductive Status
  | reachabilityAnalysis
  | reachabilityTimeout
  | preparingReplay
  | error (message : Text)
  | replaying
  | taintTimeout
  | finished
deriving DecidableEq

def Status.text : Status → Text
  | .reachabilityAnalysis => "Reachability Analysis".toList
  | .reachabilityTimeout => "timeout: reachability analysis".toList
  | .preparingReplay => "Preparing Replay".toList
  | .error message => message
  | .replaying => "Replaying".toList
  | .taintTimeout => "timeout: taint analysis".toList
  | .finished => "Finished.".toList

/-- The statuses that report a failure. -/
def Status.IsFailure : Status → Prop
  | .reachabilityTimeout | .error _ | .taintTimeout => True
  | _ => False

/-- How a stage ends: `none` is the job's timeout. -/
abbrev Stage := Option

inductive ProcIndex
  | done
  | timeout
  | replayError (message : Text)
deriving DecidableEq

/-- A subject to taint and how its replay ends. -/
structure Victim where
  logdir : Option Text
  replay : Stage Unit

structure Outcomes where
  reachability : Stage Unit
  procIndex : ProcIndex
  subjects : Stage (List Victim)
  resetTagOverlay : Stage Unit
  getOverlay : Stage Unit
  publishOverlay : Stage Unit

abbrev Run := Logging Raised Status

def stage {A : Type} : Stage A → Run A
  | some a => pure a
  | none => throw .jobTimeout

def procIndex : ProcIndex → Run Unit
  | .done => pure ()
  | .timeout => throw .jobTimeout
  | .replayError message => throw (.replayError message)

def updateStatus (s : Status) : Run Unit := write s

/-- `prepare_replay`. The inner `Option` is the subjects of an early return. -/
def prepareReplay (o : Outcomes) : Run (List Victim) := do
  let early ← tryCatch (do procIndex o.procIndex; return none) fun e ↦
    match e with
    | .replayError message => do
      updateStatus (.error message)
      return some []
    | .jobTimeout => throw e
  match early with
  | some subjects => return subjects
  | none =>
    let subjects ← stage o.subjects
    stage o.resetTagOverlay
    return subjects

/-- `create_victim`, which kills the victim and raises the timeout again. -/
def createVictim (v : Victim) : Run Unit :=
  tryCatch (stage v.replay) fun e ↦
    match e with
    | .jobTimeout => throw .jobTimeout
    | .replayError _ => throw e

/-- Whether Python takes the log directory for true. -/
def Victim.hasLogdir (v : Victim) : Bool :=
  match v.logdir with
  | some dir => dir ≠ []
  | none => false

def replaySubjects : List Victim → Run Unit
  | [] => pure ()
  | v :: vs => do
    if v.hasLogdir then createVictim v
    replaySubjects vs

/-- The body of the second `try` statement. -/
def replayAndTaint (o : Outcomes) : Run Unit := do
  updateStatus .preparingReplay
  let subjects ← prepareReplay o
  updateStatus .replaying
  replaySubjects subjects
  stage o.getOverlay
  stage o.publishOverlay

/-- `try: ... except timeouts.JobTimeoutException: update_status(...); return`, where
the result says whether the function goes on. -/
def orTimeout (s : Status) (body : Run Unit) : Run Bool :=
  tryCatch (do body; return true) fun e ↦
    match e with
    | .jobTimeout => do
      updateStatus s
      return false
    | .replayError _ => throw e

def handleQuery (o : Outcomes) : Run Unit := do
  updateStatus .reachabilityAnalysis
  if ← orTimeout .reachabilityTimeout (stage o.reachability) then
    if ← orTimeout .taintTimeout (replayAndTaint o) then
      updateStatus .finished

/-- The statuses a run writes, in their order. -/
def statuses (o : Outcomes) : List Status := (exec (handleQuery o) []).2

/-- Every stage ran to its end. -/
structure Outcomes.AllDone (o : Outcomes) : Prop where
  reachability : o.reachability.isSome
  procIndex : o.procIndex = .done
  replays : ∃ vs, o.subjects = some vs ∧ ∀ v ∈ vs, v.hasLogdir → v.replay.isSome
  resetTagOverlay : o.resetTagOverlay.isSome
  getOverlay : o.getOverlay.isSome
  publishOverlay : o.publishOverlay.isSome

/-- `Finished.` is last only after a complete run, and nothing is written over a failure. -/
structure Truthful (o : Outcomes) : Prop where
  finished : (statuses o).getLast? = some .finished → o.AllDone
  kept : ∀ before s after, statuses o = before ++ s :: after → s.IsFailure → after = []

open Status (reachabilityAnalysis reachabilityTimeout preparingReplay replaying taintTimeout
  finished)

section Exec

variable {A : Type} {o : Outcomes} {log : List Status}

theorem exec_stage_none : exec (stage (none : Stage A)) log = (.error .jobTimeout, log) := rfl

theorem exec_stage_some (a : A) : exec (stage (some a)) log = (.ok a, log) := rfl

theorem exec_updateStatus (s : Status) : exec (updateStatus s) log = (.ok (), log ++ [s]) := rfl

theorem exec_createVictim (v : Victim) : exec (createVictim v) log = exec (stage v.replay) log := by
  rw [createVictim]
  cases hreplay : v.replay with
  | none => exact exec_tryCatch_of_error exec_stage_none
  | some u => exact exec_tryCatch_of_ok (exec_stage_some u)

theorem exec_replaySubjects (vs : List Victim) (log : List Status) :
    exec (replaySubjects vs) log =
      (if ∀ v ∈ vs, v.hasLogdir → v.replay.isSome then .ok () else .error .jobTimeout, log) := by
  induction vs with
  | nil => simp [replaySubjects]
  | cons v vs ih =>
    rw [replaySubjects]
    cases hlogdir : v.hasLogdir with
    | false =>
      rw [if_neg Bool.false_ne_true]
      simp only [ih, List.forall_mem_cons, hlogdir, Bool.false_eq_true, false_implies, true_and]
    | true =>
      rw [if_pos rfl]
      cases hreplay : v.replay with
      | none =>
        have hvictim : exec (createVictim v) log = (.error .jobTimeout, log) := by
          rw [exec_createVictim, hreplay, exec_stage_none]
        rw [exec_bind_of_error hvictim]
        simp [hlogdir, hreplay]
      | some u =>
        have hvictim : exec (createVictim v) log = (.ok u, log) := by
          rw [exec_createVictim, hreplay, exec_stage_some]
        rw [exec_bind_of_ok hvictim]
        simp [ih, hlogdir, hreplay]

theorem exec_prepareReplay_timeout (h : o.procIndex = .timeout) (log : List Status) :
    exec (prepareReplay o) log = (.error .jobTimeout, log) := by
  rw [prepareReplay, h]
  exact exec_bind_of_error (exec_tryCatch_of_error rfl)

theorem exec_prepareReplay_error {message : Text} (h : o.procIndex = .replayError message)
    (log : List Status) :
    exec (prepareReplay o) log = (.ok [], log ++ [Status.error message]) := by
  rw [prepareReplay, h]
  exact exec_bind_of_ok (show exec _ log = (.ok (some []), log ++ [Status.error message]) from
    exec_tryCatch_of_error rfl)

theorem exec_prepareReplay_done (h : o.procIndex = .done) (log : List Status) :
    exec (prepareReplay o) log = exec (do
      let subjects ← stage o.subjects
      stage o.resetTagOverlay
      return subjects) log := by
  rw [prepareReplay, h]
  exact exec_bind_of_ok (show exec _ log = (.ok none, log) from exec_tryCatch_of_ok rfl)

def overlayDone (o : Outcomes) : Prop := o.getOverlay.isSome ∧ o.publishOverlay.isSome

instance (o : Outcomes) : Decidable (overlayDone o) := inferInstanceAs (Decidable (_ ∧ _))

theorem exec_overlay :
    exec (do stage o.getOverlay; stage o.publishOverlay) log =
      (if overlayDone o then .ok () else .error .jobTimeout, log) := by
  cases hget : o.getOverlay with
  | none =>
    rw [exec_bind_of_error exec_stage_none]
    simp [overlayDone, hget]
  | some u =>
    rw [exec_bind_of_ok (exec_stage_some u)]
    cases hpublish : o.publishOverlay with
    | none => simp [overlayDone, hpublish, exec_stage_none]
    | some w => simp [overlayDone, hget, hpublish, exec_stage_some]

theorem exec_replayAndTaint_of_subjects {vs : List Victim} (written : List Status)
    (h : exec (prepareReplay o) (log ++ [preparingReplay]) =
      (.ok vs, log ++ [preparingReplay] ++ written)) :
    exec (replayAndTaint o) log =
      (if (∀ v ∈ vs, v.hasLogdir → v.replay.isSome) ∧ overlayDone o then .ok ()
        else .error .jobTimeout, log ++ [preparingReplay] ++ written ++ [replaying]) := by
  rw [replayAndTaint, exec_bind_of_ok (exec_updateStatus _), exec_bind_of_ok h,
    exec_bind_of_ok (exec_updateStatus _)]
  have hsubjects := exec_replaySubjects vs (log ++ [preparingReplay] ++ written ++ [replaying])
  by_cases hreplays : ∀ v ∈ vs, v.hasLogdir → v.replay.isSome
  · rw [if_pos hreplays] at hsubjects
    rw [exec_bind_of_ok hsubjects, exec_overlay]
    simp only [and_iff_right hreplays]
  · rw [if_neg hreplays] at hsubjects
    rw [exec_bind_of_error hsubjects, if_neg (fun h ↦ hreplays h.1)]

theorem exec_replayAndTaint_of_timeout
    (h : exec (prepareReplay o) (log ++ [preparingReplay]) =
      (.error .jobTimeout, log ++ [preparingReplay])) :
    exec (replayAndTaint o) log = (.error .jobTimeout, log ++ [preparingReplay]) := by
  rw [replayAndTaint, exec_bind_of_ok (exec_updateStatus _), exec_bind_of_error h]

theorem exec_orTimeout_of_ok {s : Status} {body : Run Unit} {log' : List Status}
    (h : exec body log = (.ok (), log')) : exec (orTimeout s body) log = (.ok true, log') := by
  rw [orTimeout]
  exact exec_tryCatch_of_ok (exec_bind_of_ok h)

theorem exec_orTimeout_of_timeout {s : Status} {body : Run Unit} {log' : List Status}
    (h : exec body log = (.error .jobTimeout, log')) :
    exec (orTimeout s body) log = (.ok false, log' ++ [s]) := by
  rw [orTimeout, exec_tryCatch_of_error (exec_bind_of_error h)]
  rfl

theorem statuses_of_reachability_timeout (h : o.reachability = none) :
    statuses o = [reachabilityAnalysis, reachabilityTimeout] := by
  have hreach : exec (orTimeout reachabilityTimeout (stage o.reachability))
      [reachabilityAnalysis] = (.ok false, [reachabilityAnalysis, reachabilityTimeout]) := by
    rw [h]
    exact exec_orTimeout_of_timeout exec_stage_none
  rw [statuses, handleQuery, exec_bind_of_ok (exec_updateStatus _), List.nil_append]
  rw [exec_bind_of_ok hreach]
  rfl

/-- The last status tells how the second `try` statement ended. -/
theorem statuses_of_reachable (h : o.reachability.isSome) (ends : Bool) {written : List Status}
    (hbody : exec (replayAndTaint o) [reachabilityAnalysis] =
      (if ends then .ok () else .error .jobTimeout, reachabilityAnalysis :: written)) :
    statuses o =
      reachabilityAnalysis :: written ++ [if ends then finished else taintTimeout] := by
  obtain ⟨u, hu⟩ := Option.isSome_iff_exists.1 h
  have hreach : exec (orTimeout reachabilityTimeout (stage o.reachability))
      [reachabilityAnalysis] = (.ok true, [reachabilityAnalysis]) := by
    rw [hu]
    exact exec_orTimeout_of_ok (exec_stage_some u)
  rw [statuses, handleQuery, exec_bind_of_ok (exec_updateStatus _), List.nil_append]
  rw [exec_bind_of_ok hreach, if_pos rfl]
  cases ends with
  | false =>
    rw [exec_bind_of_ok (exec_orTimeout_of_timeout hbody)]
    rfl
  | true =>
    rw [exec_bind_of_ok (exec_orTimeout_of_ok hbody)]
    rfl

theorem statuses_of_no_error (h : o.reachability.isSome)
    (hindex : ∀ message, o.procIndex ≠ .replayError message) :
    (∃ written ⊆ [preparingReplay, replaying],
      statuses o = reachabilityAnalysis :: written ++ [taintTimeout]) ∨
      statuses o = [reachabilityAnalysis, preparingReplay, replaying, finished] ∧ o.AllDone := by
  cases hproc : o.procIndex with
  | replayError message => exact absurd hproc (hindex message)
  | timeout =>
    have hprepare := exec_prepareReplay_timeout hproc ([reachabilityAnalysis] ++ [preparingReplay])
    have hbody := exec_replayAndTaint_of_timeout hprepare
    exact .inl ⟨[preparingReplay], by simp, statuses_of_reachable h false hbody⟩
  | done =>
    have hprepare := exec_prepareReplay_done hproc ([reachabilityAnalysis] ++ [preparingReplay])
    cases hsubjects : o.subjects with
    | none =>
      rw [hsubjects, exec_bind_of_error exec_stage_none] at hprepare
      have hbody := exec_replayAndTaint_of_timeout hprepare
      exact .inl ⟨[preparingReplay], by simp, statuses_of_reachable h false hbody⟩
    | some vs =>
      rw [hsubjects, exec_bind_of_ok (exec_stage_some vs)] at hprepare
      cases hreset : o.resetTagOverlay with
      | none =>
        rw [hreset, exec_bind_of_error exec_stage_none] at hprepare
        have hbody := exec_replayAndTaint_of_timeout hprepare
        exact .inl ⟨[preparingReplay], by simp, statuses_of_reachable h false hbody⟩
      | some u =>
        rw [hreset, exec_bind_of_ok (exec_stage_some u)] at hprepare
        have hbody := exec_replayAndTaint_of_subjects [] hprepare
        by_cases hall : (∀ v ∈ vs, v.hasLogdir → v.replay.isSome) ∧ overlayDone o
        · rw [if_pos hall] at hbody
          refine .inr ⟨statuses_of_reachable h true hbody, ?_⟩
          exact ⟨h, hproc, ⟨vs, hsubjects, hall.1⟩, by simp [hreset], hall.2.1, hall.2.2⟩
        · rw [if_neg hall] at hbody
          exact .inl ⟨[preparingReplay, replaying], by simp,
            statuses_of_reachable h false hbody⟩

/-- After a `ReplayError` the run goes on with no subjects. -/
theorem statuses_of_error (h : o.reachability.isSome) {message : Text}
    (hindex : o.procIndex = .replayError message) :
    statuses o = [reachabilityAnalysis, preparingReplay, Status.error message, replaying] ++
      [if overlayDone o then finished else taintTimeout] := by
  have hprepare := exec_prepareReplay_error hindex ([reachabilityAnalysis] ++ [preparingReplay])
  have hbody := exec_replayAndTaint_of_subjects [Status.error message] hprepare
  simp only [List.not_mem_nil, false_implies, implies_true, true_and] at hbody
  by_cases hoverlay : overlayDone o
  · rw [if_pos hoverlay] at hbody ⊢
    exact statuses_of_reachable h true hbody
  · rw [if_neg hoverlay] at hbody ⊢
    exact statuses_of_reachable h false hbody

end Exec

theorem after_eq_nil_of_last {ss : List Status} {last : Status} (h : ∀ s ∈ ss, ¬ s.IsFailure)
    {before after : List Status} {s : Status} (heq : ss ++ [last] = before ++ s :: after)
    (hs : s.IsFailure) : after = [] := by
  rcases List.eq_nil_or_concat after with hnil | ⟨init, x, rfl⟩
  · exact hnil
  · rw [List.concat_eq_append, ← List.cons_append, ← List.append_assoc] at heq
    obtain ⟨hss, -⟩ := List.append_inj' heq rfl
    exact absurd hs (h s (by simp [hss]))

theorem not_isFailure_of_mem {written : List Status}
    (h : written ⊆ [preparingReplay, replaying]) :
    ∀ s ∈ reachabilityAnalysis :: written, ¬ s.IsFailure := by
  intro s hs hfailure
  rcases List.mem_cons.1 hs with rfl | hs
  · exact hfailure
  · rcases List.mem_pair.1 (h hs) with rfl | rfl <;> exact hfailure

/-- A run that writes no failure before its last status is truthful, if only a complete run
ends in `Finished.`. -/
theorem truthful_of_statuses {o : Outcomes} {written : List Status} {last : Status}
    (hsub : written ⊆ [preparingReplay, replaying])
    (h : statuses o = reachabilityAnalysis :: written ++ [last])
    (hdone : last = finished → o.AllDone) : Truthful o := by
  refine ⟨fun hlast ↦ ?_, fun before s after heq hs ↦ ?_⟩
  · rw [h, List.getLast?_concat, Option.some.injEq] at hlast
    exact hdone hlast
  · rw [h] at heq
    exact after_eq_nil_of_last (not_isFailure_of_mem hsub) heq hs

/-- A run is truthful exactly when it stops before the index is built or the index
does not fail. -/
theorem truthful_iff (o : Outcomes) :
    Truthful o ↔ o.reachability = none ∨ ∀ message, o.procIndex ≠ .replayError message := by
  constructor
  · intro h
    by_contra hnot
    obtain ⟨hreach, hindex⟩ := not_or.1 hnot
    obtain ⟨message, hmessage⟩ := not_forall_not.1 hindex
    have hstatuses := statuses_of_error (Option.isSome_iff_ne_none.2 hreach) hmessage
    have hafter := h.kept [reachabilityAnalysis, preparingReplay] (Status.error message) _ hstatuses
      trivial
    exact absurd hafter (List.cons_ne_nil _ _)
  · intro h
    cases hreach : o.reachability with
    | none =>
      have hstatuses := statuses_of_reachability_timeout hreach
      exact truthful_of_statuses (List.nil_subset _) hstatuses nofun
    | some u =>
      have hindex := h.resolve_left (by simp [hreach])
      rcases statuses_of_no_error (by simp [hreach]) hindex with ⟨written, hsub, hstatuses⟩ | hdone
      · exact truthful_of_statuses hsub hstatuses nofun
      · obtain ⟨hstatuses, hall⟩ := hdone
        exact truthful_of_statuses (List.Subset.refl _) hstatuses fun _ ↦ hall

/-- The index fails and the rest goes well. -/
def failedIndex : Outcomes where
  reachability := some ()
  procIndex := .replayError "Error: Bad Checkpoint for rec_1/ckpt".toList
  subjects := some []
  resetTagOverlay := some ()
  getOverlay := some ()
  publishOverlay := some ()

theorem error_is_overwritten : ¬ Truthful failedIndex := by
  intro h
  have hlast : (statuses failedIndex).getLast? = some finished := by decide
  have hdone := h.finished hlast
  exact absurd hdone.procIndex (by decide)

end TheiaTaint.Server.QueryStatus
