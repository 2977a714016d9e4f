/- What statements each operation issues, for any set of statements that takes in
the routine ones. -/
import Uta.Tasks.Daemon

namespace Uta.Tasks
open Uta.Lib

/-- The types of the events at the turning points of a task. -/
def markedEvents : List String := ["task_terminal", "task_failed", "task_preempted"]

/-- The statements that neither add an event nor write a named column of a task. -/
def Plain : Stmt → Prop
  | .addEvent _ | .updateRepoTask .. | .finishTask .. => False
  | _ => True

section Programs
variable {K : Type} {ok : K → Stmt → Prop} {learn : K → (s : Stmt) → s.Answer → K}

/-- The routine statements are allowed whatever is known. -/
class Routine (ok : K → Stmt → Prop) : Prop where
  plain : ∀ {s}, Plain s → ∀ k, ok k s
  event : ∀ {e : EventArgs}, e.eventType ∉ markedEvents → ∀ k, ok k (.addEvent e)
  update : ∀ taskId {patch : TaskPatch}, (∀ s ∈ patch.status, ¬ s.Terminal) →
    ∀ k, ok k (.updateRepoTask taskId patch)

/-- So are those that close a task, unless it has failed or is poisoned. -/
class Ending (ok : K → Stmt → Prop) : Prop extends Routine ok where
  settle : ∀ taskId {patch : TaskPatch}, patch.status ≠ some .poisoned →
    ∀ k, ok k (.updateRepoTask taskId patch)
  finish : ∀ taskId {args : FinishArgs}, args.status ≠ .poisoned →
    (∀ t ∈ args.summaryEventTypes, t ∉ markedEvents) → ∀ k, ok k (.finishTask taskId args)

/-- So are those of a failure. -/
class Failing (ok : K → Stmt → Prop) : Prop extends Ending ok where
  failed : ∀ {e : EventArgs}, e.eventType = "task_failed" → ∀ k, ok k (.addEvent e)
  store : ∀ taskId patch k, ok k (.updateRepoTask taskId patch)
  close : ∀ taskId {args : FinishArgs}, args.summaryEventTypes = ["task_failed"] ∨
    args.summaryEventTypes = ["task_failed", "task_poisoned"] → ∀ k, ok k (.finishTask taskId args)

theorem safe_update_of {taskId : ℕ} {patch : TaskPatch}
    (allowed : ∀ k, ok k (.updateRepoTask taskId patch)) :
    (updateRepoTask taskId patch).Safe ok learn := by
  intro k
  refine ⟨allowed k, fun answer => ?_⟩
  cases answer with
  | ok _ => trivial
  | error e => trivial

theorem guarded_finish {taskId : ℕ} {args : FinishArgs} {k : K} (allowed : ok k (.finishTask taskId args)) :
    (finishTask taskId args).Guarded ok learn k := by
  refine ⟨allowed, fun answer => ?_⟩
  cases answer with
  | ok _ => trivial
  | error e => trivial

section Routine
variable [Routine ok]

theorem safe_ask {s : Stmt} (plain : Plain s) : (ask s).Safe ok learn :=
  Prog.safe_perform (Routine.plain plain)

theorem safe_map {s : Stmt} {β : Type} (f : s.Answer → β) (plain : Plain s) :
    (f <$> ask s).Safe ok learn :=
  fun k => ⟨Routine.plain plain k, fun _ => trivial⟩

theorem safe_event {e : EventArgs} (other : e.eventType ∉ markedEvents) : (addEvent e).Safe ok learn :=
  Prog.safe_perform (Routine.event other)

theorem safe_update (taskId : ℕ) {patch : TaskPatch} (opens : ∀ s ∈ patch.status, ¬ s.Terminal) :
    (updateRepoTask taskId patch).Safe ok learn :=
  safe_update_of (Routine.update taskId opens)

theorem safe_requeueClasses (taskId : ℕ) (detail : Option String) (statuses : List ClassStatus) :
    (requeueClasses taskId detail statuses).Safe ok learn := by
  refine .bind (safe_ask trivial) fun rows => Prog.safe_forM _ fun row _ => ?_
  split
  · exact safe_ask trivial
  · exact fun _ => trivial

theorem safe_resumeTask (taskId : ℕ) (failed all : Bool) : (resumeTask taskId failed all).Safe ok learn := by
  refine .bind (safe_ask trivial) fun found => ?_
  cases found with
  | none => exact fun _ => trivial
  | some row =>
      dsimp only
      split
      · exact fun _ => trivial
      · split
        · exact .bind (safe_event (by simp [markedEvents])) fun _ _ => trivial
        · refine .bind (safe_update _ nofun) fun _ => ?_
          refine .bind (safe_ask trivial) fun _ => ?_
          refine .bind (safe_requeueClasses _ _ _) fun _ => ?_
          exact safe_event (by simp [markedEvents])

theorem safe_resumePreemptedTasks (urgentTaskId : ℕ) :
    (resumePreemptedTasks urgentTaskId).Safe ok learn := by
  refine .bind (safe_ask trivial) fun rows => Prog.safe_forM _ fun row _ => ?_
  split
  · exact fun _ => trivial
  · refine .bind (safe_ask trivial) fun found => ?_
    cases found with
    | none => exact fun _ => trivial
    | some task =>
        dsimp only
        split
        · exact fun _ => trivial
        · exact .bind (safe_resumeTask _ _ _) fun _ => safe_event (by simp [markedEvents])

theorem safe_markRunning (taskId : ℕ) (stage : String) (detail : Option String) :
    (markRunning taskId stage detail).Safe ok learn := by
  refine .bind (safe_ask trivial) fun row => ?_
  have runs : ∀ startedAt : TaskProg Time, startedAt.Safe ok learn →
      (startedAt >>= fun t => updateRepoTask taskId
          { status := some .running, currentStage := some (some stage), currentDetail := some detail,
            startedAt := some (some t), finishedAt := some none, lastError := some none,
            error := some none } >>= fun _ =>
        addEvent { taskId, eventType := "task_running", message := textOr detail "Task running",
                   stage := some stage }).Safe ok learn := by
    intro startedAt only
    exact .bind only fun _ => .bind (safe_update _ nofun) fun _ => safe_event (by simp [markedEvents])
  dsimp only
  split
  · exact runs (pure _) fun _ => trivial
  · have reads : (nowIso <$> ask .clock : TaskProg Time).Safe ok learn := 
      fun k => ⟨Routine.plain (s := .clock) trivial k, fun _ => trivial⟩
    exact runs _ reads

theorem safe_stopTask (taskId : ℕ) (reason : Option String) : (stopTask taskId reason).Safe ok learn := by
  refine .bind (safe_ask trivial) fun _ => ?_
  refine .bind (safe_ask trivial) fun _ => ?_
  exact .bind (safe_update _ nofun) fun _ => safe_event (by simp [markedEvents])

theorem safe_markStopped (taskId : ℕ) (reason : Option String) (stage : String) :
    (markStopped taskId reason stage).Safe ok learn := by
  refine .bind (safe_ask trivial) fun _ => ?_
  refine .bind (safe_ask trivial) fun _ => ?_
  exact .bind (safe_update _ nofun) fun _ => safe_event (by simp [markedEvents])

theorem safe_unblock (taskId : ℕ) : (unblock taskId).Safe ok learn := by
  refine .bind (safe_ask trivial) fun found => ?_
  cases found with
  | none => exact fun _ => trivial
  | some task =>
      dsimp only
      split
      · exact fun _ => trivial
      · split
        · exact fun _ => trivial
        · refine .bind (safe_update _ nofun) fun _ => ?_
          exact .bind (safe_ask trivial) fun _ => safe_event (by simp [markedEvents])

theorem safe_syncClass (taskId : ℕ) (result : ClassResult) :
    (syncClass taskId result).Safe ok learn := by
  refine .bind (safe_ask trivial) fun found => ?_
  cases found with
  | none => exact fun _ => trivial
  | some row =>
      refine .bind (safe_ask trivial) fun _ => ?_
      exact .bind (safe_ask trivial) fun _ => safe_event (by simp [markedEvents])

theorem safe_acquireNext (runnerId : String) (args : AcquireArgs) (idle : Bool) :
    (acquireNext runnerId args idle).Safe ok learn := by
  intro k
  have plain : Plain (.acquireNextTask runnerId args) := trivial
  refine ⟨Routine.plain plain k, fun answer => ?_⟩
  rcases answer with e | _ | task
  · trivial
  · dsimp only
    split
    · have beats : (heartbeat runnerId none .idle "no queued task").Safe ok learn := safe_ask trivial
      exact (beats _).bind fun _ _ => trivial
    · trivial
  · refine Prog.Guarded.bind (safe_event (by simp [markedEvents]) _) fun _ => ?_
    exact .bind (safe_ask trivial) fun _ _ => trivial

theorem safe_queueRetry (runnerId : String) (taskId retryCount backoffSeconds : ℕ) :
    (queueRetry runnerId taskId retryCount backoffSeconds).Safe ok learn := by
  refine .bind (safe_update _ nofun) fun _ => .bind (safe_event (by simp [markedEvents])) fun _ => ?_
  exact .bind (safe_ask trivial) fun _ => safe_ask trivial

theorem safe_recoverOrphans (staleAfter : Time) (runnerId : String) (liveTaskIds : List ℕ) :
    (recoverOrphans staleAfter runnerId liveTaskIds).Safe ok learn := by
  refine .bind (safe_ask trivial) fun memory => ?_
  refine .bind (safe_ask trivial) fun now => ?_
  refine .bind (safe_ask trivial) fun rows => Prog.safe_forM _ fun task _ => ?_
  split
  · exact fun _ => trivial
  · refine .bind (safe_ask trivial) fun beat => ?_
    split
    · exact fun _ => trivial
    · refine .bind (safe_update _ nofun) fun _ => .bind (safe_requeueClasses _ _ _) fun _ => ?_
      exact safe_event (by simp [markedEvents])

theorem safe_beat (runnerId : String) (interval : Time) : (beat runnerId interval).Safe ok learn := by
  refine .bind (safe_ask trivial) fun now => .bind (safe_ask trivial) fun memory => ?_
  refine .bind (Prog.safe_forM _ fun slot _ => ?_) fun _ => ?_
  · split
    · exact .bind (safe_ask trivial) fun _ => safe_ask trivial
    · exact fun _ => trivial
  · split
    · exact .bind (safe_ask trivial) fun _ => safe_ask trivial
    · exact fun _ => trivial

theorem safe_exitDaemon (runnerId : String) (ended : List ℕ) : (exitDaemon runnerId ended).Safe ok learn := by
  refine .bind (safe_ask trivial) fun memory => ?_
  refine .bind (Prog.safe_forM _ fun slot _ => ?_) fun _ => safe_ask trivial
  split
  · exact fun _ => trivial
  · refine .bind (safe_ask trivial) fun _ => Prog.safe_forM _ fun taskId _ => ?_
    refine .bind (safe_ask trivial) fun found => ?_
    cases found with
    | none => exact fun _ => trivial
    | some task =>
        dsimp only
        split
        · exact fun _ => trivial
        · refine .bind (safe_update _ nofun) fun _ => .bind (safe_requeueClasses _ _ _) fun _ => ?_
          exact safe_event (by simp [markedEvents])

theorem safe_preempt (preempted : ∀ {e : EventArgs}, e.eventType = "task_preempted" → ∀ k, ok k (.addEvent e))
    (urgentTaskId : ℕ) : 
    (preemptRunningSameRepoForUrgent urgentTaskId).Safe ok learn := by
  refine .bind (safe_ask trivial) fun found => ?_
  cases found with
  | none => exact fun _ => trivial
  | some urgent =>
      refine .bind (safe_ask trivial) fun ids => Prog.safe_forM _ fun preemptedId _ => ?_
      refine .bind (safe_stopTask _ _) fun _ => ?_
      exact .bind (Prog.safe_perform (preempted rfl)) fun _ => safe_event (by simp [markedEvents])

/-- The calls that may close a task. -/
def Call.Closing : Call → Prop
  | .cancel .. | .markFailed .. | .markCompleted .. | .markPoisoned .. | .markBudgetExceeded ..
  | .syncResults .. | .recordPushVerified .. | .recordPushFailed .. | .reap .. | .promote ..
  | .acquire .. => True
  | _ => False

/-- The other calls are safe if a preemption is. -/
theorem safe_open {settings : Settings} {c : Call}
    (preempts : ∀ urgentTaskId, c = .preempt urgentTaskId →
      (preemptRunningSameRepoForUrgent urgentTaskId).Safe ok learn)
    (opens : ¬ c.Closing) : (c.body settings).Safe ok learn := by
  cases c with
  | create repoPath priority engineBlocker classFqns =>
      refine .bind (safe_ask trivial) fun taskId => ?_
      exact Prog.safe_forM _ fun classFqn _ => safe_ask trivial
  | start taskId => 
      exact .bind (safe_update _ nofun) fun _ => safe_event (by simp [markedEvents])
  | startNext runnerId includeFailed => exact .bind (safe_acquireNext _ _ _) fun _ _ => trivial
  | stop taskId reason => exact safe_stopTask taskId reason
  | resume taskId failed all => exact safe_resumeTask taskId failed all
  | unblock taskId => exact safe_unblock taskId
  | cleanRerun taskId args =>
      refine fun k => ⟨Routine.plain (s := .cleanRerun taskId args) trivial k, fun answer => ?_⟩
      cases answer with
      | ok _ => trivial
      | error e => trivial
  | reprioritize taskId priority => 
      exact .bind (safe_update _ nofun) fun _ => safe_event (by simp [markedEvents])
  | preempt urgentTaskId => exact preempts urgentTaskId rfl
  | markRunning taskId stage detail => exact safe_markRunning taskId stage detail
  | markStopped taskId reason stage => exact safe_markStopped taskId reason stage
  | recover runnerId liveTaskIds => exact safe_recoverOrphans _ runnerId liveTaskIds
  | beat runnerId options => exact safe_beat runnerId _
  | exit runnerId ended => exact safe_exitDaemon runnerId ended
  | pass microseconds => exact safe_ask trivial
  | die runnerId => exact safe_ask trivial
  | _ => exact absurd trivial opens

end Routine

section Ending
variable [Ending ok]

theorem safe_settle (taskId : ℕ) {patch : TaskPatch} (other : patch.status ≠ some .poisoned) :
    (updateRepoTask taskId patch).Safe ok learn :=
  safe_update_of (Ending.settle taskId other)

theorem safe_finish (taskId : ℕ) {args : FinishArgs} (other : args.status ≠ .poisoned)
    (unmarked : ∀ t ∈ args.summaryEventTypes, t ∉ markedEvents) :
    (finishTask taskId args).Safe ok learn :=
  fun k => guarded_finish (Ending.finish taskId other unmarked k)

theorem safe_cancelTask (taskId : ℕ) (reason : Option String) :
    (cancelTask taskId reason).Safe ok learn := by
  refine .bind (safe_ask trivial) fun _ => ?_
  refine .bind (safe_ask trivial) fun rows => ?_
  refine .bind (Prog.safe_forM _ fun row _ => ?_) fun _ => safe_finish _ nofun (by simp [markedEvents])
  split
  · exact .bind (safe_ask trivial) fun _ => safe_ask trivial
  · exact fun _ => trivial

theorem safe_markCompleted (taskId : ℕ) (message : String) : (markCompleted taskId message).Safe ok learn :=
  .bind (safe_finish _ nofun (by simp [markedEvents])) fun _ => safe_resumePreemptedTasks _

theorem safe_markBudgetExceeded (taskId : ℕ) (message : String) :
    (markBudgetExceeded taskId message).Safe ok learn :=
  .bind (safe_finish _ nofun (by simp [markedEvents])) fun _ => safe_resumePreemptedTasks _

theorem safe_recordPushVerified (taskId : ℕ) (branchName localHead : String)
    (remoteHead : Option String) :
    (recordPushVerified taskId branchName localHead remoteHead).Safe ok learn := by
  unfold recordPushVerified
  have records : ∀ patch : TaskPatch, patch.status ≠ some .poisoned → ∀ {e : EventArgs},
      e.eventType ∉ markedEvents →
        (updateRepoTask taskId patch >>= fun _ => addEvent e).Safe ok learn :=
    fun _ alive _ other => .bind (safe_settle taskId alive) fun _ => safe_event other
  refine .bind (safe_ask trivial) fun task => ?_
  split
  · refine .bind (safe_map _ trivial) fun pushFailed => ?_
    refine .bind (safe_ask trivial) fun now => ?_
    split
    · exact .bind (Prog.safe_forM _ fun row _ => safe_ask trivial) fun _ =>
        records _ (by simp) (by simp [markedEvents])
    · exact records _ (by simp) (by simp [markedEvents])
  · refine .bind (fun _ => trivial) fun pushFailed => .bind (safe_ask trivial) fun now => ?_
    split
    · exact .bind (Prog.safe_forM _ fun row _ => safe_ask trivial) fun _ =>
        records _ (by simp) (by simp [markedEvents])
    · exact records _ (by simp) (by simp [markedEvents])

theorem safe_recordPushFailed (taskId : ℕ) (branchName message : String) (classFqns : List String) :
    (recordPushFailed taskId branchName message classFqns).Safe ok learn := by
  refine .bind (Prog.safe_forM _ fun classFqn _ => ?_) fun _ => ?_
  · refine .bind (safe_ask trivial) fun found => ?_
    cases found with
    | none => exact fun _ => trivial
    | some row => exact safe_ask trivial
  · exact .bind (safe_settle _ nofun) fun _ => safe_event (by simp [markedEvents])

section Fails
variable {threshold : ℕ}
  (fails : ∀ taskId message stage, (markFailed threshold taskId message stage).Safe ok learn)
include fails

theorem safe_launch (runnerId : String) (runtimeError : Option String)
    (taskId retryCount : ℕ) : (launch threshold runnerId runtimeError taskId retryCount).Safe ok learn := by
  refine .bind (safe_ask trivial) fun found => ?_
  cases found with
  | none => exact fun _ => trivial
  | some row =>
      cases runtimeError with
      | none => exact safe_ask trivial
      | some message => exact .bind (safe_ask trivial) fun _ => fails _ _ _

theorem safe_settleFailure (runnerId : String) (slot : PoolSlot) (message : String) :
    (settleFailure threshold runnerId slot message).Safe ok learn := by
  unfold settleFailure
  split
  · exact safe_markBudgetExceeded _ _
  · split
    · exact safe_queueRetry _ _ _ _
    · exact fails _ _ _
  · split
    · exact safe_queueRetry _ _ _ _
    · exact fails _ _ _
  · exact fails _ _ _

theorem safe_reapFinished (runnerId : String) (exits : List (ℕ × Int)) :
    (reapFinished threshold runnerId exits).Safe ok learn := by
  refine .bind (safe_ask trivial) fun memory => Prog.safe_forM _ fun slot _ => ?_
  split
  · exact fun _ => trivial
  · refine .bind (safe_ask trivial) fun _ => ?_
    dsimp only
    split
    · exact safe_ask trivial
    · refine .bind (safe_ask trivial) fun row => ?_
      exact .bind (safe_settleFailure fails _ _ _) fun _ => safe_ask trivial

theorem safe_promote (runnerId : String) (maxSlots : ℕ)
    (runtimeErrors : List (ℕ × String)) :
    (promoteReadyRetries threshold runnerId maxSlots runtimeErrors).Safe ok learn := by
  refine .bind (safe_ask trivial) fun now => ?_
  refine .bind (safe_ask trivial) fun memory => Prog.safe_forM _ fun entry _ => ?_
  refine .bind (safe_ask trivial) fun current => ?_
  split
  · exact .bind (safe_ask trivial) fun _ => safe_launch fails _ _ _ _
  · exact fun _ => trivial

theorem safe_acquireAndLaunch (runnerId : String) (options : DaemonOptions)
    (liveTaskIds : List ℕ) (runtimeErrors : List (ℕ × String)) :
    (acquireAndLaunch threshold runnerId options liveTaskIds runtimeErrors).Safe ok learn := by
  refine .bind (safe_ask trivial) fun memory => ?_
  split
  · refine .bind (safe_acquireNext _ _ _) fun task => ?_
    cases task with
    | none => exact fun _ => trivial
    | some task => exact safe_launch fails _ _ _ _
  · exact fun _ => trivial

end Fails

/-- Every call is safe if those are that do more. -/
theorem safe_body {settings : Settings} {c : Call}
    (fails : ∀ taskId message stage,
      (markFailed settings.quarantineThreshold taskId message stage).Safe ok learn)
    (syncs : ∀ taskId results finalError, (syncResults taskId results finalError).Safe ok learn)
    (poisons : ∀ taskId message, (markPoisoned taskId message).Safe ok learn)
    (preempts : ∀ urgentTaskId, c = .preempt urgentTaskId →
      (preemptRunningSameRepoForUrgent urgentTaskId).Safe ok learn) :
    (c.body settings).Safe ok learn := by
  by_cases closing : c.Closing
  · cases c with
    | cancel taskId reason => exact safe_cancelTask taskId reason
    | markFailed taskId message stage => exact fails taskId message stage
    | markCompleted taskId message => exact safe_markCompleted taskId message
    | markPoisoned taskId message => exact poisons taskId message
    | markBudgetExceeded taskId message => exact safe_markBudgetExceeded taskId message
    | syncResults taskId results finalError => exact syncs taskId results finalError
    | recordPushVerified taskId branchName localHead remoteHead =>
        exact safe_recordPushVerified taskId branchName localHead remoteHead
    | recordPushFailed taskId branchName message classFqns =>
        exact safe_recordPushFailed taskId branchName message classFqns
    | reap runnerId exits => exact safe_reapFinished fails runnerId exits
    | promote runnerId options runtimeErrors => exact safe_promote fails runnerId _ runtimeErrors
    | acquire runnerId options liveTaskIds runtimeErrors =>
        exact safe_acquireAndLaunch fails runnerId options liveTaskIds runtimeErrors
    | _ => exact closing.elim
  · exact safe_open preempts closing

end Ending

section Failing
variable [Failing ok]

theorem safe_markFailed (threshold taskId : ℕ) (message stage : String) :
    (markFailed threshold taskId message stage).Safe ok learn := by
  unfold markFailed
  dsimp only
  have closes : ∀ failures : ℕ, (finishTask taskId
      { status := if 0 < threshold ∧ threshold ≤ failures + 1 then .poisoned else .failed
        message := if 0 < threshold ∧ threshold ≤ failures + 1 then
          s!"Auto-quarantined after {threshold} failures. Last: {message}" else message
        stage := if 0 < threshold ∧ threshold ≤ failures + 1 then "quarantined" else stage
        severity := "ERROR"
        taskFields :=
          { lastError := some (some (if 0 < threshold ∧ threshold ≤ failures + 1 then
              s!"Auto-quarantined after {threshold} failures. Last: {message}" else message))
            error := some (some (if 0 < threshold ∧ threshold ≤ failures + 1 then
              s!"Auto-quarantined after {threshold} failures. Last: {message}" else message)) }
        summaryEventTypes := if 0 < threshold ∧ threshold ≤ failures + 1 then
          ["task_failed", "task_poisoned"] else ["task_failed"] }).Safe ok learn := by
    intro failures k
    refine guarded_finish (Failing.close _ ?_ k)
    dsimp only
    split
    · exact .inr rfl
    · exact .inl rfl
  split
  · exact .bind (safe_ask trivial) fun failures => .bind (closes failures) fun _ =>
      safe_resumePreemptedTasks _
  · exact .bind (fun _ => trivial) fun failures => .bind (closes failures) fun _ =>
      safe_resumePreemptedTasks _

theorem safe_syncRepoStatus (taskId : ℕ) (task : Option RepoTask) (finalError : Option String) :
    (syncRepoStatus taskId task finalError).Safe ok learn := by
  refine .bind (safe_ask trivial) fun rows => ?_
  rcases syncedStatus task rows finalError with ⟨status, detail⟩
  refine .bind (safe_ask trivial) fun _ => ?_
  refine .bind (safe_update_of (Failing.store _ _)) fun _ => ?_
  split
  · refine .bind (Prog.safe_perform ?_) fun _ => safe_resumePreemptedTasks _
    split
    · exact Routine.event (by simp [markedEvents])
    · exact Failing.failed rfl
  · exact fun _ => trivial

theorem safe_syncResults (taskId : ℕ) (results : List ClassResult) (finalError : Option String) :
    (syncResults taskId results finalError).Safe ok learn := by
  refine .bind (safe_ask trivial) fun task => ?_
  refine .bind (Prog.safe_forM _ fun result _ => safe_ask trivial) fun _ => ?_
  exact .bind (Prog.safe_forM _ fun result _ => safe_syncClass _ result) fun _ =>
    safe_syncRepoStatus _ _ _

end Failing
end Programs

end Uta.Tasks
