/- The operations that change task state, as the statements they issue one after
the other. -/
import Uta.Tasks.Statements
import Uta.Lib.Interleave

namespace Uta.Tasks
open Uta.Lib

abbrev TaskProg := Prog Stmt Stmt.Answer TaskError

/-! One statement. -/

section Statements

def ask (s : Stmt) : TaskProg s.Answer := .perform s

def getRepoTask (taskId : ℕ) : TaskProg (Option RepoTask) := ask (.getRepoTask taskId)

def updateRepoTask (taskId : ℕ) (patch : TaskPatch) : TaskProg Unit :=
  .stmt (.updateRepoTask taskId patch) fun
    | .ok () => .ret ()
    | .error e => .raise e

def listClassTasks (taskId : ℕ) : TaskProg (List ClassTask) := ask (.listClassTasks taskId)

def findClassTask (taskId : ℕ) (classFqn : String) : TaskProg (Option ClassTask) :=
  ask (.findClassTask taskId classFqn)

def updateClassTask (classId : ℕ) (patch : ClassPatch) : TaskProg Unit :=
  ask (.updateClassTask classId patch)

def addEvent (event : EventArgs) : TaskProg Unit := ask (.addEvent event)

def finishTask (taskId : ℕ) (args : FinishArgs) : TaskProg Unit :=
  .stmt (.finishTask taskId args) fun
    | .ok _ => .ret ()
    | .error e => .raise e

def requestControl (taskId : ℕ) (action : String) (reason : Option String) : TaskProg Unit :=
  ask (.requestControl taskId action reason)

def acknowledgeControls (taskId : ℕ) (action : Option String := none) : TaskProg Unit :=
  ask (.acknowledgeControls taskId action)

def readClock : TaskProg Time := ask .clock

def heartbeat (runnerId : String) (taskId : Option ℕ) (status : HeartbeatStatus) (message : String) :
    TaskProg Unit :=
  ask (.upsertHeartbeat runnerId taskId status (some message))

/-- `text or fallback`. -/
def textOr (text : Option String) (fallback : String) : String :=
  match text with
  | none => fallback
  | some s => if s = "" then fallback else s

end Statements

/-! Requeueing. -/

/-- The update that puts a task back in the queue. -/
def requeuePatch (detail : String) : TaskPatch where
  status := some .queued
  currentStage := some (some "queued")
  currentDetail := some (some detail)
  finishedAt := some none
  stopRequestedAt := some none
  lastError := some none
  error := some none

def requeueClassPatch (detail : Option String) : ClassPatch where
  status := some .queued
  stage := some (some "queued")
  currentStage := some (some "queued")
  currentDetail := detail.map some
  finishedAt := some none
  lastError := some none
  error := some none

/-- Requeue the classes of a task that are in one of the given statuses. -/
def requeueClasses (taskId : ℕ) (detail : Option String) (statuses : List ClassStatus) : TaskProg Unit := do
  (← listClassTasks taskId).forM fun row =>
    if row.status ∈ statuses then updateClassTask row.id (requeueClassPatch detail) else pure ()

/-- `resumable` in `resume_task`. -/
def resumable (forceRerunFailed forceRerunAll : Bool) : List ClassStatus :=
  [.created, .pending, .queued, .running, .stopped] ++
  (if forceRerunFailed then [.fail, .mutationFail, .budgetExceeded, .providerError,
    .providerRateLimited, .pushFailed, .unsafeDiff, .llmStalled] else []) ++
  (if forceRerunAll then [.pass, .fail, .mutationFail, .budgetExceeded, .providerError,
    .providerRateLimited, .pushFailed, .unsafeDiff, .llmStalled, .cancelled] else [])

def resumeTask (taskId : ℕ) (forceRerunFailed : Bool := false) (forceRerunAll : Bool := false) :
    TaskProg Unit := do
  match ← getRepoTask taskId with
  | none => .raise (.notFound s!"Task {taskId} not found")
  | some row =>
    match requireDurableGenerationTask row "be resumed" with
    | .error e => .raise e
    | .ok () =>
      if row.status = .stopRequested then
        addEvent { taskId, eventType := "task_resume_blocked", stage := some "queued",
                   severity := "WARNING",
                   message := "Cannot resume task while stop is still pending: " ++
                     textOr row.currentDetail "stop requested" }
        .raise (.runtime
          s!"Task {taskId} stop is still pending; wait for STOPPED before resuming")
      else
        updateRepoTask taskId
          { requeuePatch "resume requested" with resumeCount := some (row.resumeCount + 1) }
        acknowledgeControls taskId
        requeueClasses taskId none (resumable forceRerunFailed forceRerunAll)
        addEvent { taskId, eventType := "task_resumed", message := "Task resumed and queued",
                   stage := some "queued",
                   payload := [("force_rerun_all", .flag forceRerunAll),
                     ("force_rerun_failed", .flag forceRerunFailed)] }

/-- `int(payload.get("preempted_by_task_id") or 0)`. -/
def preemptedBy (event : TaskEvent) : ℕ :=
  match event.payload.lookup "preempted_by_task_id" with
  | some (.number n) => n
  | _ => 0

def resumePreemptedTasks (urgentTaskId : ℕ) : TaskProg Unit := do
  (← (ask .preemptions : TaskProg (List TaskEvent))).forM fun row =>
    if preemptedBy row ≠ urgentTaskId then pure ()
    else do
      match ← getRepoTask row.repoTaskId with
      | none => pure ()
      | some task =>
        if task.status ≠ .stopped then pure ()
        else do
          resumeTask row.repoTaskId
          addEvent { taskId := urgentTaskId, eventType := "preempted_task_resumed",
                     message := s!"Resumed preempted batch task {row.repoTaskId}",
                     stage := some "finished",
                     payload := [("preempted_task_id", .number row.repoTaskId)] }

/-! State. -/

def startTask (taskId : ℕ) : TaskProg Unit := do
  updateRepoTask taskId
    { status := some .queued, currentStage := some (some "queued"), startedAt := some none,
      finishedAt := some none, lastError := some none, error := some none }
  addEvent { taskId, eventType := "task_queued", message := "Task queued for daemon execution",
             stage := some "queued" }

def markRunning (taskId : ℕ) (stage : String := "startup") (detail : Option String := none) :
    TaskProg Unit := do
  let row ← getRepoTask taskId
  let startedAt ← match row.bind RepoTask.startedAt with
    | some t => pure t
    | none => nowIso <$> readClock
  updateRepoTask taskId
    { status := some .running, currentStage := some (some stage), currentDetail := some detail,
      startedAt := some (some startedAt), finishedAt := some none, lastError := some none,
      error := some none }
  addEvent { taskId, eventType := "task_running", message := textOr detail "Task running",
             stage := some stage }

def stopTask (taskId : ℕ) (reason : Option String := none) : TaskProg Unit := do
  requestControl taskId "stop" reason
  let now ← readClock
  updateRepoTask taskId
    { status := some .stopRequested, stopRequestedAt := some (some (nowIso now)),
      currentDetail := some reason }
  addEvent { taskId, eventType := "task_stopped", message := textOr reason "Stop requested",
             severity := "WARNING" }

def markStopped (taskId : ℕ) (reason : Option String := none) (stage : String := "stopped") :
    TaskProg Unit := do
  acknowledgeControls taskId (some "stop")
  let now ← readClock
  updateRepoTask taskId
    { status := some .stopped, currentStage := some (some stage), currentDetail := some reason,
      finishedAt := some (some (nowIso now)), lastError := some reason, error := some reason }
  addEvent { taskId, eventType := "task_stopped",
             message := textOr reason "Task stopped cooperatively", stage := some stage,
             severity := "WARNING" }

def cancelTask (taskId : ℕ) (reason : Option String := none) : TaskProg Unit := do
  requestControl taskId "cancel" reason
  (← listClassTasks taskId).forM fun row =>
    if row.status ∈ [.created, .pending, .queued, .running, .stopped] then do
      let now ← readClock
      updateClassTask row.id
        { status := some .cancelled, stage := some (some "cancelled"),
          currentStage := some (some "cancelled"), finishedAt := some (some (nowIso now)),
          lastError := some reason, error := some reason }
    else pure ()
  finishTask taskId
    { status := .cancelled, message := textOr reason "Task cancelled", stage := "cancelled",
      severity := "WARNING", summaryEventTypes := ["task_cancelled"] }

def markFailed (quarantineThreshold : ℕ) (taskId : ℕ) (message : String) (stage : String := "failed") :
    TaskProg Unit := do
  let failures ← if 0 < quarantineThreshold then ask (.countTaskFailures taskId) else pure 0
  let poison := 0 < quarantineThreshold ∧ quarantineThreshold ≤ failures + 1
  let terminalMessage := if poison then
    s!"Auto-quarantined after {quarantineThreshold} failures. Last: {message}" else message
  finishTask taskId
    { status := if poison then .poisoned else .failed
      message := terminalMessage
      stage := if poison then "quarantined" else stage
      severity := "ERROR"
      taskFields := { lastError := some (some terminalMessage), error := some (some terminalMessage) }
      summaryEventTypes := if poison then ["task_failed", "task_poisoned"] else ["task_failed"] }
  resumePreemptedTasks taskId

def markCompleted (taskId : ℕ) (message : String := "Task completed") : TaskProg Unit := do
  finishTask taskId
    { status := .completed, message, stage := "finished", summaryEventTypes := ["task_completed"] }
  resumePreemptedTasks taskId

def markPoisoned (taskId : ℕ) (message : String) : TaskProg Unit :=
  finishTask taskId
    { status := .poisoned, message, stage := "quarantined", severity := "ERROR",
      taskFields := { lastError := some (some message), error := some (some message) },
      summaryEventTypes := ["task_poisoned"] }

def markBudgetExceeded (taskId : ℕ) (message : String := "Budget cap exceeded") : TaskProg Unit := do
  finishTask taskId
    { status := .budgetExceeded, message, stage := "budget_exceeded", severity := "ERROR",
      taskFields := { lastError := some (some message), error := some (some message) },
      summaryEventTypes := ["task_budget_exceeded"] }
  resumePreemptedTasks taskId

def unblock (taskId : ℕ) : TaskProg Unit := do
  match ← getRepoTask taskId with
  | none => .raise (.value s!"Task {taskId} not found")
  | some task =>
    match requireDurableGenerationTask task "be unblocked" with
    | .error e => .raise e
    | .ok () =>
      if task.status ∉ [.poisoned, .budgetExceeded, .failed] then
        .raise (.value s!"Task {taskId} has status '{task.status.text}'; only POISONED/BUDGET_EXCEEDED/FAILED can be unblocked")
      else
        updateRepoTask taskId
          { status := some .queued, currentStage := some (some "unblocked"),
            currentDetail := some (some s!"Unblocked from {task.status.text}"),
            finishedAt := some none, error := some none }
        acknowledgeControls taskId
        addEvent { taskId, eventType := "task_unblocked",
                   message := s!"Unblocked from {task.status.text}", stage := some "unblocked" }

def reprioritizeTask (taskId : ℕ) (priority : Int) : TaskProg Unit := do
  updateRepoTask taskId { priority := some priority }
  addEvent { taskId, eventType := "task_reprioritized", message := s!"Priority set to {priority}" }

def cleanRerunGeneration (taskId : ℕ) (args : RerunArgs) : TaskProg Unit :=
  .stmt (.cleanRerun taskId args) fun
    | .ok () => .ret ()
    | .error e => .raise e

def preemptRunningSameRepoForUrgent (urgentTaskId : ℕ) : TaskProg Unit := do
  match ← getRepoTask urgentTaskId with
  | none => .raise (.notFound s!"Task {urgentTaskId} not found")
  | some urgent =>
    let ids ← (ask (.runningSameRepo urgent.repoPath urgentTaskId) : TaskProg (List ℕ))
    ids.forM fun preemptedId => do
      let reason := s!"preempted by urgent RDC repair task {urgentTaskId}"
      let payload := [("preempted_by_task_id", PayloadValue.number urgentTaskId),
        ("preempted_task_id", .number preemptedId)]
      stopTask preemptedId reason
      addEvent { taskId := preemptedId, eventType := "task_preempted", message := reason,
                 stage := some "preempted", severity := "WARNING", payload }
      addEvent { taskId := urgentTaskId, eventType := "task_preempting",
                 message := s!"Requested stop for batch task {preemptedId}",
                 stage := some "preempted", payload }

/-! Recovery. -/

/-- `_is_stale_heartbeat`. -/
def isStaleHeartbeat (h : Heartbeat) (threshold now : Time) : Prop := h.heartbeatAt + threshold ≤ now

instance (h : Heartbeat) (threshold now : Time) : Decidable (isStaleHeartbeat h threshold now) :=
  inferInstanceAs (Decidable (_ ≤ _))

/-- What orphan recovery does to a task it requeues. -/
def requeueOrphan (threshold : Time) (taskId : ℕ) (beat : Option Heartbeat) : TaskProg Unit := do
  let detail := "requeued after stale runner heartbeat"
  updateRepoTask taskId (requeuePatch detail)
  requeueClasses taskId detail [.running]
  addEvent { taskId, eventType := "orphaned_task_requeued", message := detail,
             stage := some "queued", severity := "WARNING",
             payload := [
               ("heartbeat_at", (beat.map fun h => .duration h.heartbeatAt).getD .null),
               ("heartbeat_runner_id", (beat.map fun h => .text h.runnerId).getD .null),
               ("stale_after_seconds", .duration threshold)] }

def requeueOrphanedRunningTasks (activeTaskIds : List ℕ) (staleAfter : Time) : TaskProg Unit := do
  let threshold := max 1000000 staleAfter
  let now ← readClock
  let rows ← (ask .runningTasks : TaskProg (List RepoTask))
  rows.forM fun task =>
    if task.id ∈ activeTaskIds then pure ()
    else do
      let beat ← (ask (.latestRunningHeartbeat task.id) : TaskProg (Option Heartbeat))
      if ∃ h ∈ beat, ¬ isStaleHeartbeat h threshold now then pure ()
      else requeueOrphan threshold task.id beat

def requeueDaemonShutdownTasks (activeTaskIds : List ℕ) (reason : String) : TaskProg Unit :=
  (activeTaskIds.dedup.insertionSort (· ≤ ·)).forM fun taskId => do
    match ← getRepoTask taskId with
    | none => pure ()
    | some task =>
      if task.status ≠ .running then pure ()
      else do
        let detail := s!"requeued after daemon shutdown: {reason}"
        updateRepoTask taskId (requeuePatch detail)
        requeueClasses taskId detail [.running]
        addEvent { taskId, eventType := "daemon_shutdown_requeued", message := detail,
                   stage := some "queued", severity := "WARNING",
                   payload := [("reason", .text reason)] }

/-! Accounting. -/

/-- What a run reports of one class; the status is normalised. -/
structure ClassResult where
  classFqn : String
  status : ClassStatus
  error : Option String := none
  reviewOutcome : Option String := none
  deriving DecidableEq, Repr

/-- A status that a later result does not replace. -/
def ClassStatus.Kept (s : ClassStatus) : Prop := s ∈ [.pushFailed, .unsafeDiff, .budgetExceeded]

instance (s : ClassStatus) : Decidable s.Kept := inferInstanceAs (Decidable (_ ∈ _))

def ClassStatus.Unresolved (s : ClassStatus) : Prop := s ∈ [.created, .pending, .queued, .running, .stopped]

instance (s : ClassStatus) : Decidable s.Unresolved := inferInstanceAs (Decidable (_ ∈ _))

/-- `_all_failures_equivalence_reviewed`. -/
def AllFailuresEquivalenceReviewed (rows : List ClassTask) : Prop :=
  let failures := rows.filter fun r => r.status ≠ .pass
  failures ≠ [] ∧ ∀ r ∈ failures, r.status = .mutationFail ∧ r.reviewOutcome = some "all_equivalent"

instance (rows : List ClassTask) : Decidable (AllFailuresEquivalenceReviewed rows) := by
  unfold AllFailuresEquivalenceReviewed; infer_instance

def AllResolved (rows : List ClassTask) : Prop := rows ≠ [] ∧ ∀ r ∈ rows, ¬ r.status.Unresolved

instance (rows : List ClassTask) : Decidable (AllResolved rows) :=
  inferInstanceAs (Decidable (_ ∧ _))

def AllPassed (rows : List ClassTask) : Prop := rows ≠ [] ∧ ∀ r ∈ rows, r.status = .pass

instance (rows : List ClassTask) : Decidable (AllPassed rows) := inferInstanceAs (Decidable (_ ∧ _))

def HasFailed (rows : List ClassTask) : Prop := ∃ r ∈ rows, r.status.Terminal ∧ r.status ≠ .pass

instance (rows : List ClassTask) : Decidable (HasFailed rows) :=
  inferInstanceAs (Decidable (∃ r ∈ rows, _))

/-- The status and detail that `sync_results` gives the task it read. -/
def syncedStatus (task : Option RepoTask) (rows : List ClassTask) (finalError : Option String) :
    RepoStatus × Option String :=
  let current := (task.map RepoTask.status).getD .running
  let error := textOr finalError ""
  if current = .poisoned ∨ current = .budgetExceeded then
    (current, textOr (task.bind RepoTask.currentDetail) (textOr finalError current.text))
  else if error ≠ "" then (.failed, error)
  else if AllPassed rows then (.completed, "All classes passed")
  else if AllFailuresEquivalenceReviewed rows ∧ AllResolved rows then
    (.completed, "Equivalent-mutant reviews ready for fresh gate rerun")
  else if HasFailed rows ∧ AllResolved rows then (.failed, "One or more classes failed verification")
  else if AllResolved rows then (.failed, "All classes resolved with terminal failures")
  else
    (current, match task with
      | some t => t.currentDetail
      | none => "Class progress updated")

/-- The statuses that `sync_results` closes a task with. -/
def SyncTerminal (s : RepoStatus) : Prop := s ∈ [.completed, .failed, .poisoned, .budgetExceeded]

instance (s : RepoStatus) : Decidable (SyncTerminal s) := inferInstanceAs (Decidable (_ ∈ _))

/-- `_summary_error_message`, over the name and the message of each failure. -/
def summaryErrorMessage (rows : List ClassTask) : Option String :=
  let failures := rows.filterMap fun r =>
    let message := textOr r.error (textOr r.lastError "")
    if message = "" then none
    else some ((textOr r.displayName (textOr (some r.classFqn) "?")).splitOn "." |>.getLastD "",
      " ".intercalate ((message.split PyText.isSpace).toStringList.filter (· ≠ "")))
  match failures with
  | [] => none
  | [(_, message)] => some message
  | _ =>
    let shown := failures.take 4
    let parts := "; ".intercalate
      (shown.map fun (name, message) => s!"{name}: {message.take 160}")
    let more := if shown.length < failures.length then
      s!"; +{failures.length - shown.length} more" else ""
    some s!"{failures.length} classes failed: {parts}{more}"

/-- The last part of `sync_results`: the status of the task, from the row read
at its start and the class rows as they are now. -/
def syncRepoStatus (taskId : ℕ) (task : Option RepoTask) (finalError : Option String) : TaskProg Unit := do
  let rows ← listClassTasks taskId
  let (status, detail) := syncedStatus task rows finalError
  let taskError := if finalError = none ∧ SyncTerminal status then summaryErrorMessage rows
    else finalError
  let now ← readClock
  updateRepoTask taskId
    { status := some status
      currentStage := some (some (if SyncTerminal status then "finished" else "running"))
      currentDetail := some detail
      finishedAt := some (if SyncTerminal status then some (nowIso now) else none)
      lastError := some taskError
      error := some taskError }
  if SyncTerminal status then do
    addEvent { taskId, message := textOr detail "", stage := some "finished"
               eventType := if status = .completed then "task_completed" else "task_failed"
               severity := if status = .completed then "INFO" else "ERROR" }
    resumePreemptedTasks taskId
  else pure ()

def syncClass (taskId : ℕ) (result : ClassResult) : TaskProg Unit := do
  match ← findClassTask taskId result.classFqn with
  | none => pure ()
  | some row =>
    let status := if row.status.Kept then row.status else result.status
    let now ← readClock
    updateClassTask row.id
      { status := some status
        stage := some (some "finished")
        currentStage := some (some "finished")
        currentDetail := some (some status.text)
        finishedAt := some (some (nowIso now))
        lastError := some result.error
        error := some result.error
        reviewOutcome := some result.reviewOutcome }
    addEvent { taskId, classTaskId := row.id, eventType := "stage_completed",
               message := status.text, stage := some "finished",
               payload := [("result_status", .text status.text)] }

def syncResults (taskId : ℕ) (results : List ClassResult) (finalError : Option String) :
    TaskProg Unit := do
  let task ← getRepoTask taskId
  results.forM fun result => ask (.createClassTask taskId result.classFqn 100)
  results.forM (syncClass taskId)
  syncRepoStatus taskId task finalError

def recordPushVerified (taskId : ℕ) (branchName localHead : String) (remoteHead : Option String) :
    TaskProg Unit := do
  let ok := localHead ≠ "" ∧ remoteHead = some localHead
  let remote := remoteHead.getD "None"
  let mismatch := s!"Remote ref mismatch for {branchName}: local={localHead} remote={remote}"
  let task ← getRepoTask taskId
  let pushFailed ← if ok then
      (fun rows => rows.filter fun r : ClassTask => r.status = .pushFailed) <$> listClassTasks taskId
    else pure []
  let now ← readClock
  if ok ∧ (task.map RepoTask.status) = some .failed ∧ pushFailed ≠ [] then do
    pushFailed.forM fun row => updateClassTask row.id
      { status := some .pass, currentStage := some (some "finished"),
        currentDetail := some (some "PUSH_VERIFIED"), error := some none, lastError := some none }
    updateRepoTask taskId
      { status := some .completed, currentStage := some (some "finished"),
        currentDetail := some (some s!"Push verified for {branchName}"), error := some none,
        lastError := some none, finishedAt := some (some (nowIso now)) }
  else if ok then updateRepoTask taskId { error := some none }
  else updateRepoTask taskId { status := some .failed, error := some (some mismatch) }
  addEvent { taskId, eventType := if ok then "push_verified" else "push_failed",
             message := s!"{branchName}: local={localHead} remote={remote}",
             severity := if ok then "INFO" else "ERROR" }

def recordPushFailed (taskId : ℕ) (branchName message : String) (classFqns : List String) :
    TaskProg Unit := do
  classFqns.forM fun classFqn => do
    match ← findClassTask taskId classFqn with
    | none => pure ()
    | some row =>
      updateClassTask row.id
        { status := some .pushFailed, error := some (some message), lastError := some (some message) }
  updateRepoTask taskId
    { status := some .failed, currentStage := some (some "push_failed"),
      currentDetail := some (some message), error := some (some message),
      lastError := some (some message) }
  addEvent { taskId, eventType := "push_failed", message := s!"{branchName}: {message}",
             stage := some "push", severity := "ERROR" }

end Uta.Tasks
