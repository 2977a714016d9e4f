/- The daemon, the phases of its loop, and the call that each process makes. -/
import Uta.Tasks.Lifecycle

namespace Uta.Tasks
open Uta.Lib

/-! Retry policies. -/

inductive RetryPolicy where
  | transient | classFailContinue | internalRetryOnce | budgetAbort
  deriving DecidableEq, Repr

/-- One position of a rule: a character in either case, any but a newline, or a
decimal digit. -/
inductive RulePiece where
  | letter (c : Char) | any | digit
  deriving DecidableEq, Repr

/-- The code point that `re.IGNORECASE` compares. -/
def foldCase (c : Char) : Char :=
  if c.toNat = 0x212a then 'k'
  else if c.toNat = 0x17f then 's'
  else if c.toNat = 0x130 ∨ c.toNat = 0x131 then 'i'
  else c.toLower

def RulePiece.accepts : RulePiece → Char → Bool
  | .letter l, c => foldCase c == l.toLower
  | .any, c => c != '\n'
  | .digit, c => '0' ≤ c && c ≤ '9'

def matchesAt : List RulePiece → List Char → Bool
  | [], _ => true
  | _ :: _, [] => false
  | p :: ps, c :: cs => p.accepts c && matchesAt ps cs

/-- `pattern.search(message)`. -/
def search (pattern : List RulePiece) (message : List Char) : Bool :=
  message.tails.any (matchesAt pattern)

def literal (text : String) : List RulePiece := text.toList.map .letter

/-- `_RULES`, with the alternatives of each pattern written out. -/
def rules : List (List (List RulePiece) × RetryPolicy) := [
  ([literal "429", literal "Too Many Requests", literal "rate" ++ .any :: literal "limit"],
    .transient),
  ([literal "50" ++ .digit :: literal " ", literal "Server Error", literal "Connection reset",
    literal "Connection refused", literal "Connection timed out", literal "Connection time out"],
    .transient),
  ([literal "budget" ++ .any :: literal "exceeded", literal "hard" ++ .any :: literal "cap"],
    .budgetAbort),
  ([literal "Baseline compilation failed"], .classFailContinue),
  ([literal "Unsafe LLM" ++ .any :: literal "authored patch",
    literal "Unsafe LLM" ++ .any :: literal "authored diff", literal "Pre-existing unsafe dir"],
    .classFailContinue),
  ([literal "tree_sitter.Query", literal "TreeSitter"], .internalRetryOnce),
  ([literal "Expecting value: line 1"], .internalRetryOnce),
  ([literal "[Errno 2] No such file"], .internalRetryOnce),
  ([literal "JSON decode", literal "JSONdecode", literal "JSONDecodeError"], .internalRetryOnce)]

def classifyRunError (message : String) : RetryPolicy :=
  match rules.find? fun rule => rule.1.any (search · message.toList) with
  | some rule => rule.2
  | none => .classFailContinue

/-! The daemon. -/

structure Settings where
  quarantineThreshold : ℕ
  staleAfter : Time
  deriving DecidableEq, Repr

/-- The options that one daemon is started with. -/
structure DaemonOptions where
  heartbeatInterval : Time := 15000000
  allowSameRepoConcurrency : Bool := false
  includeFailed : Bool := false
  maxSlots : ℕ := 1
  deriving DecidableEq, Repr

/-- `TaskScheduler.acquire_next`. -/
def acquireNext (runnerId : String) (args : AcquireArgs) (recordIdleHeartbeat : Bool := true) :
    TaskProg (Option RepoTask) :=
  .stmt (.acquireNextTask runnerId args) fun
    | .error e => .raise e
    | .ok (some task) => do
      addEvent { taskId := task.id, eventType := "scheduler_selected",
                 message := s!"Acquired by {runnerId}", stage := some "acquired" }
      heartbeat runnerId (some task.id) .running "task acquired"
      pure (some task)
    | .ok none => do
      if recordIdleHeartbeat then heartbeat runnerId none .idle "no queued task" else pure ()
      pure none

/-- `launch`. The text is that of the `RuntimeError` that the environment of the
task's child raises, if it raises one. -/
def launch (quarantineThreshold : ℕ) (runnerId : String) (runtimeError : Option String)
    (taskId : ℕ) (retryCount : ℕ := 0) : TaskProg Unit := do
  match ← getRepoTask taskId with
  | none => .raise (.notFound s!"Task {taskId} not found")
  | some _ =>
    match runtimeError with
    | some message =>
      ask (.dropWorker runnerId taskId)
      markFailed quarantineThreshold taskId message "runtime_configuration"
    | none => ask (.startWorker runnerId { taskId, retryCount })

def queueRetry (runnerId : String) (taskId retryCount : ℕ) (backoffSeconds : ℕ := 0) :
    TaskProg Unit := do
  updateRepoTask taskId
    { status := some .queued, currentStage := some (some "queued_retry"),
      currentDetail := some (some s!"retry {retryCount} after {backoffSeconds}s backoff") }
  addEvent { taskId, eventType := "task_retry_queued", stage := some "queued_retry",
             message := s!"Retry {retryCount} scheduled after {backoffSeconds}s" }
  let now ← readClock
  ask (.addPendingRetry runnerId
    { taskId, retryAfter := now + backoffSeconds * 1000000, retryCount })

def transientBackoffSeconds : List ℕ := [30, 60, 120]

def transientMaxRetries : ℕ := 3

/-- The choice of `reap_finished` for a worker that failed. -/
def settleFailure (quarantineThreshold : ℕ) (runnerId : String) (slot : PoolSlot)
    (errorMessage : String) : TaskProg Unit :=
  match classifyRunError errorMessage with
  | .budgetAbort => markBudgetExceeded slot.taskId errorMessage
  | .transient =>
    if slot.retryCount < transientMaxRetries then
      queueRetry runnerId slot.taskId (slot.retryCount + 1)
        (transientBackoffSeconds.getD
          (min slot.retryCount (transientBackoffSeconds.length - 1)) 0)
    else markFailed quarantineThreshold slot.taskId errorMessage "runner_exit"
  | .internalRetryOnce =>
    if slot.retryCount < 1 then queueRetry runnerId slot.taskId 1
    else markFailed quarantineThreshold slot.taskId errorMessage "runner_exit"
  | .classFailContinue => markFailed quarantineThreshold slot.taskId errorMessage "runner_exit"

def reapWorker (quarantineThreshold : ℕ) (runnerId : String) (slot : PoolSlot) (returnCode : Int) :
    TaskProg Unit := do
  ask (.dropWorker runnerId slot.taskId)
  if returnCode = 0 then pure ()
  else do
    let row ← getRepoTask slot.taskId
    settleFailure quarantineThreshold runnerId slot
      (textOr (row.bind RepoTask.lastError) s!"uta run exited with status {returnCode}")
  heartbeat runnerId (some slot.taskId) .idle s!"task exited {returnCode}"

/-- `reap_finished`, when `exits` are the return codes that its polls get. -/
def reapFinished (quarantineThreshold : ℕ) (runnerId : String) (exits : List (ℕ × Int)) :
    TaskProg Unit := do
  let memory ← (ask (.memory runnerId) : TaskProg Runner)
  memory.pool.forM fun slot =>
    match exits.lookup slot.taskId with
    | none => pure ()
    | some returnCode => reapWorker quarantineThreshold runnerId slot returnCode

def promoteReadyRetries (quarantineThreshold : ℕ) (runnerId : String) (maxSlots : ℕ)
    (runtimeErrors : List (ℕ × String)) : TaskProg Unit := do
  let now ← readClock
  let memory ← (ask (.memory runnerId) : TaskProg Runner)
  memory.pendingRetries.forM fun entry => do
    let current ← (ask (.memory runnerId) : TaskProg Runner)
    if entry.retryAfter ≤ now ∧ current.pool.length < maxSlots then do
      ask (.dropPendingRetry runnerId entry.taskId)
      launch quarantineThreshold runnerId (runtimeErrors.lookup entry.taskId) entry.taskId
        entry.retryCount
    else pure ()

/-- Orphan recovery, when `liveTaskIds` are the workers that `ps` lists. -/
def recoverOrphans (staleAfter : Time) (runnerId : String) (liveTaskIds : List ℕ) :
    TaskProg Unit := do
  let memory ← (ask (.memory runnerId) : TaskProg Runner)
  requeueOrphanedRunningTasks (memory.pool.map PoolSlot.taskId ++ liveTaskIds) staleAfter

/-- One pass of the loop that fills the pool. -/
def acquireAndLaunch (quarantineThreshold : ℕ) (runnerId : String) (options : DaemonOptions)
    (liveTaskIds : List ℕ) (runtimeErrors : List (ℕ × String)) : TaskProg Unit := do
  let memory ← (ask (.memory runnerId) : TaskProg Runner)
  if memory.pool.length < options.maxSlots then do
    let task ← acquireNext runnerId
      { allowSameRepoConcurrency := options.allowSameRepoConcurrency
        includeFailed := options.includeFailed
        excludeTaskIds := memory.pool.map PoolSlot.taskId ++
          memory.pendingRetries.map PendingRetry.taskId ++ liveTaskIds }
      memory.pool.isEmpty
    match task with
    | none => pure ()
    | some task =>
      launch quarantineThreshold runnerId (runtimeErrors.lookup task.id) task.id
  else pure ()

/-- The heartbeats at the end of a pass: one for each worker that is due, or the
idle one. -/
def beat (runnerId : String) (heartbeatInterval : Time) : TaskProg Unit := do
  let due := max 1000000 heartbeatInterval
  let now ← readClock
  let memory ← (ask (.memory runnerId) : TaskProg Runner)
  memory.pool.forM fun slot =>
    if slot.lastHeartbeat + due ≤ now then do
      heartbeat runnerId (some slot.taskId) .running "task subprocess running"
      ask (.noteBeat runnerId slot.taskId now)
    else pure ()
  if memory.pool = [] ∧ memory.pendingRetries = [] ∧ memory.lastIdleHeartbeatAt + due ≤ now then do
    heartbeat runnerId none .idle "waiting for task"
    ask (.noteIdleBeat runnerId now)
  else pure ()

/-- `_cleanup_daemon_pool`, and the exit of the daemon; `ended` are the tasks
whose workers have exited by themselves. -/
def exitDaemon (runnerId : String) (ended : List ℕ) : TaskProg Unit := do
  let memory ← (ask (.memory runnerId) : TaskProg Runner)
  memory.pool.forM fun slot =>
    if slot.taskId ∈ ended then pure ()
    else do
      ask (.dropWorker runnerId slot.taskId)
      requeueDaemonShutdownTasks [slot.taskId] "daemon exiting"
  ask (.die runnerId)

/-! Calls. -/

/-- What some process does, and what it meets outside the database: an
operator's command, a report of a worker, a phase of a daemon's loop, or an
event of the world. -/
inductive Call where
  | create (repoPath : String) (priority : Int) (engineBlocker : Option String)
      (classFqns : List String)
  | start (taskId : ℕ)
  | startNext (runnerId : String) (includeFailed : Bool)
  | stop (taskId : ℕ) (reason : Option String)
  | resume (taskId : ℕ) (forceRerunFailed forceRerunAll : Bool)
  | cancel (taskId : ℕ) (reason : Option String)
  | unblock (taskId : ℕ)
  | cleanRerun (taskId : ℕ) (args : RerunArgs)
  | reprioritize (taskId : ℕ) (priority : Int)
  | preempt (urgentTaskId : ℕ)
  | markRunning (taskId : ℕ) (stage : String) (detail : Option String)
  | markStopped (taskId : ℕ) (reason : Option String) (stage : String)
  | markFailed (taskId : ℕ) (message stage : String)
  | markCompleted (taskId : ℕ) (message : String)
  | markPoisoned (taskId : ℕ) (message : String)
  | markBudgetExceeded (taskId : ℕ) (message : String)
  | syncResults (taskId : ℕ) (results : List ClassResult) (finalError : Option String)
  | recordPushVerified (taskId : ℕ) (branchName localHead : String) (remoteHead : Option String)
  | recordPushFailed (taskId : ℕ) (branchName message : String) (classFqns : List String)
  | reap (runnerId : String) (exits : List (ℕ × Int))
  | promote (runnerId : String) (options : DaemonOptions) (runtimeErrors : List (ℕ × String))
  | recover (runnerId : String) (liveTaskIds : List ℕ)
  | acquire (runnerId : String) (options : DaemonOptions) (liveTaskIds : List ℕ)
      (runtimeErrors : List (ℕ × String))
  | beat (runnerId : String) (options : DaemonOptions)
  | exit (runnerId : String) (ended : List ℕ)
  | pass (microseconds : ℕ)
  | die (runnerId : String)
  deriving DecidableEq, Repr

def Call.body (settings : Settings) : Call → TaskProg Unit
  | .create repoPath priority engineBlocker classFqns => do
    let taskId ← (ask (.createRepoTask repoPath priority engineBlocker) : TaskProg ℕ)
    classFqns.forM fun classFqn => ask (.createClassTask taskId classFqn priority)
  | .start taskId => startTask taskId
  | .startNext runnerId includeFailed => do
    let _ ← acquireNext runnerId { includeFailed }
  | .stop taskId reason => stopTask taskId reason
  | .resume taskId forceRerunFailed forceRerunAll => resumeTask taskId forceRerunFailed forceRerunAll
  | .cancel taskId reason => cancelTask taskId reason
  | .unblock taskId => Tasks.unblock taskId
  | .cleanRerun taskId args => cleanRerunGeneration taskId args
  | .reprioritize taskId priority => reprioritizeTask taskId priority
  | .preempt urgentTaskId => preemptRunningSameRepoForUrgent urgentTaskId
  | .markRunning taskId stage detail => Tasks.markRunning taskId stage detail
  | .markStopped taskId reason stage => Tasks.markStopped taskId reason stage
  | .markFailed taskId message stage =>
    Tasks.markFailed settings.quarantineThreshold taskId message stage
  | .markCompleted taskId message => Tasks.markCompleted taskId message
  | .markPoisoned taskId message => Tasks.markPoisoned taskId message
  | .markBudgetExceeded taskId message => Tasks.markBudgetExceeded taskId message
  | .syncResults taskId results finalError => Tasks.syncResults taskId results finalError
  | .recordPushVerified taskId branchName localHead remoteHead =>
    Tasks.recordPushVerified taskId branchName localHead remoteHead
  | .recordPushFailed taskId branchName message classFqns =>
    Tasks.recordPushFailed taskId branchName message classFqns
  | .reap runnerId exits => reapFinished settings.quarantineThreshold runnerId exits
  | .promote runnerId options runtimeErrors =>
    promoteReadyRetries settings.quarantineThreshold runnerId options.maxSlots runtimeErrors
  | .recover runnerId liveTaskIds => recoverOrphans settings.staleAfter runnerId liveTaskIds
  | .acquire runnerId options liveTaskIds runtimeErrors =>
    acquireAndLaunch settings.quarantineThreshold runnerId options liveTaskIds runtimeErrors
  | .beat runnerId options => Tasks.beat runnerId options.heartbeatInterval
  | .exit runnerId ended => exitDaemon runnerId ended
  | .pass microseconds => ask (.pass microseconds)
  | .die runnerId => ask (.die runnerId)

/-! Systems. -/

/-- The task database, and the calls under way. -/
abbrev TaskSystem := System World Stmt Stmt.Answer TaskError Call

/-- One turn of the system. -/
abbrev taskTurn (settings : Settings) : TaskSystem → Turn Call → TaskSystem :=
  System.turn Stmt.exec (Call.body settings)

def initialSystem (runnerIds : List String) : TaskSystem := .idle (.fresh runnerIds)

end Uta.Tasks
