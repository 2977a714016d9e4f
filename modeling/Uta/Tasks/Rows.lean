/- The rows of the task database, the memory of its runners, and the updates
that one statement makes of them. -/
import Uta.Lib.Table
import Mathlib.Data.List.MinMax
import Mathlib.Data.List.Dedup

namespace Uta.Tasks
open Uta.Lib

/-! Statuses. -/

inductive RepoStatus where
  | created | queued | running | stopRequested | stopped
  | completed | failed | cancelled | poisoned | budgetExceeded
  deriving DecidableEq, Repr

def RepoStatus.text : RepoStatus → String
  | .created => "CREATED"
  | .queued => "QUEUED"
  | .running => "RUNNING"
  | .stopRequested => "STOP_REQUESTED"
  | .stopped => "STOPPED"
  | .completed => "COMPLETED"
  | .failed => "FAILED"
  | .cancelled => "CANCELLED"
  | .poisoned => "POISONED"
  | .budgetExceeded => "BUDGET_EXCEEDED"

/-- `TERMINAL_REPO_STATUSES`. -/
def RepoStatus.Terminal (s : RepoStatus) : Prop :=
  s ∈ [.completed, .failed, .cancelled, .poisoned, .budgetExceeded]

instance (s : RepoStatus) : Decidable s.Terminal := inferInstanceAs (Decidable (_ ∈ _))

/-- The statuses under which a task occupies its checkout. -/
def RepoStatus.Active (s : RepoStatus) : Prop := s ∈ [.running, .stopRequested]

instance (s : RepoStatus) : Decidable s.Active := inferInstanceAs (Decidable (_ ∈ _))

inductive ClassStatus where
  | pending | created | queued | running | stopped | generated
  | pass | fail | mutationFail | budgetExceeded | providerError | providerRateLimited | pushFailed
  | unsafeDiff | llmStalled | cancelled
  deriving DecidableEq, Repr

def ClassStatus.text : ClassStatus → String
  | .pending => "PENDING"
  | .created => "CREATED"
  | .queued => "QUEUED"
  | .running => "RUNNING"
  | .stopped => "STOPPED"
  | .generated => "GENERATED"
  | .pass => "PASS"
  | .fail => "FAIL"
  | .mutationFail => "MUTATION_FAIL"
  | .budgetExceeded => "BUDGET_EXCEEDED"
  | .providerError => "PROVIDER_ERROR"
  | .providerRateLimited => "PROVIDER_RATE_LIMITED"
  | .pushFailed => "PUSH_FAILED"
  | .unsafeDiff => "UNSAFE_DIFF"
  | .llmStalled => "LLM_STALLED"
  | .cancelled => "CANCELLED"

/-- `TERMINAL_CLASS_STATUSES`. -/
def ClassStatus.Terminal (s : ClassStatus) : Prop :=
  s ∈ [.pass, .fail, .mutationFail, .budgetExceeded, .providerError, .providerRateLimited,
    .pushFailed, .unsafeDiff, .llmStalled, .cancelled]

instance (s : ClassStatus) : Decidable s.Terminal := inferInstanceAs (Decidable (_ ∈ _))

/-! Rows. -/

/-- Microseconds. -/
abbrev Time := ℕ

/-- `now_iso()`: the clock without its microseconds. -/
def nowIso (clock : Time) : Time := clock / 1000000 * 1000000

/-- One row of `repo_tasks`. `engineBlocker` is what `classify_generation_snapshot`
says of the row's config snapshot, which no statement writes. -/
structure RepoTask where
  id : ℕ
  repoPath : String
  priority : Int
  status : RepoStatus
  engineBlocker : Option String := none
  currentStage : Option String := none
  currentDetail : Option String := none
  startedAt : Option Time := none
  finishedAt : Option Time := none
  stopRequestedAt : Option Time := none
  resumeCount : ℕ := 0
  lastError : Option String := none
  error : Option String := none
  createdAt : Time
  updatedAt : Time
  deriving DecidableEq, Repr

/-- The keyword arguments of `update_repo_task`; `none` is a column not named. -/
structure TaskPatch where
  status : Option RepoStatus := none
  priority : Option Int := none
  currentStage : Option (Option String) := none
  currentDetail : Option (Option String) := none
  startedAt : Option (Option Time) := none
  finishedAt : Option (Option Time) := none
  stopRequestedAt : Option (Option Time) := none
  resumeCount : Option ℕ := none
  lastError : Option (Option String) := none
  error : Option (Option String) := none
  deriving DecidableEq, Repr

def TaskPatch.apply (p : TaskPatch) (now : Time) (r : RepoTask) : RepoTask :=
  { r with
    status := p.status.getD r.status
    priority := p.priority.getD r.priority
    currentStage := p.currentStage.getD r.currentStage
    currentDetail := p.currentDetail.getD r.currentDetail
    startedAt := p.startedAt.getD r.startedAt
    finishedAt := p.finishedAt.getD r.finishedAt
    stopRequestedAt := p.stopRequestedAt.getD r.stopRequestedAt
    resumeCount := p.resumeCount.getD r.resumeCount
    lastError := p.lastError.getD r.lastError
    error := p.error.getD r.error
    updatedAt := now }

/-- One row of `class_tasks`. `reviewOutcome` is the `outcome` of the stored
equivalence review. -/
structure ClassTask where
  id : ℕ
  repoTaskId : ℕ
  classFqn : String
  displayName : Option String := none
  priority : Int
  status : ClassStatus
  stage : Option String := none
  currentStage : Option String := none
  currentDetail : Option String := none
  finishedAt : Option Time := none
  lastError : Option String := none
  error : Option String := none
  reviewOutcome : Option String := none
  updatedAt : Time
  deriving DecidableEq, Repr

structure ClassPatch where
  status : Option ClassStatus := none
  priority : Option Int := none
  stage : Option (Option String) := none
  currentStage : Option (Option String) := none
  currentDetail : Option (Option String) := none
  finishedAt : Option (Option Time) := none
  lastError : Option (Option String) := none
  error : Option (Option String) := none
  reviewOutcome : Option (Option String) := none
  deriving DecidableEq, Repr

def ClassPatch.apply (p : ClassPatch) (now : Time) (r : ClassTask) : ClassTask :=
  { r with
    status := p.status.getD r.status
    priority := p.priority.getD r.priority
    stage := p.stage.getD r.stage
    currentStage := p.currentStage.getD r.currentStage
    currentDetail := p.currentDetail.getD r.currentDetail
    finishedAt := p.finishedAt.getD r.finishedAt
    lastError := p.lastError.getD r.lastError
    error := p.error.getD r.error
    reviewOutcome := p.reviewOutcome.getD r.reviewOutcome
    updatedAt := now }

/-- A value of an event payload. -/
inductive PayloadValue where
  | number (n : ℕ)
  | text (s : String)
  | flag (b : Bool)
  | duration (microseconds : ℕ)
  | null
  deriving DecidableEq, Repr

structure TaskEvent where
  id : ℕ
  repoTaskId : ℕ
  classTaskId : Option ℕ := none
  eventType : String
  severity : String := "INFO"
  stage : Option String := none
  message : String
  payload : List (String × PayloadValue) := []
  createdAt : Time
  deriving DecidableEq, Repr

/-- One row of `task_control`. -/
structure Control where
  repoTaskId : ℕ
  action : String
  reason : Option String
  acknowledgedAt : Option Time := none
  createdAt : Time
  deriving DecidableEq, Repr

inductive HeartbeatStatus where
  | running | idle
  deriving DecidableEq, Repr

/-- One row of `runner_heartbeats`: one for each runner. -/
structure Heartbeat where
  runnerId : String
  currentRepoTaskId : Option ℕ
  status : HeartbeatStatus
  message : Option String
  heartbeatAt : Time
  deriving DecidableEq, Repr

/-! Runners. -/

/-- An entry of the daemon's `pool`: the worker it started for a task. -/
structure PoolSlot where
  taskId : ℕ
  retryCount : ℕ := 0
  lastHeartbeat : Time := 0
  deriving DecidableEq, Repr

/-- An entry of `pending_retries`. -/
structure PendingRetry where
  taskId : ℕ
  retryAfter : Time
  retryCount : ℕ
  deriving DecidableEq, Repr

/-- The memory of one scheduler process. -/
structure Runner where
  runnerId : String
  alive : Bool := true
  pool : List PoolSlot := []
  pendingRetries : List PendingRetry := []
  lastIdleHeartbeatAt : Time := 0
  deriving DecidableEq, Repr

/-- The runner has the task: it has claimed it, or started a worker for it, and
has not yet seen the worker end. -/
def Runner.Holds (r : Runner) (taskId : ℕ) : Prop := taskId ∈ r.pool.map PoolSlot.taskId

instance (r : Runner) (taskId : ℕ) : Decidable (r.Holds taskId) :=
  inferInstanceAs (Decidable (_ ∈ _))

/-- The pool after `pool[slot.taskId] = slot`. -/
def Runner.put (r : Runner) (slot : PoolSlot) : Runner :=
  { r with pool := r.pool.filter (fun p => p.taskId ≠ slot.taskId) ++ [slot] }

/-- The pool after `del pool[taskId]`. -/
def Runner.drop (r : Runner) (taskId : ℕ) : Runner :=
  { r with pool := r.pool.filter fun p => p.taskId ≠ taskId }

/-- `slot["last_heartbeat"] = at_` in the pool. -/
def Runner.beaten (r : Runner) (taskId : ℕ) (at_ : Time) : Runner :=
  { r with pool := r.pool.map fun p => if p.taskId = taskId then { p with lastHeartbeat := at_ } else p }

structure World where
  tasks : Table RepoTask.id
  classes : Table ClassTask.id
  events : List TaskEvent
  controls : List Control
  heartbeats : Table Heartbeat.runnerId
  runners : Table Runner.runnerId
  clock : Time

/-- Scheduler processes that have just started. -/
def freshRunners (runnerIds : List String) : Table Runner.runnerId where
  rows := runnerIds.dedup.map fun runnerId => { runnerId }
  unique := by
    rw [List.map_map]
    exact (List.map_id' runnerIds.dedup).symm ▸ List.nodup_dedup runnerIds

/-- An empty database, with processes that schedule from it. -/
def World.fresh (runnerIds : List String) : World :=
  ⟨.empty, .empty, [], [], .empty, freshRunners runnerIds, 0⟩

namespace World

def now (w : World) : Time := nowIso w.clock

/-- UPDATE of one row of `repo_tasks`. -/
def updateTask (w : World) (taskId : ℕ) (f : RepoTask → RepoTask) (same : ∀ r, (f r).id = r.id) :
    World :=
  { w with tasks := w.tasks.modify taskId f same }

def updateClass (w : World) (classId : ℕ) (f : ClassTask → ClassTask) (same : ∀ r, (f r).id = r.id) :
    World :=
  { w with classes := w.classes.modify classId f same }

def updateRunner (w : World) (runnerId : String) (f : Runner → Runner)
    (same : ∀ r, (f r).runnerId = r.runnerId) : World :=
  { w with runners := w.runners.modify runnerId f same }

/-- INSERT of one row of `task_events`, under the next id. -/
def addEvent (w : World) (event : ℕ → Time → TaskEvent) : World :=
  { w with events := w.events ++ [event ((w.events.getLast?.map TaskEvent.id).getD 0 + 1) w.now] }

end World
end Uta.Tasks
