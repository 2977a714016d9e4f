/- The statements of the task database. Each is one transaction, and what it
answers is all that a process learns from it. -/
import Uta.Tasks.Rows
import Uta.Lib.PyText
import Mathlib.Data.List.Sort

namespace Uta.Tasks
open Uta.Lib

inductive TaskError where
  | legacy (message : String)
  | notFound (message : String)
  | value (message : String)
  | runtime (message : String)
  deriving DecidableEq, Repr

def requireDurableGenerationTask (task : RepoTask) (action : String) : Except TaskError Unit :=
  match task.engineBlocker with
  | none => .ok ()
  | some reason => .error (.legacy
      s!"Task {task.id} cannot {action}: its persisted generation engine is legacy or invalid ({reason}). Finish or cancel the old task, then submit a new task after the durable-only build starts.")

/-! Arguments. -/

/-- The arguments of `add_event`. -/
structure EventArgs where
  taskId : ℕ
  classTaskId : Option ℕ := none
  eventType : String
  message : String
  stage : Option String := none
  severity : String := "INFO"
  payload : List (String × PayloadValue) := []
  deriving DecidableEq, Repr

def EventArgs.row (e : EventArgs) (id : ℕ) (now : Time) : TaskEvent :=
  ⟨id, e.taskId, e.classTaskId, e.eventType, e.severity, e.stage, e.message, e.payload, now⟩

/-- The arguments of `finish_task_with_terminal_event`. -/
structure FinishArgs where
  status : RepoStatus
  message : String
  stage : String
  severity : String := "INFO"
  payload : List (String × PayloadValue) := []
  taskFields : TaskPatch := {}
  summaryEventTypes : List String
  deriving DecidableEq, Repr

structure AcquireArgs where
  allowSameRepoConcurrency : Bool := false
  includeFailed : Bool := false
  excludeTaskIds : List ℕ := []
  deriving DecidableEq, Repr

/-- The options of a clean rerun. -/
structure RerunArgs where
  reason : String
  confirmTaskId : ℕ
  forceRerunFailed : Bool := false
  forceRerunAll : Bool := false
  deriving DecidableEq, Repr

inductive Stmt where
  | createRepoTask (repoPath : String) (priority : Int) (engineBlocker : Option String)
  | createClassTask (taskId : ℕ) (classFqn : String) (priority : Int)
  | getRepoTask (taskId : ℕ)
  | updateRepoTask (taskId : ℕ) (patch : TaskPatch)
  | listClassTasks (taskId : ℕ)
  | findClassTask (taskId : ℕ) (classFqn : String)
  | updateClassTask (classId : ℕ) (patch : ClassPatch)
  | addEvent (event : EventArgs)
  | countTaskFailures (taskId : ℕ)
  | finishTask (taskId : ℕ) (args : FinishArgs)
  | requestControl (taskId : ℕ) (action : String) (reason : Option String)
  | acknowledgeControls (taskId : ℕ) (action : Option String)
  | acquireNextTask (runnerId : String) (args : AcquireArgs)
  | upsertHeartbeat (runnerId : String) (taskId : Option ℕ) (status : HeartbeatStatus)
      (message : Option String)
  | runningTasks
  | latestRunningHeartbeat (taskId : ℕ)
  | runningSameRepo (repoPath : String) (taskId : ℕ)
  | preemptions
  | cleanRerun (taskId : ℕ) (args : RerunArgs)
  /-- A process reads the clock. -/
  | clock
  /-- A runner reads its own memory. -/
  | memory (runnerId : String)
  /-- A runner starts a worker again, and puts it in its pool. -/
  | startWorker (runnerId : String) (slot : PoolSlot)
  | dropWorker (runnerId : String) (taskId : ℕ)
  | addPendingRetry (runnerId : String) (retry : PendingRetry)
  | dropPendingRetry (runnerId : String) (taskId : ℕ)
  /-- A runner notes when it has beaten: for a worker, or while idle. -/
  | noteBeat (runnerId : String) (taskId : ℕ) (at_ : Time)
  | noteIdleBeat (runnerId : String) (at_ : Time)
  /-- Time passes. -/
  | pass (microseconds : ℕ)
  /-- A runner dies, with what it had in memory. -/
  | die (runnerId : String)
  deriving DecidableEq, Repr

abbrev Stmt.Answer : Stmt → Type
  | createRepoTask .. => ℕ
  | getRepoTask _ => Option RepoTask
  | updateRepoTask .. => Except TaskError Unit
  | listClassTasks _ => List ClassTask
  | findClassTask .. => Option ClassTask
  | countTaskFailures _ => ℕ
  | finishTask .. => Except TaskError ℕ
  | acquireNextTask .. => Except TaskError (Option RepoTask)
  | runningTasks => List RepoTask
  | latestRunningHeartbeat _ => Option Heartbeat
  | runningSameRepo .. => List ℕ
  | preemptions => List TaskEvent
  | cleanRerun .. => Except TaskError Unit
  | clock => Time
  | memory _ => Runner
  | _ => Unit

/-! Queries. -/

namespace World
variable (w : World)

/-- `ORDER BY priority ASC, id ASC`. -/
def listClassTasks (taskId : ℕ) : List ClassTask :=
  (w.classes.rows.filter fun c => c.repoTaskId = taskId).insertionSort
    fun c d => c.priority < d.priority ∨ (c.priority = d.priority ∧ c.id ≤ d.id)

def countTaskFailures (taskId : ℕ) : ℕ :=
  (w.events.filter fun e => e.repoTaskId = taskId ∧ e.eventType = "task_failed").length

/-- The latest heartbeat that names the task as the running one. -/
def latestRunningHeartbeat (taskId : ℕ) : Option Heartbeat :=
  (w.heartbeats.rows.filter fun h => h.currentRepoTaskId = some taskId ∧ h.status = .running).argmax
    Heartbeat.heartbeatAt

/-- Whether another task occupies the checkout. -/
def ActiveSibling (repoPath : String) (taskId : ℕ) : Prop :=
  ∃ r ∈ w.tasks.rows, r.repoPath = repoPath ∧ r.status.Active ∧ r.id ≠ taskId

instance (repoPath : String) (taskId : ℕ) : Decidable (w.ActiveSibling repoPath taskId) :=
  inferInstanceAs (Decidable (∃ r ∈ w.tasks.rows, _))

/-- The batch tasks that run in a checkout, `ORDER BY started_at ASC, id ASC`; a
missing start sorts first. -/
def runningSameRepo (repoPath : String) (taskId : ℕ) : List ℕ :=
  let start := fun r : RepoTask => (r.startedAt.map (· + 1)).getD 0
  ((w.tasks.rows.filter fun r => r.repoPath = repoPath ∧ r.status = .running ∧ r.id ≠ taskId ∧
    100 ≤ r.priority).insertionSort fun r s =>
      start r < start s ∨ (start r = start s ∧ r.id ≤ s.id)).map RepoTask.id

/-- The statuses `acquire_next_task` selects. -/
def Acquirable (args : AcquireArgs) (s : RepoStatus) : Prop :=
  s = .created ∨ s = .queued ∨ (args.includeFailed = true ∧ s = .failed)

instance (args : AcquireArgs) (s : RepoStatus) : Decidable (Acquirable args s) :=
  inferInstanceAs (Decidable (_ ∨ _))

/-- `ORDER BY priority ASC, created_at ASC LIMIT 20`. -/
def queue (args : AcquireArgs) : List RepoTask :=
  ((w.tasks.rows.filter fun r => Acquirable args r.status ∧ r.id ∉ args.excludeTaskIds).insertionSort
    fun r s => r.priority < s.priority ∨ (r.priority = s.priority ∧ r.createdAt ≤ s.createdAt)).take 20

/-- The loop over the selected rows. -/
def firstEligible (allowSameRepoConcurrency : Bool) : List RepoTask → Except TaskError (Option RepoTask)
  | [] => .ok none
  | r :: rest =>
    match requireDurableGenerationTask r "be acquired" with
    | .error e => .error e
    | .ok () =>
      if allowSameRepoConcurrency = false ∧ w.ActiveSibling r.repoPath r.id then
        firstEligible allowSameRepoConcurrency rest
      else .ok (some r)

/-! Updates. -/

/-- The id that AUTOINCREMENT gives to the next row. -/
def nextTaskId : ℕ := (w.tasks.rows.map RepoTask.id).foldr max 0 + 1

def nextClassId : ℕ := (w.classes.rows.map ClassTask.id).foldr max 0 + 1

theorem le_foldr_max {l : List ℕ} {n : ℕ} (member : n ∈ l) : n ≤ l.foldr max 0 := by
  induction l with
  | nil => cases member
  | cons m l ih =>
      rw [List.foldr_cons]
      rcases List.mem_cons.mp member with rfl | later
      · exact le_max_left ..
      · exact le_trans (ih later) (le_max_right ..)

theorem foldr_max_fresh (l : List ℕ) : l.foldr max 0 + 1 ∉ l := by
  intro member
  have := le_foldr_max member
  omega

def createRepoTask (repoPath : String) (priority : Int) (engineBlocker : Option String) : World :=
  { w with
    tasks := w.tasks.insert
      { id := w.nextTaskId, repoPath, priority, status := .created, engineBlocker,
        createdAt := w.now, updatedAt := w.now } (foldr_max_fresh _) }

def findClassTask (taskId : ℕ) (classFqn : String) : Option ClassTask :=
  w.classes.rows.find? fun c => c.repoTaskId = taskId ∧ c.classFqn = classFqn

/-- INSERT OR IGNORE; the row of a class that is there already is kept. -/
def createClassTask (taskId : ℕ) (classFqn : String) (priority : Int) : World :=
  match w.findClassTask taskId classFqn with
  | some _ => w
  | none =>
    { w with
      classes := w.classes.insert
        { id := w.nextClassId, repoTaskId := taskId, classFqn, displayName := classFqn, priority,
          status := .created, updatedAt := w.now } (foldr_max_fresh _) }

def updateRepoTask (taskId : ℕ) (patch : TaskPatch) : World :=
  w.updateTask taskId (patch.apply w.now) fun _ => rfl

def updateClassTask (classId : ℕ) (patch : ClassPatch) : World :=
  w.updateClass classId (patch.apply w.now) fun _ => rfl

def addEvents : List EventArgs → World → World
  | [], w => w
  | e :: es, w => addEvents es (w.addEvent e.row)

def acknowledgeControls (taskId : ℕ) (action : Option String) : World :=
  { w with controls := w.controls.map fun c =>
      if c.repoTaskId = taskId ∧ c.acknowledgedAt = none ∧ (action = none ∨ action = some c.action)
      then { c with acknowledgedAt := some w.now } else c }

/-- The UPDATE of an acquisition. -/
def acquiredRow (now : Time) (r : RepoTask) : RepoTask :=
  { r with
    status := .running
    startedAt := r.startedAt.or (some now)
    updatedAt := now
    currentStage := some "acquired" }

/-- The claim of a task. The runner has it from here on: between this and the
start of the worker nothing looks at the pool. -/
def acquire (runnerId : String) (taskId : ℕ) : World :=
  (w.updateTask taskId (acquiredRow w.now) fun _ => rfl).updateRunner runnerId
    (Runner.put · { taskId }) fun _ => rfl

/-- INSERT of a heartbeat, or UPDATE of the runner's row. -/
def upsertHeartbeat (h : Heartbeat) : World :=
  if fresh : h.runnerId ∉ w.heartbeats.rows.map Heartbeat.runnerId then
    { w with heartbeats := w.heartbeats.insert h fresh }
  else
    { w with
      heartbeats := w.heartbeats.modify h.runnerId
        (fun r => { h with runnerId := r.runnerId }) fun _ => rfl }

/-- The columns that `finish_task_with_terminal_event` writes. -/
def finishPatch (args : FinishArgs) (now : Time) : TaskPatch :=
  { args.taskFields with
    status := some args.status
    currentStage := some (some args.stage)
    currentDetail := some (some args.message)
    finishedAt := some (some ((args.taskFields.finishedAt.getD none).getD now)) }

/-- The id of the task's last terminal event. -/
def lastTerminal (taskId : ℕ) : Option ℕ :=
  ((w.events.filter fun e => e.repoTaskId = taskId ∧ e.eventType = "task_terminal").getLast?).map
    TaskEvent.id

def terminalEvents (taskId : ℕ) (args : FinishArgs) : List EventArgs :=
  (args.summaryEventTypes.map fun t =>
    { taskId, eventType := t, message := args.message, stage := some args.stage,
      severity := args.severity, payload := args.payload }) ++
  [{ taskId, eventType := "task_terminal", message := args.message, stage := some args.stage,
     severity := args.severity, payload := args.payload ++ [("status", .text args.status.text)] }]

def finishTask (taskId : ℕ) (args : FinishArgs) : Except TaskError ℕ × World :=
  if ¬ args.status.Terminal then
    (.error (.value s!"non-terminal task status: {args.status.text}"), w)
  else
    match w.tasks.find? taskId with
    | none => (.error (.notFound s!"Task {taskId} not found"), w)
    | some prior =>
      let updated := w.updateRepoTask taskId (finishPatch args w.now)
      match if prior.status = args.status then w.lastTerminal taskId else none with
      | some terminal => (.ok terminal, updated)
      | none =>
        let closed := addEvents (terminalEvents taskId args) updated
        (.ok ((closed.events.getLast?.map TaskEvent.id).getD 0), closed)

/-! The clean rerun, its identities apart. -/

def requeueStatuses (args : RerunArgs) (s : ClassStatus) : Prop :=
  s ∈ [.created, .pending, .queued, .running, .stopped] ∨
  (args.forceRerunFailed = true ∧ s.Terminal ∧ s ∉ [.pass, .cancelled]) ∨
  (args.forceRerunAll = true ∧ s.Terminal)

instance (args : RerunArgs) (s : ClassStatus) : Decidable (requeueStatuses args s) :=
  inferInstanceAs (Decidable (_ ∨ _))

/-- `_validated_request` and `_require_eligible`. -/
def rerunRefusal (taskId : ℕ) (args : RerunArgs) : Option TaskError :=
  if PyText.strip args.reason.toList = [] then
    some (.value "a non-empty clean-rerun reason is required")
  else if args.confirmTaskId ≠ taskId then
    some (.value "clean-rerun task confirmation does not match")
  else
    match w.tasks.find? taskId with
    | none => some (.notFound s!"Task {taskId} not found")
    | some task =>
      match requireDurableGenerationTask task "be clean-rerun" with
      | .error e => some e
      | .ok () =>
        if task.status ≠ .stopped ∧ ¬ task.status.Terminal then
          some (.runtime "clean rerun requires a STOPPED or terminal task")
        else
          match w.heartbeats.rows.find? fun h =>
            h.status = .running ∧ h.currentRepoTaskId = some taskId with
          | some h => some (.runtime s!"clean rerun refused: active runner lease {h.runnerId}")
          | none =>
            if w.listClassTasks taskId = [] then
              some (.runtime "clean rerun requires at least one generation target")
            else none

def rerunClassPatch : ClassPatch where
  status := some .queued
  stage := some (some "queued")
  currentStage := some (some "queued")
  currentDetail := some (some "clean generation rerun")
  finishedAt := some none
  lastError := some none
  error := some none

def rerunTaskPatch (task : RepoTask) : TaskPatch where
  status := some .queued
  stopRequestedAt := some none
  finishedAt := some none
  resumeCount := some (task.resumeCount + 1)
  currentStage := some (some "queued")
  currentDetail := some (some "clean generation rerun requested")
  lastError := some none
  error := some none

def cleanRerun (taskId : ℕ) (args : RerunArgs) : Except TaskError Unit × World :=
  match w.rerunRefusal taskId args with
  | some e => (.error e, w)
  | none =>
    let requeued := (w.listClassTasks taskId).foldl (fun w c =>
      w.updateClassTask c.id (if requeueStatuses args c.status then rerunClassPatch else {})) w
    let queued := requeued.updateTask taskId
      (fun r => (rerunTaskPatch r).apply w.now r) fun _ => rfl
    (.ok (), (queued.acknowledgeControls taskId none).addEvent <| EventArgs.row
      { taskId, eventType := "generation_cycle_clean_rerun_requested",
        message := "Clean generation rerun requested", stage := some "queued",
        severity := "WARNING", payload := [("reason", .text (String.ofList (PyText.strip args.reason.toList)))] })

end World

/-! Execution. -/

/-- What a statement answers in a database, and the database after it. -/
def Stmt.exec : (s : Stmt) → World → s.Answer × World
  | .createRepoTask repoPath priority engineBlocker, w =>
    (w.nextTaskId, w.createRepoTask repoPath priority engineBlocker)
  | .createClassTask taskId classFqn priority, w => ((), w.createClassTask taskId classFqn priority)
  | .getRepoTask taskId, w => (w.tasks.find? taskId, w)
  | .updateRepoTask taskId patch, w =>
    match patch.status, w.tasks.find? taskId with
    | some s, some row =>
      if s.Terminal then (.ok (), w.updateRepoTask taskId patch)
      else
        match requireDurableGenerationTask row "be reactivated" with
        | .error e => (.error e, w)
        | .ok () => (.ok (), w.updateRepoTask taskId patch)
    | _, _ => (.ok (), w.updateRepoTask taskId patch)
  | .listClassTasks taskId, w => (w.listClassTasks taskId, w)
  | .findClassTask taskId classFqn, w => (w.findClassTask taskId classFqn, w)
  | .updateClassTask classId patch, w => ((), w.updateClassTask classId patch)
  | .addEvent event, w => ((), w.addEvent event.row)
  | .countTaskFailures taskId, w => (w.countTaskFailures taskId, w)
  | .finishTask taskId args, w => w.finishTask taskId args
  | .requestControl taskId action reason, w =>
    ((), { w with controls := w.controls ++ [⟨taskId, action, reason, none, w.now⟩] })
  | .acknowledgeControls taskId action, w => ((), w.acknowledgeControls taskId action)
  | .acquireNextTask runnerId args, w =>
    match w.firstEligible args.allowSameRepoConcurrency (w.queue args) with
    | .error e => (.error e, w)
    | .ok none => (.ok none, w)
    | .ok (some r) => (.ok (some (World.acquiredRow w.now r)), w.acquire runnerId r.id)
  | .upsertHeartbeat runnerId taskId status message, w =>
    ((), w.upsertHeartbeat ⟨runnerId, taskId, status, message, w.now⟩)
  | .runningTasks, w =>
    ((w.tasks.rows.filter fun r => r.status = .running).insertionSort fun r s => r.id ≤ s.id, w)
  | .latestRunningHeartbeat taskId, w => (w.latestRunningHeartbeat taskId, w)
  | .runningSameRepo repoPath taskId, w => (w.runningSameRepo repoPath taskId, w)
  | .preemptions, w => (w.events.filter fun e => e.eventType = "task_preempted", w)
  | .cleanRerun taskId args, w => w.cleanRerun taskId args
  | .clock, w => (w.clock, w)
  | .memory runnerId, w => ((w.runners.find? runnerId).getD { runnerId }, w)
  | .startWorker runnerId slot, w =>
    ((), w.updateRunner runnerId (Runner.put · slot) fun _ => rfl)
  | .dropWorker runnerId taskId, w =>
    ((), w.updateRunner runnerId (Runner.drop · taskId) fun _ => rfl)
  | .addPendingRetry runnerId retry, w =>
    ((), w.updateRunner runnerId (fun r => { r with
      pendingRetries := r.pendingRetries.filter (fun p => p.taskId ≠ retry.taskId) ++ [retry] })
      fun _ => rfl)
  | .dropPendingRetry runnerId taskId, w =>
    ((), w.updateRunner runnerId (fun r =>
      { r with pendingRetries := r.pendingRetries.filter fun p => p.taskId ≠ taskId }) fun _ => rfl)
  | .noteBeat runnerId taskId at_, w =>
    ((), w.updateRunner runnerId (Runner.beaten · taskId at_) fun _ => rfl)
  | .noteIdleBeat runnerId at_, w =>
    ((), w.updateRunner runnerId (fun r => { r with lastIdleHeartbeatAt := at_ }) fun _ => rfl)
  | .pass microseconds, w => ((), { w with clock := w.clock + microseconds })
  | .die runnerId, w => ((), w.updateRunner runnerId (fun r => { r with alive := false }) fun _ => rfl)

end Uta.Tasks
