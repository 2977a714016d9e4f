/- The CI service: its records, its queue, and the threads that submit, look up,
run and stop checks. A block under the queue lock is one statement; outside the
lock every access to what the threads share is one. -/
import Mathlib.Data.List.MinMax
import Mathlib.Data.Finset.Card
import Uta.Lib.Interleave

namespace Uta.Ci
open Uta.Lib

/-! Records. -/

inductive CiTaskStatus where
  | pending
  | queued
  | running
  | success
  | failed
  | stopped
  deriving DecidableEq, Repr

/-- Queued, pending or running. -/
def CiTaskStatus.Active (s : CiTaskStatus) : Prop := s ∈ [.queued, .pending, .running]

/-- Pending or queued. -/
def CiTaskStatus.Waiting (s : CiTaskStatus) : Prop := s ∈ [.pending, .queued]

instance (s : CiTaskStatus) : Decidable s.Active := inferInstanceAs (Decidable (s ∈ _))
instance (s : CiTaskStatus) : Decidable s.Waiting := inferInstanceAs (Decidable (s ∈ _))

/-- `CiTaskRecord`, with the fields that the queue reads or writes. The times are
those of creation; `passed` stands for the enforcement result. -/
structure CiTaskRecord where
  taskId : ℕ
  status : CiTaskStatus
  language : String
  createdAt : ℕ
  summary : Option String := none
  workspacePath : Option String := none
  passed : Option Bool := none
  deriving DecidableEq, Repr

namespace CiTaskRecord

/-- `_mark_ci_check_pending`. -/
def markPending (r : CiTaskRecord) : CiTaskRecord :=
  { r with
    status := .pending
    summary := some "CI test-enforcement report task is pending; another report task is running." }

/-- The record's part of `_mark_ci_check_claimed`. -/
def markRunning (r : CiTaskRecord) : CiTaskRecord :=
  { r with status := .running, summary := some "CI test-enforcement report task is running." }

def markStopped (r : CiTaskRecord) : CiTaskRecord :=
  { r with
    status := .stopped
    summary := some "CI test-enforcement report task was stopped by an operator." }

def markInterrupted (r : CiTaskRecord) : CiTaskRecord :=
  { r with
    status := .failed
    summary := some "CI test-enforcement report task was interrupted before completion." }

def markFinished (passed : Bool) (summary : String) (r : CiTaskRecord) : CiTaskRecord :=
  { r with
    status := if passed then .success else .failed
    summary := some summary
    passed := some passed }

def markCrashed (error : String) (r : CiTaskRecord) : CiTaskRecord :=
  { r with status := .failed, summary := some ("UTA API trigger failed unexpectedly: " ++ error) }

def inWorkspace (workspace : String) (r : CiTaskRecord) : CiTaskRecord :=
  { r with workspacePath := some workspace }

end CiTaskRecord

/-! The service. -/

/-- What the threads of the service share. The records are objects on a heap;
`temps` are the temporary files of saves under way. `checks` and `runs` are
histories: the claims that were not released yet, and the checks that were run. -/
structure Service where
  parallelLimit : ℤ
  managed : Bool
  handled : String → Bool
  marked : Bool
  foreign : Finset ℕ
  heap : List CiTaskRecord := []
  tasks : List (ℕ × ℕ) := []
  files : List CiTaskRecord
  temps : List (Option CiTaskRecord) := []
  active : Finset ℕ := ∅
  stopRequested : Finset ℕ := ∅
  inflight : Finset ℕ := ∅
  checks : List ℕ := []
  runs : List ℕ := []

namespace Service
variable (st : Service)

/-- The record at an address. -/
def at? (a : ℕ) : Option CiTaskRecord := st.heap[a]?

/-- `_tasks.get`. -/
def cached (id : ℕ) : Option ℕ := (st.tasks.find? fun e => e.1 = id).map Prod.snd

/-- `record_store.load`. -/
def load (id : ℕ) : Option CiTaskRecord := st.files.find? fun r => r.taskId = id

/-- An id that no record has, as `uuid4` draws it. -/
def freshId : ℕ := ((st.heap ++ st.files).map CiTaskRecord.taskId).foldr max 0 + 1

def update (a : ℕ) (f : CiTaskRecord → CiTaskRecord) : Service := { st with heap := st.heap.modify a f }

def put (r : CiTaskRecord) : Service :=
  { st with files := (st.files.filter fun x => x.taskId ≠ r.taskId) ++ [r] }

/-- `save` under the lock. -/
def saveNow (a : ℕ) : Service :=
  match st.at? a with
  | none => st
  | some r => st.put r

/-- `_tasks[task_id] = record`, for a new object. -/
def cache (r : CiTaskRecord) : Service :=
  { st with
    heap := st.heap ++ [r]
    tasks :=
      if st.cached r.taskId = none then st.tasks ++ [(r.taskId, st.heap.length)]
      else st.tasks.map fun e => if e.1 = r.taskId then (e.1, st.heap.length) else e }

/-- `_live_inflight_task_ids`. -/
def live : Finset ℕ := if st.marked then st.inflight ∪ st.foreign else ∅

/-- `_iter_ci_records_for_queue_locked`: the listed summaries under the cached
objects. A summary is a new object, without an address. -/
def queueRecords (listed : List ℕ) : List (Option ℕ × CiTaskRecord) :=
  let summaries := listed.filterMap st.load
  (summaries.map fun r =>
    match (st.cached r.taskId).bind fun a => (st.at? a).map fun x => (some a, x) with
    | some e => e
    | none => (none, r)) ++
  st.tasks.filterMap fun e =>
    if e.1 ∈ summaries.map CiTaskRecord.taskId then none else (st.at? e.2).map fun x => (some e.2, x)

/-- Does a record take up a slot? -/
def Counts (r : CiTaskRecord) : Prop :=
  r.taskId ∈ st.active ∨ r.status = .running ∧ (st.marked = false ∨ r.taskId ∈ st.live)

instance (r : CiTaskRecord) : Decidable (st.Counts r) := inferInstanceAs (Decidable (_ ∨ _))

/-- `_active_ci_check_count_locked`. -/
def activeCount (listed : List ℕ) (excluded : Option ℕ) : ℕ :=
  (((st.queueRecords listed).filter fun e => some e.2.taskId ≠ excluded ∧ st.Counts e.2).map
    fun e => e.2.taskId).toFinset.card

/-- `_ci_report_limit_reached_locked`. -/
def LimitReached (listed : List ℕ) (excluded : Option ℕ) : Prop :=
  0 < st.parallelLimit ∧ st.parallelLimit ≤ st.activeCount listed excluded

instance (listed : List ℕ) (excluded : Option ℕ) : Decidable (st.LimitReached listed excluded) :=
  inferInstanceAs (Decidable (_ ∧ _))

/-- `_mark_ci_check_claimed`, and the save under the lock. -/
def claimAt (a id : ℕ) : Service :=
  let marked := (st.update a CiTaskRecord.markRunning).saveNow a
  { marked with active := insert id st.active, checks := st.checks ++ [id] }

/-- `_claim_ci_check`. -/
def claim (a : ℕ) (listed : List ℕ) : Bool × Service :=
  match st.at? a with
  | none => (false, st)
  | some r =>
    if ¬ r.status.Active then (false, st)
    else if st.LimitReached listed (some r.taskId) then
      (false, (st.update a CiTaskRecord.markPending).saveNow a)
    else (true, st.claimAt a r.taskId)

/-- The record that waits longest. -/
def firstPending (listed : List ℕ) : Option (Option ℕ × CiTaskRecord) :=
  ((st.queueRecords listed).filter fun e => e.2.status.Waiting).argmin fun e => e.2.createdAt

/-- `_claim_next_pending_ci_check`. -/
def claimNext (listed : List ℕ) : Option ℕ × Service :=
  if st.LimitReached listed none then (none, st)
  else
    match st.firstPending listed with
    | none => (none, st)
    | some (some a, r) => (some a, st.claimAt a r.taskId)
    | some (none, r) => (some st.heap.length, (st.cache r).claimAt st.heap.length r.taskId)

/-- The claim is given back, as there is no runner for the record. -/
def giveBack (a : ℕ) : Service :=
  match st.at? a with
  | none => st
  | some r =>
    let pending := (st.update a CiTaskRecord.markPending).saveNow a
    { pending with active := st.active.erase r.taskId, checks := st.checks.erase r.taskId }

/-- The block of `stop_ci_task` under the lock. -/
def stop (a : ℕ) : Bool × Service :=
  match st.at? a with
  | none => (false, st)
  | some r =>
    if ¬ r.status.Active then (false, st)
    else
      let stopped := (st.update a CiTaskRecord.markStopped).saveNow a
      (true, { stopped with
        stopRequested := insert r.taskId st.stopRequested
        active := st.active.erase r.taskId })

/-- A status is written, unless a stop was requested. -/
def unlessStopped (a : ℕ) (f : CiTaskRecord → CiTaskRecord) : Bool × Service :=
  match st.at? a with
  | none => (true, st)
  | some r => if r.taskId ∈ st.stopRequested then (true, st) else (false, st.update a f)

/-- The claim is released, at the end of the check. -/
def release (a : ℕ) : Service :=
  match st.at? a with
  | none => st
  | some r =>
    { st with
      active := st.active.erase r.taskId
      stopRequested := st.stopRequested.erase r.taskId
      checks := st.checks.erase r.taskId }

/-- A temporary file takes the place of the record's file. -/
def replace (temp : ℕ) : Service :=
  match st.temps[temp]? with
  | some (some r) => { st.put r with temps := st.temps.set temp none }
  | _ => st

def ofRecord {α : Type} (a : ℕ) (otherwise : α) (f : CiTaskRecord → α) : α :=
  match st.at? a with
  | none => otherwise
  | some r => f r

end Service

/-! Statements. -/

inductive Stmt where
  | draw (language : String) (createdAt : ℕ)
  | lookup (id : ℕ)
  | load (id : ℕ)
  | cache (record : CiTaskRecord)
  | hasManager
  | hasRunner (a : ℕ)
  | statusActive (a : ℕ)
  | statusWaiting (a : ℕ)
  | statusRunning (a : ℕ)
  | isActive (a : ℕ)
  | isLive (a : ℕ)
  | setInterrupted (a : ℕ)
  | write (a : ℕ)
  | replace (temp : ℕ)
  | claim (a : ℕ) (listed : List ℕ)
  | claimNext (listed : List ℕ)
  | giveBack (a : ℕ)
  | stop (a : ℕ)
  | stopRequested (a : ℕ)
  | setRunning (a : ℕ)
  | setWorkspace (a : ℕ) (workspace : String)
  | mark (a : ℕ)
  | unmark (a : ℕ)
  | runs (a : ℕ)
  | returns (a : ℕ)
  | finish (a : ℕ) (passed : Bool) (summary : String)
  | crash (a : ℕ) (error : String)
  | release (a : ℕ)

abbrev Stmt.Answer : Stmt → Type
  | .draw .. => ℕ × ℕ
  | .cache _ | .write _ => ℕ
  | .lookup _ | .claimNext _ => Option ℕ
  | .load _ => Option CiTaskRecord
  | .hasManager | .hasRunner _ | .statusActive _ | .statusWaiting _ | .statusRunning _ => Bool
  | .isActive _ | .isLive _ | .claim .. | .stop _ | .stopRequested _ | .finish .. | .crash .. => Bool
  | _ => Unit

def Stmt.exec : (s : Stmt) → Service → s.Answer × Service
  | .draw language createdAt, st =>
    ((st.freshId, st.heap.length),
      st.cache { taskId := st.freshId, status := .queued, language, createdAt })
  | .lookup id, st => (st.cached id, st)
  | .load id, st => (st.load id, st)
  | .cache r, st => (st.heap.length, st.cache r)
  | .hasManager, st => (st.managed, st)
  | .hasRunner a, st => (st.ofRecord a false fun r => st.handled r.language, st)
  | .statusActive a, st => (st.ofRecord a false fun r => r.status.Active, st)
  | .statusWaiting a, st => (st.ofRecord a false fun r => r.status.Waiting, st)
  | .statusRunning a, st => (st.ofRecord a false fun r => r.status = .running, st)
  | .isActive a, st => (st.ofRecord a true fun r => r.taskId ∈ st.active, st)
  | .isLive a, st => (st.ofRecord a true fun r => r.taskId ∈ st.live, st)
  | .setInterrupted a, st => ((), st.update a CiTaskRecord.markInterrupted)
  | .write a, st => (st.temps.length, { st with temps := st.temps ++ [st.at? a] })
  | .replace temp, st => ((), st.replace temp)
  | .claim a listed, st => st.claim a listed
  | .claimNext listed, st => st.claimNext listed
  | .giveBack a, st => ((), st.giveBack a)
  | .stop a, st => st.stop a
  | .stopRequested a, st => (st.ofRecord a true fun r => r.taskId ∈ st.stopRequested, st)
  | .setRunning a, st => ((), st.update a CiTaskRecord.markRunning)
  | .setWorkspace a workspace, st => ((), st.update a (CiTaskRecord.inWorkspace workspace))
  | .mark a, st =>
    ((), st.ofRecord a st fun r =>
      if st.marked then { st with inflight := insert r.taskId st.inflight } else st)
  | .unmark a, st => ((), st.ofRecord a st fun r => { st with inflight := st.inflight.erase r.taskId })
  | .runs a, st => ((), st.ofRecord a st fun r => { st with runs := st.runs ++ [r.taskId] })
  | .returns _, st => ((), st)
  | .finish a passed summary, st => st.unlessStopped a (CiTaskRecord.markFinished passed summary)
  | .crash a error, st => st.unlessStopped a (CiTaskRecord.markCrashed error)
  | .release a, st => ((), st.release a)

/-! Programs. -/

inductive CiError where
  | unknown (id : ℕ)
  | terminal (id : ℕ)
  deriving DecidableEq, Repr

abbrev CiProg := Prog Stmt Stmt.Answer CiError

def ask (s : Stmt) : CiProg s.Answer := Prog.perform s

/-- What the callback does: there is none, it reports the result, or it raises. -/
inductive Callback where
  | none
  | reported
  | raises (error : String)
  deriving DecidableEq, Repr

/-- What the workspace manager and the runner do with a check. -/
inductive Outcome where
  | unprepared (error : String)
  | crashed (workspace error : String)
  | finished (workspace : String) (passed : Bool) (summary : String) (callback : Callback)
  deriving DecidableEq, Repr

/-- What a scan of the store lists, and what becomes of the check that it claims. -/
structure Scan where
  listed : List ℕ
  outcome : Outcome
  deriving DecidableEq, Repr

/-- What `_load_record` answers: nothing, a terminal record of its own, or a
cached object. -/
inductive Loaded where
  | missing
  | settled (record : CiTaskRecord)
  | shared (a : ℕ)

def save (a : ℕ) : CiProg Unit := do
  let temp ← ask (.write a)
  ask (.replace temp)

def cacheLoaded (r : CiTaskRecord) : CiProg Loaded := do
  let a ← ask (.cache r)
  pure (.shared a)

/-- `_load_record`. -/
def loadRecord (id : ℕ) : CiProg Loaded := do
  match ← ask (.lookup id) with
  | some a => pure (.shared a)
  | none =>
    match ← ask (.load id) with
    | none => pure .missing
    | some r => if r.status.Active then cacheLoaded r else pure (.settled r)

/-- What follows the runner in `_run_check`. The answer is what was raised, if anything. -/
def settle (a : ℕ) (passed : Bool) (summary : String) (callback : Callback) :
    CiProg (Option String) := do
  if ← ask (.finish a passed summary) then pure none
  else
    match callback with
    | .none => save a; pure none
    | .reported => save a; save a; pure none
    | .raises error => pure (some error)

/-- The check is run. -/
def runRunner (a : ℕ) (settled : CiProg (Option String)) : CiProg (Option String) := do
  ask (.runs a)
  ask (.returns a)
  settled

/-- `_run_check` from the workspace on. -/
def runPrepared (a : ℕ) (workspace : String) (settled : CiProg (Option String)) :
    CiProg (Option String) := do
  ask (.setWorkspace a workspace)
  save a
  if ← ask (.stopRequested a) then pure none else runRunner a settled

/-- `_run_check` after its first look at the stop requests. -/
def runStarted (a : ℕ) (outcome : Outcome) : CiProg (Option String) := do
  ask (.setRunning a)
  save a
  match outcome with
  | .unprepared error => pure (some error)
  | .crashed workspace error => runPrepared a workspace (pure (some error))
  | .finished workspace passed summary callback =>
    runPrepared a workspace (settle a passed summary callback)

/-- `_run_check`. -/
def runCheckBody (a : ℕ) (outcome : Outcome) : CiProg (Option String) := do
  if ← ask (.stopRequested a) then pure none else runStarted a outcome

/-- The handler of an exception of `_run_check`. -/
def handleRaise (a : ℕ) (raised : Option String) : CiProg Unit := do
  match raised with
  | none => pure ()
  | some error => if ← ask (.crash a error) then pure () else save a

/-- `_run_claimed_ci_check`. -/
def runClaimed (a : ℕ) (outcome : Outcome) : CiProg Unit := do
  ask (.mark a)
  let raised ← runCheckBody a outcome
  handleRaise a raised
  ask (.unmark a)
  ask (.release a)

/-- The loop of `_run_check_and_drain`, as far as the scans of the run go. -/
def drain : List Scan → CiProg Unit
  | [] => pure ()
  | scan :: scans => do
    match ← ask (.claimNext scan.listed) with
    | none => pure ()
    | some a => runClaimed a scan.outcome; drain scans

/-- `_run_check_and_drain`. -/
def runCheckAndDrain (a : ℕ) (outcome : Outcome) (scans : List Scan) : CiProg Unit := do
  runClaimed a outcome
  drain scans

/-- The thread that `_start_pending_ci_checks_if_possible` starts, its caller
being at its end. -/
def startClaimed (a : ℕ) (outcome : Outcome) (scans : List Scan) : CiProg Unit := do
  if ← ask (.hasRunner a) then runCheckAndDrain a outcome scans else ask (.giveBack a)

/-- `_start_pending_ci_checks_if_possible`. -/
def startPending : List Scan → CiProg Unit
  | [] => pure ()
  | scan :: scans => do
    if ← ask .hasManager then
      match ← ask (.claimNext scan.listed) with
      | none => pure ()
      | some a => startClaimed a scan.outcome scans
    else pure ()

def claimAndRun (a : ℕ) (listed : List ℕ) (outcome : Outcome) (scans : List Scan) : CiProg Unit := do
  if ← ask (.statusActive a) then
    if ← ask (.claim a listed) then runCheckAndDrain a outcome scans else pure ()
  else pure ()

/-- `run_check`. -/
def runCheck (id : ℕ) (listed : List ℕ) (outcome : Outcome) (scans : List Scan) : CiProg Unit := do
  match ← loadRecord id with
  | .shared a =>
    if ← ask .hasManager then
      if ← ask (.hasRunner a) then claimAndRun a listed outcome scans else pure ()
    else pure ()
  | _ => pure ()

def saveInterrupted (a : ℕ) : CiProg Unit := do
  ask (.setInterrupted a)
  save a

/-- `_mark_orphaned_running_record_interrupted`. -/
def markOrphaned (a : ℕ) : CiProg Unit := do
  if ← ask (.statusRunning a) then
    if ← ask (.isActive a) then pure ()
    else if ← ask (.isLive a) then pure () else saveInterrupted a
  else pure ()

/-- `get`. -/
def get (id : ℕ) (scans : List Scan) : CiProg Unit := do
  match ← loadRecord id with
  | .shared a =>
    markOrphaned a
    if ← ask (.statusWaiting a) then startPending scans else pure ()
  | _ => pure ()

/-- `stop_ci_task`. -/
def stopCiTask (id : ℕ) (scans : List Scan) : CiProg Unit := do
  match ← loadRecord id with
  | .missing => .raise (.unknown id)
  | .settled _ => .raise (.terminal id)
  | .shared a => if ← ask (.stop a) then startPending scans else .raise (.terminal id)

/-- `submit`. A check that is not run inline is left to a call of `run_check`. -/
def submit (language : String) (createdAt : ℕ) (inline_ : Option (Outcome × List ℕ × List Scan)) :
    CiProg Unit := do
  let drawn ← ask (.draw language createdAt)
  save drawn.2
  match inline_ with
  | none => pure ()
  | some (outcome, listed, scans) => runCheck drawn.1 listed outcome scans

inductive Call where
  | submit (language : String) (createdAt : ℕ) (inline_ : Option (Outcome × List ℕ × List Scan))
  | runCheck (id : ℕ) (listed : List ℕ) (outcome : Outcome) (scans : List Scan)
  | get (id : ℕ) (scans : List Scan)
  | stopCiTask (id : ℕ) (scans : List Scan)
  | recoverCiQueue (scans : List Scan)
  deriving DecidableEq, Repr

def Call.body : Call → CiProg Unit
  | .submit language createdAt inline_ => Ci.submit language createdAt inline_
  | .runCheck id listed outcome scans => Ci.runCheck id listed outcome scans
  | .get id scans => Ci.get id scans
  | .stopCiTask id scans => Ci.stopCiTask id scans
  | .recoverCiQueue scans => startPending scans

abbrev CiSystem := System Service Stmt Stmt.Answer CiError Call

/-- The next turn of the service. -/
def CiSystem.next (sys : CiSystem) (t : Turn Call) : CiSystem := System.turn Stmt.exec Call.body sys t

end Uta.Ci
