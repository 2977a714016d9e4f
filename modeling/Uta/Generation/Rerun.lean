/- The operations on the rows of a task: the statements, the counts, and the
clean rerun that gives every row a new batch. -/
import Uta.Generation.Batches
import Uta.Enforce.Equivalence
import Mathlib

namespace Uta.Generation
open Uta.Lib Uta.Tasks
open Uta.Lib.Blocks (chunks)
open Uta.Enforce (jsonLoads)

/-! Counts. -/

structure Aggregate where
  classCount : ℕ
  completedClasses : ℕ
  passedClasses : ℕ
  failedClasses : ℕ
  deriving DecidableEq, Repr

/-- The rows of a task, in no order. -/
def Store.classRows (store : Store) (taskId : ℕ) : List ClassTask :=
  store.world.classes.rows.filter fun c => c.repoTaskId = taskId

/-- The counts of `aggregate_repo_task`. -/
def Store.aggregateRepoTask (store : Store) (taskId : ℕ) : Aggregate :=
  let rows := store.classRows taskId
  { classCount := rows.length
    completedClasses := (rows.filter fun c => c.status.text ∈
      ["PASS", "FAIL", "MUTATION_FAIL", "BUDGET_EXCEEDED", "PROVIDER_ERROR", "PROVIDER_RATE_LIMITED",
        "PUSH_FAILED", "UNSAFE_DIFF", "LLM_STALLED", "CANCELLED"]).length
    passedClasses := (rows.filter fun c => c.status.text = "PASS").length
    failedClasses := (rows.filter fun c => c.status.text ∉
      ["PASS", "CREATED", "PENDING", "QUEUED", "RUNNING", "STOPPED", "GENERATED"]).length }

/-- `_refresh_repo_counts`. -/
def Store.refreshRepoCounts (store : Store) (taskId : ℕ) : Store :=
  let counts := store.aggregateRepoTask taskId
  { store with
    account := Function.update store.account taskId
      { store.account taskId with
        totalClasses := counts.classCount
        completedClasses := counts.completedClasses
        passedClasses := counts.passedClasses
        failedClasses := counts.failedClasses } }

/-! Statements. -/

/-- The first row id that SQLite no longer gives. -/
def rowLimit : ℕ := 2 ^ 63

/-- `create_class_task`: a row that is there already gets its target if it has
none, and an inserted row starts without a batch. -/
def Store.createClassTask (store : Store) (taskId : ℕ) (classFqn : String) (priority : ℤ) : Store :=
  match store.world.findClassTask taskId classFqn with
  | some c =>
    { store with
      identity := Function.update store.identity c.id
        { store.identity c.id with targetId := some (textOr (store.identity c.id).targetId classFqn) } }
  | none =>
    if store.world.nextClassId < rowLimit then
      { store with
        world := store.world.createClassTask taskId classFqn priority
        identity := Function.update store.identity store.world.nextClassId ⟨some classFqn, none⟩ }
    else store

/-- The store after a statement. -/
def Store.perform (store : Store) : Stmt → Store
  | .createClassTask taskId classFqn priority => store.createClassTask taskId classFqn priority
  | s => { store with world := (s.exec store.world).2 }

/-! The clean rerun. -/

inductive RerunError where
  | refused (e : TaskError)
  | malformedKey (classId : ℕ) (key : String)
  /-- The configured batch size is not one that `int` reads. -/
  | batchSize
  /-- A unique index of the supersessions. -/
  | integrity
  deriving DecidableEq, Repr

/-- The arguments of a clean rerun, with what it takes from its surroundings: the
user's name and the ids that `uuid4` gives. -/
structure RerunRequest where
  args : RerunArgs
  requestedBy : Option String := none
  user : String := ""
  defaultBatchSize : ℤ := 1
  drawn : UuidHex
  recordIds : ℕ → String

def RerunRequest.policy (request : RerunRequest) : String :=
  if request.args.forceRerunAll then "all" else if request.args.forceRerunFailed then "failed"
  else "ordinary"

def RerunRequest.reason (request : RerunRequest) : String :=
  String.ofList (PyText.strip request.args.reason.toList)

def RerunRequest.actor (request : RerunRequest) : String :=
  let name := textOr request.requestedBy (textOr (some request.user) "unknown")
  textOr (some (String.ofList (PyText.strip name.toList))) "unknown"

/-- An old run, with its units and its classes. -/
structure PriorRun where
  runId : String
  unitIds : List String
  classIds : List ℕ
  deriving DecidableEq, Repr

structure PriorIdentities where
  known : List PriorRun := []
  missing : List ℕ := []
  /-- The keys, once for each row that has one. -/
  keys : List String := []
  deriving DecidableEq, Repr

def PriorRun.note (unit : String) (classId : ℕ) (g : PriorRun) : PriorRun :=
  { g with
    unitIds := if unit ∈ g.unitIds then g.unitIds else g.unitIds ++ [unit]
    classIds := g.classIds ++ [classId] }

def noteKnown (run unit : String) (classId : ℕ) (known : List PriorRun) : List PriorRun :=
  if run ∈ known.map PriorRun.runId then
    known.map fun g => if g.runId = run then g.note unit classId else g
  else known ++ [PriorRun.note unit classId ⟨run, [], []⟩]

/-- The loop of `_prior_identities`. -/
def priorIdentitiesFrom (prior : PriorIdentities) : List BatchRow → Except RerunError PriorIdentities
  | [] => .ok prior
  | row :: rows =>
    match row.batchKey with
    | none => priorIdentitiesFrom { prior with missing := prior.missing ++ [row.id] } rows
    | some key =>
      if PyText.strip key.toList = [] then
        priorIdentitiesFrom { prior with missing := prior.missing ++ [row.id] } rows
      else
        match splitKey key with
        | none => .error (.malformedKey row.id key)
        | some (run, unit) =>
          if validIdentifier run = true ∧ validIdentifier unit = true then
            priorIdentitiesFrom
              { prior with
                known := noteKnown run unit row.id prior.known
                keys := prior.keys ++ [key] } rows
          else .error (.malformedKey row.id key)

def priorIdentities (rows : List BatchRow) : Except RerunError PriorIdentities :=
  priorIdentitiesFrom {} rows

/-- The size of the largest old batch. -/
def PriorIdentities.inferred (prior : PriorIdentities) : ℕ :=
  (prior.keys.map fun key => prior.keys.count key).foldr max 0

/-- `int(value)`, where `pyInt` reads what is not an integer. -/
def intOf (pyInt : Json → Option ℤ) : Json → Option ℤ
  | .int n => some n
  | v => pyInt v

/-- `config.get("classes_per_agent_run") or config.get("classes_per_run")`, where it is truthy. -/
def configuredSize (config : List (String × Json)) : Option Json :=
  ((Dict.get? config "classes_per_agent_run").filter Json.truthy).or
    ((Dict.get? config "classes_per_run").filter Json.truthy)

/-- `_batch_size`. -/
def rerunBatchSize (pyInt : Json → Option ℤ) (config : List (String × Json)) (prior : PriorIdentities)
    (defaultBatchSize : ℤ) : Except RerunError ℕ :=
  match configuredSize config with
  | some configured =>
    match intOf pyInt configured with
    | some n => .ok (max n 1).toNat
    | none => .error .batchSize
  | none =>
    if prior.inferred ≠ 0 then .ok (max prior.inferred 1) else .ok (max defaultBatchSize 1).toNat

/-- `_partition`: the unit of each class, and the units. -/
def partitionRows (sha : Sha256) (rows : List BatchRow) (batchSize : ℕ) :
    List (ℕ × String) × List String :=
  let parts := ((chunks batchSize rows).zipIdx 1).map fun (members, index) =>
    (members.map BatchRow.id, unitId sha index (members.map BatchRow.target))
  (parts.flatMap fun part => part.1.map fun id => (id, part.2), parts.map Prod.snd)

/-- `by_class[class_id]`. -/
def unitOf (byClass : List (ℕ × String)) (classId : ℕ) : String := (byClass.lookup classId).getD ""

/-- `_replace_keys_and_requeue`: what it writes of one row. -/
def Store.replaceKey (args : RerunArgs) (run : String) (byClass : List (ℕ × String)) (store : Store)
    (c : ClassTask) : Store :=
  { store with
    world := store.world.updateClassTask c.id
      (if World.requeueStatuses args c.status then World.rerunClassPatch else {})
    identity := Function.update store.identity c.id
      { store.identity c.id with batchKey := some (keyOf run (unitOf byClass c.id)) } }

/-- The statuses it returns. -/
def replacedStatuses (args : RerunArgs) (rows : List ClassTask) : List ClassStatus :=
  rows.map fun c => if World.requeueStatuses args c.status then .queued else c.status

section Records
variable (taskId : ℕ) (request : RerunRequest) (byClass : List (ℕ × String)) (now : Time)

def newUnitsFor (classIds : List ℕ) : List String := (classIds.map (unitOf byClass)).eraseDups

def supersession (n : ℕ) (oldRunId : Option String) (oldUnitIds : List String) (classIds : List ℕ) :
    Supersession where
  id := request.recordIds n
  repoTaskId := taskId
  oldRunId
  newRunId := request.drawn.text
  oldUnitIds
  newUnitIds := newUnitsFor byClass classIds
  affectedClassIds := classIds
  requeuePolicy := request.policy
  reason := request.reason
  requestedBy := request.actor
  requestedAt := now

/-- The records of `_insert_supersessions`. -/
def supersessionsOf (prior : PriorIdentities) : List Supersession :=
  (prior.known.zipIdx.map fun (g, n) =>
    supersession taskId request byClass now n (some g.runId) g.unitIds g.classIds) ++
  if prior.missing = [] then []
  else [supersession taskId request byClass now prior.known.length none [] prior.missing]

end Records

/-- Another record has the id, or supersedes the same run of the task by the same run. -/
def Supersession.Clashes (s t : Supersession) : Prop :=
  t.id = s.id ∨
    (s.oldRunId ≠ none ∧ t.repoTaskId = s.repoTaskId ∧ t.oldRunId = s.oldRunId ∧ t.newRunId = s.newRunId)

instance (s t : Supersession) : Decidable (s.Clashes t) := inferInstanceAs (Decidable (_ ∨ _))

def insertSupersessions : List Supersession → Act Store RerunError Unit
  | [] => pure ()
  | s :: rest => do
    let store ← .read
    if ∃ t ∈ store.supersessions, s.Clashes t then .raise .integrity
    else do
      .write { store with supersessions := store.supersessions ++ [s] }
      insertSupersessions rest

/-- The payloads that `parse_legacy_scope_opened_payload` accepts. -/
def parseLegacyScope (s : LegacyScope) : Option (String × String) :=
  if s.legacyRunId.toList.length = 32 ∧
      (∀ c ∈ s.legacyRunId.toList, c ∈ "0123456789abcdef".toList) ∧ validIdentifier s.language = true
  then some (s.legacyRunId, s.language) else none

def Store.priorLegacyScopes (store : Store) (taskId : ℕ) : List (String × String) :=
  ((store.legacyScopes.filter fun s => s.repoTaskId = taskId ∧ s.supersededAt = none).insertionSort
    fun s t => s.openedAt < t.openedAt ∨ (s.openedAt = t.openedAt ∧ s.legacyRunId ≤ t.legacyRunId)
    ).filterMap parseLegacyScope

def Store.supersedeLegacyScopes (store : Store) (taskId : ℕ) (newRunId : String) : Store :=
  { store with
    legacyScopes := store.legacyScopes.map fun s =>
      if s.repoTaskId = taskId ∧ s.supersededAt = none then
        { s with supersededAt := some store.world.now, supersededBy := some newRunId }
      else s }

/-- `_queue_task`. -/
def Store.queueTask (store : Store) (taskId : ℕ) (statuses : List ClassStatus) : Store :=
  { store with
    world := (store.world.updateTask taskId
      (fun r => (World.rerunTaskPatch r).apply store.world.now r) fun _ => rfl).acknowledgeControls
        taskId none
    account := Function.update store.account taskId
      { store.account taskId with
        completedClasses := (statuses.filter fun s => s.Terminal).length
        passedClasses := (statuses.filter fun s => s = .pass).length
        failedClasses := (statuses.filter fun s =>
          s ∉ [.pass, .created, .pending, .queued, .running, .stopped, .generated]).length } }

/-- `_insert_event`. -/
def Store.insertRerunEvent (store : Store) (taskId : ℕ) (payload : RerunPayload) : Store :=
  { store with
    world := store.world.addEvent <| EventArgs.row
      { taskId, eventType := "generation_cycle_clean_rerun_requested",
        message := "Clean generation rerun requested", stage := some "queued",
        severity := "WARNING", payload := [("reason", .text payload.reason)] }
    rerunPayloads := store.rerunPayloads ++ [payload] }

section Clean
variable (sha : Sha256) (pyInt : Json → Option ℤ) (taskId : ℕ) (request : RerunRequest)

/-- The body of the transaction, for a task that may be rerun. -/
def rerunEligible : Act Store RerunError String := do
  let store ← .read
  let rows := store.batchRows taskId
  let classes := store.world.listClassTasks taskId
  let scopes := store.priorLegacyScopes taskId
  let prior ← .lift (priorIdentities rows)
  let batchSize ← .lift (rerunBatchSize pyInt (jsonLoads (store.account taskId).configSnapshotJson.toList)
    prior request.defaultBatchSize)
  let parts := partitionRows sha rows batchSize
  .write (classes.foldl (Store.replaceKey request.args request.drawn.text parts.1) store)
  insertSupersessions (supersessionsOf taskId request parts.1 store.world.now prior)
  let store ← .read
  let queued := (store.supersedeLegacyScopes taskId request.drawn.text).queueTask taskId
    (replacedStatuses request.args classes)
  .write (queued.insertRerunEvent taskId
    { newRunId := request.drawn.text, newUnitIds := parts.2, oldRunIds := prior.known.map PriorRun.runId,
      oldLegacyScopes := scopes, missingClassIds := prior.missing, requeuePolicy := request.policy,
      reason := request.reason, requestedBy := request.actor })
  pure request.drawn.text

/-- `_validated_request`, `_require_eligible`, and what follows them. -/
def rerunChecked : Act Store RerunError String := do
  let store ← .read
  match store.world.rerunRefusal taskId request.args with
  | some e => .raise (.refused e)
  | none => rerunEligible sha pyInt taskId request

def cleanRerunGeneration : Act Store RerunError String :=
  Act.transaction (rerunChecked sha pyInt taskId request)

end Clean

/-! Operations. -/

/-- Any statement but the clean rerun, which has its own form here. -/
def Plain : Stmt → Prop
  | .cleanRerun .. => False
  | _ => True

/-- An operation on the database, by any process. -/
inductive Op where
  | stmt (s : Stmt) (plain : Plain s)
  | refreshRepoCounts (taskId : ℕ)
  | ensure (args : EnsureArgs)
  | cleanRerun (taskId : ℕ) (request : RerunRequest)

section Steps
variable (sha : Sha256) (pyInt : Json → Option ℤ)

def step (store : Store) : Op → Store
  | .stmt s _ => store.perform s
  | .refreshRepoCounts taskId => store.refreshRepoCounts taskId
  | .ensure args => Act.after (ensureStableGenerationBatches sha args) store
  | .cleanRerun taskId request => Act.after (cleanRerunGeneration sha pyInt taskId request) store

end Steps
end Uta.Generation
