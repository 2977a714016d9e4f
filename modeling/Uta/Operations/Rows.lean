/- The workflow operation ledger: its rows, the statements it issues and its six
mutating operations, each one transaction. -/
import Uta.Lib.Table
import Uta.Lib.Transaction
import Mathlib.Data.Rat.Defs

namespace Uta.Operations
open Uta.Lib

inductive Status where
  | started | completed | failed | cancelled
  deriving DecidableEq, Repr

def Status.text : Status → String
  | .started => "STARTED"
  | .completed => "COMPLETED"
  | .failed => "FAILED"
  | .cancelled => "CANCELLED"

/-- `text.lower()` of the two statuses `_finish_workflow_operation` writes. -/
def Status.lower : Status → String
  | .started => "started"
  | .completed => "completed"
  | .failed => "failed"
  | .cancelled => "cancelled"

def Status.Terminal (s : Status) : Prop := s ≠ .started

instance (s : Status) : Decidable s.Terminal := inferInstanceAs (Decidable (s ≠ .started))

/-- A dict of fingerprints as its items in key order. `json_dumps` sorts the keys,
so two stored texts agree exactly when these lists do. -/
abbrev Fingerprints := List (String × String)

/-- One row of `workflow_operations`. The prerequisite column is kept decoded:
`none` stands for a text that is not a JSON list. -/
structure OperationRow where
  operationId : String
  repoTaskId : Int
  workflowRunId : String
  unitId : String
  phase : String
  operationStep : String
  attempt : Int
  executionOrdinal : Int
  status : Status
  inputFingerprint : String
  resultingWorkspaceFingerprint : Option String := none
  resultArtifactPath : Option String := none
  resultArtifactSha256 : Option String := none
  outputFingerprints : Fingerprints := []
  prerequisiteOperationIds : Option (List String)
  schemaVersion : Int
  sessionId : Option String := none
  supersededByOperationId : Option String := none
  startedAt : String
  completedAt : Option String := none
  updatedAt : String
  errorKind : Option String := none
  error : Option String := none
  deriving DecidableEq, Repr

/-- A Python float as SQLite sees it. -/
inductive PyFloat where
  | finite (q : ℚ)
  | infinite (negative : Bool)
  | nan
  deriving DecidableEq, Repr

/-- What a REAL column holds after binding a float: NaN is stored as NULL. -/
def PyFloat.stored : PyFloat → Option PyFloat
  | .nan => none
  | x => some x

/-- `==` of a stored REAL and a Python float or None. -/
def sameCost : Option PyFloat → Option PyFloat → Bool
  | none, none => true
  | some .nan, _ => false
  | some x, some y => decide (x = y)
  | _, _ => false

/-- One row of `workflow_operation_accounting`. -/
structure AccountingRow where
  operationId : String
  paidAttemptOrdinal : Int
  providerCostUsd : Option PyFloat
  costProvenance : String
  usageJson : String
  createdAt : String
  deriving DecidableEq, Repr

abbrev AccountingRow.key (a : AccountingRow) : String × Int := (a.operationId, a.paidAttemptOrdinal)

structure Ledger where
  /-- The ids of `repo_tasks`, which the foreign key refers to. -/
  repoTasks : List Int
  operations : Table OperationRow.operationId
  accounting : Table AccountingRow.key

def Ledger.fresh (repoTasks : List Int) : Ledger := ⟨repoTasks, .empty, .empty⟩

/-- UPDATE of one row of `workflow_operations` by its primary key. -/
def Ledger.update (L : Ledger) (operationId : String) (f : OperationRow → OperationRow)
    (same : ∀ r, (f r).operationId = r.operationId) : Ledger :=
  { L with operations := L.operations.modify operationId f same }

/-- INSERT of one row of `workflow_operations`. -/
def Ledger.add (L : Ledger) (r : OperationRow)
    (fresh : r.operationId ∉ L.operations.rows.map OperationRow.operationId) : Ledger :=
  { L with operations := L.operations.insert r fresh }

namespace Ledger
variable (L : Ledger) (k j : String) (f g : OperationRow → OperationRow)
  (hf : ∀ r, (f r).operationId = r.operationId) (hg : ∀ r, (g r).operationId = r.operationId)

theorem find?_update : (L.update k f hf).operations.find? j =
    if j = k then (L.operations.find? k).map f else L.operations.find? j :=
  Table.find?_modify L.operations k f hf j

theorem find?_add (r : OperationRow)
    (fresh : r.operationId ∉ L.operations.rows.map OperationRow.operationId) :
    (L.add r fresh).operations.find? j =
      if r.operationId = j then some r else L.operations.find? j :=
  Table.find?_insert L.operations r fresh j

theorem keys_update : (L.update k f hf).operations.rows.map OperationRow.operationId =
    L.operations.rows.map OperationRow.operationId := Table.keys_modify L.operations k f hf

/-- Two UPDATEs of one row around the INSERT of another are one UPDATE before it. -/
theorem update_add_update (hgf : ∀ r, (g (f r)).operationId = r.operationId) (r : OperationRow)
    (fresh : r.operationId ∉ (L.update k f hf).operations.rows.map OperationRow.operationId)
    (fresh' : r.operationId ∉
      (L.update k (fun r => g (f r)) hgf).operations.rows.map OperationRow.operationId)
    (ne : r.operationId ≠ k) :
    ((L.update k f hf).add r fresh).update k g hg =
      (L.update k (fun r => g (f r)) hgf).add r fresh' := by
  have free : r.operationId ∉ (L.operations.modify k f hf).rows.map OperationRow.operationId :=
    fresh
  have free' : r.operationId ∉
      (L.operations.modify k (fun r => g (f r)) hgf).rows.map OperationRow.operationId := fresh'
  have tables : ((L.operations.modify k f hf).insert r free).modify k g hg =
      (L.operations.modify k (fun r => g (f r)) hgf).insert r free' := by
    rw [Table.modify_insert _ k g hg r free (by rwa [Table.keys_modify]) ne]
    apply Table.ext_rows
    rw [Table.insert_rows, Table.insert_rows, Table.modify_modify _ k f g hf hg hgf]
  exact congrArg (fun t => { L with operations := t }) tables

end Ledger

inductive LedgerError where
  | conflict (message : String)
  | notFound (message : String)
  | integrity (constraint : String)
  deriving DecidableEq, Repr

abbrev Tx := Act Ledger LedgerError

/-! The statements. -/

def selectOperation (operationId : String) : Tx (Option OperationRow) := fun L =>
  (.ok (L.operations.find? operationId), L)

def requireWorkflowOperation (operationId : String) : Tx OperationRow := do
  match ← selectOperation operationId with
  | some row => pure row
  | none => .raise (.notFound s!"workflow operation {operationId} not found")

/-- The CHECK constraints of the table. -/
def OperationRow.Checked (r : OperationRow) : Prop :=
  r.operationStep ∈ ["turn", "interpret", "deterministic"] ∧ 0 ≤ r.attempt ∧ 0 ≤ r.executionOrdinal

instance (r : OperationRow) : Decidable r.Checked :=
  inferInstanceAs (Decidable (_ ∈ _ ∧ _ ∧ _))

def insertOperation (row : OperationRow) : Tx Unit := fun L =>
  if row.Checked then
    if fresh : row.operationId ∉ L.operations.rows.map OperationRow.operationId then
      if row.repoTaskId ∈ L.repoTasks then
        (.ok (), L.add row fresh)
      else (.error (.integrity "FOREIGN KEY constraint failed"), L)
    else (.error (.integrity "UNIQUE constraint failed: workflow_operations.operation_id"), L)
  else (.error (.integrity "CHECK constraint failed"), L)

def updateOperation (operationId : String) (f : OperationRow → OperationRow)
    (same : ∀ r, (f r).operationId = r.operationId) : Tx Unit := fun L =>
  (.ok (), L.update operationId f same)

def insertAccounting (row : AccountingRow) : Tx Unit := fun L =>
  if 0 < row.paidAttemptOrdinal ∧ row.costProvenance ∈ ["recorded", "unavailable"] then
    if fresh : row.key ∉ L.accounting.rows.map AccountingRow.key then
      if row.operationId ∈ L.operations.rows.map OperationRow.operationId then
        (.ok (), { L with accounting := L.accounting.insert row fresh })
      else (.error (.integrity "FOREIGN KEY constraint failed"), L)
    else (.error (.integrity "UNIQUE constraint failed: workflow_operation_accounting"), L)
  else (.error (.integrity "CHECK constraint failed"), L)

/-! The operations. `now` is the clock reading `now_iso()` of the call. -/

/-- The arguments `start_workflow_operation` and `retry_workflow_operation` share. -/
structure StartArgs where
  operationId : String
  repoTaskId : Int
  workflowRunId : String
  unitId : String
  phase : String
  operationStep : String
  attempt : Int
  executionOrdinal : Int
  inputFingerprint : String
  prerequisiteOperationIds : List String
  schemaVersion : Int
  deriving DecidableEq, Repr

/-- The row both INSERT statements write; a retry has no session. -/
def StartArgs.row (a : StartArgs) (now : String) (sessionId : Option String) : OperationRow where
  operationId := a.operationId
  repoTaskId := a.repoTaskId
  workflowRunId := a.workflowRunId
  unitId := a.unitId
  phase := a.phase
  operationStep := a.operationStep
  attempt := a.attempt
  executionOrdinal := a.executionOrdinal
  status := .started
  inputFingerprint := a.inputFingerprint
  prerequisiteOperationIds := some a.prerequisiteOperationIds
  schemaVersion := a.schemaVersion
  sessionId
  startedAt := now
  updatedAt := now

/-- `stored == immutable` in `start_workflow_operation`. -/
def StartArgs.Matches (a : StartArgs) (sessionId : Option String) (r : OperationRow) : Prop :=
  r.repoTaskId = a.repoTaskId ∧ r.workflowRunId = a.workflowRunId ∧ r.unitId = a.unitId ∧
  r.phase = a.phase ∧ r.operationStep = a.operationStep ∧ r.attempt = a.attempt ∧
  r.executionOrdinal = a.executionOrdinal ∧ r.inputFingerprint = a.inputFingerprint ∧
  r.prerequisiteOperationIds = some a.prerequisiteOperationIds ∧
  r.schemaVersion = a.schemaVersion ∧ r.sessionId = sessionId

instance (a : StartArgs) (sessionId : Option String) (r : OperationRow) :
    Decidable (a.Matches sessionId r) := by unfold StartArgs.Matches; infer_instance

def startWorkflowOperation (now : String) (a : StartArgs) (sessionId : Option String) :
    Tx OperationRow := .transaction do
  match ← selectOperation a.operationId with
  | some existing =>
    if a.Matches sessionId existing then pure existing
    else .raise (.conflict s!"workflow operation {a.operationId} conflicts with stored identity")
  | none =>
    insertOperation (a.row now sessionId)
    requireWorkflowOperation a.operationId

/-- The evidence of a completion. -/
structure CompleteArgs where
  resultingWorkspaceFingerprint : String
  resultArtifactPath : String
  resultArtifactSha256 : String
  outputFingerprints : Fingerprints
  sessionId : Option String := none
  deriving DecidableEq, Repr

/-- `stored == completed_values`. -/
def CompleteArgs.Matches (e : CompleteArgs) (r : OperationRow) : Prop :=
  r.resultingWorkspaceFingerprint = some e.resultingWorkspaceFingerprint ∧
  r.resultArtifactPath = some e.resultArtifactPath ∧
  r.resultArtifactSha256 = some e.resultArtifactSha256 ∧
  r.outputFingerprints = e.outputFingerprints

instance (e : CompleteArgs) (r : OperationRow) : Decidable (e.Matches r) := by
  unfold CompleteArgs.Matches; infer_instance

/-- The UPDATE of a completion, `WHERE status='STARTED'`. -/
def completedRow (now : String) (e : CompleteArgs) (r : OperationRow) : OperationRow :=
  if r.status = .started then
    { r with
      status := .completed
      resultingWorkspaceFingerprint := some e.resultingWorkspaceFingerprint
      resultArtifactPath := some e.resultArtifactPath
      resultArtifactSha256 := some e.resultArtifactSha256
      outputFingerprints := e.outputFingerprints
      sessionId := e.sessionId.or r.sessionId
      completedAt := some now
      updatedAt := now }
  else r

@[simp] theorem completedRow_operationId (now : String) (e : CompleteArgs) (r : OperationRow) :
    (completedRow now e r).operationId = r.operationId := by
  unfold completedRow; split <;> rfl

def completeWorkflowOperation (now : String) (operationId : String) (e : CompleteArgs) :
    Tx OperationRow := .transaction do
  let row ← requireWorkflowOperation operationId
  if row.status = .completed then
    if e.Matches row then
      if e.sessionId ≠ none ∧ row.sessionId ≠ e.sessionId then
        .raise (.conflict
          s!"workflow operation {operationId} is already completed with a different session")
      else pure row
    else .raise (.conflict
      s!"workflow operation {operationId} is already completed with different evidence")
  else if row.status ≠ .started then
    .raise (.conflict
      s!"workflow operation {operationId} cannot complete from {row.status.text}")
  else
    updateOperation operationId (completedRow now e) (completedRow_operationId now e)
    requireWorkflowOperation operationId

/-- The evidence of a failure or a cancellation. -/
structure FinishArgs where
  errorKind : String
  error : String
  resultingWorkspaceFingerprint : Option String := none
  resultArtifactPath : Option String := none
  resultArtifactSha256 : Option String := none
  outputFingerprints : Option Fingerprints := none
  sessionId : Option String := none
  deriving DecidableEq, Repr

/-- `stored == expected` in `_finish_workflow_operation`. -/
def FinishArgs.Matches (e : FinishArgs) (r : OperationRow) : Prop :=
  r.errorKind = some e.errorKind ∧ r.error = some e.error ∧
  r.resultingWorkspaceFingerprint = e.resultingWorkspaceFingerprint ∧
  r.resultArtifactPath = e.resultArtifactPath ∧
  r.resultArtifactSha256 = e.resultArtifactSha256 ∧
  (e.outputFingerprints ≠ none → some r.outputFingerprints = e.outputFingerprints) ∧
  (e.sessionId ≠ none → r.sessionId = e.sessionId)

instance (e : FinishArgs) (r : OperationRow) : Decidable (e.Matches r) := by
  unfold FinishArgs.Matches; infer_instance

/-- The UPDATE of a failure or cancellation; every evidence column is COALESCEd. -/
def finishedRow (now : String) (status : Status) (e : FinishArgs) (r : OperationRow) : OperationRow :=
  if r.status = .started then
    { r with
      status
      errorKind := some e.errorKind
      error := some e.error
      resultingWorkspaceFingerprint :=
        e.resultingWorkspaceFingerprint.or r.resultingWorkspaceFingerprint
      resultArtifactPath := e.resultArtifactPath.or r.resultArtifactPath
      resultArtifactSha256 := e.resultArtifactSha256.or r.resultArtifactSha256
      outputFingerprints := e.outputFingerprints.getD r.outputFingerprints
      sessionId := e.sessionId.or r.sessionId
      completedAt := some now
      updatedAt := now }
  else r

@[simp] theorem finishedRow_operationId (now : String) (status : Status) (e : FinishArgs)
    (r : OperationRow) : (finishedRow now status e r).operationId = r.operationId := by
  unfold finishedRow; split <;> rfl

def finishWorkflowOperation (now : String) (operationId : String) (status : Status)
    (e : FinishArgs) : Tx OperationRow := .transaction do
  let row ← requireWorkflowOperation operationId
  if row.status = status then
    if e.Matches row then pure row
    else .raise (.conflict
      s!"workflow operation {operationId} has different {status.lower} evidence")
  else if row.status ≠ .started then
    .raise (.conflict
      s!"workflow operation {operationId} cannot become {status.text} from {row.status.text}")
  else
    updateOperation operationId (finishedRow now status e) (finishedRow_operationId now status e)
    requireWorkflowOperation operationId

def failWorkflowOperation (now : String) (operationId errorKind error : String) : Tx OperationRow :=
  finishWorkflowOperation now operationId .failed { errorKind, error }

def cancelWorkflowOperation (now : String) (operationId : String) (e : FinishArgs) :
    Tx OperationRow :=
  finishWorkflowOperation now operationId .cancelled e

/-- The UPDATE that closes an interrupted execution, `WHERE status='STARTED'`. -/
def interruptedRow (now errorKind : String) (r : OperationRow) : OperationRow :=
  if r.status = .started then
    { r with
      status := .failed
      errorKind := some errorKind
      error := some errorKind
      completedAt := some now
      updatedAt := now }
  else r

@[simp] theorem interruptedRow_operationId (now errorKind : String) (r : OperationRow) :
    (interruptedRow now errorKind r).operationId = r.operationId := by
  unfold interruptedRow; split <;> rfl

def linkedRow (now successor : String) (r : OperationRow) : OperationRow :=
  { r with supersededByOperationId := some successor, updatedAt := now }

@[simp] theorem linkedRow_operationId (now successor : String) (r : OperationRow) :
    (linkedRow now successor r).operationId = r.operationId := rfl

/-- Python truth of a nullable text column: NULL and the empty text are false. -/
def Truthy (s : Option String) : Prop := s ≠ none ∧ s ≠ some ""

instance (s : Option String) : Decidable (Truthy s) := inferInstanceAs (Decidable (_ ∧ _))

def retryWorkflowOperation (now : String) (oldOperationId : String) (a : StartArgs)
    (errorKind : String := "crash_no_observable_effect") : Tx OperationRow := .transaction do
  let old ← requireWorkflowOperation oldOperationId
  if Truthy old.supersededByOperationId then
    if old.supersededByOperationId ≠ some a.operationId then
      .raise (.conflict
        s!"workflow operation {oldOperationId} already has another successor")
    else requireWorkflowOperation a.operationId
  else if old.status ∉ [.started, .failed, .cancelled] then
    .raise (.conflict
      s!"workflow operation {oldOperationId} cannot be retried from {old.status.text}")
  else
    if old.status = .started then
      updateOperation oldOperationId (interruptedRow now errorKind)
        (interruptedRow_operationId now errorKind)
    insertOperation (a.row now none)
    updateOperation oldOperationId (linkedRow now a.operationId)
      (linkedRow_operationId now a.operationId)
    requireWorkflowOperation a.operationId

/-- `usageJson` is the text `json_dumps(usage or {})`. -/
def recordWorkflowOperationCost (now : String) (operationId : String) (paidAttemptOrdinal : Int)
    (providerCostUsd : Option PyFloat) (usageJson : String) : Tx AccountingRow := .transaction do
  let provenance := if providerCostUsd = none then "unavailable" else "recorded"
  let L ← Act.read
  match L.accounting.find? (operationId, paidAttemptOrdinal) with
  | some existing =>
    if sameCost existing.providerCostUsd providerCostUsd ∧ existing.costProvenance = provenance ∧
        existing.usageJson = usageJson then pure existing
    else .raise (.conflict
      s!"paid attempt {operationId}/{paidAttemptOrdinal} already recorded")
  | none =>
    let row : AccountingRow := ⟨operationId, paidAttemptOrdinal,
      providerCostUsd.bind PyFloat.stored, provenance, usageJson, now⟩
    insertAccounting row
    pure row

/-- One call on the ledger, with all its arguments but the clock. -/
inductive Call where
  | start (a : StartArgs) (sessionId : Option String)
  | complete (operationId : String) (e : CompleteArgs)
  | fail (operationId errorKind error : String)
  | cancel (operationId : String) (e : FinishArgs)
  | retry (oldOperationId : String) (a : StartArgs) (errorKind : String)
  | cost (operationId : String) (paidAttemptOrdinal : Int) (providerCostUsd : Option PyFloat)
      (usageJson : String)

def Call.exec (now : String) : Call → Tx Unit
  | .start a sessionId => discard (startWorkflowOperation now a sessionId)
  | .complete operationId e => discard (completeWorkflowOperation now operationId e)
  | .fail operationId errorKind error => discard (failWorkflowOperation now operationId errorKind error)
  | .cancel operationId e => discard (cancelWorkflowOperation now operationId e)
  | .retry oldOperationId a errorKind =>
      discard (retryWorkflowOperation now oldOperationId a errorKind)
  | .cost operationId ordinal costUsd usage =>
      discard (recordWorkflowOperationCost now operationId ordinal costUsd usage)

end Uta.Operations
