/- Crash reconciliation: `classify` reads the ledger, the artifacts and the
workspace, and answers what a slot of work is to do next. -/
import Uta.Operations.Envelope
import Uta.Operations.Effects
import Mathlib.Data.List.MinMax

namespace Uta.Operations
open Uta.Lib

inductive ReconcileError where
  | artifact (e : ArtifactValidationError)
  | ledger (e : LedgerError)
  | missingRow
  | crash

/-- The ledger a process works on, and the writes it may still commit before it
crashes (`none`: it does not). -/
structure Desk where
  ledger : Ledger
  writesLeft : Option ℕ

abbrev Proc := Act Desk ReconcileError

def readLedger : Proc Ledger := fun d => (.ok d.ledger, d)

/-- Commit one transaction, unless the process crashes before it. -/
def commit {α : Type} (tx : Tx α) : Proc α := fun d =>
  if d.writesLeft = some 0 then (.error .crash, d)
  else
    match tx d.ledger with
    | (.ok a, L) => (.ok a, ⟨L, d.writesLeft.map (· - 1)⟩)
    | (.error e, L) => (.error (.ledger e), ⟨L, d.writesLeft.map (· - 1)⟩)

def checked {α : Type} (x : Checked α) : Proc α := .lift (x.mapError .artifact)

/-! Slots. -/

/-- The slot that executions of one step share. -/
structure Slot where
  repoTaskId : Int
  workflowRunId : String
  unitId : String
  phase : String
  operationStep : String
  attempt : Int
  deriving DecidableEq, Repr

def OperationRow.slot (r : OperationRow) : Slot :=
  ⟨r.repoTaskId, r.workflowRunId, r.unitId, r.phase, r.operationStep, r.attempt⟩

/-- `ORDER BY execution_ordinal DESC LIMIT 1` over the rows of a slot. -/
def latestWorkflowOperation (L : Ledger) (s : Slot) : Option OperationRow :=
  @List.argmax OperationRow Int Int.instLinearOrder.toPreorder Int.decLt
    OperationRow.executionOrdinal (L.operations.rows.filter fun r => r.slot = s)

/-- The keys of a workflow state that the ledger reads. -/
structure WorkflowState where
  taskId : Option Int
  workflowRunId : Option String
  unitId : Option String
  attemptsByPhase : List (String × Int) := []
  attempts : List (String × Int) := []
  prerequisiteOperationIds : List String := []
  operationId : Option String := none

structure StateParts where
  slot : Slot
  prerequisites : List String

/-- `int(attempts.get(phase, 0))`. -/
def WorkflowState.attempt (state : WorkflowState) (phase : String) : Int :=
  let attempts := if state.attemptsByPhase ≠ [] then state.attemptsByPhase else state.attempts
  (attempts.lookup phase).getD 0

/-- The operation the state came from, where it is a completed one of another slot. -/
def previousOperation (L : Ledger) (state : WorkflowState) (phase step : String) : List String :=
  if Truthy state.operationId then
    match L.operations.find? (state.operationId.getD "") with
    | none => []
    | some previous =>
      if ¬ (previous.phase = phase ∧ previous.operationStep = step ∧
          previous.attempt = state.attempt phase) ∧ previous.status = .completed then
        [previous.operationId]
      else []
  else []

def stateParts (L : Ledger) (state : WorkflowState) (phase step : String) : Checked StateParts :=
  match state.taskId, state.workflowRunId, state.unitId with
  | some task, some run, some unit =>
    pure ⟨⟨task, run, unit, phase, step, state.attempt phase⟩,
      (state.prerequisiteOperationIds ++ previousOperation L state phase step).eraseDups⟩
  | _, _, _ => refuse "workflow operation state needs task_id, workflow_run_id and unit_id"

/-! Prerequisite chains. -/

/-- A row that is on the ledger. -/
abbrev Entered (L : Ledger) := { r : OperationRow // r ∈ L.operations.rows }

theorem latest_mem {L : Ledger} {s : Slot} {r : OperationRow}
    (latest : latestWorkflowOperation L s = some r) : r ∈ L.operations.rows ∧ r.slot = s := by
  have member := List.mem_filter.mp (List.argmax_mem latest)
  exact ⟨member.1, by simpa using member.2⟩

/-- The latest row of a slot, as a row of the ledger. -/
def latestEntered (L : Ledger) (s : Slot) : Option (Entered L) :=
  match latest : latestWorkflowOperation L s with
  | none => none
  | some r => some ⟨r, (latest_mem latest).1⟩

theorem latestEntered_map (L : Ledger) (s : Slot) :
    (latestEntered L s).map Subtype.val = latestWorkflowOperation L s := by
  unfold latestEntered
  split
  · rename_i latest
    exact latest.symm
  · rename_i r latest
    exact latest.symm

/-- The first of the three owner columns in which two rows differ. -/
def crossedField (p r : OperationRow) : Option String :=
  if p.repoTaskId ≠ r.repoTaskId then some "repo_task_id"
  else if p.workflowRunId ≠ r.workflowRunId then some "workflow_run_id"
  else if p.unitId ≠ r.unitId then some "unit_id"
  else none

/-- The ids of the ledger that are not among the ancestors. -/
def unseen (L : Ledger) (seen : List String) : List OperationRow :=
  L.operations.rows.filter fun r => r.operationId ∉ seen

theorem unseen_lt {L : Ledger} {seen : List String} {r : OperationRow} (entered : r ∈ L.operations.rows)
    (new : r.operationId ∉ seen) :
    (unseen L (r.operationId :: seen)).length < (unseen L seen).length := by
  have nested : unseen L (r.operationId :: seen) =
      (unseen L seen).filter fun q => q.operationId ≠ r.operationId := by
    simp [unseen, List.filter_filter]
  rw [nested]
  exact List.length_filter_lt_length_iff_exists.mpr
    ⟨r, List.mem_filter.mpr ⟨entered, by simpa using new⟩, by simp⟩

section Reading
variable (sha256 : String → String) (store : SecureArtifactStore) (L : Ledger)

/-- One prerequisite of a row, its own prerequisites apart. -/
def prerequisiteRow (row : OperationRow) (ancestors : List String) (prerequisiteId : String) :
    Checked (Entered L) :=
  if prerequisiteId ∈ ancestors then refuse "workflow operation prerequisites contain a cycle"
  else
    match found : L.operations.find? prerequisiteId with
    | none => refuse s!"workflow prerequisite is not complete: {prerequisiteId}"
    | some prerequisite =>
      if prerequisite.status ≠ .completed then
        refuse s!"workflow prerequisite is not complete: {prerequisiteId}"
      else
        match crossedField prerequisite row with
        | some field => refuse s!"workflow prerequisite crosses {field}: {prerequisiteId}"
        | none =>
          match artifactForRow sha256 store prerequisite with
          | .error e => .error e
          | .ok none => refuse s!"workflow prerequisite has no result: {prerequisiteId}"
          | .ok (some _) => pure ⟨prerequisite, (Table.find?_some.mp found).1⟩

/-- `_validate_prerequisites`. Each level adds a row of the ledger to the
ancestors, so the walk ends. -/
def validatePrerequisites (row : Entered L) (seen : List String) : Checked Unit :=
  if _new : row.1.operationId ∈ seen then
    refuse "workflow operation prerequisites contain a cycle"
  else do
    (← rowPrerequisites row.1).forM fun prerequisiteId => do
      let prerequisite ← prerequisiteRow sha256 store L row.1 (row.1.operationId :: seen) prerequisiteId
      validatePrerequisites prerequisite (row.1.operationId :: seen)
  termination_by (unseen L seen).length
  decreasing_by exact unseen_lt row.2 _new

end Reading

/-! Classification. -/

inductive Outcome where
  | run | reuseResult | adoptResult | verifyExistingEdit | retryNoEffect | failUnsafe
  | failIndeterminate
  deriving DecidableEq, Repr

/-- The answer: an outcome for one execution, with the outputs sampled before it. -/
structure Decision where
  outcome : Outcome
  identity : OperationIdentity
  outputFingerprintsBefore : Fingerprints
  deriving DecidableEq, Repr

/-- What the callables of the ledger report of the workspace during one call,
and the clock. `outputsNow` is read after `outputsBefore`. -/
structure Observation where
  fingerprint : String
  outputsBefore : Fingerprints
  outputsNow : Fingerprints
  allowedEdit : Bool
  now : String
  retriedAt : String

/-- An identity as the arguments of a start or a retry. -/
def OperationIdentity.startArgs (sha256 : String → String) (i : OperationIdentity)
    (parts : StateParts) : StartArgs where
  operationId := i.operationId sha256
  repoTaskId := parts.slot.repoTaskId
  workflowRunId := i.workflowRunId
  unitId := i.unitId
  phase := i.phase
  operationStep := i.operationStep
  attempt := i.logicalAttempt
  executionOrdinal := i.executionOrdinal
  inputFingerprint := i.inputFingerprint
  prerequisiteOperationIds := parts.prerequisites
  schemaVersion := envelopeSchemaVersion

/-- The identity of the first execution of a slot. -/
def Slot.firstIdentity (s : Slot) (fingerprint : String) : OperationIdentity :=
  ⟨s.workflowRunId, s.unitId, s.phase, s.operationStep, s.attempt, 0, fingerprint⟩

def OperationIdentity.next (i : OperationIdentity) (fingerprint : String) : OperationIdentity :=
  { i with executionOrdinal := i.executionOrdinal + 1, inputFingerprint := fingerprint }

def completeFromEnvelope (now : String) (row : OperationRow) (e : OperationResultEnvelope)
    (relativePath digest : String) : Tx OperationRow :=
  completeWorkflowOperation now row.operationId
    { resultingWorkspaceFingerprint := e.resultingWorkspaceFingerprint
      resultArtifactPath := relativePath
      resultArtifactSha256 := digest
      outputFingerprints := e.outputFingerprints
      sessionId := lastSessionLocator e.result }

def cancelFromEnvelope (now : String) (row : OperationRow) (e : OperationResultEnvelope)
    (relativePath digest : String) : Tx OperationRow :=
  cancelWorkflowOperation now row.operationId
    { errorKind := "cancelled"
      error := "cancelled"
      resultingWorkspaceFingerprint := some e.resultingWorkspaceFingerprint
      resultArtifactPath := some relativePath
      resultArtifactSha256 := some digest
      outputFingerprints := some e.outputFingerprints
      sessionId := lastSessionLocator e.result }

section Classify
variable (sha256 : String → String) (maxCrashReplays : ℕ) (o : Observation)
  (store : SecureArtifactStore)

/-- From `if current != row["input_fingerprint"]` to the end of `classify`. -/
def continueFrom (parts : StateParts) (outputsBefore : Fingerprints) (identity : OperationIdentity)
    (row : OperationRow) : Proc Decision := do
  if o.fingerprint ≠ row.inputFingerprint then
    pure ⟨if o.allowedEdit then .verifyExistingEdit else .failUnsafe, identity, outputsBefore⟩
  else if (maxCrashReplays : Int) ≤ identity.executionOrdinal then
    pure ⟨.failIndeterminate, identity, outputsBefore⟩
  else
    let successor := identity.next o.fingerprint
    let _ ← commit (retryWorkflowOperation o.retriedAt (identity.operationId sha256)
      (successor.startArgs sha256 parts))
    pure ⟨.retryNoEffect, successor, outputsBefore⟩

/-- The STARTED branch with an artifact. -/
def adoptArtifact (parts : StateParts) (outputsBefore : Fingerprints) (identity : OperationIdentity)
    (row : OperationRow) (envelope : OperationResultEnvelope) (relativePath digest : String) :
    Proc Decision := do
  if o.fingerprint ≠ envelope.resultingWorkspaceFingerprint then
    pure ⟨.failIndeterminate, identity, outputsBefore⟩
  else if o.outputsNow ≠ envelope.outputFingerprints then
    pure ⟨.failIndeterminate, identity, outputsBefore⟩
  else if envelope.resultKind = "turn" ∧ envelope.result.status = some "cancelled" then
    let _ ← commit (cancelFromEnvelope o.now row envelope relativePath digest)
    match (← readLedger).operations.find? (identity.operationId sha256) with
    | none => .raise .missingRow
    | some row => continueFrom sha256 maxCrashReplays o parts outputsBefore identity row
  else
    let _ ← commit (completeFromEnvelope o.now row envelope relativePath digest)
    pure ⟨.adoptResult, identity, outputsBefore⟩

/-- `_artifact_for_row` and `_validate_prerequisites`, the two reads whose
refusal makes a slot indeterminate. -/
def validatedArtifact (L : Ledger) (row : Entered L) :
    Checked (Option (OperationResultEnvelope × String × String)) := do
  let artifact ← artifactForRow sha256 store row.1
  validatePrerequisites sha256 store L row []
  pure artifact

/-- `classify` from the latest row of the slot on. -/
def classifyRow (L : Ledger) (parts : StateParts) (outputsBefore : Fingerprints) (row : Entered L) :
    Proc Decision :=
  let identity := identityForRow row.1
  match validatedArtifact sha256 store L row with
  | .error _ => pure ⟨.failIndeterminate, identity, outputsBefore⟩
  | .ok artifact =>
    if row.1.status = .completed then
      match artifact with
      | none => pure ⟨.failIndeterminate, identity, outputsBefore⟩
      | some (envelope, _, _) =>
        if o.fingerprint = envelope.resultingWorkspaceFingerprint ∧
            o.outputsNow = envelope.outputFingerprints then
          pure ⟨.reuseResult, identity, outputsBefore⟩
        else pure ⟨.failUnsafe, identity, outputsBefore⟩
    else
      match if row.1.status = .started then artifact else none with
      | some (envelope, relativePath, digest) =>
        adoptArtifact sha256 maxCrashReplays o parts outputsBefore identity row.1 envelope
          relativePath digest
      | none => continueFrom sha256 maxCrashReplays o parts outputsBefore identity row.1

def classify (phase step : String) (state : WorkflowState) : Proc Decision := do
  let L ← readLedger
  let parts ← checked (stateParts L state phase step)
  let outputsBefore := if step = "interpret" then [] else o.outputsBefore
  match latestEntered L parts.slot with
  | none =>
    let identity := parts.slot.firstIdentity o.fingerprint
    let _ ← commit (startWorkflowOperation o.now (identity.startArgs sha256 parts) none)
    pure ⟨.run, identity, outputsBefore⟩
  | some row => classifyRow sha256 maxCrashReplays o store L parts outputsBefore row

end Classify
end Uta.Operations
