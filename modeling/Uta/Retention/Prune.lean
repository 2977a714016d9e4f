/- The retention of workflows: the pass that deletes what the tasks that are done
have left, one statement at a time, beside the operations of everyone else. -/
import Uta.Generation.Runs

namespace Uta.Retention
open Uta.Lib Uta.Tasks Uta.Generation

/-! What is kept. -/

/-- `WorkflowRunIdentity`, without its product, cycle and version. -/
structure WorkflowIdentity where
  taskId : ℕ
  workflowRunId : String
  unitId : String
  deriving DecidableEq, Repr

/-- A row of `workflow_operations`. -/
structure OperationRow where
  operationId : String
  identity : WorkflowIdentity
  deriving DecidableEq, Repr

/-- The result of an operation, in `<run>/<unit>/<operation>.json`. -/
structure OperationArtifact where
  workflowRunId : String
  unitId : String
  operationId : String
  deriving DecidableEq, Repr

/-- The prompt of an operation, in `managed/<task>/<run>/<unit>/<operation>`. -/
structure PromptArtifact where
  identity : WorkflowIdentity
  operationId : String
  deriving DecidableEq, Repr

/-- The task database, with the checkpoints and the artifacts. -/
structure Depot where
  store : Store
  operations : List OperationRow := []
  checkpoints : List WorkflowIdentity := []
  artifacts : List OperationArtifact := []
  prompts : List PromptArtifact := []

/-! Queries. -/

/-- The `terminal_statuses` of the retention. -/
def RetentionTerminal (s : RepoStatus) : Prop := s.Terminal ∨ s = .stopped

instance (s : RepoStatus) : Decidable (RetentionTerminal s) := inferInstanceAs (Decidable (_ ∨ _))

namespace Depot
variable (d : Depot)

def eligibleTerminalTaskIds (cutoff : Time) : List ℕ :=
  ((d.store.world.tasks.rows.filter fun r => RetentionTerminal r.status ∧
    r.finishedAt.getD r.updatedAt ≤ cutoff).map RepoTask.id).insertionSort (· ≤ ·)

def operationIdentities (taskId : ℕ) : List (String × String) :=
  ((d.operations.filter fun o => o.identity.taskId = taskId).map fun o =>
    (o.identity.workflowRunId, o.identity.unitId)).dedup

def batchKeys (taskId : ℕ) : List String :=
  ((d.store.classRows taskId).filterMap fun c => (d.store.identity c.id).batchKey).dedup

/-- The replaced runs: a row without an old run is not of the kind `known`. -/
def supersededRuns (cutoff : Time) : List (ℕ × String × List String) :=
  (d.store.supersessions.filter fun s => s.requestedAt ≤ cutoff).filterMap fun s =>
    s.oldRunId.map fun run => (s.repoTaskId, run, s.oldUnitIds)

end Depot

/-! Statements. -/

inductive Query where
  | clock
  | eligibleTerminalTaskIds (cutoff : Time)
  | operationIdentities (taskId : ℕ)
  | batchKeys (taskId : ℕ)
  | supersededRuns (cutoff : Time)
  | deleteCheckpointLineage (identity : WorkflowIdentity)
  | deleteUnit (workflowRunId unitId : String)
  | deleteOperations (identity : WorkflowIdentity)
  | deleteManagedUnit (identity : WorkflowIdentity)
  deriving DecidableEq, Repr

abbrev Query.Answer : Query → Type
  | clock => Time
  | eligibleTerminalTaskIds _ => List ℕ
  | operationIdentities _ => List (String × String)
  | batchKeys _ => List String
  | supersededRuns _ => List (ℕ × String × List String)
  | deleteUnit .. => ℕ
  | deleteOperations _ => ℕ
  | _ => Unit

def Query.exec : (q : Query) → Depot → q.Answer × Depot
  | .clock, d => (d.store.world.clock, d)
  | .eligibleTerminalTaskIds cutoff, d => (d.eligibleTerminalTaskIds cutoff, d)
  | .operationIdentities taskId, d => (d.operationIdentities taskId, d)
  | .batchKeys taskId, d => (d.batchKeys taskId, d)
  | .supersededRuns cutoff, d => (d.supersededRuns cutoff, d)
  | .deleteCheckpointLineage identity, d =>
    ((), { d with checkpoints := d.checkpoints.filter fun id => id ≠ identity })
  | .deleteUnit run unit, d =>
    let own := fun a : OperationArtifact => a.workflowRunId = run ∧ a.unitId = unit
    ((d.artifacts.filter own).length, { d with artifacts := d.artifacts.filter fun a => ¬ own a })
  | .deleteOperations identity, d =>
    ((d.operations.filter fun o => o.identity = identity).length,
      { d with operations := d.operations.filter fun o => o.identity ≠ identity })
  | .deleteManagedUnit identity, d =>
    ((), { d with prompts := d.prompts.filter fun p => p.identity ≠ identity })

/-! The pass. -/

inductive PruneError where
  | negativeDays
  | identifier
  deriving DecidableEq, Repr

abbrev Pruning := Prog Query Query.Answer PruneError

def query (q : Query) : Pruning q.Answer := .perform q

/-- The arguments of `prune_workflows`; `promptRetention` is whether a root for
prompts is configured outside the repositories. -/
structure PruneArgs where
  olderThanDays : ℤ := 30
  now : Option Time := none
  promptRetention : Bool := false
  deriving DecidableEq, Repr

structure WorkflowPruneResult where
  lineagesDeleted : ℕ := 0
  operationsDeleted : ℕ := 0
  artifactsDeleted : ℕ := 0
  deriving DecidableEq, Repr

def parseBatchKey (key : String) : Option (String × String) :=
  (splitKey key).filter fun p => p.1 ≠ "" ∧ p.2 ≠ ""

def identityOf (taskId : ℕ) (p : String × String) : WorkflowIdentity := ⟨taskId, p.1, p.2⟩

/-- The loop of `eligible_identities` over the tasks. -/
def taskIdentities : List ℕ → Pruning (List WorkflowIdentity)
  | [] => pure []
  | taskId :: rest => do
    let operations ← query (.operationIdentities taskId)
    let keys ← query (.batchKeys taskId)
    let others ← taskIdentities rest
    pure (operations.map (identityOf taskId) ++ (keys.filterMap parseBatchKey).map (identityOf taskId) ++
      others)

/-- The order of the tuples. -/
def WorkflowIdentity.le (i j : WorkflowIdentity) : Prop :=
  i.taskId < j.taskId ∨ (i.taskId = j.taskId ∧ (i.workflowRunId < j.workflowRunId ∨
    (i.workflowRunId = j.workflowRunId ∧ i.unitId ≤ j.unitId)))

instance : DecidableRel WorkflowIdentity.le := fun _ _ => inferInstanceAs (Decidable (_ ∨ _))

def supersededIdentities (rows : List (ℕ × String × List String)) : List WorkflowIdentity :=
  rows.flatMap fun (taskId, run, units) => units.map fun unit => ⟨taskId, run, unit⟩

def eligibleIdentities (cutoff : Time) (terminalTaskIds : List ℕ) : Pruning (List WorkflowIdentity) := do
  let found ← taskIdentities terminalTaskIds
  let superseded ← query (.supersededRuns cutoff)
  pure ((found ++ supersededIdentities superseded).dedup.insertionSort WorkflowIdentity.le)

/-- `delete_unit` of the artifact store. -/
def deleteUnit (identity : WorkflowIdentity) : Pruning ℕ :=
  if validIdentifier identity.workflowRunId = true ∧ validIdentifier identity.unitId = true then
    query (.deleteUnit identity.workflowRunId identity.unitId)
  else .raise .identifier

/-- `delete_managed_unit`, where prompts are pruned at all. -/
def deletePrompts (promptRetention : Bool) (identity : WorkflowIdentity) : Pruning Unit :=
  if promptRetention = true ∧ identity.unitId ≠ "legacy" then query (.deleteManagedUnit identity)
  else pure ()

/-- The loop over the candidates. -/
def pruneLineages (promptRetention : Bool) : List WorkflowIdentity → WorkflowPruneResult →
    Pruning WorkflowPruneResult
  | [], counts => pure counts
  | identity :: rest, counts => do
    query (.deleteCheckpointLineage identity)
    let removedArtifacts ← deleteUnit identity
    let removedOperations ← query (.deleteOperations identity)
    deletePrompts promptRetention identity
    pruneLineages promptRetention rest
      { lineagesDeleted := counts.lineagesDeleted + 1
        operationsDeleted := counts.operationsDeleted + removedOperations
        artifactsDeleted := counts.artifactsDeleted + removedArtifacts }

def currentTime : Option Time → Pruning Time
  | some now => pure now
  | none => query .clock

/-- The cutoff, in whole seconds. -/
def cutoffBefore (current : Time) (days : ℕ) : Time := nowIso (current - days * 86400000000)

def pruneWorkflows (args : PruneArgs) : Pruning WorkflowPruneResult :=
  if args.olderThanDays < 0 then .raise .negativeDays
  else do
    let current ← currentTime args.now
    let cutoff := cutoffBefore current args.olderThanDays.toNat
    let terminalTaskIds ← query (.eligibleTerminalTaskIds cutoff)
    let candidates ← eligibleIdentities cutoff terminalTaskIds
    pruneLineages args.promptRetention candidates {}

/-! The site. -/

/-- What a pass has read: the tasks it found, and the identities of what it deletes. -/
structure Known where
  taskIds : List ℕ := []
  identities : List WorkflowIdentity := []

def Known.learn (k : Known) : (q : Query) → q.Answer → Known
  | .eligibleTerminalTaskIds _, found => { k with taskIds := k.taskIds ++ found }
  | .operationIdentities taskId, found =>
    { k with identities := k.identities ++ found.map (identityOf taskId) }
  | .batchKeys taskId, found =>
    { k with identities := k.identities ++ (found.filterMap parseBatchKey).map (identityOf taskId) }
  | .supersededRuns _, found => { k with identities := k.identities ++ supersededIdentities found }
  | _, _ => k

/-- A pass under way. -/
structure Pass where
  rest : Pruning WorkflowPruneResult
  known : Known := {}

/-- The tasks that the pass found, as long as it has not ended. -/
def Pass.watched (p : Pass) : List ℕ :=
  match p.rest with
  | .stmt .. => p.known.taskIds
  | _ => []

/-- The depot, with the batches that generation was given to work on, and the
passes that have started. -/
structure Site where
  depot : Depot
  batches : List StableGenerationBatch := []
  passes : List Pass := []

def Site.watched (s : Site) : List ℕ := s.passes.flatMap Pass.watched

/-- What generation writes under the identity of its batch. -/
inductive Work where
  | operation (operationId : String)
  | checkpoint
  | artifact (operationId : String)
  | prompt (operationId : String)
  deriving DecidableEq, Repr

def batchIdentity (b : StableGenerationBatch) : WorkflowIdentity :=
  ⟨b.repoTaskId, b.workflowRunId, b.unitId⟩

def Depot.work (d : Depot) (b : StableGenerationBatch) : Work → Depot
  | .operation operationId =>
    if operationId ∈ d.operations.map OperationRow.operationId then d
    else { d with operations := d.operations ++ [⟨operationId, batchIdentity b⟩] }
  | .checkpoint => { d with checkpoints := d.checkpoints.insert (batchIdentity b) }
  | .artifact operationId =>
    { d with artifacts := d.artifacts.insert ⟨b.workflowRunId, b.unitId, operationId⟩ }
  | .prompt operationId => { d with prompts := d.prompts.insert ⟨batchIdentity b, operationId⟩ }

inductive Deed where
  /-- An operation on the database. -/
  | op (o : Op)
  /-- Generation writes under a batch that it was given, now or earlier. -/
  | work (b : StableGenerationBatch) (w : Work)
  /-- A pass starts. -/
  | prune (args : PruneArgs)
  /-- A pass executes its next statement. -/
  | go (n : ℕ)
  /-- A statement of a pass raises, or its process ends. -/
  | fail (n : ℕ)

section Steps
variable (sha : Sha256) (pyInt : Json → Option ℤ)

/-- The batches that an operation hands out. -/
def handed (store : Store) : Op → List StableGenerationBatch
  | .ensure args =>
    match (ensureStableGenerationBatches sha args store).1 with
    | .ok batches => batches
    | .error _ => []
  | _ => []

def Site.step (s : Site) : Deed → Site
  | .op o =>
    { s with
      depot := { s.depot with store := Generation.step sha pyInt s.depot.store o }
      batches := s.batches ++ handed sha s.depot.store o }
  | .work b w => if b ∈ s.batches then { s with depot := s.depot.work b w } else s
  | .prune args => { s with passes := s.passes ++ [{ rest := pruneWorkflows args }] }
  | .go n =>
    match s.passes[n]? with
    | some ⟨.stmt q next, known⟩ =>
      { s with
        depot := (q.exec s.depot).2
        passes := s.passes.set n ⟨next (q.exec s.depot).1, known.learn q (q.exec s.depot).1⟩ }
    | _ => s
  | .fail n => { s with passes := s.passes.eraseIdx n }

end Steps

/-- An empty database, with the processes that schedule from it. -/
def initialSite (runnerIds : List String) : Site := { depot := { store := { world := World.fresh runnerIds } } }

end Uta.Retention
