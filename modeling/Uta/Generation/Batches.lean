/- The stable batches of the generation cycle: how they are assigned to the
class rows of a task, read back from them, and selected. -/
import Uta.Lib.Blocks
import Uta.Lib.Json
import Uta.Lib.Transaction
import Uta.Tasks.Lifecycle

namespace Uta.Generation
open Uta.Lib Uta.Tasks
open Uta.Lib.Blocks (chunks Reading)

/-! Identifiers. -/

/-- `hashlib.sha256` of a text in UTF-8. -/
structure Sha256 where
  hexdigest : String → String
  shape : ∀ text, (hexdigest text).toList.length = 64 ∧
    ∀ c ∈ (hexdigest text).toList, c ∈ "0123456789abcdef".toList

/-- `uuid.uuid4().hex`. -/
structure UuidHex where
  text : String
  shape : text.toList.length = 32 ∧ ∀ c ∈ text.toList, c ∈ "0123456789abcdef".toList

/-- `[A-Za-z0-9]`. -/
def isLead (c : Char) : Bool := ('A' ≤ c && c ≤ 'Z') || ('a' ≤ c && c ≤ 'z') || ('0' ≤ c && c ≤ '9')

/-- `[A-Za-z0-9._-]`. -/
def isFollow (c : Char) : Bool := isLead c || c == '.' || c == '_' || c == '-'

/-- The texts that `_IDENTIFIER` matches in full. -/
def validIdentifier (text : String) : Bool :=
  match text.toList with
  | [] => false
  | c :: cs => isLead c && cs.all isFollow && decide (cs.length ≤ 127)

/-- `f"{index:04d}"`. -/
def pad4 (index : ℕ) : String := String.ofList (List.leftpad 4 '0' (Nat.toDigits 10 index))

def unitId (sha : Sha256) (index : ℕ) (targets : List String) : String :=
  "unit-" ++ pad4 index ++ "-" ++
    String.ofList ((sha.hexdigest ("\u0000".intercalate targets)).toList.take 12)

def keyOf (runId unit : String) : String := runId ++ "/" ++ unit

/-- `key.split("/")`, where it has two parts. -/
def splitKey (key : String) : Option (String × String) :=
  match key.toList.splitOn '/' with
  | [run, unit] => some (String.ofList run, String.ofList unit)
  | _ => none

/-! Rows. -/

/-- The columns of a class row that make up its batch identity. -/
structure ClassIdentity where
  targetId : Option String := none
  batchKey : Option String := none
  deriving DecidableEq, Repr

/-- The columns of a repo task that a clean rerun reads or counts. -/
structure TaskAccount where
  configSnapshotJson : String := "\x7b\x7d"
  totalClasses : ℕ := 0
  completedClasses : ℕ := 0
  passedClasses : ℕ := 0
  failedClasses : ℕ := 0
  deriving DecidableEq, Repr

/-- A row of `workflow_run_supersessions`. A missing old run is the identity kind
`missing`. -/
structure Supersession where
  id : String
  repoTaskId : ℕ
  oldRunId : Option String
  newRunId : String
  oldUnitIds : List String
  newUnitIds : List String
  affectedClassIds : List ℕ
  requeuePolicy : String
  reason : String
  requestedBy : String
  requestedAt : Time
  deriving DecidableEq, Repr

/-- A row of `legacy_prompt_scopes`. -/
structure LegacyScope where
  repoTaskId : ℕ
  legacyRunId : String
  language : String
  openedAt : Time
  supersededAt : Option Time := none
  supersededBy : Option String := none
  deriving DecidableEq, Repr

/-- The payload of the event of a clean rerun. -/
structure RerunPayload where
  newRunId : String
  newUnitIds : List String
  oldRunIds : List String
  oldLegacyScopes : List (String × String)
  missingClassIds : List ℕ
  requeuePolicy : String
  reason : String
  requestedBy : String
  deriving DecidableEq, Repr

/-- The task database with the columns and tables of its batches: `identity` by
class id, `account` by task id. -/
structure Store where
  world : World
  identity : ℕ → ClassIdentity := fun _ => {}
  account : ℕ → TaskAccount := fun _ => {}
  supersessions : List Supersession := []
  legacyScopes : List LegacyScope := []
  rerunPayloads : List RerunPayload := []

/-- What batching reads of a class row: `target` is `str(row["target_id"] or row["class_fqn"])`. -/
structure BatchRow where
  id : ℕ
  target : String
  batchKey : Option String
  deriving DecidableEq, Repr

/-- `bool(row["batch_key"])`. -/
def BatchRow.Keyed (r : BatchRow) : Prop := r.batchKey ≠ none ∧ r.batchKey ≠ some ""

instance (r : BatchRow) : Decidable r.Keyed := inferInstanceAs (Decidable (_ ∧ _))

def Store.batchRow (store : Store) (c : ClassTask) : BatchRow :=
  ⟨c.id, textOr (store.identity c.id).targetId c.classFqn, (store.identity c.id).batchKey⟩

/-- The class rows of a task, in their order. -/
def Store.batchRows (store : Store) (taskId : ℕ) : List BatchRow :=
  (store.world.listClassTasks taskId).map store.batchRow

/-! Batches. -/

/-- `GenerationBatchIdentityError`, by what it says. -/
inductive BatchError where
  | duplicateTargets
  | batchSize
  | notFullList
  | mixedKeys
  | unsafeRunId (run : String)
  | malformedKey (key : String)
  | multipleRuns
  | notContiguous (unit : String)
  | otherRun
  | crossTasks
  /-- The assertion that a row was read. -/
  | noRows
  deriving DecidableEq, Repr

structure StableGenerationBatch where
  repoTaskId : ℕ
  workflowRunId : String
  unitId : String
  targetIds : List String
  classTaskIds : List ℕ
  deriving DecidableEq, Repr

def StableGenerationBatch.batchKey (b : StableGenerationBatch) : String := keyOf b.workflowRunId b.unitId

/-- The loop of `_reconstruct`. -/
def reconstructFrom (runId : Option String) (reading : Reading String BatchRow) :
    List BatchRow → Except BatchError (Option String × Reading String BatchRow)
  | [] => .ok (runId, reading)
  | row :: rows =>
    let key := textOr row.batchKey ""
    match splitKey key with
    | none => .error (.malformedKey key)
    | some (run, unit) =>
      if ¬ (validIdentifier run = true ∧ validIdentifier unit = true) then .error (.malformedKey key)
      else if ∃ r ∈ runId, r ≠ run then .error .multipleRuns
      else
        match reading.push unit row with
        | none => .error (.notContiguous unit)
        | some next => reconstructFrom (some run) next rows

def batchOf (taskId : ℕ) (run : String) (block : String × List BatchRow) : StableGenerationBatch where
  repoTaskId := taskId
  workflowRunId := run
  unitId := block.1
  targetIds := block.2.map BatchRow.target
  classTaskIds := block.2.map BatchRow.id

def reconstruct (taskId : ℕ) (rows : List BatchRow) : Except BatchError (List StableGenerationBatch) :=
  match reconstructFrom none {} rows with
  | .error e => .error e
  | .ok (none, _) => .error .noRows
  | .ok (some run, reading) => .ok (reading.blocks.map (batchOf taskId run))

/-- The arguments of `ensure_stable_generation_batches`, with the run id that
`uuid4` would give. -/
structure EnsureArgs where
  taskId : ℕ
  orderedTargetIds : List String
  batchSize : ℤ
  workflowRunId : Option String := none
  drawn : UuidHex

/-- UPDATE of the key of one row. -/
def Store.setKey (key : String) (store : Store) (classId : ℕ) : Store :=
  { store with
    world := store.world.updateClassTask classId {}
    identity := Function.update store.identity classId
      { store.identity classId with batchKey := some key } }

/-- The units of a fresh assignment. -/
def freshUnits (sha : Sha256) (size : ℕ) (rows : List BatchRow) : List (String × List BatchRow) :=
  ((chunks size rows).zipIdx 1).map fun (members, index) =>
    (unitId sha index (members.map BatchRow.target), members)

def Store.assignKeys (store : Store) (run : String) (units : List (String × List BatchRow)) : Store :=
  units.foldl (fun store u => u.2.foldl (fun store r => store.setKey (keyOf run u.1) r.id) store) store

/-- The assignment of keys to rows none of which has one. -/
def assignFresh (sha : Sha256) (args : EnsureArgs) (rows : List BatchRow) : Act Store BatchError Unit :=
  if ∃ r ∈ rows, r.Keyed then pure ()
  else
    let run := textOr args.workflowRunId args.drawn.text
    if validIdentifier run = true then do
      let store ← .read
      .write (store.assignKeys run (freshUnits sha args.batchSize.toNat rows))
    else .raise (.unsafeRunId run)

def ensureStableGenerationBatches (sha : Sha256) (args : EnsureArgs) :
    Act Store BatchError (List StableGenerationBatch) :=
  let requested := args.orderedTargetIds
  if ¬ requested.Nodup then .raise .duplicateTargets
  else if args.batchSize < 1 then .raise .batchSize
  else Act.transaction do
    let store ← .read
    let rows := store.batchRows args.taskId
    if rows.map BatchRow.target ≠ requested then .raise .notFullList
    else if rows = [] then pure []
    else if (∃ r ∈ rows, r.Keyed) ∧ ¬ ∀ r ∈ rows, r.Keyed then .raise .mixedKeys
    else do
      assignFresh sha args rows
      let store ← .read
      let batches ← .lift (reconstruct args.taskId (store.batchRows args.taskId))
      if ∃ run ∈ args.workflowRunId, ∃ b ∈ batches.head?, b.workflowRunId ≠ run then .raise .otherRun
      else pure batches

/-- `ensure_stable_batches` of the persistence adapter: a part of the persisted
order, in that order, stands for the whole of it. -/
def ensureStableBatches (sha : Sha256) (args : EnsureArgs) :
    Act Store BatchError (List StableGenerationBatch) := do
  let store ← .read
  let requested := args.orderedTargetIds
  let persisted := (store.batchRows args.taskId).map BatchRow.target
  let effective :=
    if requested ≠ [] ∧ persisted.filter (· ∈ requested) = requested then persisted else requested
  ensureStableGenerationBatches sha { args with orderedTargetIds := effective }

/-! Selection. -/

/-- `TERMINAL_CLASS_STATUSES` of the batches. -/
def terminalClassStatuses : List String := ["PASS", "FAIL", "MUTATION_FAIL", "SKIPPED"]

/-- A class of a batch is done where its row has one of these statuses. -/
def ClassDone (rows : List ClassTask) (classId : ℕ) : Prop :=
  ∃ c ∈ rows.find? (fun c => c.id = classId), c.status.text ∈ terminalClassStatuses

instance (rows : List ClassTask) (classId : ℕ) : Decidable (ClassDone rows classId) :=
  inferInstanceAs (Decidable (∃ c ∈ rows.find? _, _))

def firstNonTerminalBatch (w : World) (batches : List StableGenerationBatch) :
    Except BatchError (Option StableGenerationBatch) :=
  match (batches.map StableGenerationBatch.repoTaskId).dedup with
  | [] => .ok none
  | [taskId] => .ok <| batches.find? fun b =>
      ∃ classId ∈ b.classTaskIds, ¬ ClassDone (w.listClassTasks taskId) classId
  | _ => .error .crossTasks

end Uta.Generation
