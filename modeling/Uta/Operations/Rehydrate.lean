/- The nodes of the generation cycle that record a phase and that restore it: what each adds
to the state of the cycle. -/
import Uta.Operations.Artifact
import Uta.Operations.Reconcile

namespace Uta.Operations
open Uta.Lib
open Uta.Enforce (Conversions)

abbrev Fields := List (String × Json)

/-- The keys of the cycle's state that these nodes read. -/
structure CycleState where
  phaseResults : Fields
  turnHistory : List Json

/-- A step of a phase that ends in a recorded result, with what it starts from: a turn that
may be missing, or nothing. -/
inductive Node where
  | interpret (turn : Option Fields)
  | deterministic

def Node.step : Node → String
  | .interpret _ => "interpret"
  | .deterministic => "deterministic"

/-! The live nodes. -/

/-- The envelope that `record_result` writes. -/
def phaseEnvelope (row : OperationRow) (result : Fields) (resulting : String)
    (outputs : Fingerprints) (prerequisites : List String) : ResultEnvelope OperationIdentity where
  identity := identityForRow row
  resultKind := "phase"
  result := result
  resultingWorkspaceFingerprint := resulting
  outputFingerprints := outputs
  prerequisiteOperationIds := prerequisites
  envelopeSchemaVersion := envelopeSchemaVersion

/-- What `record_result` returns. -/
def recordResult (row : OperationRow) (step : String) (result : Fields) : Fields :=
  result ++ [("operation_id", .str row.operationId), ("operation_step", .str step),
    ("execution_ordinal", .int row.executionOrdinal)]

def CycleState.history (s : CycleState) (phase : String) (turn : Option Fields) : List Json :=
  match turn with
  | some turn => s.turnHistory ++ [.obj (("phase", .str phase) :: turn)]
  | none => s.turnHistory

/-- The result that a node gives `record_result`. -/
def projection (s : CycleState) (phase : String) (result : Fields) : Node → Fields
  | .interpret turn => result ++ [("turn_history", .arr (s.history phase turn))]
  | .deterministic => result

def CycleState.withResult (s : CycleState) (phase : String) (entry : Fields) : Json :=
  .obj (s.phaseResults ++ [(phase, .obj entry)])

def generationInterpret (s : CycleState) (row : OperationRow) (turn : Option Fields)
    (result : Fields) : Fields :=
  let recorded := recordResult row "interpret" (projection s row.phase result (.interpret turn))
  recorded ++
    [("phase_results", s.withResult row.phase (recorded.filter fun field => field.1 ≠ "turn_history")),
      ("turn_history", .arr (s.history row.phase turn)), ("current_phase", .str row.phase)]

def generationOperation (s : CycleState) (row : OperationRow) (result : Fields) : Fields :=
  let recorded := recordResult row "deterministic" result
  recorded ++ [("phase_results", s.withResult row.phase recorded), ("current_phase", .str row.phase)]

/-- The update of the live node for an execution. -/
def liveUpdate (s : CycleState) (row : OperationRow) (result : Fields) : Node → Fields
  | .interpret turn => generationInterpret s row turn result
  | .deterministic => generationOperation s row result

/-! The restoring nodes. -/

def Outcome.text : Outcome → String
  | .run => "run"
  | .reuseResult => "reuse_result"
  | .adoptResult => "adopt_result"
  | .verifyExistingEdit => "verify_existing_edit"
  | .retryNoEffect => "retry_no_effect"
  | .failUnsafe => "fail_unsafe"
  | .failIndeterminate => "fail_indeterminate"

/-- `_decision`, without the outcome. -/
def Decision.evidence (sha256 : String → String) (d : Decision) : Fields :=
  (if d.outputFingerprintsBefore = [] then []
    else [("output_fingerprints_before",
      .obj (d.outputFingerprintsBefore.map fun item => (item.1, .str item.2)))]) ++
    [("operation_id", .str (d.identity.operationId sha256)),
      ("operation_step", .str d.identity.operationStep),
      ("operation_input_fingerprint", .str d.identity.inputFingerprint),
      ("logical_attempt", .int d.identity.logicalAttempt),
      ("execution_ordinal", .int d.identity.executionOrdinal)]

def reconcileGenerationOperation (sha256 : String → String) (phase : String) (d : Decision) : Fields :=
  d.evidence sha256 ++ [("reconciliation", .str d.outcome.text), ("current_phase", .str phase)]

/-- The result of a phase artifact, with the outcome under the key that the graph reads. -/
def restoredResult (result : Fields) : Fields :=
  match Dict.get? result "phase_outcome", Dict.get? result "outcome" with
  | none, some outcome => result ++ [("phase_outcome", outcome)]
  | _, _ => result

/-- `rehydrate` of a phase artifact. -/
def rehydrate (s : CycleState) (phase : String) (envelope : ResultEnvelope StoredIdentity) : Fields :=
  let result := restoredResult envelope.result
  result ++ [("phase_results", s.withResult phase result), ("rehydration", .str "ready")]

section Restoring
variable (sha256 : String → String) (py : Conversions) (num : Numerals)

/-- `rehydrate_generation_operation`, on the text of the artifact. -/
def rehydrateGenerationOperation (s : CycleState) (phase : String) (text : List Char) :
    Decoded Fields := do
  let envelope ← decodeArtifact sha256 py num text
  pure (rehydrate s phase envelope ++ [("current_phase", .str phase)])

/-- The update of a reconcile node and the rehydrate node after it. -/
def restoredUpdate (s : CycleState) (phase : String) (d : Decision) (text : List Char) : Decoded Fields := do
  let restored ← rehydrateGenerationOperation sha256 py num s phase text
  pure (reconcileGenerationOperation sha256 phase d ++ restored)

end Restoring

/-! Equal updates. -/

/-- Python's equality of two optional values that JSON can hold. -/
def SameValue (v w : Option Json) : Prop := v.map Json.sortKeys = w.map Json.sortKeys

def SameFields (a b : Fields) : Prop := ∀ key, SameValue (Dict.get? a key) (Dict.get? b key)

/-- The entry of the phase among the results of an update. -/
def entryOf (phase : String) (update : Fields) : Fields :=
  match Dict.get? update "phase_results" with
  | some (.obj results) => ((Dict.get? results phase).bind Json.fields?).getD []
  | _ => []

/-- The two updates agree on the outcome, the entry of the phase, the history and the
identity of the operation. -/
structure SameUpdate (phase : String) (a b : Fields) : Prop where
  outcome : SameValue (Dict.get? a "phase_outcome") (Dict.get? b "phase_outcome")
  entry : SameFields (entryOf phase a) (entryOf phase b)
  history : SameValue (Dict.get? a "turn_history") (Dict.get? b "turn_history")
  operationId : SameValue (Dict.get? a "operation_id") (Dict.get? b "operation_id")
  operationStep : SameValue (Dict.get? a "operation_step") (Dict.get? b "operation_step")
  executionOrdinal : SameValue (Dict.get? a "execution_ordinal") (Dict.get? b "execution_ordinal")

end Uta.Operations
