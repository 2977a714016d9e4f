/- Operation identities, result envelopes, and the artifact store they are read
back from. -/
import Uta.Operations.Rows

namespace Uta.Operations

def envelopeSchemaVersion : Int := 1

structure ArtifactValidationError where
  message : String
  deriving DecidableEq, Repr

abbrev Checked := Except ArtifactValidationError

def refuse {α : Type} (message : String) : Checked α := .error ⟨message⟩

/-- `if condition: raise`. -/
def refuseIf (condition : Prop) [Decidable condition] (message : String) : Checked Unit :=
  if condition then refuse message else pure ()

theorem refuseIf_ok {condition : Prop} [Decidable condition] {message : String} {u : Unit} :
    refuseIf condition message = .ok u ↔ ¬ condition := by
  unfold refuseIf
  by_cases h : condition
  · rw [if_pos h]
    exact ⟨fun bad => (nomatch bad), fun no => absurd h no⟩
  · rw [if_neg h]
    exact ⟨fun _ => h, fun _ => rfl⟩

/-- `_IDENTIFIER.fullmatch(value)`. -/
def isIdentifier (value : String) : Bool :=
  match value.toList with
  | [] => false
  | c :: cs => c.isAlphanum && cs.length ≤ 127 && cs.all fun d => d.isAlphanum || d ∈ ['.', '_', '-']

def validateIdentifier (value name : String) : Checked Unit :=
  if isIdentifier value then pure () else refuse s!"{name} is not a safe identifier"

structure OperationIdentity where
  workflowRunId : String
  unitId : String
  phase : String
  operationStep : String
  logicalAttempt : Int
  executionOrdinal : Int
  inputFingerprint : String
  deriving DecidableEq, Repr

namespace OperationIdentity

/-- The text whose SHA-256 is the operation id. -/
def digestText (i : OperationIdentity) : String :=
  String.intercalate "\x00" [i.workflowRunId, i.unitId, i.phase, i.operationStep,
    toString i.logicalAttempt, toString i.executionOrdinal, i.inputFingerprint]

def operationId (sha256 : String → String) (i : OperationIdentity) : String := sha256 i.digestText

def validate (i : OperationIdentity) : Checked Unit := do
  validateIdentifier i.workflowRunId "workflow_run_id"
  validateIdentifier i.unitId "unit_id"
  validateIdentifier i.phase "phase"
  refuseIf (i.operationStep ∉ ["turn", "interpret", "deterministic"])
    "operation_step must be one of ['deterministic', 'interpret', 'turn']"
  refuseIf (i.logicalAttempt < 0 ∨ i.executionOrdinal < 0)
    "attempt and execution ordinal must be non-negative"
  refuseIf (i.inputFingerprint = "")
    "input_fingerprint must not be empty"

end OperationIdentity

def identityForRow (row : OperationRow) : OperationIdentity where
  workflowRunId := row.workflowRunId
  unitId := row.unitId
  phase := row.phase
  operationStep := row.operationStep
  logicalAttempt := row.attempt
  executionOrdinal := row.executionOrdinal
  inputFingerprint := row.inputFingerprint

/-- What reconciliation reads of `envelope.result`: the status, the locator of
each session reference that is a mapping with one, and the legacy session id. -/
structure EnvelopeResult where
  status : Option String
  sessionRefs : List (Option String)
  sessionId : Option String
  deriving DecidableEq, Repr

structure OperationResultEnvelope where
  identity : OperationIdentity
  resultKind : String
  result : EnvelopeResult
  resultingWorkspaceFingerprint : String
  outputFingerprints : Fingerprints
  prerequisiteOperationIds : List String
  envelopeSchemaVersion : Int
  deriving DecidableEq, Repr

def OperationResultEnvelope.validate (e : OperationResultEnvelope) : Checked Unit := do
  e.identity.validate
  refuseIf (e.envelopeSchemaVersion ≠ Uta.Operations.envelopeSchemaVersion)
    "unsupported operation artifact schema"
  refuseIf (e.resultKind ∉ ["turn", "phase"])
    "result_kind must be one of ['phase', 'turn']"
  refuseIf (e.resultingWorkspaceFingerprint = "")
    "resulting workspace fingerprint must not be empty"
  refuseIf (e.outputFingerprints.any fun item => item.1 = "" || item.2 = "")
    "output fingerprints must have non-empty keys and values"
  refuseIf (e.prerequisiteOperationIds.any fun operationId => operationId = "")
    "prerequisite operation IDs must be non-empty"

/-- `_last_session_locator_mapping(envelope.result)`. -/
def lastSessionLocator (r : EnvelopeResult) : Option String :=
  match r.sessionRefs.getLast? with
  | some (some locator) => if locator ≠ "" then some locator else r.sessionId.filter (· ≠ "")
  | _ => r.sessionId.filter (· ≠ "")

/-- The JSON object of an artifact: its `operation_id`, and the envelope its
other fields build, or `none` where a field is missing or malformed. -/
structure ArtifactPayload where
  operationId : Option String
  envelope : Option OperationResultEnvelope
  deriving DecidableEq, Repr

/-- The bytes of an artifact as the code sees them: their digest, and the object
they encode, or `none` where they are not a JSON object. -/
structure ArtifactBytes where
  sha256 : String
  payload : Option ArtifactPayload
  deriving DecidableEq, Repr

/-- The secure artifact store of agent-core. `none` is a raise. -/
structure SecureArtifactStore where
  present : String → Bool
  readBytes : String → Option ArtifactBytes
  readVerified : String → String → Option ArtifactBytes

section Store
variable (sha256 : String → String) (store : SecureArtifactStore)

/-- `_decode`, with `OperationResultEnvelope.from_dict`. -/
def decode (data : ArtifactBytes) : Checked OperationResultEnvelope := do
  match data.payload with
  | none => refuse "operation artifact is not valid JSON"
  | some payload =>
    match payload.envelope with
    | none => refuse "malformed operation artifact"
    | some envelope =>
      envelope.validate
      refuseIf (payload.operationId ≠ some (envelope.identity.operationId sha256))
        "operation identity does not match its ID"
      pure envelope

/-- `_name(identity)`. -/
def artifactName (identity : OperationIdentity) : Checked String := do
  identity.validate
  pure s!"{identity.workflowRunId}/{identity.unitId}/{identity.operationId sha256}.json"

/-- The parts of a relative POSIX `Path`. -/
def pathParts (path : String) : List String :=
  ((path.toList.splitOn '/').map String.ofList).filter fun part => part ≠ "" ∧ part ≠ "."

def validatedRelativePath (path : String) : Checked String := do
  refuseIf (path.toList.head? = some '/') "artifact path must be a relative run/unit/result path"
  match pathParts path with
  | [run, unit, filename] =>
    validateIdentifier run "workflow_run_id"
    validateIdentifier unit "unit_id"
    refuseIf (¬ ".json".toList <:+ filename.toList) "artifact path must name a JSON result"
    validateIdentifier (String.ofList (filename.toList.take (filename.length - 5))) "operation_id"
    pure (String.intercalate "/" [run, unit, filename])
  | _ => refuse "artifact path must be a relative run/unit/result path"

def readArtifact (relativePath expectedSha256 : String) : Checked OperationResultEnvelope := do
  let name ← validatedRelativePath relativePath
  match store.readVerified name expectedSha256 with
  | none => refuse "operation artifact cannot be read"
  | some data => decode sha256 data

def readForIdentity (identity : OperationIdentity) :
    Checked (Option (OperationResultEnvelope × String)) := do
  let name ← artifactName sha256 identity
  if store.present name = false then pure none
  else
    match store.readBytes name with
    | none => refuse "operation artifact cannot be read"
    | some data =>
      let envelope ← decode sha256 data
      refuseIf (envelope.identity ≠ identity)
        "operation identity does not match artifact path"
      pure (some (envelope, data.sha256))

def rowPrerequisites (row : OperationRow) : Checked (List String) :=
  match row.prerequisiteOperationIds with
  | none => refuse "ledger prerequisites must be a list"
  | some ids => pure ids

/-- The path and digest a row records, where both are there. -/
def recordedArtifact (row : OperationRow) : Option (String × String) :=
  match row.resultArtifactPath, row.resultArtifactSha256 with
  | some path, some digest => if path ≠ "" ∧ digest ≠ "" then some (path, digest) else none
  | _, _ => none

/-- The envelope of a row, from its recorded path or else from the path of its
identity, with the relative path and the digest. -/
def envelopeForRow (row : OperationRow) :
    Checked (Option (OperationResultEnvelope × String × String)) :=
  match recordedArtifact row with
  | some (path, digest) => do
    let envelope ← readArtifact sha256 store path digest
    pure (some (envelope, path, digest))
  | none => do
    match ← readForIdentity sha256 store (identityForRow row) with
    | none => pure none
    | some (envelope, digest) =>
      let name ← artifactName sha256 (identityForRow row)
      pure (some (envelope, name, digest))

def expectedKind (row : OperationRow) : String :=
  if row.operationStep = "turn" then "turn" else "phase"

def artifactForRow (row : OperationRow) :
    Checked (Option (OperationResultEnvelope × String × String)) := do
  match ← envelopeForRow sha256 store row with
  | none => pure none
  | some (envelope, relative, digest) =>
    refuseIf (envelope.identity ≠ identityForRow row)
      "operation artifact identity conflicts with ledger"
    refuseIf (envelope.prerequisiteOperationIds ≠ (← rowPrerequisites row))
      "operation artifact prerequisites conflict with ledger"
    refuseIf (envelope.resultKind ≠ expectedKind row)
      "operation artifact result kind conflicts with ledger"
    pure (some (envelope, relative, digest))

end Store
end Uta.Operations
