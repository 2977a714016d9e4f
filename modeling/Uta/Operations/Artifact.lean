/- Operation artifacts as they are written: the JSON of a result envelope, and reading it back. -/
import Uta.Operations.Envelope
import Uta.Enforce.Equivalence

namespace Uta.Operations
open Uta.Lib
open Uta.Enforce (Conversions strOf dictField loopField)

/-- What Python makes of a float where an attempt or an ordinal is expected. -/
structure Numerals where
  negative : FloatLiteral → Bool
  str : FloatLiteral → String
  /-- No float is written as an integer is. -/
  apart : ∀ x (n : ℤ), str x ≠ toString n
  plain : ∀ x, '\x00' ∉ (str x).toList

inductive DecodeError where
  | invalid (e : ArtifactValidationError)
  | typeError
  deriving DecidableEq, Repr

abbrev Decoded := Except DecodeError

def invalid {α : Type} (message : String) : Decoded α := .error (.invalid ⟨message⟩)

/-- The conversions whose exceptions make an artifact malformed. -/
def orMalformed {α : Type} (x : Option α) : Decoded α :=
  match x with
  | none => invalid "malformed operation artifact"
  | some a => pure a

/-! Identities. -/

/-- The arguments of `OperationIdentity`, of whatever type. -/
structure RawIdentity where
  workflowRunId : Json
  unitId : Json
  phase : Json
  operationStep : Json
  logicalAttempt : Json
  executionOrdinal : Json
  inputFingerprint : Json

/-- An identity whose attempt and ordinal may be other numbers than integers. -/
structure StoredIdentity where
  workflowRunId : String
  unitId : String
  phase : String
  operationStep : String
  logicalAttempt : Json
  executionOrdinal : Json
  inputFingerprint : String

def OperationIdentity.stored (i : OperationIdentity) : StoredIdentity :=
  ⟨i.workflowRunId, i.unitId, i.phase, i.operationStep, .int i.logicalAttempt,
    .int i.executionOrdinal, i.inputFingerprint⟩

/-- `asdict(identity)`. -/
def OperationIdentity.fields (i : OperationIdentity) : List (String × Json) :=
  [("workflow_run_id", .str i.workflowRunId), ("unit_id", .str i.unitId), ("phase", .str i.phase),
    ("operation_step", .str i.operationStep), ("logical_attempt", .int i.logicalAttempt),
    ("execution_ordinal", .int i.executionOrdinal), ("input_fingerprint", .str i.inputFingerprint)]

def identityKeys : List String :=
  ["workflow_run_id", "unit_id", "phase", "operation_step", "logical_attempt", "execution_ordinal",
    "input_fingerprint"]

section Identities
variable (py : Conversions) (num : Numerals)

/-- `dict(value)`. -/
def dictOf : Json → Option (List (String × Json))
  | .obj fields => some fields
  | v => py.dict v

/-- `int(value)`. -/
def intOf : Json → Option ℤ
  | .int n => some n
  | v => py.int v

/-- `OperationIdentity(**dict(value))`. -/
def rawIdentity (value : Json) : Option RawIdentity := do
  let fields ← dictOf py value
  if fields.any (fun field => field.1 ∉ identityKeys) then none
  else
    some
      { workflowRunId := ← Dict.get? fields "workflow_run_id"
        unitId := ← Dict.get? fields "unit_id"
        phase := ← Dict.get? fields "phase"
        operationStep := ← Dict.get? fields "operation_step"
        logicalAttempt := ← Dict.get? fields "logical_attempt"
        executionOrdinal := ← Dict.get? fields "execution_ordinal"
        inputFingerprint := ← Dict.get? fields "input_fingerprint" }

/-- `value < 0`; `none` is a `TypeError`. -/
def isNegative : Json → Option Bool
  | .int n => some (n < 0)
  | .bool _ => some false
  | .real x => some (num.negative x)
  | _ => none

/-- `str(value)` of a number. -/
def numeral : Json → String
  | .int n => toString n
  | .bool true => "True"
  | .bool false => "False"
  | .real x => num.str x
  | _ => ""

def validateText (value : Json) (name : String) : Decoded Unit :=
  match value with
  | .str s => if isIdentifier s then pure () else invalid s!"{name} is not a safe identifier"
  | _ => invalid s!"{name} is not a safe identifier"

def validateStep : Json → Decoded Unit
  | .str s =>
    if s ∈ ["turn", "interpret", "deterministic"] then pure ()
    else invalid "operation_step must be one of ['deterministic', 'interpret', 'turn']"
  | .arr _ | .obj _ => .error .typeError
  | _ => invalid "operation_step must be one of ['deterministic', 'interpret', 'turn']"

def validateNumber (value : Json) : Decoded Unit :=
  match isNegative num value with
  | none => .error .typeError
  | some true => invalid "attempt and execution ordinal must be non-negative"
  | some false => pure ()

/-- `OperationIdentity.validate`. -/
def RawIdentity.validate (i : RawIdentity) : Decoded Unit := do
  validateText i.workflowRunId "workflow_run_id"
  validateText i.unitId "unit_id"
  validateText i.phase "phase"
  validateStep i.operationStep
  validateNumber num i.logicalAttempt
  validateNumber num i.executionOrdinal
  if i.inputFingerprint.truthy then pure () else invalid "input_fingerprint must not be empty"

/-- The identity, where its texts are texts. -/
def RawIdentity.typed (i : RawIdentity) : Option StoredIdentity :=
  match i.workflowRunId, i.unitId, i.phase, i.operationStep, i.inputFingerprint with
  | .str run, .str unit, .str phase, .str step, .str fingerprint =>
    some ⟨run, unit, phase, step, i.logicalAttempt, i.executionOrdinal, fingerprint⟩
  | _, _, _, _, _ => none

def StoredIdentity.digestText (i : StoredIdentity) : String :=
  String.intercalate "\x00" [i.workflowRunId, i.unitId, i.phase, i.operationStep,
    numeral num i.logicalAttempt, numeral num i.executionOrdinal, i.inputFingerprint]

def StoredIdentity.operationId (sha256 : String → String) (i : StoredIdentity) : String :=
  sha256 (i.digestText num)

theorem stored_operationId (sha256 : String → String) (i : OperationIdentity) :
    i.stored.operationId num sha256 = i.operationId sha256 := rfl

end Identities

/-! Envelopes. -/

/-- `OperationResultEnvelope` with the whole of its result. -/
structure ResultEnvelope (ι : Type) where
  identity : ι
  resultKind : String
  result : List (String × Json)
  resultingWorkspaceFingerprint : String
  outputFingerprints : List (String × String)
  prerequisiteOperationIds : List String
  envelopeSchemaVersion : ℤ

namespace ResultEnvelope
variable {ι κ : Type}

def withIdentity (e : ResultEnvelope ι) (identity : κ) : ResultEnvelope κ :=
  ⟨identity, e.resultKind, e.result, e.resultingWorkspaceFingerprint, e.outputFingerprints,
    e.prerequisiteOperationIds, e.envelopeSchemaVersion⟩

/-- `validate`, after the identity. -/
def validateFields (e : ResultEnvelope ι) : Checked Unit := do
  refuseIf (e.envelopeSchemaVersion ≠ Uta.Operations.envelopeSchemaVersion)
    "unsupported operation artifact schema"
  refuseIf (e.resultKind ∉ ["turn", "phase"])
    "result_kind must be one of ['phase', 'turn']"
  refuseIf (e.resultingWorkspaceFingerprint = "")
    "resulting workspace fingerprint must not be empty"
  refuseIf (e.outputFingerprints.any fun item => item.1 = "" || item.2 = "")
    "output fingerprints must have non-empty keys and values"
  refuseIf (e.prerequisiteOperationIds.any fun operationId => operationId = "")
    "prerequisite operation IDs must be non-empty"

def validate (e : ResultEnvelope OperationIdentity) : Checked Unit := do
  e.identity.validate
  e.validateFields

/-- The object that `as_dict` builds. -/
def payload (sha256 : String → String) (e : ResultEnvelope OperationIdentity) :
    List (String × Json) :=
  [("envelope_schema_version", .int e.envelopeSchemaVersion),
    ("operation_id", .str (e.identity.operationId sha256)),
    ("identity", .obj e.identity.fields),
    ("result_kind", .str e.resultKind),
    ("result", .obj e.result),
    ("resulting_workspace_fingerprint", .str e.resultingWorkspaceFingerprint),
    ("output_fingerprints", .obj (e.outputFingerprints.map fun item => (item.1, .str item.2))),
    ("prerequisite_operation_ids", .arr (e.prerequisiteOperationIds.map .str))]

def asDict (sha256 : String → String) (e : ResultEnvelope OperationIdentity) :
    Checked (List (String × Json)) := do
  e.validate
  pure (e.payload sha256)

/-- The envelope with its dictionaries in key order. -/
def canonical (e : ResultEnvelope OperationIdentity) : ResultEnvelope StoredIdentity where
  identity := e.identity.stored
  resultKind := e.resultKind
  result := Dict.sorted (Json.sortFields e.result)
  resultingWorkspaceFingerprint := e.resultingWorkspaceFingerprint
  outputFingerprints := Dict.sorted e.outputFingerprints
  prerequisiteOperationIds := e.prerequisiteOperationIds
  envelopeSchemaVersion := e.envelopeSchemaVersion

end ResultEnvelope

/-- `_encode`. -/
def encodePayload (payload : List (String × Json)) : List Char :=
  Json.print false (Json.sortKeys (.obj payload))

section Decoding
variable (sha256 : String → String) (py : Conversions) (num : Numerals)

/-- The text of a field, where it is a text. -/
def storedText (fields : List (String × Json)) (key : String) : Option String :=
  match Dict.get? fields key with
  | some (.str s) => some s
  | _ => none

/-- The arguments of the envelope, before any validation. -/
def readEnvelope (payload : List (String × Json)) : Option (ResultEnvelope RawIdentity) := do
  some
    { identity := ← (Dict.get? payload "identity").bind (rawIdentity py)
      resultKind := ← (Dict.get? payload "result_kind").map (strOf py)
      result := ← (Dict.get? payload "result").bind (dictOf py)
      resultingWorkspaceFingerprint :=
        ← (Dict.get? payload "resulting_workspace_fingerprint").map (strOf py)
      outputFingerprints := ← dictField py payload "output_fingerprints"
      prerequisiteOperationIds :=
        ← (loopField payload "prerequisite_operation_ids").map (List.map (strOf py))
      envelopeSchemaVersion := ← (Dict.get? payload "envelope_schema_version").bind (intOf py) }

/-- `OperationResultEnvelope.from_dict`. -/
def fromDict (payload : List (String × Json)) : Decoded (ResultEnvelope StoredIdentity) := do
  let envelope ← orMalformed (readEnvelope py payload)
  envelope.identity.validate num
  envelope.validateFields.mapError .invalid
  match envelope.identity.typed with
  | none => .error .typeError
  | some identity =>
    if storedText payload "operation_id" = some (identity.operationId num sha256) then
      pure (envelope.withIdentity identity)
    else invalid "operation identity does not match its ID"

/-- `_decode`. -/
def decodeArtifact (data : List Char) : Decoded (ResultEnvelope StoredIdentity) :=
  match Json.loads data with
  | none => invalid "operation artifact is not valid JSON"
  | some (.obj payload) => fromDict sha256 py num payload
  | some _ => invalid "operation artifact root must be an object"

/-- `OperationArtifactStore.read`, over the verified read of the store below it. -/
def readText (readVerified : String → String → Option String) (relativePath expectedSha256 : String) :
    Decoded (ResultEnvelope StoredIdentity) := do
  let name ← (validatedRelativePath relativePath).mapError .invalid
  match readVerified name expectedSha256 with
  | none => invalid "operation artifact cannot be read"
  | some data => decodeArtifact sha256 py num data.toList

end Decoding
end Uta.Operations
