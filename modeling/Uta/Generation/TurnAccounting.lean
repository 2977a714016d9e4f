/- The accounting of agent turns: what is collected of a list of turns, and how the accounting of a
batch is added to what there is. -/
import Uta.Lib.FirstSeen
import Uta.Lib.NestedSums

namespace Uta.Generation.TurnAccounting
open Uta.Lib NestedSums

/-! Turns. A text that is missing is empty. -/

/-- An entry of `session_refs` that is a mapping. -/
structure RawRef where
  harness : String := ""
  locator : String := ""
  scope : String := ""

structure Ref where
  harness : String
  locator : String
  scope : String
  deriving DecidableEq

/-- A turn. `ω` is the type of the values in its usage that are neither numbers nor mappings, and `ε`
that of a retrospective or of diagnostics, which are `none` where they are empty; both are taken as
Python compares them. A boolean counts as the number that it equals. -/
structure Turn (ω ε : Type) where
  phase : String := ""
  sessionRefs : List (Option RawRef) := []
  sessionId : String := ""
  usage : Fields ω := []
  distinct : Proper (.map usage)
  elapsedSeconds : ℚ := 0
  retrospective : Option ε := none
  diagnostics : Option ε := none
  patchCount : ℤ := 0

/-- `text or default`. -/
def orText (text default : String) : String := if text = "" then default else text

def RawRef.ref (r : RawRef) : Option Ref :=
  if r.locator = "" then none
  else some ⟨orText r.harness "unknown", r.locator, orText r.scope "durable"⟩

variable {ω ε : Type}

def sessionRefs (t : Turn ω ε) : List Ref :=
  let refs := t.sessionRefs.filterMap fun raw => raw.bind RawRef.ref
  if t.sessionId ≠ "" ∧ refs.isEmpty then [⟨"legacy", t.sessionId, "durable"⟩] else refs

def Turn.phaseName (t : Turn ω ε) : String := orText t.phase "unknown"

def locators (t : Turn ω ε) : List String := (sessionRefs t).map Ref.locator

def bucketKey (key : String) : String :=
  match key with
  | "input_tokens" => "input"
  | "output_tokens" => "output"
  | "reasoning_tokens" => "reasoning"
  | "cache_read_tokens" => "cache_read"
  | "cache_write_tokens" => "cache_write"
  | "total_tokens" => "total"
  | key => key

/-- `_phase_token_bucket`. -/
def phaseTokenBucket (usage : Fields ω) : Fields ω :=
  match get? usage "total_tokens" with
  | some (.map tokens) => tokens
  | _ => usage.foldl (fun bucket e =>
      match e.2 with
      | .num n => put bucket (bucketKey e.1) (.num n)
      | _ => bucket) []

/-! The accounting. -/

structure Entry (ε : Type) where
  phase : String
  sessionId : Option String
  value : ε
  deriving DecidableEq

structure Accounting (ω ε : Type) where
  sessionIds : List String := []
  sessionRefs : List Ref := []
  sessionTokenUsage : Fields ω := []
  phaseTokenUsage : Fields ω := []
  phaseTimings : Fields ω := []
  sessionRetrospect : List (Entry ε) := []
  sessionDiagnostics : List (Entry ε) := []
  sessionPatchCount : ℤ := 0

/-- `dict(fields.get(key) or {})`. -/
def mappingAt (fields : Fields ω) (key : String) : Fields ω :=
  match get? fields key with
  | some (.map inner) => inner
  | _ => []

/-- `fields.get(key, 0.0)`. -/
def numberAt (fields : Fields ω) (key : String) : ℚ :=
  match get? fields key with
  | some (.num n) => n
  | _ => 0

/-- One turn of the loop of `aggregate_turn_accounting`. -/
def Accounting.add (a : Accounting ω ε) (t : Turn ω ε) : Accounting ω ε :=
  let phase := t.phaseName
  let refs := TurnAccounting.sessionRefs t
  let sessions := (refs.map Ref.locator).foldl addNew a.sessionIds
  let sessionId := if refs.isEmpty then none else sessions.getLast?
  let entry value : Entry ε := ⟨phase, sessionId, value⟩
  { sessionIds := sessions
    sessionRefs := refs.foldl addNew a.sessionRefs
    sessionTokenUsage := merge a.sessionTokenUsage t.usage
    phaseTokenUsage := put a.phaseTokenUsage phase
      (.map (merge (mappingAt a.phaseTokenUsage phase) (phaseTokenBucket t.usage)))
    phaseTimings := put a.phaseTimings phase
      (.num (numberAt a.phaseTimings phase + t.elapsedSeconds))
    sessionRetrospect := a.sessionRetrospect ++ (t.retrospective.map entry).toList
    sessionDiagnostics := a.sessionDiagnostics ++ (t.diagnostics.map entry).toList
    sessionPatchCount := a.sessionPatchCount + max t.patchCount 0 }

/-- `aggregate_turn_accounting`, its timings under the name that they are passed on by. -/
def aggregateTurnAccounting (turns : List (Turn ω ε)) : Accounting ω ε :=
  turns.foldl Accounting.add {}

variable [DecidableEq ε]

/-- `merge_accounting`. -/
def mergeAccounting (existing current : Accounting ω ε) : Accounting ω ε where
  sessionIds := firstSeen (existing.sessionIds ++ current.sessionIds)
  sessionRefs := firstSeen (existing.sessionRefs ++ current.sessionRefs)
  sessionTokenUsage := merge existing.sessionTokenUsage current.sessionTokenUsage
  phaseTokenUsage := merge existing.phaseTokenUsage current.phaseTokenUsage
  phaseTimings := merge existing.phaseTimings current.phaseTimings
  sessionRetrospect := firstSeen (existing.sessionRetrospect ++ current.sessionRetrospect)
  sessionDiagnostics := firstSeen (existing.sessionDiagnostics ++ current.sessionDiagnostics)
  sessionPatchCount := existing.sessionPatchCount + current.sessionPatchCount

/-- Batch after batch is added to an empty accounting. -/
def accumulate (batches : List (List (Turn ω ε))) : Accounting ω ε :=
  (batches.map aggregateTurnAccounting).foldl mergeAccounting {}

end Uta.Generation.TurnAccounting
