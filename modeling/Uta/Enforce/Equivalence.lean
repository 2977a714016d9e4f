/- The equivalent-mutant review: the survivors it looks at, the verdicts it reads,
and the decision that is saved with a unit's result. -/
import Uta.Lib.JsonLaws

namespace Uta.Enforce
open Uta.Lib

/-- What Python's own conversions make of a JSON value of another type; `none` is
an exception. -/
structure Conversions where
  /-- `str` of a value that is not a text. -/
  str : Json → String
  /-- `int` of a value that is not an integer. -/
  int : Json → Option ℤ
  /-- `float` of a value that is not a float. -/
  float : Json → Option FloatLiteral
  /-- `dict` of a value that is not an object. -/
  dict : Json → Option (List (String × Json))

def zero : FloatLiteral := ⟨"0.0".toList, by decide, by decide⟩

section Fields
variable (py : Conversions) (fields : List (String × Json)) (key : String)

/-- `payload.get(key) or ...`. -/
def truthyField : Option Json := (Dict.get? fields key).filter Json.truthy

/-- `str(value)`. -/
def strOf : Json → String
  | .str s => s
  | v => py.str v

/-- `str(payload.get(key) or "")`. -/
def textField : String := ((truthyField fields key).map (strOf py)).getD ""

/-- `int(payload.get(key) or 0)`. -/
def intField : Option ℤ :=
  match truthyField fields key with
  | none => some 0
  | some (.int n) => some n
  | some v => py.int v

/-- `float(payload.get(key) or 0.0)`. -/
def floatField : Option FloatLiteral :=
  match truthyField fields key with
  | none => some zero
  | some (.real r) => some r
  | some v => py.float v

/-- `dict(payload.get(key) or {})` with its values as texts. -/
def dictField : Option (List (String × String)) :=
  match truthyField fields key with
  | none => some []
  | some (.obj fs) => some (fs.map fun f => (f.1, strOf py f.2))
  | some v => (py.dict v).map fun fs => fs.map fun f => (f.1, strOf py f.2)

/-- What a loop over `payload.get(key) or ()` runs through; of a text or an object
it runs through texts. -/
def loopField : Option (List Json) :=
  match truthyField fields key with
  | none => some []
  | some (.arr items) => some items
  | some (.str s) => some (s.toList.map fun c => .str (String.ofList [c]))
  | some (.obj fs) => some (fs.map fun f => .str f.1)
  | some _ => none

end Fields

/-! Survivors. -/

structure MutantIdentity where
  key : String
  sourcePath : String
  line : ℤ
  operator : String
  description : String
  mutationDiff : String := ""
  deriving DecidableEq

structure ScoringSurvivors where
  language : String
  mutants : List MutantIdentity
  unreviewedScoringFailures : ℤ
  sourceFingerprints : List (String × String)
  mutationRate : FloatLiteral
  mutationGate : FloatLiteral
  deriving DecidableEq

def MutantIdentity.toFields (m : MutantIdentity) : List (String × Json) :=
  [("key", .str m.key), ("source_path", .str m.sourcePath), ("line", .int m.line),
    ("operator", .str m.operator), ("description", .str m.description),
    ("mutation_diff", .str m.mutationDiff)]

def ScoringSurvivors.keys (s : ScoringSurvivors) : List String := s.mutants.map MutantIdentity.key

def ScoringSurvivors.toFields (s : ScoringSurvivors) : List (String × Json) :=
  [("language", .str s.language), ("mutants", .arr (s.mutants.map fun m => .obj m.toFields)),
    ("unreviewed_scoring_failures", .int s.unreviewedScoringFailures),
    ("source_fingerprints", .obj (s.sourceFingerprints.map fun e => (e.1, .str e.2))),
    ("mutation_rate", .real s.mutationRate), ("mutation_gate", .real s.mutationGate)]

section Survivors
variable (py : Conversions)

def mutantFromDict (item : Json) : Option MutantIdentity := do
  let fields ← item.fields?
  let line ← intField py fields "line"
  pure
    { key := textField py fields "key"
      sourcePath := textField py fields "source_path"
      line
      operator := textField py fields "operator"
      description := textField py fields "description"
      mutationDiff := textField py fields "mutation_diff" }

/-- `ScoringSurvivors.from_dict`; `none` is an exception. -/
def survivorsFromDict (fields : List (String × Json)) : Option ScoringSurvivors := do
  let mutants ← (← loopField fields "mutants").mapM (mutantFromDict py)
  let failures ← intField py fields "unreviewed_scoring_failures"
  let fingerprints ← dictField py fields "source_fingerprints"
  let rate ← floatField py fields "mutation_rate"
  let gate ← floatField py fields "mutation_gate"
  pure ⟨textField py fields "language", mutants, failures, fingerprints, rate, gate⟩

end Survivors

/-! Verdicts. -/

inductive Verdict where
  | equivalent | killable | uncertain
  deriving DecidableEq, Repr

def Verdict.text : Verdict → String
  | .equivalent => "equivalent"
  | .killable => "killable"
  | .uncertain => "uncertain"

structure MutantVerdict where
  key : String
  verdict : Verdict
  divergenceRegion : String
  whyIndistinguishable : String
  sourceLines : List ℤ := []
  deriving DecidableEq, Repr

/-- `str.lower` of a code point, as far as the result is an ASCII letter: besides
the capitals this holds of the Kelvin sign. -/
def lowerChar (c : Char) : Char := if c = '\u212a' then 'k' else c.toLower

/-- The verdict that a text names after `.strip().lower()`. -/
def verdictOf (text : String) : Option Verdict :=
  let lowered := (PyText.strip text.toList).map lowerChar
  if lowered = "equivalent".toList then some .equivalent
  else if lowered = "killable".toList then some .killable
  else if lowered = "uncertain".toList then some .uncertain
  else none

def stripText (text : String) : String := String.ofList (PyText.strip text.toList)

/-- The integers of a loop, which leaves out the booleans. -/
def integersOf (items : List Json) : List ℤ :=
  items.filterMap fun
    | .int n => some n
    | _ => none

section Verdicts
variable (py : Conversions)

/-- `_verdict_from`; the outer `none` is an exception. -/
def verdictFrom (item : Json) : Option (Option MutantVerdict) :=
  match item.fields? with
  | none => some none
  | some fields =>
    let key := stripText (textField py fields "key")
    match verdictOf (textField py fields "verdict") with
    | none => some none
    | some verdict =>
      if key = "" then some none
      else
        let region := stripText (textField py fields "divergence_region")
        let argument := stripText (textField py fields "why_indistinguishable")
        (loopField fields "source_lines").map fun lines => some
          { key
            verdict := if verdict = .equivalent ∧ (region = "" ∨ argument = "") then .uncertain
              else verdict
            divergenceRegion := region
            whyIndistinguishable := argument
            sourceLines := integersOf lines }

inductive ParseOutcome where
  | allEquivalent | rejected
  deriving DecidableEq, Repr

structure ParsedVerdicts where
  outcome : ParseOutcome
  reason : String
  verdicts : List MutantVerdict := []
  deriving DecidableEq, Repr

/-- The verdicts of the items; the inner `none` is a verdict that is not accepted. -/
def readVerdicts (expected : List String) :
    List Json → List MutantVerdict → Option (Option (List MutantVerdict))
  | [], verdicts => some (some verdicts)
  | item :: items, verdicts =>
    (verdictFrom py item).bind fun
      | none => some none
      | some verdict =>
        if verdict.key ∉ expected ∨ verdict.key ∈ verdicts.map MutantVerdict.key then some none
        else readVerdicts expected items (verdicts ++ [verdict])

/-- `document.get("verdicts") if isinstance(document, Mapping) else document`, if it is a list. -/
def verdictItems (document : Json) : Option (List Json) :=
  match document with
  | .obj fields =>
    match Dict.get? fields "verdicts" with
    | some (.arr items) => some items
    | _ => none
  | .arr items => some items
  | _ => none

def parseVerdicts (payload : Option (List Char)) (expectedKeys : List String) :
    Option ParsedVerdicts :=
  match (payload.bind Json.loads).bind verdictItems with
  | none => some { outcome := .rejected, reason := "verdicts_invalid" }
  | some items =>
    (readVerdicts py expectedKeys items []).map fun
      | none => { outcome := .rejected, reason := "verdicts_invalid" }
      | some verdicts =>
        if ¬ ∀ key ∈ expectedKeys, key ∈ verdicts.map MutantVerdict.key then
          { outcome := .rejected, reason := "verdicts_incomplete", verdicts }
        else if verdicts.any fun v => decide (v.verdict ≠ .equivalent) then
          { outcome := .rejected, reason := "verdict_not_equivalent", verdicts }
        else { outcome := .allEquivalent, reason := "", verdicts }

end Verdicts

/-! Decisions. -/

inductive ReviewOutcome where
  | allEquivalent | rejected | ineligible
  deriving DecidableEq, Repr

def ReviewOutcome.text : ReviewOutcome → String
  | .allEquivalent => "all_equivalent"
  | .rejected => "rejected"
  | .ineligible => "ineligible"

/-- A text that is no outcome is read as a rejection. -/
def reviewOutcomeOf (text : String) : ReviewOutcome :=
  if text = "all_equivalent" then .allEquivalent
  else if text = "ineligible" then .ineligible
  else .rejected

structure ReviewDecision where
  outcome : ReviewOutcome
  reason : String
  survivors : Option ScoringSurvivors
  verdicts : List MutantVerdict := []
  verdictsSha256 : String := ""
  agentSessionRef : List (String × String) := []
  modelId : String := ""
  deriving DecidableEq

def MutantVerdict.toFields (v : MutantVerdict) : List (String × Json) :=
  [("key", .str v.key), ("verdict", .str v.verdict.text),
    ("divergence_region", .str v.divergenceRegion),
    ("why_indistinguishable", .str v.whyIndistinguishable),
    ("source_lines", .arr (v.sourceLines.map Json.int))]

/-- `to_dict`. -/
def ReviewDecision.toFields (d : ReviewDecision) : List (String × Json) :=
  [("outcome", .str d.outcome.text), ("reason", .str d.reason),
    ("survivors", (d.survivors.map fun s => Json.obj s.toFields).getD .null),
    ("verdicts", .arr (d.verdicts.map fun v => .obj v.toFields)),
    ("verdicts_sha256", .str d.verdictsSha256),
    ("agent_session_ref", .obj (d.agentSessionRef.map fun e => (e.1, .str e.2))),
    ("model_id", .str d.modelId)]

/-- `json_dumps` of an object. -/
def jsonDumps (v : Json) : List Char := Json.print true v.sortKeys

/-- `json_loads`; what is not an object is read as an empty one. -/
def jsonLoads (text : List Char) : List (String × Json) :=
  ((Json.loads text).bind Json.fields?).getD []

section Decision
variable (py : Conversions)

/-- `ReviewDecision.from_dict`. -/
def decisionFromDict (fields : List (String × Json)) : Option ReviewDecision := do
  let survivors ←
    match Dict.get? fields "survivors" with
    | some (.obj fs) => (survivorsFromDict py fs).map some
    | _ => some none
  let verdicts ← (← loopField fields "verdicts").mapM (verdictFrom py)
  let session ← dictField py fields "agent_session_ref"
  pure
    { outcome := reviewOutcomeOf (textField py fields "outcome")
      reason := textField py fields "reason"
      survivors
      verdicts := verdicts.filterMap id
      verdictsSha256 := textField py fields "verdicts_sha256"
      agentSessionRef := session
      modelId := textField py fields "model_id" }

/-- `_saved_review`: the review of a row, if its survivors were saved. -/
def savedReview (text : List Char) : Option (Option ReviewDecision) :=
  match Dict.get? (jsonLoads text) "survivors" with
  | some (.obj _) => (decisionFromDict py (jsonLoads text)).map some
  | _ => some none

/-- The decision of a completed review turn whose workspace is as it was. -/
def reviewFromTurn (survivors : ScoringSurvivors) (payload : Option (List Char))
    (digest : String) (sessionRef : List (String × String)) (modelId : String) :
    Option ReviewDecision :=
  (parseVerdicts py payload survivors.keys).map fun parsed =>
    { outcome := if parsed.outcome = .allEquivalent then .allEquivalent else .rejected
      reason := parsed.reason
      survivors := some survivors
      verdicts := parsed.verdicts
      verdictsSha256 := digest
      agentSessionRef := sessionRef
      modelId }

end Decision
end Uta.Enforce
