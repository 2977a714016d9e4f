/- The validator of the evidence of a Python run, and where it accepts what the run
concluded. -/
import Uta.PythonGate.Enforcement

namespace Uta.PythonGate
open Uta.Lib

structure ValidationVerdict where
  passed : Bool
  reasonCode : String
  message : String := ""

/-- `x or default` of a text. -/
def orElse (text default : String) : String := if text = "" then default else text

/-- `validate_evidence_envelope` of a Python payload. -/
def validateEvidenceEnvelope (e : Evidence) (expectedHead : String) : Option ValidationVerdict :=
  if e.schemaVersion ≠ 1 then some
    ⟨false, "unknown_schema_version", "Unsupported Python enforcement evidence schema version"⟩
  else if e.language ≠ "python" ∨ e.backend ≠ "python_enforcer" then some
    ⟨false, "wrong_backend", "Evidence is not Python enforcement evidence"⟩
  else if expectedHead ≠ "" ∧ e.headCommit ≠ expectedHead then some
    ⟨false, "stale_head", "Evidence head commit does not match the expected branch head"⟩
  else if e.status ≠ "passed" ∨ e.passed = false then some
    ⟨false, orElse e.reasonCode "failed", orElse e.summary "Python enforcement did not pass"⟩
  else none

/-- `_has_changed_line_payload`. -/
def hasChangedLinePayload (changedLines : Lines) (mutation : Lines) : Bool :=
  (changedLines ++ mutation).any (!·.2.isEmpty)

/-- `candidate_plan_allows_zero_scored_mutation` of the aggregate's plan: the exact keys
are a number there, and no list but an empty one. -/
def aggregatePlanAllows : Option AggregatePlan → Bool
  | none => false
  | some plan => decide (plan.exactToolCandidateKeys = 0)

/-- `_target_plans_allow_zero_scored_mutation`. -/
def targetPlansAllowZeroScoredMutation (targets : List TargetPayload) : Bool :=
  !targets.isEmpty && targets.all fun t =>
    t.mutation.any fun m => decide (m.changedLineMutantsGenerated = 0) &&
      candidatePlanAllowsZeroScoredMutation m.candidatePlan

/-- The aggregate has no mutants, and no plan says that there were none to have. -/
def mutantsMissing (e : Evidence) (m : MutationAggregate) : Bool :=
  decide (m.scope = some "changed_lines") && hasChangedLinePayload e.changedLines m.changedLines &&
    decide (m.changedLineMutantsGenerated = 0) && !aggregatePlanAllows m.candidatePlan &&
    !targetPlansAllowZeroScoredMutation e.targetResults

def acceptance (e : Evidence) : ValidationVerdict :=
  ⟨true, "passed", orElse e.summary "Python enforcement passed"⟩

/-- `validate_python_enforcement_evidence`. -/
def validatePythonEnforcementEvidence (e : Evidence) (expectedHead : String) : ValidationVerdict :=
  match validateEvidenceEnvelope e expectedHead with
  | some verdict => verdict
  | none =>
    if e.reasonCode = "no_changed_python_targets" then acceptance e
    else if !e.coverage.any (·.passed) then
      ⟨false, "coverage_gate_failed", "Python evidence did not include passing coverage"⟩
    else if e.coverage.any (·.noExecutableChangedLines) then acceptance e
    else if !e.mutation.any (·.passed) then
      ⟨false, "mutation_gate_failed", "Python evidence did not include passing mutation"⟩
    else if e.mutation.any (mutantsMissing e) then
      ⟨false, "missing_mutation_evidence",
        "Python changed-line mutation evidence did not include generated changed-line mutants"⟩
    else acceptance e

/-! The runner's classification. -/

inductive QualityGateStatus where
  | passed | failed | commandError | missingEvidence
  deriving DecidableEq, Repr

structure QualityGateResult where
  status : QualityGateStatus
  passed : Bool
  summary : String

/-- `_classify_completed`: the evidence, where there is one, against the workspace's head. -/
def classifyCompleted (returncode : ℤ) (evidence : Option Evidence) (gitHead : String) :
    QualityGateResult :=
  match evidence with
  | none =>
    ⟨if returncode ≠ 0 then .failed else .missingEvidence, false,
      "Python enforcement did not produce UTA evidence"⟩
  | some e =>
    if gitHead = "" then
      ⟨.commandError, false,
        "Python enforcement could not resolve workspace HEAD for evidence validation"⟩
    else
      let verdict := validatePythonEnforcementEvidence e gitHead
      if verdict.passed then ⟨.passed, true, orElse verdict.message "Python enforcement passed"⟩
      else
        ⟨if e.status = "missing_evidence" then .missingEvidence else .failed, false,
          s!"Python enforcement failed: {verdict.reasonCode}: {verdict.message}"⟩

/-! What the validator accepts. -/

theorem validateEvidenceEnvelope_none {e : Evidence} {expectedHead : String}
    (through : validateEvidenceEnvelope e expectedHead = none) :
    e.status = "passed" ∧ e.passed = true := by
  unfold validateEvidenceEnvelope at through
  split_ifs at through with schema backend head failed
  simpa [not_or] using failed

/-- What the validator asks of evidence that passed with changed targets. -/
def Shown (e : Evidence) : Prop :=
  ∃ coverage, e.coverage = some coverage ∧ coverage.passed = true ∧
    (coverage.noExecutableChangedLines = true ∨
      ∃ mutation, e.mutation = some mutation ∧ mutation.passed = true ∧
        mutantsMissing e mutation = false)

theorem validate_passed_iff {e : Evidence} {expectedHead : String}
    (through : validateEvidenceEnvelope e expectedHead = none) :
    (validatePythonEnforcementEvidence e expectedHead).passed = true ↔
      e.reasonCode = "no_changed_python_targets" ∨ Shown e := by
  unfold validatePythonEnforcementEvidence Shown
  rw [through]
  by_cases unchanged : e.reasonCode = "no_changed_python_targets"
  · simp [unchanged, acceptance]
  · cases coverage : e.coverage with
    | none => simp [unchanged]
    | some c =>
      by_cases passed : c.passed = true
      · by_cases bare : c.noExecutableChangedLines = true
        · simp [unchanged, passed, bare, acceptance]
        · cases mutation : e.mutation with
          | none => simp [unchanged, passed, bare]
          | some m =>
            by_cases reached : m.passed = true
            · cases missing : mutantsMissing e m <;>
                simp [unchanged, passed, bare, reached, missing, acceptance]
            · simp [unchanged, passed, bare, reached]
      · simp [unchanged, passed]

/-- Nothing is accepted that did not pass. -/
theorem validate_sound {e : Evidence} {expectedHead : String}
    (accepted : (validatePythonEnforcementEvidence e expectedHead).passed = true) :
    validateEvidenceEnvelope e expectedHead = none := by
  unfold validatePythonEnforcementEvidence at accepted
  cases through : validateEvidenceEnvelope e expectedHead with
  | none => rfl
  | some verdict =>
    rw [through] at accepted
    unfold validateEvidenceEnvelope at through
    split_ifs at through <;> cases through <;> cases accepted

end Uta.PythonGate
