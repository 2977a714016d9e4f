/- What the output of one Maven run is taken to say: the predicates over its text, and the order in
which a completed run is classified by them. -/
import Uta.Lib.Scan
import Uta.Lib.Percent

namespace Uta.JavaGate
open Uta.Lib Uta.Lib.PyText Uta.Lib.Matcher

/-! The patterns, in lower case: they are read in a lowered text. -/

/-- `\s+`. -/
def blanks : Matcher (List Char) := run isSpace

/-- `\d+`. -/
def digits : Matcher ℕ := do
  let text ← run fun c => (digitValue c).isSome
  pure (intOf (text.filterMap digitValue))

/-- `[0-9]+(?:\.[0-9]+)?`, as `float` reads it. -/
def decimal : Matcher ℚ := do
  let whole ← run Char.isDigit
  let fraction ← opt (do lit "."; run Char.isDigit)
  let parts := (fraction.getD []).filterMap digitValue
  pure (binary64 (intOf (whole.filterMap digitValue) + intOf parts / 10 ^ parts.length))

/-- `diff(?:\s+line)?\s+coverage\s*:?\s+[0-9]+(?:\.[0-9]+)?%`. -/
def coverageFigure : Matcher ℚ := do
  lit "diff"
  let _ ← opt (do let _ ← blanks; lit "line")
  let _ ← blanks
  lit "coverage"
  let _ ← opt blanks
  let _ ← opt (lit ":")
  let _ ← blanks
  let rate ← decimal
  lit "%"
  pure rate

/-- `diff\s+mutation\s+score\s+([0-9]+(?:\.[0-9]+)?)%\s+passed`. -/
def passedScore : Matcher ℚ := do
  lit "diff"
  let _ ← blanks
  lit "mutation"
  let _ ← blanks
  lit "score"
  let _ ← blanks
  let score ← decimal
  lit "%"
  let _ ← blanks
  lit "passed"
  pure score

/-- `\s+for\s+[^\s]+\s+`. -/
def subject : Matcher Unit := do
  let _ ← blanks
  lit "for"
  let _ ← blanks
  let _ ← run fun c => !isSpace c
  let _ ← blanks
  pure ()

/-- `\s+\d+\s+no\s+coverage\s+excluded\)`. -/
def noCoverageExcluded : Matcher Unit := do
  let _ ← blanks
  let _ ← digits
  let _ ← blanks
  lit "no"
  let _ ← blanks
  lit "coverage"
  let _ ← blanks
  lit "excluded)"

/-- The score that passed, with its counts. -/
def scoredVerdict : Matcher Unit := do
  let _ ← passedScore
  subject
  lit "("
  let _ ← digits
  lit "/"
  let _ ← digits
  let _ ← blanks
  lit "detected;"
  let _ ← blanks
  let _ ← digits
  let _ ← blanks
  lit "survived;"
  noCoverageExcluded

/-- `no\s+scored\s+PIT\s+mutations\s+on\s+changed\s+lines`, with its counts. -/
def unscoredVerdict : Matcher Unit := do
  lit "no"
  let _ ← blanks
  lit "scored"
  let _ ← blanks
  lit "pit"
  let _ ← blanks
  lit "mutations"
  let _ ← blanks
  lit "on"
  let _ ← blanks
  lit "changed"
  let _ ← blanks
  lit "lines"
  subject
  lit "(0/0"
  let _ ← blanks
  lit "scored;"
  noCoverageExcluded

/-- `pitest\.targets=(\d+)\s+\[([^\]]*)\]`. -/
def pitestTargets : Matcher (ℕ × List Char) := do
  lit "pitest.targets="
  let count ← digits
  let _ ← blanks
  lit "["
  let names ← opt (run (· ≠ ']'))
  lit "]"
  pure (count, names.getD [])

/-- `_PIT_SKIP_FAILING_APPLIED`. -/
def pitSkipFailingApplied : Matcher Unit := do
  lit "[uta-pit-compat]"
  fun text => (wordStarts (some ']') (text.takeWhile (· ≠ '\n'))).flatMap
    (do lit "skipfailingtests=true"; wordEnd : Matcher Unit)

/-- `_PIT_STATISTICS_BLOCK`: the mutations generated, and those without coverage. -/
def pitStatisticsBlock : Matcher (ℕ × ℕ) := do
  lit "generated"
  let _ ← blanks
  let generated ← digits
  let _ ← blanks
  lit "mutations"
  let _ ← blanks
  lit "killed"
  let _ ← blanks
  let _ ← digits
  let _ ← blanks
  lit "("
  let _ ← decimal
  lit "%)"
  gap 200
  lit "mutations with no coverage"
  let _ ← blanks
  let noCoverage ← digits
  lit "."
  pure (generated, noCoverage)

/-! The predicates. -/

/-- `output.lower()`, of an ASCII output. -/
def lower (output : List Char) : List Char := output.map Char.toLower

@[simp] theorem lower_nil : lower [] = [] := rfl

@[simp] theorem lower_cons (c : Char) (text : List Char) :
    lower (c :: text) = c.toLower :: lower text := rfl

@[simp] theorem lower_append (left right : List Char) :
    lower (left ++ right) = lower left ++ lower right := List.map_append

/-- `any(marker in lowered for marker in markers)`. -/
def mentions (markers : List String) (output : List Char) : Bool :=
  markers.any fun marker => containsLower marker output

def hasCoverage (output : List Char) : Bool := search coverageFigure (lower output)

def hasMutation (output : List Char) : Bool :=
  search scoredVerdict (lower output) || search unscoredVerdict (lower output)

def hasRequiredEvidence (output : List Char) : Bool := hasCoverage output && hasMutation output

def hasScopedPitestTargets (output : List Char) : Bool :=
  (finditer true pitestTargets output.length none (lower output)).any fun found =>
    decide (0 < found.1) && !(PyText.strip found.2).isEmpty

def looksSkipped : List Char → Bool :=
  mentions ["skip test enforcement", "test-enforcement skipped"]

def looksNoEnforceableJavaLines (output : List Char) : Bool :=
  !hasScopedPitestTargets output && containsLower "test-enforcer" output &&
    containsLower "no changed java source lines" output && containsLower "build success" output

def looksGateFailed (output : List Char) : Bool :=
  mentions
    ["test-enforcement failed", "test enforcement failed", "diff coverage failed",
      "diff coverage check failed", "coverage gate failed", "mutation gate failed",
      "mutation coverage failed", "mutation score is below", "test-strength failed",
      "test strength failed", "test strength score", "test-enforcer check-coverage failed",
      "test-enforcer check-mutation failed", "check-coverage failed", "check-mutation failed"]
    output ||
  (containsLower "diff line coverage" output && containsLower "below required" output) ||
  (containsLower "test strength" output && containsLower "below threshold" output)

def looksPitestBaselineFailure : List Char → Bool :=
  mentions
    ["mutation testing requires a green suite", "tests failing without mutation",
      "tests did not pass without mutation"]

def looksBuildBroken (output : List Char) : Bool :=
  mentions
    ["dependencyresolutionexception", "could not resolve dependencies", "could not find artifact",
      "could not collect dependencies", "failed to collect dependencies", "compilation failure",
      "compilation error", "fatal error compiling", "maven-compiler-plugin", "cannot find symbol"]
    output ||
  (containsLower "package " output && containsLower " does not exist" output)

def diffMutationScores (output : List Char) : List ℚ :=
  findall (do let score ← passedScore; wordEnd; pure score) (lower output)

def mutationScoreBelowCiGate (mutationGate : ℚ) (output : List Char) : Bool :=
  decide (0 < mutationGate) &&
    (diffMutationScores output).min?.any fun least => decide (least < mutationGate)

/-- The mutations of each module that PIT scored without a covered one. -/
def pitModulesWithoutCoveredMutants (output : List Char) : List ℕ :=
  if (lower output).tails.any fun place => !(pitSkipFailingApplied place).isEmpty then
    (finditer false pitStatisticsBlock output.length none (lower output)).filterMap fun found =>
      if 0 < found.1 ∧ found.1 ≤ found.2 then some found.1 else none
  else []

/-! The classification. -/

inductive Status where
  | passed
  | failed
  | skipped
  | commandError
  | missingEvidence
  deriving DecidableEq

/-- The return of `_classify_completed` that is taken. -/
inductive Ground where
  | skipped
  | gateFailed
  | belowGate
  | nothingCovered (mutations : ℕ)
  | terminated (signal : ℤ)
  | buildBroken
  | baselineFailed
  | evidence
  | evidenceNonZero
  | noEnforceableLines
  | beforeEvidence
  | missingEvidence
  deriving DecidableEq

def Ground.status : Ground → Status
  | .skipped => .skipped
  | .gateFailed | .belowGate | .nothingCovered _ | .buildBroken | .baselineFailed
  | .beforeEvidence => .failed
  | .terminated _ => .commandError
  | .evidence | .evidenceNonZero | .noEnforceableLines => .passed
  | .missingEvidence => .missingEvidence

/-- The summary, as far as it is fixed: that of a missed gate goes on with what was measured, that
of missing evidence with the versions required. -/
def Ground.summary : Ground → String
  | .skipped => "UTA test-enforcement was skipped"
  | .gateFailed | .belowGate => "UTA test-enforcement failed"
  | .nothingCovered mutations =>
    s!"UTA test-enforcement failed because PIT scored {mutations} mutation(s) with no covering " ++
      "test, so its test strength is 100% of nothing"
  | .terminated _ => "UTA test-enforcement was terminated by a signal before evidence was produced"
  | .buildBroken =>
    "UTA test-enforcement failed because Maven build did not compile or resolve"
  | .baselineFailed => "UTA test-enforcement failed because PIT baseline tests were not green"
  | .evidence => "UTA test-enforcement passed"
  | .evidenceNonZero => "UTA test-enforcement passed; Maven exited non-zero after gate evidence"
  | .noEnforceableLines =>
    "UTA test-enforcement passed; no changed Java source lines after filtering"
  | .beforeEvidence => "UTA test-enforcement failed before evidence was produced"
  | .missingEvidence =>
    "Missing UTA test-enforcement plugin/profile: Maven completed but no coverage/mutation " ++
      "evidence was produced."

/-- The exit code is that of a process ended by a signal. -/
def signalled (returncode : ℤ) : Bool :=
  decide (returncode < 0 ∨ returncode = 137 ∨ returncode = 143)

/-- `_classify_completed`, of `f"{stdout}\n{stderr}"`. -/
def classifyCompleted (mutationGate : ℚ) (detectTermination : Bool) (returncode : ℤ)
    (stdout stderr : List Char) : Ground :=
  let output := stdout ++ '\n' :: stderr
  if looksSkipped output then .skipped
  else if looksGateFailed output then .gateFailed
  else if mutationScoreBelowCiGate mutationGate output then .belowGate
  else if pitModulesWithoutCoveredMutants output ≠ [] then
    .nothingCovered (pitModulesWithoutCoveredMutants output).sum
  else if detectTermination && signalled returncode then
    .terminated (if returncode < 0 then -returncode else returncode - 128)
  else if looksBuildBroken output then .buildBroken
  else if looksPitestBaselineFailure output then .baselineFailed
  else if hasRequiredEvidence output then
    if returncode ≠ 0 then .evidenceNonZero else .evidence
  else if returncode = 0 ∧ looksNoEnforceableJavaLines output = true then .noEnforceableLines
  else if returncode ≠ 0 then .beforeEvidence
  else .missingEvidence

/-- The output stops the run from passing, whatever it shows besides. -/
def stopped (mutationGate : ℚ) (detectTermination : Bool) (returncode : ℤ)
    (output : List Char) : Bool :=
  looksSkipped output || looksGateFailed output || mutationScoreBelowCiGate mutationGate output ||
    decide (pitModulesWithoutCoveredMutants output ≠ []) ||
    (detectTermination && signalled returncode) || looksBuildBroken output ||
    looksPitestBaselineFailure output

theorem classifyCompleted_passed_iff {mutationGate : ℚ} {detectTermination : Bool} {returncode : ℤ}
    {stdout stderr : List Char} :
    (classifyCompleted mutationGate detectTermination returncode stdout stderr).status = .passed ↔
      stopped mutationGate detectTermination returncode (stdout ++ '\n' :: stderr) = false ∧
        (hasRequiredEvidence (stdout ++ '\n' :: stderr) = true ∨
          (returncode = 0 ∧ looksNoEnforceableJavaLines (stdout ++ '\n' :: stderr) = true)) := by
  unfold classifyCompleted stopped
  generalize stdout ++ '\n' :: stderr = output
  dsimp only
  cases looksSkipped output with
  | true => simp [Ground.status]
  | false =>
  cases looksGateFailed output with
  | true => simp [Ground.status]
  | false =>
  cases mutationScoreBelowCiGate mutationGate output with
  | true => simp [Ground.status]
  | false =>
  by_cases uncovered : pitModulesWithoutCoveredMutants output ≠ []
  · simp [uncovered, Ground.status]
  cases detectTermination && signalled returncode with
  | true => simp [uncovered, Ground.status]
  | false =>
  cases looksBuildBroken output with
  | true => simp [uncovered, Ground.status]
  | false =>
  cases looksPitestBaselineFailure output with
  | true => simp [uncovered, Ground.status]
  | false =>
  cases hasRequiredEvidence output with
  | true => by_cases clean : returncode = 0 <;> simp [uncovered, clean, Ground.status]
  | false =>
    by_cases clean : returncode = 0
    · cases looksNoEnforceableJavaLines output <;> simp [uncovered, clean, Ground.status]
    · simp [uncovered, clean, Ground.status]

end Uta.JavaGate
