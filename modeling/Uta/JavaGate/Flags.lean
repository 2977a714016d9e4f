/- Whether a gate failed on its mutation score alone: the flags that are read in the text of a
finished run, the summary in front of that text, and builds that tolerate a red suite. -/
import Uta.Enforce.Grant
import Uta.JavaGate.Reasons
import Uta.JavaGate.Verdict
import Uta.Lib.Finding

namespace Uta.JavaGate
open Uta.Lib Uta.Lib.PyText Uta.Lib.Matcher Uta.Enforce

/-! The flags. -/

/-- `\s+[0-9.]+%\s+(\w+)`, behind the words of a gate. -/
def gateWord (gate : String) : Matcher (List Char) := do
  lit gate
  let _ ← blanks
  let _ ← run fun c => c.isDigit || c == '.'
  lit "%"
  let _ ← blanks
  wholeRun Matcher.isWord

/-- `re.findall`, in lower case. -/
def gateWords (gate : String) (output : List Char) : List (List Char) :=
  finditer false (gateWord gate) output.length none (lower output)

/-- `pit_baseline_failure_detail` has a detail. -/
def pitBaselineFails (output : List Char) : Bool :=
  decide ("Mutation testing requires a green suite".toList <:+: output) ||
    decide ("did not pass without mutation".toList <:+: output)

/-- What the flags read of a result. -/
structure GateResult where
  passed : Bool
  summary : List Char
  stdout : List Char
  stderr : List Char

def GateResult.output (result : GateResult) : List Char :=
  result.summary ++ '\n' :: (result.stdout ++ '\n' :: result.stderr)

/-- `java_gate_failure_flags`. -/
def javaGateFailureFlags (result : GateResult) : Option GateFlags :=
  let coverage := gateWords "diff line coverage" result.output
  let mutation := gateWords "diff mutation score" result.output
  if coverage = [] ∨ mutation = [] then none
  else
    let testsPassed := !pitBaselineFails result.output
    let coveragePassed := coverage.all fun word => decide (word = "passed".toList)
    let mutationFailed := mutation.any fun word => decide (word ≠ "passed".toList)
    some {
      testsPassed
      coveragePassed
      mutationOnlyFailure := testsPassed && coveragePassed && mutationFailed && !result.passed }

namespace Log

/-! The summary. -/

/-- A number as a pattern takes it from the output. -/
abbrev Decimal := { text : List Char // text ≠ [] ∧ ∀ c ∈ text, (c.isDigit || c == '.') = true }

/-- A gate that was missed, with the counts that its sentence may have. -/
inductive Miss where
  | coverage (rate required : Decimal) (counts : Option (Decimal × Decimal))
  | mutation (score required : Decimal) (counts : Option (Decimal × Decimal))

def Miss.text : Miss → List Char
  | .coverage rate required counts =>
    "Coverage gate failed: ".toList ++ rate.val ++ "% < ".toList ++ required.val ++ "%".toList ++
      counts.elim [] fun c => " (".toList ++ c.1.val ++ "/".toList ++ c.2.val ++ ")".toList
  | .mutation score required counts =>
    "Mutation gate failed: ".toList ++ score.val ++ "% < ".toList ++ required.val ++ "%".toList ++
      counts.elim [] fun c => " (".toList ++ c.1.val ++ "/".toList ++ c.2.val ++ " detected)".toList

/-- The misses, or the figures that were measured where no sentence tells of a miss. -/
inductive Details where
  | misses (reasons : List Miss)
  | measured (coverage : Option Rate) (score : Option (Rate × Option Rate))

/-- `gate_miss_reasons(output) or measured_gate_details(output, mutation_gate)`. -/
def Details.texts : Details → List (List Char)
  | .misses reasons => reasons.map Miss.text
  | .measured coverage score =>
    (coverage.map fun rate => "diff line coverage ".toList ++ rate.percent).toList ++
      (score.map fun s => "mutation score ".toList ++ s.1.percent ++
        s.2.elim [] fun gate => " (gate ".toList ++ gate.percent ++ ")".toList).toList

/-- What is said of the failing test classes that were left out. -/
def excludedText (excluded : ℕ) : List Char :=
  if excluded = 0 then []
  else "; ".toList ++ numeral excluded ++
    (" failing test class(es) unrelated to this change were excluded from both gates, " ++
      "so lines only they reached no longer count as covered").toList

/-- `_gate_failure_summary`. -/
def gateFailureSummary (details : Details) (excluded : ℕ) : List Char :=
  "UTA test-enforcement failed".toList ++
    (if details.texts = [] then [] else ": ".toList ++ Reasons.boundedReasons details.texts) ++
    excludedText excluded

/-- The summary of a result. -/
def summaryOf (ground : Ground) (details : Details) (excluded : ℕ) : List Char :=
  match ground with
  | .gateFailed | .belowGate => gateFailureSummary details excluded
  | _ => ground.summary.toList

/-! Builds. -/

/-- Failing tests that Surefire reports, and with which Maven goes on. -/
structure RedSuite where
  run : ℕ
  failures : ℕ
  errors : ℕ

def RedSuite.lines (red : RedSuite) : List (List (List Char)) :=
  [Module.testsLine "[ERROR]" red.run red.failures red.errors,
    plain ["[ERROR]", "There", "are", "test", "failures."]]

/-- The module went on from its tests. -/
def Module.wentOn (m : Module) : Prop :=
  match m.outcome with
  | .goalFailed _ | .coverageMissed _ _ _ _ | .gated _ _ _ => True
  | _ => False

/-- A module of a build with `-Dmaven.test.failure.ignore=true`. -/
structure TestedModule extends Module where
  red : Option RedSuite
  ran : red ≠ none → toModule.wentOn

/-- The tests come before the gates, behind the filtered diff. -/
def TestedModule.block (m : TestedModule) (baseRef : Word) : List (List (List Char)) :=
  let own := m.toModule.block baseRef
  match m.red with
  | none => own
  | some red => own.take 1 ++ red.lines ++ own.drop 1

structure Build where
  baseRef : Word
  modules : List TestedModule

namespace Build
variable (b : Build)

/-- The build without what Surefire reports. -/
def reactor : Reactor where
  baseRef := b.baseRef
  modules := b.modules.map TestedModule.toModule

def lines : List (List (List Char)) :=
  b.modules.flatMap (fun m => m.block b.baseRef) ++ b.reactor.modules.map Module.summaryLine ++
    [plain ["[INFO]", "BUILD",
      if b.reactor.modules.all Module.succeeded then "SUCCESS" else "FAILURE"]]

def log : List Char := b.lines.flatMap Reactor.lineText

def classify (gate : ℚ) (detectTermination : Bool) (returncode : ℤ) : Ground :=
  classifyCompleted gate detectTermination returncode b.log []

/-- How a build was taken: the gate, the exit code, and what the summary tells besides. -/
structure Taking where
  gate : ℚ
  detectTermination : Bool
  returncode : ℤ
  details : Details
  excluded : ℕ

/-- The gate result of the build. -/
def gateResult (t : Taking) : GateResult :=
  let ground := b.classify t.gate t.detectTermination t.returncode
  { passed := decide (ground.status = .passed)
    summary := summaryOf ground t.details t.excluded
    stdout := b.log
    stderr := [] }

end Build

/-! What the flags are to tell. -/

namespace Module
variable (m : Module)

/-- PIT found the tests red before it mutated anything. -/
def baselineRed : Prop :=
  match m.outcome with
  | .gated _ _ .baselineRed => True
  | _ => False

/-- The tests ended the module. -/
def endedRed : Prop :=
  match m.outcome with
  | .testsFailed _ _ _ => True
  | _ => False

/-- The build broke in the module. -/
def broke : Prop :=
  match m.outcome with
  | .unresolved | .notCompiled | .goalFailed _ => True
  | _ => False

def missesCoverage : Prop :=
  match m.outcome with
  | .coverageMissed _ _ _ _ => True
  | _ => False

/-- The coverage gate of the module is met by a figure. -/
def meetsCoverage : Prop :=
  match m.outcome with
  | .gated (.measured _ _ _) _ _ => True
  | _ => False

/-- The mutation score is below its gate. -/
def missesScore : Prop :=
  match m.outcome with
  | .gated _ _ (.missed _ _ _ _ _ _) => True
  | _ => False

end Module

namespace Build
variable (b : Build)

/-- A mutation score was missed, and nothing else failed in any module. -/
structure MutationAlone : Prop where
  missed : ∃ m ∈ b.modules, m.toModule.missesScore
  green : ∀ m ∈ b.modules, m.red = none ∧ ¬ m.toModule.endedRed ∧ ¬ m.toModule.baselineRed
  built : ∀ m ∈ b.modules, ¬ m.toModule.broke
  covered : ∀ m ∈ b.modules, ¬ m.toModule.missesCoverage

/-- The module failed before a gate or beside the gates, where no gate line tells of it. -/
def Unseen (m : TestedModule) : Prop :=
  m.red ≠ none ∨ m.toModule.endedRed ∨ m.toModule.broke

/-- The lines of a module keep the failure from being put down to the mutation score, or no module
prints a line that would put it there. -/
def Withheld : Prop :=
  (∃ m ∈ b.modules, m.toModule.baselineRed) ∨ (∃ m ∈ b.modules, m.toModule.missesCoverage) ∨
    (∀ m ∈ b.modules, ¬ m.toModule.meetsCoverage) ∨ ∀ m ∈ b.modules, ¬ m.toModule.missesScore

end Build

end Log

end Uta.JavaGate
