/- The log of a reactor: what the plugin and Maven print for each module, in build order, and what
a pass over them ought to mean. -/
import Uta.JavaGate.Output

namespace Uta.JavaGate.Log
open Uta.Lib Uta.Lib.PyText

/-! Words and figures. -/

/-- A name as it stands in a line. -/
structure Word where
  chars : List Char
  solid : IsSolid chars

instance (word : List Char) : Decidable (IsSolid word) :=
  @instDecidableAnd _ _ inferInstance (List.decidableBAll _ word)

/-- A percentage with two decimals. -/
structure Rate where
  hundredths : ℕ
  deriving DecidableEq

/-- The percentage, as `float` reads it. -/
def Rate.value (r : Rate) : ℚ := binary64 (r.hundredths / 100)

def numeral (n : ℕ) : List Char := Nat.toDigits 10 n

/-- `f"{value:.2f}"`. -/
def Rate.text (r : Rate) : List Char :=
  numeral (r.hundredths / 100) ++
    ['.', (r.hundredths / 10 % 10).digitChar, (r.hundredths % 10).digitChar]

def Rate.percent (r : Rate) : List Char := r.text ++ ['%']

/-! What a module comes to. -/

/-- The answer of `check-coverage`. -/
inductive Coverage where
  | silent
  | noChangedLines
  | noCoverableLines
  | measured (rate : Rate) (covered total : ℕ)

/-- PIT's own block, and whether it left out failing tests. -/
structure PitRun where
  skipFailingTests : Bool
  generated : ℕ
  killed : ℕ
  killedPercent : ℕ
  noCoverage : ℕ
  strength : ℕ

/-- The answer of PIT and `check-mutation`. -/
inductive Mutation where
  | silent
  | baselineRed
  | strengthBelow (strength threshold : ℕ)
  | missed (score required : Rate) (detected total survived noCoverage : ℕ)
  | passed (score : Rate) (detected total survived noCoverage : ℕ)
  | unscored (noCoverage : ℕ)

inductive Outcome where
  | notReached
  | unresolved
  | notCompiled
  | goalFailed (goal : Word)
  | testsFailed (run failures errors : ℕ)
  | skipped
  | coverageMissed (rate required : Rate) (covered total : ℕ)
  | gated (coverage : Coverage) (pit : Option PitRun) (mutation : Mutation)

/-- A module: the changed lines that its coverage gate measures, its PIT targets, its outcome. -/
structure Module where
  name : Word
  changedLines : Bool
  targets : List Word
  outcome : Outcome

structure Reactor where
  baseRef : Word
  modules : List Module

/-! The lines. -/

/-- The words of a fixed text. -/
def plain (texts : List String) : List (List Char) := texts.map String.toList

def info : List (List Char) := plain ["[info]", "[test-enforcer]"]

/-- `(part/whole`. -/
def count (part whole : ℕ) : List Char := '(' :: (numeral part ++ '/' :: numeral whole)

/-- The counts of a mutation score. -/
def counts (detected total survived noCoverage : ℕ) : List (List Char) :=
  count detected total :: "detected;".toList :: numeral survived :: "survived;".toList ::
    numeral noCoverage :: plain ["no", "coverage", "excluded)"]

namespace Module
variable (m : Module)

/-- The answer of `filter-diff`. -/
def filterLine (baseRef : Word) : List (List Char) :=
  info ++ [baseRef.chars] ++ plain ["->", "target/filtered.diff,"] ++
    ["pitest.targets=".toList ++ numeral m.targets.length,
      '[' :: ((m.targets.map Word.chars).intersperse [',']).flatten ++ [']']]

/-- The head of a goal that failed in the module. -/
def goalLine (goal : List (List Char)) : List (List Char) :=
  plain ["[ERROR]", "Failed", "to", "execute", "goal"] ++ goal ++ plain ["on", "project"] ++
    [m.name.chars]

def testsLine (head : String) (run failures errors : ℕ) : List (List Char) :=
  plain [head, "Tests", "run:"] ++ [numeral run ++ [',']] ++ plain ["Failures:"] ++
    [numeral failures ++ [',']] ++ plain ["Errors:"] ++ [numeral errors]

def coverageLines : Coverage → List (List (List Char))
  | .silent => []
  | .noChangedLines =>
    [info ++ plain ["no", "changed", "Java", "source", "lines", "for"] ++ [m.name.chars]]
  | .noCoverableLines =>
    [info ++ plain ["no", "coverable", "changed", "lines", "for"] ++ [m.name.chars]]
  | .measured rate covered total =>
    [info ++ plain ["diff", "line", "coverage"] ++ [rate.percent] ++ plain ["passed", "for"] ++
      [m.name.chars, count covered total ++ [')']]]

def pitLines (pit : PitRun) : List (List (List Char)) :=
  [plain ["[uta-pit-compat]", "verified"] ++ ["module=".toList ++ m.name.chars] ++
      plain ["skip=false"] ++ ["targets=".toList ++ numeral m.targets.length] ++
      plain [if pit.skipFailingTests then "skipFailingTests=true" else "skipFailingTests=false"],
    plain [">>", "Generated"] ++ [numeral pit.generated] ++ plain ["mutations", "Killed"] ++
      [numeral pit.killed, '(' :: numeral pit.killedPercent ++ "%)".toList],
    plain [">>", "Mutations", "with", "no", "coverage"] ++ [numeral pit.noCoverage ++ ['.']] ++
      plain ["Test", "strength"] ++ [numeral pit.strength ++ ['%']]]

def mutationLines : Mutation → List (List (List Char))
  | .silent => []
  | .baselineRed =>
    [plain ["[ERROR]", "Mutation", "testing", "requires", "a", "green", "suite."]]
  | .strengthBelow strength threshold =>
    [m.goalLine (plain ["org.pitest:pitest-maven:1.15.0:mutationCoverage", "(pitest)"]) ++
      plain [":", "Test", "strength", "score", "of"] ++ [numeral strength] ++
      plain ["is", "below", "threshold", "of"] ++ [numeral threshold]]
  | .missed score required detected total survived noCoverage =>
    [plain ["[ERROR]", "test-enforcer", "check-mutation", "failed:", "diff", "mutation", "score"] ++
      [score.percent] ++ plain ["for"] ++ [m.name.chars] ++
      counts detected total survived noCoverage ++ plain ["is", "below", "required"] ++
      [required.percent]]
  | .passed score detected total survived noCoverage =>
    [info ++ plain ["diff", "mutation", "score"] ++ [score.percent] ++ plain ["passed", "for"] ++
      [m.name.chars] ++ counts detected total survived noCoverage]
  | .unscored noCoverage =>
    [info ++ plain ["no", "scored", "PIT", "mutations", "on", "changed", "lines", "for"] ++
      [m.name.chars] ++ plain ["(0/0", "scored;"] ++ [numeral noCoverage] ++
      plain ["no", "coverage", "excluded)"]]

/-- What the module prints. -/
def block (baseRef : Word) : List (List (List Char)) :=
  match m.outcome with
  | .notReached => []
  | .unresolved =>
    [plain ["[ERROR]", "Could", "not", "resolve", "dependencies", "for", "project"] ++
      [m.name.chars]]
  | .notCompiled =>
    [m.filterLine baseRef, plain ["[ERROR]", "COMPILATION", "ERROR", ":"]]
  | .goalFailed goal => [m.filterLine baseRef, m.goalLine [goal.chars]]
  | .testsFailed run failures errors =>
    [m.filterLine baseRef, testsLine "[ERROR]" run failures errors,
      plain ["[ERROR]", "There", "are", "test", "failures."]]
  | .skipped => [info ++ plain ["skip", "test", "enforcement", "for"] ++ [m.name.chars]]
  | .coverageMissed rate required covered total =>
    [m.filterLine baseRef,
      plain ["[ERROR]", "test-enforcer", "check-coverage", "failed:", "diff", "line", "coverage"] ++
        [rate.percent] ++ plain ["is", "below", "required"] ++
        [required.percent, count covered total ++ [')']]]
  | .gated coverage pit mutation =>
    m.filterLine baseRef :: (m.coverageLines coverage ++ (pit.toList.flatMap m.pitLines) ++
      m.mutationLines mutation)

/-- The module's tests or its build failed before its gates ran. -/
def endedEarly : Prop :=
  match m.outcome with
  | .unresolved | .notCompiled | .goalFailed _ | .testsFailed _ _ _ => True
  | _ => False

def printsMiss : Prop :=
  match m.outcome with
  | .coverageMissed _ _ _ _ => True
  | .gated _ _ (.strengthBelow _ _) | .gated _ _ (.missed _ _ _ _ _ _) => True
  | _ => False

def printsCoverage : Prop :=
  match m.outcome with
  | .coverageMissed _ _ _ _ | .gated (.measured _ _ _) _ _ => True
  | _ => False

/-- The module's mutation verdict passes. -/
def printsVerdict : Prop :=
  match m.outcome with
  | .gated _ _ (.passed _ _ _ _ _) | .gated _ _ (.unscored _) => True
  | _ => False

/-- The module's mutation verdict passes with a score that reaches the gate; no score is below it
where nothing was scored. -/
def verdictReaches (gate : ℚ) : Prop :=
  match m.outcome with
  | .gated _ _ (.passed score _ _ _ _) => gate ≤ score.value
  | .gated _ _ (.unscored _) => True
  | _ => False

/-- The gates have something to measure in the module. -/
def enforced : Prop := m.changedLines = true ∨ m.targets ≠ []

/-- The module leaves no verdict of its own and no line that stops the run: it was not reached, its
tests or another goal failed, or a gate that has something to measure printed nothing. -/
def quiet : Prop :=
  match m.outcome with
  | .notReached => m.enforced
  | .goalFailed _ | .testsFailed _ _ _ => True
  | .gated coverage _ mutation =>
    (m.changedLines = true ∧ ∀ rate covered total, coverage ≠ .measured rate covered total) ∨
      (m.targets ≠ [] ∧ mutation = .silent)
  | _ => False

/-- What Maven's summary answers for the module. -/
def succeeded : Bool :=
  match m.outcome with
  | .skipped | .gated _ _ .silent | .gated _ _ (.passed _ _ _ _ _) | .gated _ _ (.unscored _) => true
  | _ => false

def summaryLine : List (List Char) :=
  plain ["[INFO]"] ++ [m.name.chars] ++
    plain ["...", if m.succeeded then "SUCCESS" else
      match m.outcome with
      | .notReached => "SKIPPED"
      | _ => "FAILURE"]

end Module

namespace Reactor
variable (r : Reactor)

/-- The blocks, the reactor summary and the end of the build. -/
def lines : List (List (List Char)) :=
  r.modules.flatMap (fun m => m.block r.baseRef) ++ r.modules.map Module.summaryLine ++
    [plain ["[INFO]", "BUILD", if r.modules.all Module.succeeded then "SUCCESS" else "FAILURE"]]

def lineText (line : List (List Char)) : List Char := [' '].intercalate line ++ ['\n']

def log : List Char := r.lines.flatMap lineText

/-- The verdict on the log, with nothing in the other stream. -/
def classify (gate : ℚ) (detectTermination : Bool) (returncode : ℤ) : Ground :=
  classifyCompleted gate detectTermination returncode r.log []

/-- What a pass promises of every module. -/
structure Promise (gate : ℚ) : Prop where
  no_miss : ∀ m ∈ r.modules, ¬ m.printsMiss
  verdict : ∀ m ∈ r.modules, m.targets ≠ [] → m.verdictReaches gate
  coverage : ∀ m ∈ r.modules, m.changedLines = true → m.printsCoverage
  completed : ∀ m ∈ r.modules, ¬ m.endedEarly
  reached : ∀ m ∈ r.modules, m.enforced → m.outcome ≠ .notReached

end Reactor

end Uta.JavaGate.Log
