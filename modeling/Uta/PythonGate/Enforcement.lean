/- A Python enforcement run: the refusals, the skipped targets, the binding's evidence. -/
import Uta.PythonGate.Binding

namespace Uta.PythonGate
open Uta.Lib

/-- What a run is asked for, and what it finds in the repository. -/
structure Run where
  baseRef : String
  baseCommit : String
  headCommit : String
  changedLines : Lines
  targets : List Target
  testPaths : List String
  coverageGate : ℚ
  mutationGate : Option ℚ
  runMutation : Bool
  sampling : Bool
  python2 : Bool
  maxChangedLines : ℤ

/-! Skipped targets. -/

/-- The coverage of a target that was not verified. -/
def skipCoverage (scope : String) (changedLines : Lines) (noExecutable : Bool) : CoveragePayload where
  covered := 0
  total := 0
  passed := true
  scope
  changedLines
  noExecutableChangedLines := noExecutable

/-- `_empty_mutation_summary` in a scope. -/
def skipMutation (scope : String) (changedLines : Lines) : MutationPayload where
  changedLineMutantsScored := some 0
  rate := 100
  passed := true
  scope
  changedLines

def skipPayload (reasonCode message scope : String) (changedLines : Lines) (noExecutable : Bool) :
    TargetPayload where
  status := "passed"
  reasonCode
  message
  testsPass := true
  coverage := some (skipCoverage scope changedLines noExecutable)
  mutation := some (skipMutation scope changedLines)

/-- `_non_executable_changed_lines_result`. -/
def nonExecutablePayload (source : String) (changed : List ℕ) : TargetPayload :=
  skipPayload "no_executable_changed_lines"
    "Python enforcement passed; changed target lines are comments or whitespace"
    "changed_lines" [(source, changed)] true

/-- `precheck_python_large_change`. -/
def largeChangePayload (lines : Lines) (count : ℕ) (limit : ℤ) : TargetPayload :=
  skipPayload "python_large_change_skipped"
    (s!"Python target changed {count} lines, above the {limit}-line per-file enforcement limit; " ++
      "UTA skipped coverage, mutation, and LLM repair for this target. " ++
      "Coverage and mutation for this file were not verified.")
    "large_change_skipped" lines false

/-- `precheck_python_target_runtime_incompatibility`. -/
def incompatiblePayload (lines : Lines) (output : String) : TargetPayload :=
  skipPayload "python_runtime_incompatible_skipped"
    ("Python target is incompatible with the configured verification runtime; " ++
      "UTA skipped coverage, mutation, and LLM repair for this target. " ++
      s!"py_compile output: {output}")
    "runtime_incompatible" lines true

namespace Run
variable (r : Run)

def changed (t : Target) : List ℕ := changedOf r.changedLines t.sourcePath

/-- `_has_only_non_executable_changed_lines`. -/
def nonExecutable (t : Target) : Bool :=
  decide (t.sourcePath ≠ "") &&
    ((r.changed t).isEmpty || disjointFromExecutable (r.changed t) t.executableLines)

def skipped : List Target := r.targets.filter r.nonExecutable

/-- The number of lines that the size check counts. -/
def changedCount (t : Target) : ℕ := ((r.changed t).filter (0 < ·)).eraseDups.length

/-- The two prechecks, the cheap one first. -/
def runtimeSkip (t : Target) : Option TargetPayload :=
  let lines := r.changedLines.filter (·.1 = t.sourcePath)
  if 0 < r.maxChangedLines ∧ r.maxChangedLines < r.changedCount t then
    some (largeChangePayload lines (r.changedCount t) r.maxChangedLines)
  else t.compileOutput.map (incompatiblePayload lines)

def runtimeSkips : List TargetPayload :=
  (r.targets.filter (!r.nonExecutable ·)).filterMap r.runtimeSkip

/-- The targets that the binding is asked for. -/
def executable : List Target :=
  r.targets.filter fun t => !r.nonExecutable t && (r.runtimeSkip t).isNone

def skipPayloads : List TargetPayload :=
  r.skipped.map (fun t => nonExecutablePayload t.sourcePath (r.changed t)) ++ r.runtimeSkips

/-! The run. -/

def envelope : Envelope where
  headCommit := r.headCommit
  changedLines := r.changedLines

def gates : Gates where
  coverageGate := r.coverageGate
  mutationGate := r.mutationGate.getD 0
  sampling := r.sampling

/-- A percentage as a fraction, and back. -/
def asFraction (gate : ℚ) : ℚ := binary64 (binary64 (gate / 100) * 100)

def bindingGates : BindingGates where
  coverage := asFraction r.coverageGate
  mutation := if r.runMutation then asFraction r.gates.mutationGate else 0
  mutationRequested := r.runMutation

def bindingEvidence : BindingEvidence :=
  enforce r.bindingGates r.python2 r.changedLines r.executable

/-- `_preflight`. -/
def preflight : Option Evidence :=
  if r.baseCommit = "" then some
    { r.envelope with
      status := "command_error", passed := false, reasonCode := "missing_base_ref"
      summary := s!"Base ref is not available: {r.baseRef}" }
  else if r.headCommit = "" then some
    { r.envelope with
      status := "command_error", passed := false, reasonCode := "missing_head_commit"
      summary := "Unable to resolve HEAD" }
  else if r.targets = [] then some
    { r.envelope with
      status := "passed", passed := true, reasonCode := "no_changed_python_targets"
      summary := "Python enforcement passed; no changed production Python files" }
  else if r.testPaths = [] then some
    { r.envelope with
      status := "missing_evidence", passed := false, reasonCode := "missing_test_paths"
      summary := "Python enforcement requires at least one --test-path" }
  else none

def skippedSummary : String :=
  if r.runtimeSkips = [] then "No executable changed Python lines to verify"
  else if r.skipped ≠ [] then "All changed Python targets were skipped"
  else if r.runtimeSkips.all (·.reasonCode = "python_large_change_skipped") then
    "All changed Python targets were skipped as too large to verify"
  else if r.runtimeSkips.all (·.reasonCode = "python_runtime_incompatible_skipped") then
    "All changed Python targets were skipped as runtime-incompatible"
  else "All changed Python targets were skipped"

/-- `_skipped_only_evidence`. -/
def skippedOnlyEvidence : Evidence :=
  { r.envelope with
    status := "passed"
    passed := true
    reasonCode := if r.runtimeSkips = [] then "no_executable_changed_lines" else "passed"
    summary := r.skippedSummary
    targetResults := r.skipPayloads
    coverage := aggregateCoverage r.skipPayloads r.coverageGate
    mutation := aggregateMutation r.skipPayloads r.gates.mutationGate }

/-- `run_python_enforcement`. -/
def evidence : Evidence :=
  match r.preflight with
  | some refusal => refusal
  | none =>
    if r.executable = [] then r.skippedOnlyEvidence
    else projectBindingEvidence r.gates r.skipPayloads r.bindingEvidence r.envelope

end Run

end Uta.PythonGate
