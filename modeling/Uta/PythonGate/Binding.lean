/- The evidence of the Python binding: one entry for each target it was asked for. -/
import Uta.Enforce.Mutation
import Uta.PythonGate.Projection

namespace Uta.PythonGate
open Uta.Lib

/-! The coverage stage. -/

/-- What the coverage commands of one test leave: a failing test run, no report, or the
lines (number and hits) of the classes that the report has for the source. -/
inductive CoverageStage where
  | testsFailed
  | noReport
  | report (classes : List (List (ℕ × ℕ)))

/-- `coverage_summary`. -/
def coverageSummary (source : String) (covered total : ℕ) (passed : Bool) (changed : List ℕ)
    (noExecutable : Bool) : CoveragePayload where
  covered
  total
  passed
  scope := "changed_lines"
  changedLines := [(source, changed)]
  noExecutableChangedLines := noExecutable

/-- `parse_coverage_xml`. -/
def parseCoverageXml (classes : List (List (ℕ × ℕ))) (source : String) (changedLines : List ℕ)
    (gate : ℚ) : CoveragePayload :=
  let changed := changedLines.filter (0 < ·)
  let counted := classes.flatten.filter fun line => decide (line.1 ∈ changed)
  let covered := (counted.filter fun line => decide (0 < line.2)).length
  let requested := !changed.isEmpty
  let sourceSeen := !classes.isEmpty
  let rate := if requested && counted.isEmpty && !sourceSeen then 0
    else percent covered counted.length
  coverageSummary source covered counted.length (decide (gate ≤ rate)) changedLines
    (requested && sourceSeen && counted.isEmpty)

/-- `run_coverage`: the summary, and whether the tests passed. -/
def runCoverage (stage : CoverageStage) (source : String) (changed : List ℕ) (gate : ℚ) :
    CoveragePayload × Bool :=
  match stage with
  | .testsFailed => (coverageSummary source 0 1 false changed false, false)
  | .noReport => (coverageSummary source 0 1 false changed false, true)
  | .report classes => (parseCoverageXml classes source changed gate, true)

/-! The mutation stage. -/

/-- What the mutation commands of one test bring, and the lists of the plan they follow. -/
structure MutationStage where
  run : Enforce.MutationRun
  plan : CandidatePlan

/-- The plan that the evidence shows: the exact keys are those of the passes. -/
def MutationStage.candidatePlan (stage : MutationStage) : CandidatePlan :=
  if stage.run.lane.noCandidate then
    { eligibleMutationOpportunities := stage.plan.eligibleMutationOpportunities
      suppressed := stage.plan.suppressed }
  else { stage.plan with exactToolCandidateKeys := stage.run.lane.exactToolCandidateKeys }

/-- `run_mutation` at a gate. -/
def MutationStage.result (stage : MutationStage) (gate : ℚ) : Enforce.MutationResult :=
  Enforce.runMutation { stage.run with gate }

def mutationPayload (stage : MutationStage) (source : String) (changed : List ℕ) (gate : ℚ) :
    MutationPayload :=
  let result := stage.result gate
  { generated := result.generated
    killed := result.killed
    survived := result.survived
    noTests := result.noTests
    timeout := result.timeout
    suspicious := result.suspicious
    skipped := result.skipped
    changedLineMutantsGenerated := result.generated
    changedLineMutantsKilled := result.killed
    changedLineMutantsScored := some result.changedLineMutantsScored
    rate := result.rate
    passed := result.passed
    scope := "changed_lines"
    changedLines := [(source, changed)]
    candidatePlan := some stage.candidatePlan }

/-- `empty_mutation`. -/
def emptyMutation (passed : Bool) : MutationPayload where
  changedLineMutantsScored := some 0
  rate := if passed then 100 else 0
  passed
  scope := "changed_lines"
  candidatePlan := some { suppressed := ["mutation_disabled"] }

/-! One target. -/

/-- One strict candidate test of a target, with what its two stages bring. -/
structure CandidateTest where
  coverage : CoverageStage
  mutation : MutationStage

/-- A requested target: its source, as the tokenizer, the compiler probe and the parser
see it, and its candidate tests. -/
structure Target where
  sourcePath : String
  executableLines : Option (List ℕ)
  compileOutput : Option String
  parses : Bool
  candidates : List CandidateTest

/-- The gates as the binding receives them; no mutation gate where none was requested. -/
structure BindingGates where
  coverage : ℚ
  mutation : ℚ
  mutationRequested : Bool

/-- The rate that a coverage summary shows where it did not pass. -/
def missedRate (coverage : CoveragePayload) : ℚ :=
  if coverage.total = 0 then 0 else percent coverage.covered coverage.total

/-- `_failure_message` of a mutation summary. -/
def mutationFailureMessage (result : Enforce.MutationResult) (gate : ℚ) : String :=
  if result.reasonCode = some "mutation_test_collection_failed" then
    "Python mutation test collection failed in the isolated mutmut workspace"
  else if result.reasonCode = some "mutation_backend_failed" then
    s!"Python mutation backend failed before executing {result.notChecked} selected mutants"
  else if result.reasonCode = some "mutation_no_tests" then
    s!"Python mutation found no tests for {result.noTests} selected mutants"
  else s!"Python mutation score {fixed2 result.rate}% is below gate {fixed2 gate}%"

section Target
variable (gates : BindingGates) (changed : List ℕ) (source : String)

/-- A candidate whose mutants were not asked for. -/
def unmutatedEvidence (failure : Option (String × String)) (testsPass : Bool)
    (coverage : CoveragePayload) : TargetPayload where
  status := if failure.isSome then "failed" else "passed"
  reasonCode := (failure.map Prod.fst).getD "passed"
  message := (failure.map Prod.snd).getD ""
  testsPass
  coverage := some coverage
  mutation := some (emptyMutation failure.isNone)

/-- A candidate that its mutants decide. -/
def mutatedEvidence (stage : MutationStage) (coverage : CoveragePayload) : TargetPayload :=
  let result := stage.result gates.mutation
  { status := if result.passed then "passed" else "failed"
    reasonCode := if result.passed then "passed" else result.reasonCode.getD "mutation_failed"
    message := if result.passed then "" else mutationFailureMessage result gates.mutation
    testsPass := true
    coverage := some coverage
    mutation := some (mutationPayload stage source changed gates.mutation) }

def coverageFailureMessage (coverage : CoveragePayload) : String :=
  s!"Python coverage {fixed2 (missedRate coverage)}% is below gate {fixed2 gates.coverage}%"

/-- The evidence of one candidate test. -/
def candidateEvidence (c : CandidateTest) : TargetPayload :=
  match runCoverage c.coverage source changed gates.coverage with
  | (coverage, false) => unmutatedEvidence (some ("test_failed", "Python tests failed")) false coverage
  | (coverage, true) =>
    if coverage.passed = false then
      unmutatedEvidence (some ("coverage_failed", coverageFailureMessage gates coverage)) true coverage
    else if gates.mutationRequested = false then unmutatedEvidence none true coverage
    else mutatedEvidence gates changed source c.mutation coverage

/-- The evidence of a target that no test is for. -/
def missingTestEvidence : TargetPayload where
  status := "failed"
  reasonCode := "missing_test_file"
  message := s!"No unit test file found targeting {source}"
  coverage := some { covered := 0, total := changed.length, passed := false, scope := "changed_lines" }
  mutation := some { rate := 0, passed := false, scope := "changed_lines" }

/-- `non_executable_target_evidence`: its summaries have keys that no aggregate reads. -/
def nonExecutableTargetEvidence : TargetPayload where
  status := "passed"
  reasonCode := "no_executable_changed_lines"
  message := "Python enforcement passed; changed target lines are comments or whitespace"
  testsPass := true
  coverage := some { covered := 0, total := 0, passed := true, scope := "changed_lines" }
  mutation := some { rate := 100, passed := true, scope := "changed_lines" }

/-- The changed lines hold no token but comments and layout; an unreadable source is not known
to. -/
def disjointFromExecutable (executableLines : Option (List ℕ)) : Bool :=
  match executableLines with
  | none => false
  | some lines => changed.all fun line => decide (line ∉ lines)

/-- The first candidate that passes is the target's; else the first. -/
def targetEvidence (t : Target) : TargetPayload :=
  if decide (t.sourcePath ≠ "") && !changed.isEmpty &&
      disjointFromExecutable changed t.executableLines then
    nonExecutableTargetEvidence
  else
    let results := t.candidates.map (candidateEvidence gates changed t.sourcePath)
    match results with
    | [] => missingTestEvidence changed t.sourcePath
    | first :: rest =>
      ((first :: rest).find? fun result => decide (result.status = "passed")).getD first

end Target

/-- The changed lines of a path. -/
def changedOf (changedLines : Lines) (path : String) : List ℕ :=
  ((changedLines.find? (·.1 = path)).map Prod.snd).getD []

/-- `PythonEnforcementBinding.enforce`. -/
def enforce (gates : BindingGates) (python2 : Bool) (changedLines : Lines) (targets : List Target) :
    BindingEvidence :=
  if targets.isEmpty then { status := "passed", reasonCode := "no_targets" }
  else if !python2 && targets.any fun t => decide (t.sourcePath ≠ "") && !t.parses then
    { status := "error", reasonCode := "syntax_error" }
  else
    let results := targets.map fun t =>
      targetEvidence gates (changedOf changedLines t.sourcePath) t
    let passed := results.all fun result => decide (result.status = "passed")
    { status := if passed then "passed" else "failed"
      reasonCode := if passed then "passed" else "quality_gate_failed"
      targets := results }

/-! What an entry of the binding says. -/

/-- What holds of every entry: a pass is a pass of tests, coverage and mutation, and a
failure names its stage or is a rate below the gate. -/
structure Sincere (gate : ℚ) (t : TargetPayload) : Prop where
  status : t.status = "passed" ∨ t.status = "failed"
  coverage : ∃ c, t.coverage = some c ∧ c.scope = "changed_lines" ∧
    (t.status = "passed" → c.passed = true)
  mutation : ∃ m, t.mutation = some m ∧ m.scope = "changed_lines" ∧
    (t.status = "passed" → m.passed = true)
  tests : t.status = "passed" → t.testsPass = true
  named : t.status = "failed" → t.reasonCode ∉ excusedReasons
  missed : sampledMiss t = true → t.status = "failed" → ∃ m, t.mutation = some m ∧ m.rate < gate

/-- The reason codes of a mutation stage that failed. -/
def stageReasons : List String :=
  ["mutation_test_collection_failed", "mutation_backend_failed", "mutation_candidate_plan_failed",
    "mutation_no_tests"]

theorem runMutation_reason {x : Enforce.MutationRun}
    (failed : (Enforce.runMutation x).passed = false) :
    (∃ reason ∈ stageReasons, (Enforce.runMutation x).reasonCode = some reason) ∨
      (Enforce.runMutation x).reasonCode = none ∧ (Enforce.runMutation x).rate < x.gate := by
  unfold Enforce.runMutation at failed ⊢
  split at failed
  · cases failed
  · next candidates =>
    rw [if_neg candidates]
    by_cases collection : x.collectionFailed
    · exact .inl ⟨_, by simp [stageReasons], if_pos collection⟩
    by_cases backend : x.backendFailed
    · exact .inl ⟨_, by simp [stageReasons], (if_neg collection).trans (if_pos backend)⟩
    by_cases plan : x.planFailed
    · refine .inl ⟨"mutation_candidate_plan_failed", by simp [stageReasons], ?_⟩
      simp [collection, backend, plan]
    by_cases tests : x.noTestsUnassociated
    · refine .inl ⟨"mutation_no_tests", by simp [stageReasons], ?_⟩
      simp [collection, backend, plan, tests]
    · refine .inr ⟨by simp [collection, backend, plan, tests], ?_⟩
      simp only [collection, backend, plan, tests, not_false_eq_true, and_true,
        decide_eq_false_iff_not, not_or, not_le] at failed
      simpa [backend, tests] using failed.1

theorem stageReasons_named {reason : String} (member : reason ∈ stageReasons) :
    reason ∉ excusedReasons ∧ reason ∉ ["mutation_gate_failed", "mutation_failed"] := by
  simp only [stageReasons, List.mem_cons, List.not_mem_nil, or_false] at member
  rcases member with rfl | rfl | rfl | rfl <;> decide

theorem failed_ne_passed : "failed" ≠ "passed" := by decide

section Sincere
variable (gates : BindingGates) (changed : List ℕ)

theorem runCoverage_scope (stage : CoverageStage) (source : String) (gate : ℚ) :
    (runCoverage stage source changed gate).1.scope = "changed_lines" := by
  cases stage <;> rfl

/-- A failure before mutation that names its stage. -/
theorem unmutated_failed_sincere {reason message : String} (testsPass : Bool)
    {coverage : CoveragePayload} (scope : coverage.scope = "changed_lines")
    (named : reason ∉ excusedReasons ∧ reason ∉ ["mutation_gate_failed", "mutation_failed"]) :
    Sincere gates.mutation (unmutatedEvidence (some (reason, message)) testsPass coverage) where
  status := .inr rfl
  coverage := ⟨coverage, rfl, scope, fun status => (failed_ne_passed status).elim⟩
  mutation := ⟨_, rfl, rfl, fun status => (failed_ne_passed status).elim⟩
  tests status := (failed_ne_passed status).elim
  named _ := named.1
  missed miss _ := by
    simp only [sampledMiss, Bool.and_eq_true, decide_eq_true_eq] at miss
    exact absurd miss.1.1.1 named.2

theorem unmutated_passed_sincere {coverage : CoveragePayload}
    (scope : coverage.scope = "changed_lines") (passed : coverage.passed = true) :
    Sincere gates.mutation (unmutatedEvidence none true coverage) where
  status := .inl rfl
  coverage := ⟨coverage, rfl, scope, fun _ => passed⟩
  mutation := ⟨_, rfl, rfl, fun _ => rfl⟩
  tests _ := rfl
  named status := (failed_ne_passed status.symm).elim
  missed _ status := (failed_ne_passed status.symm).elim

theorem mutated_sincere (source : String) (stage : MutationStage) {coverage : CoveragePayload}
    (scope : coverage.scope = "changed_lines") (passed : coverage.passed = true) :
    Sincere gates.mutation (mutatedEvidence gates changed source stage coverage) := by
  cases result : (stage.result gates.mutation).passed with
  | true =>
    have status : (mutatedEvidence gates changed source stage coverage).status = "passed" :=
      if_pos result
    have failed : (mutatedEvidence gates changed source stage coverage).status ≠ "failed" := by
      rw [status]
      decide
    exact ⟨.inl status, ⟨_, rfl, scope, fun _ => passed⟩, ⟨_, rfl, rfl, fun _ => result⟩,
      fun _ => rfl, (absurd · failed), fun _ => (absurd · failed)⟩
  | false =>
    have unset : ¬ (stage.result gates.mutation).passed = true := by simp [result]
    have status : (mutatedEvidence gates changed source stage coverage).status = "failed" :=
      if_neg unset
    have reason : (mutatedEvidence gates changed source stage coverage).reasonCode =
        (stage.result gates.mutation).reasonCode.getD "mutation_failed" := if_neg unset
    refine ⟨.inr status, ⟨_, rfl, scope, fun _ => passed⟩, ⟨_, rfl, rfl, fun h => ?_⟩,
      fun _ => rfl, fun _ => ?_, fun miss _ => ⟨_, rfl, ?_⟩⟩
    · rw [status] at h
      exact absurd h (by decide)
    · rw [reason]
      rcases runMutation_reason result with ⟨code, member, found⟩ | ⟨unnamed, -⟩
      · rw [MutationStage.result, found]
        exact (stageReasons_named member).1
      · rw [MutationStage.result, unnamed]
        decide
    · rcases runMutation_reason result with ⟨code, member, found⟩ | ⟨-, below⟩
      · simp only [sampledMiss, reason, MutationStage.result, found, Option.getD_some,
          Bool.and_eq_true, decide_eq_true_eq] at miss
        exact absurd miss.1.1.1 (stageReasons_named member).2
      · exact below

theorem candidateEvidence_sincere (source : String) (c : CandidateTest) :
    Sincere gates.mutation (candidateEvidence gates changed source c) := by
  have scope := runCoverage_scope changed c.coverage source gates.coverage
  unfold candidateEvidence
  generalize runCoverage c.coverage source changed gates.coverage = answer at scope
  obtain ⟨coverage, testsPass⟩ := answer
  cases testsPass with
  | false => exact unmutated_failed_sincere gates false scope (by decide)
  | true =>
    by_cases failed : coverage.passed = false
    · simp only [if_pos failed]
      exact unmutated_failed_sincere gates true scope (by decide)
    · have passed : coverage.passed = true := Bool.not_eq_false _ ▸ failed
      simp only [if_neg failed]
      split
      · exact unmutated_passed_sincere gates scope passed
      · exact mutated_sincere gates changed source c.mutation scope passed

theorem nonExecutableTargetEvidence_sincere :
    Sincere gates.mutation nonExecutableTargetEvidence :=
  ⟨.inl rfl, ⟨_, rfl, rfl, fun _ => rfl⟩, ⟨_, rfl, rfl, fun _ => rfl⟩, fun _ => rfl,
    fun status => (failed_ne_passed status.symm).elim,
    fun _ status => (failed_ne_passed status.symm).elim⟩

theorem missingTestEvidence_sincere (source : String) :
    Sincere gates.mutation (missingTestEvidence changed source) where
  status := .inr rfl
  coverage := ⟨_, rfl, rfl, fun status => (failed_ne_passed status).elim⟩
  mutation := ⟨_, rfl, rfl, fun status => (failed_ne_passed status).elim⟩
  tests status := (failed_ne_passed status).elim
  named _ := show "missing_test_file" ∉ excusedReasons by decide
  missed miss := absurd miss (by simp [sampledMiss, missingTestEvidence])

theorem targetEvidence_sincere (t : Target) :
    Sincere gates.mutation (targetEvidence gates changed t) := by
  unfold targetEvidence
  split
  · exact nonExecutableTargetEvidence_sincere gates
  · have each : ∀ r ∈ t.candidates.map (candidateEvidence gates changed t.sourcePath),
        Sincere gates.mutation r := by
      intro r member
      obtain ⟨c, -, rfl⟩ := List.mem_map.mp member
      exact candidateEvidence_sincere gates changed t.sourcePath c
    generalize t.candidates.map (candidateEvidence gates changed t.sourcePath) = results at each
    cases results with
    | nil => exact missingTestEvidence_sincere gates changed t.sourcePath
    | cons first rest =>
      cases found : (first :: rest).find? fun result => decide (result.status = "passed") with
      | none => simpa [found] using each first (List.mem_cons_self ..)
      | some r => simpa [found] using each r (List.mem_of_find?_eq_some found)

end Sincere

end Uta.PythonGate
