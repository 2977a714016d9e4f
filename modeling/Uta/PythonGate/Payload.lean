/- What the evidence of a Python enforcement run says of one target, and how the
targets add up. -/
import Uta.Lib.Percent
import Uta.Lib.PyText
import Mathlib.Algebra.BigOperators.Group.List.Basic

namespace Uta.PythonGate
open Uta.Lib

/-- Line numbers by source path. -/
abbrev Lines := List (String × List ℕ)

/-! The candidate plan of one target. -/

/-- The lists of a plan that a verdict reads; a suppressed candidate is its reason code. -/
structure CandidatePlan where
  activeSelected : List String := []
  reportFullSelected : List String := []
  exactToolCandidateKeys : List String := []
  eligibleMutationOpportunities : List String := []
  suppressed : List String := []

/-- `candidate_plan_allows_zero_scored_mutation`; an empty plan is `none`. -/
def candidatePlanAllowsZeroScoredMutation : Option CandidatePlan → Bool
  | none => false
  | some plan =>
    plan.activeSelected.isEmpty && plan.reportFullSelected.isEmpty &&
      plan.exactToolCandidateKeys.isEmpty && plan.eligibleMutationOpportunities.isEmpty &&
      plan.suppressed.all fun reasonCode => !(PyText.strip reasonCode.toList).isEmpty

/-- `candidate_plan_requires_mutation_execution`. -/
def candidatePlanRequiresMutationExecution : Option CandidatePlan → Bool
  | none => false
  | some plan =>
    !plan.eligibleMutationOpportunities.isEmpty || !plan.activeSelected.isEmpty ||
      !plan.reportFullSelected.isEmpty || !plan.exactToolCandidateKeys.isEmpty

/-! The payloads of one target. -/

/-- A coverage summary; a scope that is not stated is empty. -/
structure CoveragePayload where
  covered : ℕ
  total : ℕ
  passed : Bool
  scope : String := ""
  changedLines : Lines := []
  noExecutableChangedLines : Bool := false

/-- A mutation summary. The two spellings of the unscored counts are separate keys. -/
structure MutationPayload where
  generated : ℕ := 0
  killed : ℕ := 0
  survived : ℕ := 0
  no_coverage : ℕ := 0
  noCoverage : ℕ := 0
  no_tests : ℕ := 0
  noTests : ℕ := 0
  timeout : ℕ := 0
  suspicious : ℕ := 0
  skipped : ℕ := 0
  changedLineMutantsGenerated : ℕ := 0
  changedLineMutantsKilled : ℕ := 0
  changedLineMutantsScored : Option ℕ := none
  rate : ℚ
  passed : Bool
  scope : String := ""
  changedLines : Lines := []
  candidatePlan : Option CandidatePlan := none

/-- One entry of `targetResults`. -/
structure TargetPayload where
  status : String
  reasonCode : String
  message : String := ""
  testsPass : Bool := false
  coverage : Option CoveragePayload := none
  mutation : Option MutationPayload := none

/-! The aggregates. -/

/-- `_aggregate_scope`: the one scope that the summaries name. -/
def aggregateScope (scopes : List String) : Option String :=
  match (scopes.filter (· ≠ "")).eraseDups with
  | [scope] => some scope
  | _ => none

/-- `_merge_changed_lines`, as far as it is read: the lines without their order. -/
def mergeChangedLines (summaries : List Lines) : Lines :=
  let entries := summaries.flatten.map fun (path, lines) => (path.replace "\\" "/", lines)
  let paths := ((entries.map Prod.fst).filter (· ≠ "")).eraseDups
  paths.map fun path =>
    (path, (((entries.filter (·.1 = path)).flatMap Prod.snd).filter (0 < ·)).eraseDups)

structure CoverageAggregate where
  covered : ℕ
  total : ℕ
  rate : ℚ
  gate : ℚ
  passed : Bool
  noExecutableChangedLines : Bool
  modules : ℕ
  scope : Option String
  changedLines : Lines

/-- `sum(field(item) for item in summaries)`. -/
def total {α : Type} (summaries : List α) (field : α → ℕ) : ℕ := (summaries.map field).sum

/-- The rate of `_aggregate_coverage`: both of its branches are 100 where nothing was counted. -/
def coverageRate (summaries : List CoveragePayload) : ℚ :=
  percent (total summaries (·.covered)) (total summaries (·.total))

def coverageAggregate (summaries : List CoveragePayload) (gate : ℚ) : CoverageAggregate where
  covered := total summaries (·.covered)
  total := total summaries (·.total)
  rate := coverageRate summaries
  gate
  passed := summaries.all (·.passed) && decide (gate ≤ coverageRate summaries)
  noExecutableChangedLines := summaries.all (·.noExecutableChangedLines)
  modules := summaries.length
  scope := aggregateScope (summaries.map (·.scope))
  changedLines := mergeChangedLines (summaries.map (·.changedLines))

/-- The coverage summaries of the targets. -/
def coverages (targets : List TargetPayload) : List CoveragePayload :=
  targets.filterMap (·.coverage)

/-- `_aggregate_coverage`. -/
def aggregateCoverage (targets : List TargetPayload) (gate : ℚ) : Option CoverageAggregate :=
  if coverages targets = [] then none else some (coverageAggregate (coverages targets) gate)

/-- `_scored_changed_line_mutants`. -/
def scoredChangedLineMutants (summary : MutationPayload) : ℕ :=
  match summary.changedLineMutantsScored with
  | some scored => scored
  | none =>
    let noTests := if summary.no_tests = 0 then summary.noTests else summary.no_tests
    let noCoverage := if summary.no_coverage = 0 then summary.noCoverage else summary.no_coverage
    summary.changedLineMutantsGenerated - noTests - noCoverage - summary.skipped

/-- The rate of `_aggregate_mutation`. -/
def mutationRate (summaries : List MutationPayload) : ℚ :=
  if aggregateScope (summaries.map (·.scope)) = some "changed_lines" then
    let scored := total summaries scoredChangedLineMutants
    if 0 < scored then percent (total summaries (·.changedLineMutantsKilled)) scored
    else if 0 < total summaries (·.changedLineMutantsGenerated) then 100
    else if mergeChangedLines (summaries.map (·.changedLines)) ≠ [] then
      if summaries.all (·.passed) then 100 else 0
    else 100
  else
    percent (total summaries (·.killed))
      (total summaries (·.killed) + total summaries (·.survived))

/-- The mutants behind the aggregate rate. -/
def scoredMutants (summaries : List MutationPayload) : ℕ :=
  if aggregateScope (summaries.map (·.scope)) = some "changed_lines" then
    total summaries scoredChangedLineMutants
  else total summaries (·.killed) + total summaries (·.survived)

/-- `_aggregate_candidate_plan`. Its other counts have names that no verdict reads; the
exact keys are a count here. -/
structure AggregatePlan where
  targetPlans : ℕ
  exactToolCandidateKeys : ℕ

def aggregateCandidatePlan (summaries : List MutationPayload) : Option AggregatePlan :=
  let plans := summaries.filterMap (·.candidatePlan)
  if plans.isEmpty then none
  else some
    { targetPlans := plans.length
      exactToolCandidateKeys := total plans (·.exactToolCandidateKeys.length) }

structure MutationAggregate where
  generated : ℕ
  killed : ℕ
  survived : ℕ
  noCoverage : ℕ
  noTests : ℕ
  timeout : ℕ
  suspicious : ℕ
  changedLineMutantsGenerated : ℕ
  changedLineMutantsKilled : ℕ
  changedLineMutantsScored : ℕ
  rate : ℚ
  gate : ℚ
  passed : Bool
  modules : ℕ
  worstTargetRate : Option ℚ
  scope : Option String
  changedLines : Lines
  candidatePlan : Option AggregatePlan
  gateScope : Option String := none

def mutationAggregate (summaries : List MutationPayload) (gate : ℚ) : MutationAggregate where
  generated := total summaries (·.generated)
  killed := total summaries (·.killed)
  survived := total summaries (·.survived)
  noCoverage := total summaries (·.no_coverage)
  noTests := total summaries (·.no_tests)
  timeout := total summaries (·.timeout)
  suspicious := total summaries (·.suspicious)
  changedLineMutantsGenerated := total summaries (·.changedLineMutantsGenerated)
  changedLineMutantsKilled := total summaries (·.changedLineMutantsKilled)
  changedLineMutantsScored := total summaries scoredChangedLineMutants
  rate := mutationRate summaries
  gate
  passed := summaries.all (·.passed) && decide (gate ≤ mutationRate summaries)
  modules := summaries.length
  worstTargetRate := ((summaries.filter (!·.passed)).map (·.rate)).min?
  scope := aggregateScope (summaries.map (·.scope))
  changedLines := mergeChangedLines (summaries.map (·.changedLines))
  candidatePlan := aggregateCandidatePlan summaries

/-- The mutation summaries of the targets. -/
def mutations (targets : List TargetPayload) : List MutationPayload :=
  targets.filterMap (·.mutation)

/-- `_aggregate_mutation`. -/
def aggregateMutation (targets : List TargetPayload) (gate : ℚ) : Option MutationAggregate :=
  if mutations targets = [] then none else some (mutationAggregate (mutations targets) gate)

/-! What the aggregates say of the targets. -/

section Aggregates
variable {targets : List TargetPayload} {gate : ℚ}

theorem mem_coverages {c : CoveragePayload} :
    c ∈ coverages targets ↔ ∃ t ∈ targets, t.coverage = some c :=
  List.mem_filterMap

theorem mem_mutations {m : MutationPayload} :
    m ∈ mutations targets ↔ ∃ t ∈ targets, t.mutation = some m :=
  List.mem_filterMap

/-- A scope that the aggregate names is the scope of every summary that states one. -/
theorem aggregateScope_mem {scopes : List String} {scope x : String}
    (named : aggregateScope scopes = some scope) (member : x ∈ scopes) : x = "" ∨ x = scope := by
  by_cases stated : x = ""
  · exact .inl stated
  have kept : x ∈ (scopes.filter (· ≠ "")).eraseDups :=
    List.mem_eraseDups.mpr (List.mem_filter.mpr ⟨member, decide_eq_true stated⟩)
  unfold aggregateScope at named
  split at named
  · next single =>
    rw [single, List.mem_singleton] at kept
    exact .inr (kept.trans (Option.some.inj named))
  · cases named

theorem coverageAggregate_passed_iff (summaries : List CoveragePayload) :
    (coverageAggregate summaries gate).passed = true ↔
      (∀ c ∈ summaries, c.passed = true) ∧ gate ≤ coverageRate summaries := by
  simp [coverageAggregate]

theorem mutationAggregate_passed_iff (summaries : List MutationPayload) :
    (mutationAggregate summaries gate).passed = true ↔
      (∀ m ∈ summaries, m.passed = true) ∧ gate ≤ mutationRate summaries := by
  simp [mutationAggregate]

end Aggregates

end Uta.PythonGate
