/- The two roll-ups of a run over several targets: the binding's own, and the
aggregation of the evidence contract. -/
import Uta.Lib.Percent
import Mathlib.Algebra.BigOperators.Group.List.Basic

namespace Uta.Enforce
open Uta.Lib

inductive EnforcementStatus where
  | passed | failed
  deriving DecidableEq, Repr

structure CoverageSummary where
  covered : ℕ
  total : ℕ
  passed : Bool
  noExecutableChangedLines : Bool := false

structure MutationSummary where
  generated : ℕ
  killed : ℕ
  survived : ℕ
  noTests : ℕ := 0
  timeout : ℕ := 0
  suspicious : ℕ := 0
  notChecked : ℕ := 0
  changedLineMutantsScored : ℕ := 0
  passed : Bool
  reasonCode : Option String := none

/-- One target's evidence, with the status of its target result. -/
structure TargetEvidence where
  status : EnforcementStatus
  coverage : CoverageSummary
  mutation : MutationSummary

/-- `sum(field(item) for item in items)`. -/
def total (items : List TargetEvidence) (field : TargetEvidence → ℕ) : ℕ := (items.map field).sum

/-! The binding's roll-up. -/

structure CoverageRollup where
  covered : ℕ
  total : ℕ
  rate : ℚ
  gate : ℚ
  passed : Bool
  deriving DecidableEq

structure MutationRollup where
  generated : ℕ
  killed : ℕ
  survived : ℕ
  rate : ℚ
  gate : ℚ
  passed : Bool
  deriving DecidableEq

structure OverallEvidence where
  status : EnforcementStatus
  reasonCode : String
  coverage : CoverageRollup
  mutation : MutationRollup
  deriving DecidableEq

section Binding
variable (covGate mutGate : ℚ) (targets : List TargetEvidence)

/-- `all_passed`. -/
def allPassed : Bool := targets.all fun t => decide (t.status = .passed)

def covRate : ℚ := percent (total targets (·.coverage.covered)) (total targets (·.coverage.total))

def mutRate : ℚ :=
  let killed := total targets (·.mutation.killed)
  percent killed (killed + total targets (·.mutation.survived))

/-- The roll-up of `PythonEnforcementBinding.enforce`. -/
def enforceRollup : OverallEvidence where
  status := if allPassed targets then .passed else .failed
  reasonCode := if allPassed targets then "passed" else "quality_gate_failed"
  coverage :=
    { covered := total targets (·.coverage.covered)
      total := total targets (·.coverage.total)
      rate := covRate targets
      gate := covGate
      passed := decide (covGate ≤ covRate targets) }
  mutation :=
    { generated := total targets (·.mutation.generated)
      killed := total targets (·.mutation.killed)
      survived := total targets (·.mutation.survived)
      rate := mutRate targets
      gate := mutGate
      passed := decide (mutGate ≤ mutRate targets) }

end Binding

/-! The contract's aggregation. -/

structure CoverageAggregate extends CoverageRollup where
  modules : ℕ
  noExecutableChangedLines : Bool

structure MutationAggregate extends MutationRollup where
  noTests : ℕ
  timeout : ℕ
  suspicious : ℕ
  notChecked : ℕ
  changedLineMutantsScored : ℕ
  reasonCode : Option String
  modules : ℕ

section Contract
variable (gate : ℚ) (targets : List TargetEvidence)

def aggregateCoverage : Option CoverageAggregate :=
  if targets.isEmpty then none
  else some
    { covered := total targets (·.coverage.covered)
      total := total targets (·.coverage.total)
      rate := percent (total targets (·.coverage.covered)) (total targets (·.coverage.total))
      gate
      passed := targets.all (·.coverage.passed)
      modules := targets.length
      noExecutableChangedLines := targets.all (·.coverage.noExecutableChangedLines) }

def backendFailed : Bool :=
  targets.any fun t => decide (t.mutation.reasonCode = some "mutation_backend_failed")

def noTestsFailed : Bool :=
  targets.any fun t => decide (t.mutation.reasonCode = some "mutation_no_tests")

/-- The decided mutants, timeouts and suspicious ones included. -/
def aggregateDenominator : ℕ :=
  total targets (·.mutation.killed) + total targets (·.mutation.survived) +
    total targets (·.mutation.timeout) + total targets (·.mutation.suspicious)

def aggregateRate : ℚ :=
  if backendFailed targets || noTestsFailed targets then 0
  else percent (total targets (·.mutation.killed)) (aggregateDenominator targets)

def aggregateMutation : Option MutationAggregate :=
  if targets.isEmpty then none
  else some
    { generated := total targets (·.mutation.generated)
      killed := total targets (·.mutation.killed)
      survived := total targets (·.mutation.survived)
      rate := aggregateRate targets
      gate
      passed := targets.all (·.mutation.passed) && decide (gate ≤ aggregateRate targets)
      noTests := total targets (·.mutation.noTests)
      timeout := total targets (·.mutation.timeout)
      suspicious := total targets (·.mutation.suspicious)
      notChecked := total targets (·.mutation.notChecked)
      changedLineMutantsScored := total targets (·.mutation.changedLineMutantsScored)
      reasonCode :=
        if backendFailed targets then some "mutation_backend_failed"
        else if noTestsFailed targets then some "mutation_no_tests"
        else none
      modules := targets.length }

end Contract

/-! Where they agree. -/

section Agreement
variable (covGate mutGate : ℚ) (targets : List TargetEvidence)

/-- The roll-up shows the totals, rates and flags of the aggregation, and passes
only where every target passed. -/
structure RollupAgrees : Prop where
  coverage : (aggregateCoverage covGate targets).map CoverageAggregate.toCoverageRollup =
    some (enforceRollup covGate mutGate targets).coverage
  mutation : (aggregateMutation mutGate targets).map MutationAggregate.toMutationRollup =
    some (enforceRollup covGate mutGate targets).mutation
  overall : (enforceRollup covGate mutGate targets).status = .passed →
    ∀ t ∈ targets, t.status = .passed

/-- The totals reach the coverage gate exactly when each target reached its own. -/
def CoverageUniform : Prop := covGate ≤ covRate targets ↔ ∀ t ∈ targets, t.coverage.passed = true

/-- A target whose mutants could not be scored leaves a zero rate; elsewhere
timeouts and suspicious mutants do not move the four-decimal rate. -/
def RateUniform : Prop :=
  if ∃ t ∈ targets, t.mutation.reasonCode = some "mutation_backend_failed" ∨
      t.mutation.reasonCode = some "mutation_no_tests" then mutRate targets = 0
  else mutRate targets = percent (total targets (·.mutation.killed)) (aggregateDenominator targets)

/-- A total that reaches the mutation gate hides no failed target. -/
def MutationUniform : Prop := mutGate ≤ mutRate targets → ∀ t ∈ targets, t.mutation.passed = true

theorem allPassed_iff : allPassed targets = true ↔ ∀ t ∈ targets, t.status = .passed := by
  simp [allPassed]

theorem overall_passed (passed : (enforceRollup covGate mutGate targets).status = .passed) :
    ∀ t ∈ targets, t.status = .passed := by
  apply (allPassed_iff targets).mp
  by_contra failed
  have status : (enforceRollup covGate mutGate targets).status = .failed := if_neg failed
  rw [status] at passed
  cases passed

theorem coverage_agrees_iff (nonempty : targets ≠ []) :
    (aggregateCoverage covGate targets).map CoverageAggregate.toCoverageRollup =
      some (enforceRollup covGate mutGate targets).coverage ↔ CoverageUniform covGate targets := by
  have listed : targets.isEmpty = false := by simpa using nonempty
  have rate : percent (total targets (·.coverage.covered)) (total targets (·.coverage.total)) =
      covRate targets := rfl
  simp only [aggregateCoverage, listed, enforceRollup, rate, Bool.false_eq_true, if_false,
    Option.map_some, Option.some.injEq, CoverageRollup.mk.injEq, true_and]
  rw [CoverageUniform, Bool.eq_iff_iff, List.all_eq_true, decide_eq_true_eq]
  exact iff_comm

theorem unscored_iff : (backendFailed targets || noTestsFailed targets) = true ↔
    ∃ t ∈ targets, t.mutation.reasonCode = some "mutation_backend_failed" ∨
      t.mutation.reasonCode = some "mutation_no_tests" := by
  simp only [backendFailed, noTestsFailed, Bool.or_eq_true, List.any_eq_true, decide_eq_true_eq]
  constructor
  · rintro (⟨t, member, reason⟩ | ⟨t, member, reason⟩)
    · exact ⟨t, member, .inl reason⟩
    · exact ⟨t, member, .inr reason⟩
  · rintro ⟨t, member, reason | reason⟩
    · exact .inl ⟨t, member, reason⟩
    · exact .inr ⟨t, member, reason⟩

theorem rate_agrees_iff : aggregateRate targets = mutRate targets ↔ RateUniform targets := by
  unfold aggregateRate RateUniform
  by_cases unscored : ∃ t ∈ targets, t.mutation.reasonCode = some "mutation_backend_failed" ∨
      t.mutation.reasonCode = some "mutation_no_tests"
  · rw [if_pos ((unscored_iff targets).mpr unscored), if_pos unscored]
    exact eq_comm
  · rw [if_neg (fun h => unscored ((unscored_iff targets).mp h)), if_neg unscored]
    exact eq_comm

theorem mutation_agrees_iff (nonempty : targets ≠ []) :
    (aggregateMutation mutGate targets).map MutationAggregate.toMutationRollup =
      some (enforceRollup covGate mutGate targets).mutation ↔
    RateUniform targets ∧ MutationUniform mutGate targets := by
  have listed : targets.isEmpty = false := by simpa using nonempty
  simp only [aggregateMutation, listed, enforceRollup, Bool.false_eq_true, if_false,
    Option.map_some, Option.some.injEq, MutationRollup.mk.injEq, true_and]
  rw [rate_agrees_iff]
  apply and_congr_right
  intro uniform
  have rates : aggregateRate targets = mutRate targets := (rate_agrees_iff targets).mpr uniform
  rw [rates, Bool.eq_iff_iff, Bool.and_eq_true, List.all_eq_true, decide_eq_true_eq]
  exact ⟨fun h reach => (h.mpr reach).1, fun h => ⟨fun both => both.2, fun reach => ⟨h reach, reach⟩⟩⟩

/-- A target whose only mutant timed out: the binding reads 100, the contract 0. -/
def timedOutTarget : TargetEvidence where
  status := .failed
  coverage := { covered := 1, total := 1, passed := true }
  mutation := { generated := 1, killed := 0, survived := 0, timeout := 1,
                changedLineMutantsScored := 1, passed := false }

end Agreement
end Uta.Enforce
