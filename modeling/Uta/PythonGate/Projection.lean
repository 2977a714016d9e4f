/- The projection of a binding's evidence into the verdict of a run. -/
import Uta.PythonGate.Payload

namespace Uta.PythonGate
open Uta.Lib

/-- What the binding reports of a run. -/
structure BindingEvidence where
  status : String
  reasonCode : String := ""
  targets : List TargetPayload := []

/-- `_evidence_envelope`, as far as a verdict reads it. -/
structure Envelope where
  schemaVersion : ℕ := 1
  language : String := "python"
  backend : String := "python_enforcer"
  headCommit : String
  changedLines : Lines

/-- The finished evidence of a run. -/
structure Evidence extends Envelope where
  status : String
  passed : Bool
  reasonCode : String
  summary : String
  targetResults : List TargetPayload := []
  coverage : Option CoverageAggregate := none
  mutation : Option MutationAggregate := none

/-! Sampled mutation misses. -/

/-- The target whose mutation score is only a sample: its tests and its coverage passed. -/
def sampledMiss (t : TargetPayload) : Bool :=
  decide (t.reasonCode ∈ ["mutation_gate_failed", "mutation_failed"]) && t.testsPass &&
    t.coverage.any (·.passed) && t.mutation.isSome

def reclassified (t : TargetPayload) : TargetPayload :=
  if sampledMiss t then
    { t with
      status := "passed"
      reasonCode := "sampled_mutation_diagnostic"
      message := "Sampled target mutation rate is diagnostic; the CI mutation gate " ++
        "is enforced on the report aggregate." }
  else t

/-- `_reclassify_sampled_mutation_misses`. -/
def reclassifySampledMutationMisses (targets : List TargetPayload) : List TargetPayload :=
  targets.map reclassified

/-- The reason codes that the filter passes over. -/
def excusedReasons : List String := ["", "passed", "sampled_mutation_diagnostic"]

/-- `_has_unsampled_failure`. -/
def hasUnsampledFailure (targets : List TargetPayload) : Bool :=
  targets.any fun t => decide (t.status ≠ "passed" ∧ t.reasonCode ∉ excusedReasons)

/-! The diagnosis. -/

/-- `_GENERIC_REASONS`. -/
def genericReasons : List String := ["", "passed", "quality_gate_failed", "failed"]

/-- `_REASON_ALIASES`. -/
def reasonAlias (reasonCode : String) : String :=
  if reasonCode = "no_targets" then "no_changed_python_targets" else reasonCode

/-- `_diagnosis`: the reason code and the summary. -/
def diagnosis (evidence : BindingEvidence) (targets : List TargetPayload) (passed : Bool) :
    String × String :=
  let top := reasonAlias evidence.reasonCode
  if passed then (if top = "" then "passed" else top, "Python enforcement passed")
  else
    match targets.find? fun t =>
        decide (t.status ≠ "passed" ∧ t.reasonCode ≠ "" ∧ t.reasonCode ≠ "passed") with
    | some t =>
      (t.reasonCode,
        if t.message = "" then s!"Python enforcement failed: {t.reasonCode}" else t.message)
    | none =>
      let reason := if top ∈ genericReasons then "quality_gate_failed" else top
      (reason, s!"Python enforcement failed: {reason}")

/-! The projection. -/

/-- The gates of a run, and whether it samples its mutants. -/
structure Gates where
  coverageGate : ℚ
  mutationGate : ℚ
  sampling : Bool

section Projection
variable (gates : Gates) (skips : List TargetPayload) (evidence : BindingEvidence)

/-- `target_results`. -/
def projectedTargets : List TargetPayload :=
  if gates.sampling then reclassifySampledMutationMisses (skips ++ evidence.targets)
  else skips ++ evidence.targets

/-- The status before the aggregate is asked. -/
def projectedStatus : String :=
  if gates.sampling ∧ evidence.status ≠ "passed" ∧
      hasUnsampledFailure (projectedTargets gates skips evidence) = false then "passed"
  else evidence.status

/-- The aggregate; over a sample the rate alone decides it. -/
def projectedMutation : Option MutationAggregate :=
  (aggregateMutation (projectedTargets gates skips evidence) gates.mutationGate).map fun m =>
    if gates.sampling then
      { m with gateScope := some "report", passed := decide (gates.mutationGate ≤ m.rate) }
    else m

/-- The aggregate of a sample missed the gate. -/
def aggregateMissed : Bool :=
  gates.sampling && (projectedMutation gates skips evidence).any (!·.passed)

/-- `_project_binding_evidence`. -/
def projectBindingEvidence (envelope : Envelope) : Evidence :=
  let targets := projectedTargets gates skips evidence
  let status := projectedStatus gates skips evidence
  let mutation := projectedMutation gates skips evidence
  let missed := decide (status = "passed") && aggregateMissed gates skips evidence
  let rate := (mutation.map (·.rate)).getD 0
  let reason := diagnosis evidence targets (decide (status = "passed"))
  { envelope with
    status := if missed then "failed" else status
    passed := decide (status = "passed") && !missed
    reasonCode := if missed then "mutation_gate_failed" else reason.1
    summary :=
      if missed then s!"Python aggregate mutation score {fixed2 rate}% " ++
        s!"is below gate {fixed2 gates.mutationGate}%"
      else reason.2
    targetResults := targets
    coverage := aggregateCoverage targets gates.coverageGate
    mutation }

end Projection

/-! What the filter and the rewriting leave. -/

@[simp] theorem reclassified_coverage (t : TargetPayload) :
    (reclassified t).coverage = t.coverage := by
  unfold reclassified
  split <;> rfl

@[simp] theorem reclassified_mutation (t : TargetPayload) :
    (reclassified t).mutation = t.mutation := by
  unfold reclassified
  split <;> rfl

theorem reclassified_of_miss {t : TargetPayload} (miss : sampledMiss t = true) :
    (reclassified t).status = "passed" := by
  rw [reclassified, if_pos miss]

theorem reclassified_of_no_miss {t : TargetPayload} (miss : ¬ sampledMiss t = true) :
    reclassified t = t := if_neg miss

section Projected
variable (gates : Gates) (skips : List TargetPayload) (evidence : BindingEvidence)

theorem coverages_projected :
    coverages (projectedTargets gates skips evidence) = coverages (skips ++ evidence.targets) := by
  unfold projectedTargets reclassifySampledMutationMisses coverages
  split
  · rw [List.filterMap_map]
    exact congrFun (congrArg List.filterMap (funext reclassified_coverage)) _
  · rfl

theorem mutations_projected :
    mutations (projectedTargets gates skips evidence) = mutations (skips ++ evidence.targets) := by
  unfold projectedTargets reclassifySampledMutationMisses mutations
  split
  · rw [List.filterMap_map]
    exact congrFun (congrArg List.filterMap (funext reclassified_mutation)) _
  · rfl

/-- A failure that the filter sees. -/
def NamedFailure (t : TargetPayload) : Prop :=
  t.status ≠ "passed" ∧ sampledMiss t = false ∧ t.reasonCode ∉ excusedReasons

/-- A failing target is a sampled miss, a named failure, or has no reason to show. -/
theorem failing_cases {t : TargetPayload} (failing : t.status ≠ "passed") :
    sampledMiss t = true ∨ NamedFailure t ∨ t.reasonCode ∈ excusedReasons := by
  by_cases miss : sampledMiss t = true
  · exact .inl miss
  · by_cases excused : t.reasonCode ∈ excusedReasons
    · exact .inr (.inr excused)
    · exact .inr (.inl ⟨failing, Bool.eq_false_iff.mpr miss, excused⟩)

theorem hasUnsampledFailure_reclassified (targets : List TargetPayload) :
    hasUnsampledFailure (reclassifySampledMutationMisses targets) = true ↔
      ∃ t ∈ targets, NamedFailure t := by
  simp only [hasUnsampledFailure, reclassifySampledMutationMisses, List.any_map, List.any_eq_true,
    Function.comp_apply, decide_eq_true_eq]
  refine exists_congr fun t => and_congr_right fun _ => ?_
  cases miss : sampledMiss t with
  | true => simp [NamedFailure, miss, reclassified_of_miss miss]
  | false => simp [NamedFailure, miss, reclassified_of_no_miss (Bool.eq_false_iff.mp miss)]

/-- The aggregate rate is below the gate. -/
def RateMissed (gate : ℚ) (targets : List TargetPayload) : Prop :=
  mutations targets ≠ [] ∧ mutationRate (mutations targets) < gate

theorem aggregateMissed_iff : aggregateMissed gates skips evidence = true ↔
    gates.sampling = true ∧ RateMissed gates.mutationGate (skips ++ evidence.targets) := by
  unfold aggregateMissed projectedMutation aggregateMutation RateMissed
  rw [mutations_projected]
  by_cases sampled : gates.sampling = true
  · by_cases none : mutations (skips ++ evidence.targets) = []
    · simp [none]
    · simp [none, sampled, mutationAggregate]
  · simp [sampled]

theorem project_passed_fields (envelope : Envelope)
    (passed : (projectBindingEvidence gates skips evidence envelope).passed = true) :
    (projectBindingEvidence gates skips evidence envelope).status = "passed" ∧
      (projectBindingEvidence gates skips evidence envelope).reasonCode =
        (diagnosis evidence (projectedTargets gates skips evidence) true).1 := by
  simp only [projectBindingEvidence, Bool.and_eq_true, decide_eq_true_eq, Bool.not_eq_true'] at passed
  obtain ⟨status, kept⟩ := passed
  have reached := Bool.eq_false_iff.mp kept
  refine ⟨(if_neg reached).trans status, (if_neg reached).trans ?_⟩
  rw [decide_eq_true status]

/-- The verdict of a run that does not sample is the binding's. -/
theorem project_full_passed_iff (envelope : Envelope) (full : gates.sampling = false) :
    (projectBindingEvidence gates skips evidence envelope).passed = true ↔
      evidence.status = "passed" := by
  simp [projectBindingEvidence, projectedStatus, aggregateMissed, full]

theorem project_sampled_passed_iff (envelope : Envelope) (sampled : gates.sampling = true) :
    (projectBindingEvidence gates skips evidence envelope).passed = true ↔
      (evidence.status = "passed" ∨ ∀ t ∈ skips ++ evidence.targets, ¬ NamedFailure t) ∧
        ¬ RateMissed gates.mutationGate (skips ++ evidence.targets) := by
  have status : projectedStatus gates skips evidence = "passed" ↔
      (evidence.status = "passed" ∨ ∀ t ∈ skips ++ evidence.targets, ¬ NamedFailure t) := by
    have seen := (hasUnsampledFailure_reclassified (skips ++ evidence.targets)).not
    rw [Bool.not_eq_true] at seen
    rw [projectedStatus, projectedTargets, if_pos sampled]
    by_cases passed : evidence.status = "passed"
    · simp [passed]
    · simp [passed, sampled, seen]
  have missed := aggregateMissed_iff gates skips evidence
  rw [← status]
  simp only [projectBindingEvidence, Bool.and_eq_true, decide_eq_true_eq, Bool.not_eq_true',
    ← Bool.not_eq_true, missed, sampled, true_and]
  tauto

end Projected

end Uta.PythonGate
