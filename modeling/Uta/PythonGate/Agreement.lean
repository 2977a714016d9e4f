/- Where the validator and the run judge alike. -/
import Uta.PythonGate.Validation

namespace Uta.PythonGate
open Uta.Lib

/-! What the results of a run say. -/

/-- A skipped target passes with empty summaries; only a large change leaves executable
lines behind. -/
structure Idle (t : TargetPayload) : Prop where
  status : t.status = "passed"
  tests : t.testsPass = true
  coverage : ∃ c, t.coverage = some c ∧ c.passed = true
  mutation : ∃ m, t.mutation = some m ∧ m.passed = true ∧ m.candidatePlan = none
  bare : (∀ c, t.coverage = some c → c.noExecutableChangedLines = true) ∨
    ∀ m, t.mutation = some m → m.scope = "large_change_skipped"

theorem skipPayload_idle {reasonCode message scope : String} {lines : Lines} {bare : Bool}
    (kind : bare = true ∨ scope = "large_change_skipped") :
    Idle (skipPayload reasonCode message scope lines bare) where
  status := rfl
  tests := rfl
  coverage := ⟨_, rfl, rfl⟩
  mutation := ⟨_, rfl, rfl, rfl⟩
  bare := kind.imp (fun h _ found => Option.some.inj found ▸ h)
    fun h _ found => Option.some.inj found ▸ h

namespace Run
variable (r : Run)

theorem runtimeSkip_idle {t : Target} {payload : TargetPayload}
    (found : r.runtimeSkip t = some payload) : Idle payload := by
  unfold runtimeSkip at found
  split at found
  · obtain rfl := Option.some.inj found
    exact skipPayload_idle (.inr rfl)
  · obtain ⟨output, -, rfl⟩ := Option.map_eq_some_iff.mp found
    exact skipPayload_idle (.inl rfl)

theorem skipPayloads_idle {payload : TargetPayload} (member : payload ∈ r.skipPayloads) :
    Idle payload := by
  rcases List.mem_append.mp member with comment | skipped
  · obtain ⟨t, -, rfl⟩ := List.mem_map.mp comment
    exact skipPayload_idle (.inl rfl)
  · obtain ⟨t, -, found⟩ := List.mem_filterMap.mp skipped
    exact r.runtimeSkip_idle found

/-! The binding's part. -/

/-- The binding was asked for some target, and every source could be parsed. -/
def Parsed : Prop := r.executable ≠ [] ∧
  (!r.python2 && r.executable.any fun t => decide (t.sourcePath ≠ "") && !t.parses) = false

/-- An entry of the binding is the evidence of a target that no precheck skipped. -/
theorem mem_binding_targets {payload : TargetPayload}
    (member : payload ∈ r.bindingEvidence.targets) : r.Parsed ∧ ∃ t ∈ r.executable,
      targetEvidence r.bindingGates (r.changed t) t = payload := by
  unfold bindingEvidence enforce at member
  split at member
  · cases member
  · next some =>
    split at member
    · cases member
    · next parsed =>
      exact ⟨⟨by simpa using some, by simpa using parsed⟩, List.mem_map.mp member⟩

theorem binding_sincere {payload : TargetPayload} (member : payload ∈ r.bindingEvidence.targets) :
    Sincere r.bindingGates.mutation payload := by
  obtain ⟨-, t, -, rfl⟩ := r.mem_binding_targets member
  exact targetEvidence_sincere r.bindingGates (r.changed t) t

theorem binding_passed {payload : TargetPayload} (passed : r.bindingEvidence.status = "passed")
    (member : payload ∈ r.bindingEvidence.targets) : payload.status = "passed" := by
  obtain ⟨⟨some, parsed⟩, -⟩ := r.mem_binding_targets member
  have some' : ¬ r.executable.isEmpty = true := by simpa using some
  unfold bindingEvidence enforce at passed member
  rw [if_neg some', parsed, if_neg Bool.false_ne_true] at passed member
  simp only at passed member
  split at passed
  · next all => exact of_decide_eq_true (List.all_eq_true.mp all payload member)
  · exact absurd passed failed_ne_passed

theorem binding_reason (some : r.executable ≠ []) :
    r.bindingEvidence.reasonCode ∈ ["syntax_error", "passed", "quality_gate_failed"] := by
  have some' : ¬ r.executable.isEmpty = true := by simpa using some
  unfold bindingEvidence enforce
  rw [if_neg some']
  split
  · decide
  · simp only
    split <;> decide

/-- A target that the binding was asked for has a candidate plan once its tests passed. -/
theorem binding_planned {payload : TargetPayload} (member : payload ∈ r.bindingEvidence.targets)
    (tests : payload.testsPass = true) :
    ∃ m, payload.mutation = some m ∧ m.candidatePlan ≠ none := by
  obtain ⟨-, t, asked, rfl⟩ := r.mem_binding_targets member
  have executable : r.nonExecutable t = false := by
    have := (List.mem_filter.mp asked).2
    simp only [Bool.and_eq_true, Bool.not_eq_true'] at this
    exact this.1
  have reached : ¬ (decide (t.sourcePath ≠ "") && !(r.changed t).isEmpty &&
      disjointFromExecutable (r.changed t) t.executableLines) = true := by
    intro shortcut
    simp only [nonExecutable, Bool.and_eq_false_iff, Bool.or_eq_false_iff] at executable
    simp only [Bool.and_eq_true] at shortcut
    rcases executable with unnamed | ⟨-, apart⟩
    · rw [shortcut.1.1] at unnamed
      cases unnamed
    · rw [shortcut.2] at apart
      cases apart
  have each : ∀ payload ∈ t.candidates.map
      (candidateEvidence r.bindingGates (r.changed t) t.sourcePath),
      ∃ m, payload.mutation = some m ∧ m.candidatePlan ≠ none := by
    intro payload member
    obtain ⟨c, -, rfl⟩ := List.mem_map.mp member
    unfold candidateEvidence
    split
    · exact ⟨_, rfl, Option.some_ne_none _⟩
    · split
      · exact ⟨_, rfl, Option.some_ne_none _⟩
      · split <;> exact ⟨_, rfl, Option.some_ne_none _⟩
  unfold targetEvidence at tests ⊢
  rw [if_neg reached] at tests ⊢
  generalize t.candidates.map
    (candidateEvidence r.bindingGates (r.changed t) t.sourcePath) = list at each tests
  cases list with
  | nil => cases tests
  | cons first rest =>
    cases found : (first :: rest).find? fun result => decide (result.status = "passed") with
    | none => simpa [found] using each first (List.mem_cons_self ..)
    | some payload => simpa [found] using each payload (List.mem_of_find?_eq_some found)

/-! The conclusion of a run. -/

/-- The results that the aggregates are over. -/
def results : List TargetPayload := r.skipPayloads ++ r.bindingEvidence.targets

/-- The binding's report lets the run pass. -/
def BindingPasses : Prop :=
  if r.sampling = true then
    (r.bindingEvidence.status = "passed" ∨ ∀ t ∈ r.results, ¬ NamedFailure t) ∧
      ¬ RateMissed r.gates.mutationGate r.results
  else r.bindingEvidence.status = "passed"

/-- The run concludes that it passed. -/
def Passes : Prop := r.baseCommit ≠ "" ∧ r.headCommit ≠ "" ∧
  (r.targets = [] ∨ r.testPaths ≠ [] ∧ (r.executable = [] ∨ r.BindingPasses))

theorem project_passed_iff :
    (projectBindingEvidence r.gates r.skipPayloads r.bindingEvidence r.envelope).passed = true ↔
      r.BindingPasses := by
  unfold BindingPasses
  by_cases sampled : r.sampling = true
  · rw [if_pos sampled]
    exact project_sampled_passed_iff r.gates r.skipPayloads r.bindingEvidence r.envelope sampled
  · rw [if_neg sampled]
    exact project_full_passed_iff r.gates r.skipPayloads r.bindingEvidence r.envelope
      (Bool.not_eq_true _ ▸ sampled)

theorem evidence_passed_iff : r.evidence.passed = true ↔ r.Passes := by
  unfold evidence preflight Passes
  by_cases base : r.baseCommit = ""
  · simp [base]
  by_cases head : r.headCommit = ""
  · simp [base, head]
  by_cases targets : r.targets = []
  · simp [base, head, targets]
  by_cases tests : r.testPaths = []
  · simp [base, head, targets, tests]
  by_cases executable : r.executable = []
  · simp [base, head, targets, tests, executable, skippedOnlyEvidence]
  · simp [base, head, targets, tests, executable, r.project_passed_iff]

/-- What a run that passed shows of a target: only a sampled rate may have missed. -/
structure Verified (t : TargetPayload) : Prop where
  tests : t.testsPass = true
  coverage : ∃ c, t.coverage = some c ∧ c.passed = true
  mutation : ∃ m, t.mutation = some m ∧
    (m.passed = true ∨ r.sampling = true ∧ m.rate < r.bindingGates.mutation)

theorem verified_of_idle {t : TargetPayload} (idle : Idle t) : r.Verified t :=
  ⟨idle.tests, idle.coverage, let ⟨m, found, passed, _⟩ := idle.mutation; ⟨m, found, .inl passed⟩⟩

theorem verified_of_miss {t : TargetPayload} (sampled : r.sampling = true)
    (sincere : Sincere r.bindingGates.mutation t) (failed : t.status = "failed")
    (miss : sampledMiss t = true) : r.Verified t := by
  obtain ⟨m, mutation, below⟩ := sincere.missed miss failed
  simp only [sampledMiss, Bool.and_eq_true] at miss
  obtain ⟨⟨⟨-, tests⟩, covered⟩, -⟩ := miss
  exact ⟨tests, (Option.any_eq_true ..).mp covered, m, mutation, .inr ⟨sampled, below⟩⟩

theorem verified_of_passed {t : TargetPayload} (sincere : Sincere r.bindingGates.mutation t)
    (passed : t.status = "passed") : r.Verified t :=
  let ⟨c, coverage, _, covered⟩ := sincere.coverage
  let ⟨m, mutation, _, killed⟩ := sincere.mutation
  ⟨sincere.tests passed, ⟨c, coverage, covered passed⟩, ⟨m, mutation, .inl (killed passed)⟩⟩

theorem results_verified (passes : r.BindingPasses) {t : TargetPayload} (member : t ∈ r.results) :
    r.Verified t := by
  rcases List.mem_append.mp member with skipped | asked
  · exact r.verified_of_idle (r.skipPayloads_idle skipped)
  have sincere := r.binding_sincere asked
  unfold BindingPasses at passes
  by_cases sampled : r.sampling = true
  · rw [if_pos sampled] at passes
    obtain ⟨passed | unnamed, -⟩ := passes
    · exact r.verified_of_passed sincere (r.binding_passed passed asked)
    · rcases sincere.status with passed | failed
      · exact r.verified_of_passed sincere passed
      · have failing : t.status ≠ "passed" := failed ▸ failed_ne_passed
        rcases failing_cases failing with miss | named | excused
        · exact r.verified_of_miss sampled sincere failed miss
        · exact absurd named (unnamed t member)
        · exact absurd excused (sincere.named failed)
  · rw [if_neg sampled] at passes
    exact r.verified_of_passed sincere (r.binding_passed passes asked)

end Run

/-! What the validator looks for. -/

/-- The plans name exact candidates of the changed lines, and no mutant was generated. -/
structure KeysWithoutMutants (changedLines : Lines) (summaries : List MutationPayload) : Prop where
  scope : aggregateScope (summaries.map (·.scope)) = some "changed_lines"
  lines : hasChangedLinePayload changedLines (mergeChangedLines (summaries.map (·.changedLines))) = true
  generated : total summaries (·.changedLineMutantsGenerated) = 0
  keys : ∃ m ∈ summaries, ∃ plan, m.candidatePlan = some plan ∧ plan.exactToolCandidateKeys ≠ []

theorem total_eq_zero {α : Type} {summaries : List α} {field : α → ℕ} :
    total summaries field = 0 ↔ ∀ x ∈ summaries, field x = 0 := by
  rw [total, List.sum_eq_zero_iff_forall_eq_nat, List.forall_mem_map]

/-- Where some target has a plan, the aggregate's plan excuses a lack of mutants exactly
if no plan names an exact key. -/
theorem aggregatePlanAllows_iff {summaries : List MutationPayload}
    (planned : ∃ m ∈ summaries, m.candidatePlan ≠ none) :
    aggregatePlanAllows (aggregateCandidatePlan summaries) = true ↔
      ¬ ∃ m ∈ summaries, ∃ plan, m.candidatePlan = some plan ∧ plan.exactToolCandidateKeys ≠ [] := by
  obtain ⟨m, member, present⟩ := planned
  obtain ⟨plan, found⟩ := Option.ne_none_iff_exists'.mp present
  have some : summaries.filterMap (·.candidatePlan) ≠ [] :=
    List.ne_nil_of_mem (List.mem_filterMap.mpr ⟨m, member, found⟩)
  rw [aggregateCandidatePlan, if_neg (by simpa only [List.isEmpty_iff] using some)]
  simp only [aggregatePlanAllows, decide_eq_true_eq, total_eq_zero, List.mem_filterMap,
    List.length_eq_zero_iff]
  grind

theorem targetPlansAllow_keys {targets : List TargetPayload}
    (allow : targetPlansAllowZeroScoredMutation targets = true) :
    ¬ ∃ m ∈ mutations targets, ∃ plan, m.candidatePlan = some plan ∧
      plan.exactToolCandidateKeys ≠ [] := by
  rintro ⟨m, member, plan, found, keys⟩
  obtain ⟨t, present, mutation⟩ := mem_mutations.mp member
  unfold targetPlansAllowZeroScoredMutation at allow
  have each := List.all_eq_true.mp (Bool.and_eq_true_iff.mp allow).2 t present
  simp only [mutation, Option.any_some, found, candidatePlanAllowsZeroScoredMutation,
    Bool.and_eq_true, List.isEmpty_iff] at each
  exact keys each.2.1.1.2

/-- Evidence whose aggregates are those of its results. -/
structure Aggregated (r : Run) (e : Evidence) (results : List TargetPayload) : Prop where
  lines : e.changedLines = r.changedLines
  coverage : e.coverage = aggregateCoverage results r.coverageGate
  mutation : mutations results ≠ [] → ∃ passed gateScope,
    e.mutation = some { mutationAggregate (mutations results) r.gates.mutationGate with
      passed, gateScope } ∧
    (passed = true ↔ r.gates.mutationGate ≤ mutationRate (mutations results))
  shown : mutations e.targetResults = mutations results

/-- The results meet the validator's gates. -/
structure Meets (r : Run) (results : List TargetPayload) : Prop where
  some : results ≠ []
  coverage : r.coverageGate ≤ coverageRate (coverages results)
  mutation : (∀ c ∈ coverages results, c.noExecutableChangedLines = true) ∨
    r.gates.mutationGate ≤ mutationRate (mutations results) ∧
      ¬ KeysWithoutMutants r.changedLines (mutations results)

theorem mutantsMissing_iff {r : Run} {e : Evidence} {results : List TargetPayload}
    (aggregated : Aggregated r e results) (passed : Bool) (gateScope : Option String)
    (planned : aggregateScope ((mutations results).map (·.scope)) = some "changed_lines" →
      ∃ m ∈ mutations results, m.candidatePlan ≠ none) :
    mutantsMissing e { mutationAggregate (mutations results) r.gates.mutationGate with
      passed, gateScope } = true ↔ KeysWithoutMutants r.changedLines (mutations results) := by
  simp only [mutantsMissing, Bool.and_eq_true, decide_eq_true_eq, Bool.not_eq_true',
    aggregated.lines]
  simp only [mutationAggregate]
  constructor
  · rintro ⟨⟨⟨⟨scope, lines⟩, generated⟩, refused⟩, -⟩
    have keys := (aggregatePlanAllows_iff (planned scope)).not.mp (Bool.eq_false_iff.mp refused)
    exact ⟨scope, lines, generated, not_not.mp keys⟩
  · intro missing
    refine ⟨⟨⟨⟨missing.scope, missing.lines⟩, missing.generated⟩, ?_⟩, ?_⟩
    · exact Bool.eq_false_iff.mpr fun allow =>
        (aggregatePlanAllows_iff (planned missing.scope)).mp allow missing.keys
    · refine Bool.eq_false_iff.mpr fun allow => targetPlansAllow_keys allow ?_
      rw [aggregated.shown]
      exact missing.keys

theorem shown_iff {r : Run} {e : Evidence} {results : List TargetPayload}
    (aggregated : Aggregated r e results) (verified : ∀ t ∈ results, r.Verified t)
    (planned : ¬ (∀ c ∈ coverages results, c.noExecutableChangedLines = true) →
      aggregateScope ((mutations results).map (·.scope)) = some "changed_lines" →
      ∃ m ∈ mutations results, m.candidatePlan ≠ none) :
    Shown e ↔ Meets r results := by
  have passed : ∀ c ∈ coverages results, c.passed = true := by
    intro c member
    obtain ⟨t, present, found⟩ := mem_coverages.mp member
    obtain ⟨d, same, passed⟩ := (verified t present).coverage
    exact Option.some.inj (found.symm.trans same) ▸ passed
  by_cases empty : results = []
  · refine ⟨fun ⟨c, found, _⟩ => ?_, fun meets => absurd empty meets.some⟩
    rw [aggregated.coverage, empty] at found
    cases found
  obtain ⟨t, present⟩ := List.exists_mem_of_ne_nil results empty
  have covered : coverages results ≠ [] := by
    obtain ⟨c, found, -⟩ := (verified t present).coverage
    exact List.ne_nil_of_mem (mem_coverages.mpr ⟨t, present, found⟩)
  have mutated : mutations results ≠ [] := by
    obtain ⟨m, found, -⟩ := (verified t present).mutation
    exact List.ne_nil_of_mem (mem_mutations.mpr ⟨t, present, found⟩)
  have coverage : e.coverage = some (coverageAggregate (coverages results) r.coverageGate) :=
    aggregated.coverage.trans (if_neg covered)
  have reaches : (coverageAggregate (coverages results) r.coverageGate).passed = true ↔
      r.coverageGate ≤ coverageRate (coverages results) :=
    (coverageAggregate_passed_iff _).trans (and_iff_right passed)
  have bare : (coverageAggregate (coverages results) r.coverageGate).noExecutableChangedLines = true ↔
      ∀ c ∈ coverages results, c.noExecutableChangedLines = true := List.all_eq_true
  obtain ⟨flag, gateScope, mutation, rate⟩ := aggregated.mutation mutated
  constructor
  · rintro ⟨c, found, reached, rest⟩
    obtain rfl := Option.some.inj (coverage.symm.trans found)
    refine ⟨empty, reaches.mp reached, ?_⟩
    by_cases all : ∀ c ∈ coverages results, c.noExecutableChangedLines = true
    · exact .inl all
    rcases rest with shown | ⟨m, found', reached', present'⟩
    · exact absurd (bare.mp shown) all
    · obtain rfl := Option.some.inj (mutation.symm.trans found')
      refine .inr ⟨rate.mp reached', fun missing => ?_⟩
      have := (mutantsMissing_iff aggregated flag gateScope (planned all)).mpr missing
      rw [present'] at this
      cases this
  · intro meets
    refine ⟨_, coverage, reaches.mpr meets.coverage, ?_⟩
    by_cases all : ∀ c ∈ coverages results, c.noExecutableChangedLines = true
    · exact .inl (bare.mpr all)
    · obtain ⟨reached, present'⟩ := meets.mutation.resolve_left all
      refine .inr ⟨_, mutation, rate.mpr reached, Bool.eq_false_iff.mpr fun missing => ?_⟩
      exact present' ((mutantsMissing_iff aggregated flag gateScope (planned all)).mp missing)

namespace Run
variable (r : Run)

theorem results_planned (verified : ∀ t ∈ r.results, r.Verified t)
    (measured : ¬ ∀ c ∈ coverages r.results, c.noExecutableChangedLines = true)
    (scope : aggregateScope ((mutations r.results).map (·.scope)) = some "changed_lines") :
    ∃ m ∈ mutations r.results, m.candidatePlan ≠ none := by
  push Not at measured
  obtain ⟨c, member, executable⟩ := measured
  obtain ⟨t, present, covered⟩ := mem_coverages.mp member
  rcases List.mem_append.mp present with skipped | asked
  · obtain ⟨m, found, -, -⟩ := (r.skipPayloads_idle skipped).mutation
    rcases (r.skipPayloads_idle skipped).bare with bare | large
    · exact absurd (bare c covered) executable
    · have summary : m ∈ mutations r.results := mem_mutations.mpr ⟨t, present, found⟩
      have stated := aggregateScope_mem scope (List.mem_map_of_mem summary)
      rw [large m found] at stated
      exact absurd stated (by decide)
  · obtain ⟨m, found, planned⟩ := r.binding_planned asked (verified t present).tests
    exact ⟨m, mem_mutations.mpr ⟨t, present, found⟩, planned⟩

theorem results_of_none (none : r.executable = []) : r.results = r.skipPayloads := by
  simp [results, bindingEvidence, enforce, none]

theorem skippedOnly_aggregated (none : r.executable = []) :
    Aggregated r r.skippedOnlyEvidence r.results := by
  rw [r.results_of_none none]
  refine ⟨rfl, rfl, fun some => ⟨_, _, if_neg some, ?_⟩, rfl⟩
  refine (mutationAggregate_passed_iff _).trans (and_iff_right fun m member => ?_)
  obtain ⟨t, present, found⟩ := mem_mutations.mp member
  obtain ⟨n, same, passed, -⟩ := (r.skipPayloads_idle present).mutation
  exact Option.some.inj (found.symm.trans same) ▸ passed

/-- The evidence of a run that the binding was asked in. -/
def projected : Evidence :=
  projectBindingEvidence r.gates r.skipPayloads r.bindingEvidence r.envelope

theorem projected_aggregated (passes : r.BindingPasses) : Aggregated r r.projected r.results := by
  have targets := mutations_projected r.gates r.skipPayloads r.bindingEvidence
  have coverage : aggregateCoverage (projectedTargets r.gates r.skipPayloads r.bindingEvidence)
      r.coverageGate = aggregateCoverage r.results r.coverageGate := by
    rw [aggregateCoverage, aggregateCoverage, coverages_projected, results]
  refine ⟨rfl, coverage, fun some => ?_, targets⟩
  have mutation : projectedMutation r.gates r.skipPayloads r.bindingEvidence =
      Option.some (if r.gates.sampling then
        { mutationAggregate (mutations r.results) r.gates.mutationGate with
          gateScope := Option.some "report"
          passed := decide (r.gates.mutationGate ≤ mutationRate (mutations r.results)) }
        else mutationAggregate (mutations r.results) r.gates.mutationGate) := by
    rw [projectedMutation, aggregateMutation, targets]
    exact congrArg _ (if_neg some)
  by_cases sampled : r.sampling = true
  · refine ⟨_, _, mutation.trans (congrArg _ (if_pos sampled)), ?_⟩
    exact decide_eq_true_iff
  · refine ⟨_, _, mutation.trans (congrArg _ (if_neg sampled)), ?_⟩
    refine (mutationAggregate_passed_iff _).trans (and_iff_right fun m member => ?_)
    obtain ⟨t, present, found⟩ := mem_mutations.mp member
    obtain ⟨n, same, passed | ⟨sample, -⟩⟩ := (r.results_verified passes present).mutation
    · exact Option.some.inj (found.symm.trans same) ▸ passed
    · exact absurd sample sampled

/-! The two judgements. -/

/-- The classification and the run agree, and what is accepted holds only targets whose
tests, coverage and mutation passed, sampled rates apart. -/
structure Agrees : Prop where
  classified : ∀ returncode, (classifyCompleted returncode (some r.evidence) r.headCommit).passed =
    r.evidence.passed
  sound : (validatePythonEnforcementEvidence r.evidence r.headCommit).passed = true →
    ∀ t ∈ r.evidence.targetResults, r.Verified t

/-- The run had nothing to verify, or its results meet the gates. -/
def Complete : Prop := r.targets = [] ∨ Meets r r.results

theorem projected_reason (passes : r.BindingPasses) (some : r.executable ≠ []) :
    r.projected.reasonCode ≠ "no_changed_python_targets" := by
  have passed := r.project_passed_iff.mpr passes
  rw [projected, (project_passed_fields _ _ _ _ passed).2, diagnosis, if_pos rfl]
  have reasons := r.binding_reason some
  simp only [List.mem_cons, List.not_mem_nil, or_false] at reasons
  rcases reasons with reason | reason | reason <;> rw [reason] <;> decide

theorem verified_reclassified {t : TargetPayload} (verified : r.Verified t) :
    r.Verified (reclassified t) := by
  refine ⟨?_, ?_, ?_⟩
  · unfold reclassified
    split <;> exact verified.tests
  · rw [reclassified_coverage]
    exact verified.coverage
  · rw [reclassified_mutation]
    exact verified.mutation

theorem projected_verified (passes : r.BindingPasses) {t : TargetPayload}
    (member : t ∈ r.projected.targetResults) : r.Verified t := by
  have present : t ∈ projectedTargets r.gates r.skipPayloads r.bindingEvidence := member
  unfold projectedTargets at present
  split at present
  · obtain ⟨u, among, rfl⟩ := List.mem_map.mp present
    exact r.verified_reclassified (r.results_verified passes among)
  · exact r.results_verified passes present

/-- What the evidence of a run that passed is, and what the validator makes of it. -/
theorem accepted_iff (passes : r.Passes) :
    ((validatePythonEnforcementEvidence r.evidence r.headCommit).passed = true ↔ r.Complete) ∧
      ∀ t ∈ r.evidence.targetResults, r.Verified t := by
  have passed := r.evidence_passed_iff.mpr passes
  obtain ⟨base, head, work⟩ := passes
  by_cases targets : r.targets = []
  · have evidence : r.evidence = { r.envelope with
        status := "passed", passed := true, reasonCode := "no_changed_python_targets"
        summary := "Python enforcement passed; no changed production Python files" } := by
      simp [Run.evidence, preflight, base, head, targets]
    rw [evidence]
    refine ⟨iff_of_true ?_ (.inl targets), fun t member => nomatch member⟩
    exact (validate_passed_iff (by simp [validateEvidenceEnvelope, envelope])).mpr (.inl rfl)
  obtain ⟨tests, rest⟩ := work.resolve_left targets
  by_cases executable : r.executable = []
  · have evidence : r.evidence = r.skippedOnlyEvidence := by
      simp [Run.evidence, preflight, base, head, targets, tests, executable]
    have verified : ∀ t ∈ r.results, r.Verified t := fun t member =>
      r.verified_of_idle (r.skipPayloads_idle (r.results_of_none executable ▸ member))
    have through : validateEvidenceEnvelope r.skippedOnlyEvidence r.headCommit = none := by
      simp [validateEvidenceEnvelope, skippedOnlyEvidence, envelope]
    have reason : r.skippedOnlyEvidence.reasonCode ≠ "no_changed_python_targets" := by
      unfold skippedOnlyEvidence
      dsimp only
      split <;> decide
    rw [evidence, validate_passed_iff through, Complete, or_iff_right reason,
      or_iff_right targets]
    refine ⟨shown_iff (r.skippedOnly_aggregated executable) verified
      (r.results_planned verified), fun t member => verified t ?_⟩
    rw [r.results_of_none executable]
    exact member
  · have binding := rest.resolve_left executable
    have evidence : r.evidence = r.projected := by
      simp [Run.evidence, preflight, base, head, targets, tests, executable, projected]
    have verified : ∀ t ∈ r.results, r.Verified t := fun t => r.results_verified binding
    have through : validateEvidenceEnvelope r.projected r.headCommit = none := by
      rw [evidence] at passed
      have status : r.projected.status = "passed" := (project_passed_fields _ _ _ _ passed).1
      unfold validateEvidenceEnvelope
      rw [status, passed]
      simp [projected, projectBindingEvidence, envelope]
    rw [evidence, validate_passed_iff through, Complete,
      or_iff_right (r.projected_reason binding executable), or_iff_right targets]
    exact ⟨shown_iff (r.projected_aggregated binding) verified (r.results_planned verified),
      fun t member => r.projected_verified binding member⟩

theorem classifyCompleted_passed (returncode : ℤ) (e : Evidence) (gitHead : String) :
    (classifyCompleted returncode (some e) gitHead).passed = true ↔
      gitHead ≠ "" ∧ (validatePythonEnforcementEvidence e gitHead).passed = true := by
  unfold classifyCompleted
  by_cases head : gitHead = ""
  · simp [head]
  · cases verdict : (validatePythonEnforcementEvidence e gitHead).passed <;> simp [head, verdict]

/-- The run is judged alike exactly where a run that passes is complete. -/
theorem agrees_iff : r.Agrees ↔ (r.Passes → r.Complete) := by
  constructor
  · intro agrees passes
    have classified := (agrees.classified 0).trans (r.evidence_passed_iff.mpr passes)
    exact (r.accepted_iff passes).1.mp ((classifyCompleted_passed 0 _ _).mp classified).2
  · intro complete
    refine ⟨fun returncode => Bool.eq_iff_iff.mpr ?_, fun accepted t member => ?_⟩
    · rw [classifyCompleted_passed, r.evidence_passed_iff]
      constructor
      · rintro ⟨-, accepted⟩
        exact r.evidence_passed_iff.mp (validateEvidenceEnvelope_none (validate_sound accepted)).2
      · intro passes
        exact ⟨passes.2.1, (r.accepted_iff passes).1.mpr (complete passes)⟩
    · have passes :=
        r.evidence_passed_iff.mp (validateEvidenceEnvelope_none (validate_sound accepted)).2
      exact (r.accepted_iff passes).2 t member

/-- One target whose only mutant was interrupted: nothing was decided, and the binding
passes it. -/
def interrupted : Run where
  baseRef := "origin/master"
  baseCommit := "base"
  headCommit := "head"
  changedLines := [("mod.py", [3])]
  targets :=
    [{ sourcePath := "mod.py", executableLines := some [3], compileOutput := none, parses := true
       candidates := [⟨.report [[(3, 1)]], ⟨Enforce.interruptedRun, {}⟩⟩] }]
  testPaths := ["tests/test_mod.py"]
  coverageGate := 80
  mutationGate := some 80
  runMutation := true
  sampling := false
  python2 := false
  maxChangedLines := 2000

theorem interrupted_rejected : interrupted.evidence.passed = true ∧
    (classifyCompleted 0 (some interrupted.evidence) "head").passed = false ∧
    ¬ interrupted.Agrees := by
  have passed : interrupted.evidence.passed = true := by decide +kernel
  have rejected : (classifyCompleted 0 (some interrupted.evidence) "head").passed = false := by
    decide +kernel
  refine ⟨passed, rejected, fun agrees => ?_⟩
  have same := agrees.classified 0
  rw [passed] at same
  exact Bool.false_ne_true (rejected.symm.trans same)

end Run

end Uta.PythonGate
