/- Whether a Python gate failed on its mutation score alone: the flags that are read in the evidence
of a run, and the failures that no entry and no aggregate of it shows. -/
import Uta.Enforce.Grant
import Uta.PythonGate.Agreement

namespace Uta.PythonGate
open Uta.Lib Uta.Enforce

/-- What the flags read of a result. -/
structure GateResult where
  passed : Bool
  evidence : Option Evidence

/-- `python_gate_failure_flags`. -/
def pythonGateFailureFlags (result : GateResult) : Option GateFlags :=
  match result.evidence with
  | none => none
  | some e =>
    match e.coverage, e.mutation with
    | some coverage, some mutation =>
      if e.targetResults.isEmpty then none
      else
        let testsPassed := e.targetResults.all (·.testsPass)
        let coveragePassed := coverage.passed
        some {
          testsPassed
          coveragePassed
          mutationOnlyFailure :=
            testsPassed && coveragePassed && !mutation.passed && !result.passed }
    | _, _ => none

/-- What the answer goes by. -/
theorem mutationOnly_read (result : GateResult) :
    (pythonGateFailureFlags result).any GateFlags.mutationOnlyFailure = true ↔
      ∃ e, result.evidence = some e ∧ e.targetResults ≠ [] ∧
        (∀ t ∈ e.targetResults, t.testsPass = true) ∧ e.coverage.any (·.passed) = true ∧
        e.mutation.any (!·.passed) = true ∧ result.passed = false := by
  unfold pythonGateFailureFlags
  cases result.evidence with
  | none => simp
  | some e =>
      cases coverage : e.coverage with
      | none => simp [coverage]
      | some c =>
          cases mutation : e.mutation with
          | none => simp [mutation]
          | some m =>
              by_cases empty : e.targetResults = []
              · simp [coverage, mutation, empty]
              · simp [coverage, mutation, empty, and_assoc]

namespace Run
variable (r : Run)

/-- The gate result of a run, as the runner classifies it. -/
def gateResult (returncode : ℤ) (gitHead : String) : GateResult where
  passed := (classifyCompleted returncode (some r.evidence) gitHead).passed
  evidence := some r.evidence

/-! What the flags are to tell. -/

/-- The coverage gate is met, by each target and by all of them. -/
def Covered : Prop :=
  (∀ c ∈ coverages r.results, c.passed = true) ∧ r.coverageGate ≤ coverageRate (coverages r.results)

/-- The mutation gate is missed: by the rate of the run, or, where it is no sample, by a target. -/
def MutationMissed : Prop :=
  RateMissed r.gates.mutationGate r.results ∨
    r.sampling = false ∧ ∃ m ∈ mutations r.results, m.passed = false

/-- A source cannot be parsed, so that no target is verified. -/
def ParseFails : Prop :=
  (!r.python2 && r.executable.any fun t => decide (t.sourcePath ≠ "") && !t.parses) = true

/-- The walk over the candidates of a target tries one: none before it passes. -/
def Tries (t : Target) (c : CandidateTest) : Prop :=
  ∃ before after, t.candidates = before ++ c :: after ∧ ∀ d ∈ before,
    (candidateEvidence r.bindingGates (r.changed t) t.sourcePath d).status ≠ "passed"

/-- The tests of a candidate that is tried fail. -/
def TestsFail (t : Target) : Prop := ∃ c, r.Tries t c ∧ c.coverage = .testsFailed

/-- A mutation score was missed, and nothing else failed in any target. -/
structure MutationAlone : Prop where
  missed : r.MutationMissed
  green : ∀ t ∈ r.results, t.testsPass = true
  tried : ∀ t ∈ r.executable, ¬ r.TestsFail t
  parsed : ¬ r.ParseFails
  scored : ∀ t ∈ r.results, t.reasonCode ∉ stageReasons
  covered : r.Covered

/-- Something failed that no entry and no aggregate shows as a failure of tests or coverage. -/
def Unseen : Prop :=
  r.ParseFails ∨ (∃ t ∈ r.executable, r.TestsFail t) ∨ ∃ t ∈ r.results, t.reasonCode ∈ stageReasons

/-- An entry or an aggregate keeps the failure from being put down to the mutation score, or the
run shows no miss, or no failure, to put there. -/
def Withheld (returncode : ℤ) (gitHead : String) : Prop :=
  r.preflight ≠ none ∨ r.results = [] ∨ (∃ t ∈ r.results, t.testsPass = false) ∨ ¬ r.Covered ∨
    ¬ r.MutationMissed ∨ (classifyCompleted returncode (some r.evidence) gitHead).passed = true

/-! The evidence of a run. -/

theorem preflight_bare {e : Evidence} (refused : r.preflight = some e) : e.coverage = none := by
  unfold preflight at refused
  split_ifs at refused <;> obtain rfl := Option.some.inj refused <;> rfl

@[simp] theorem reclassified_testsPass (t : TargetPayload) :
    (reclassified t).testsPass = t.testsPass := by
  unfold reclassified
  split <;> rfl

theorem coverage_any {targets : List TargetPayload} {gate : ℚ} (some_ : coverages targets ≠ []) :
    (aggregateCoverage targets gate).any (·.passed) = true ↔
      (∀ c ∈ coverages targets, c.passed = true) ∧ gate ≤ coverageRate (coverages targets) := by
  rw [aggregateCoverage, if_neg some_, Option.any_some, coverageAggregate_passed_iff]

theorem mutation_any {targets : List TargetPayload} {gate : ℚ} :
    (aggregateMutation targets gate).any (!·.passed) = true ↔
      RateMissed gate targets ∨ ∃ m ∈ mutations targets, m.passed = false := by
  unfold aggregateMutation RateMissed
  split
  · rename_i empty
    simp [empty]
  · rename_i some_
    rw [Option.any_some, Bool.not_eq_true', ← Bool.not_eq_true, mutationAggregate_passed_iff,
      not_and_or, not_le, or_comm, and_iff_right some_]
    simp only [not_forall, exists_prop, Bool.not_eq_true]

/-- Every result has its two summaries. -/
theorem results_summarized {t : TargetPayload} (member : t ∈ r.results) :
    (∃ c, t.coverage = some c) ∧ ∃ m, t.mutation = some m := by
  rcases List.mem_append.mp member with skipped | asked
  · have idle := r.skipPayloads_idle skipped
    obtain ⟨c, covered, _⟩ := idle.coverage
    obtain ⟨m, mutated, _⟩ := idle.mutation
    exact ⟨⟨c, covered⟩, m, mutated⟩
  · have sincere := r.binding_sincere asked
    obtain ⟨c, covered, _⟩ := sincere.coverage
    obtain ⟨m, mutated, _⟩ := sincere.mutation
    exact ⟨⟨c, covered⟩, m, mutated⟩

/-- What the flags read in the evidence is what the results come to. -/
structure Shows (e : Evidence) : Prop where
  empty : e.targetResults = [] ↔ r.results = []
  tests : (∀ t ∈ e.targetResults, t.testsPass = true) ↔ ∀ t ∈ r.results, t.testsPass = true
  coverage : e.coverage = aggregateCoverage r.results r.coverageGate
  mutation : e.mutation.any (!·.passed) = true ↔ r.MutationMissed

theorem skippedOnly_shows (none_ : r.executable = []) : r.Shows r.skippedOnlyEvidence := by
  have results := r.results_of_none none_
  have passed : ¬ ∃ m ∈ mutations r.results, m.passed = false := by
    rintro ⟨m, member, failed⟩
    obtain ⟨t, present, found⟩ := mem_mutations.mp member
    obtain ⟨n, same, passed, _⟩ := (r.skipPayloads_idle (results ▸ present)).mutation
    rw [Option.some.inj (found.symm.trans same), passed] at failed
    cases failed
  refine ⟨by rw [results]; rfl, by rw [results]; rfl, by rw [results]; rfl, ?_⟩
  have read : r.skippedOnlyEvidence.mutation =
      aggregateMutation r.results r.gates.mutationGate := by
    rw [results]
    rfl
  rw [read, mutation_any, MutationMissed, or_iff_left passed, or_iff_left fun both => passed both.2]

theorem projected_shows : r.Shows r.projected := by
  have coverage : aggregateCoverage (projectedTargets r.gates r.skipPayloads r.bindingEvidence)
      r.coverageGate = aggregateCoverage r.results r.coverageGate := by
    rw [aggregateCoverage, aggregateCoverage, coverages_projected, results]
  have targets : r.projected.targetResults =
      if r.sampling then r.results.map reclassified else r.results := rfl
  refine ⟨?_, ?_, coverage, ?_⟩
  · rw [targets]
    split <;> simp
  · rw [targets]
    split <;> simp
  · have read : r.projected.mutation =
        projectedMutation r.gates r.skipPayloads r.bindingEvidence := rfl
    rw [read, MutationMissed]
    by_cases sampled : r.sampling = true
    · have missed := aggregateMissed_iff r.gates r.skipPayloads r.bindingEvidence
      have own : r.gates.sampling = true := sampled
      rw [aggregateMissed, own, Bool.true_and] at missed
      rw [missed, sampled, and_iff_right rfl]
      simp [results]
    · have off : r.sampling = false := Bool.not_eq_true _ ▸ sampled
      have full : r.gates.sampling = false := off
      have plain_ : projectedMutation r.gates r.skipPayloads r.bindingEvidence =
          aggregateMutation r.results r.gates.mutationGate := by
        rw [projectedMutation, full, projectedTargets, full]
        simp [results]
      rw [plain_, mutation_any, and_iff_right off]

/-- The answer puts the failure down to the mutation score where tests and coverage passed in
every entry, and the mutation gate was missed. -/
theorem mutationOnly_iff (returncode : ℤ) (gitHead : String) :
    (pythonGateFailureFlags (r.gateResult returncode gitHead)).any
        GateFlags.mutationOnlyFailure = true ↔
      r.preflight = none ∧ r.results ≠ [] ∧ (∀ t ∈ r.results, t.testsPass = true) ∧ r.Covered ∧
        r.MutationMissed ∧ (r.gateResult returncode gitHead).passed = false := by
  have read := mutationOnly_read (r.gateResult returncode gitHead)
  have own : ∀ {p : Evidence → Prop}, (∃ e, (r.gateResult returncode gitHead).evidence = some e ∧
      p e) ↔ p r.evidence := by
    intro p
    simp [gateResult]
  rw [read, own]
  cases check : r.preflight with
  | some e =>
      have refused : r.evidence = e := by rw [evidence, check]
      rw [refused, r.preflight_bare check]
      simp
  | none =>
      have shows_ : r.Shows r.evidence := by
        rw [evidence, check]
        dsimp only
        split
        · rename_i none_
          exact r.skippedOnly_shows none_
        · exact r.projected_shows
      rw [shows_.tests, shows_.mutation, shows_.coverage, Ne, shows_.empty, and_iff_right rfl]
      refine and_congr_right fun some_ => and_congr_right fun _ => and_congr_left fun _ => ?_
      obtain ⟨t, present⟩ := List.exists_mem_of_ne_nil _ some_
      obtain ⟨⟨c, found⟩, _⟩ := r.results_summarized present
      exact coverage_any (List.ne_nil_of_mem (mem_coverages.mpr ⟨t, present, found⟩))

/-- The answer is right exactly where nothing failed unseen, or where it is withheld. -/
theorem mutationOnly_right_iff (returncode : ℤ) (gitHead : String) :
    ((pythonGateFailureFlags (r.gateResult returncode gitHead)).any
        GateFlags.mutationOnlyFailure = true → r.MutationAlone) ↔
      ¬ r.Unseen ∨ r.Withheld returncode gitHead := by
  rw [mutationOnly_iff, Withheld]
  constructor
  · intro right
    by_contra none_
    simp only [not_or, not_not, not_exists, not_and, Bool.not_eq_false, Bool.not_eq_true] at none_
    obtain ⟨unseen, open_, some_, green, covered, missed, failed⟩ := none_
    have alone := right ⟨open_, some_, green, covered, missed, failed⟩
    rcases unseen with parse | ⟨t, own, tests⟩ | ⟨t, own, stage⟩
    · exact alone.parsed parse
    · exact alone.tried t own tests
    · exact alone.scored t own stage
  · rintro cases_ ⟨open_, some_, green, covered, missed, failed⟩
    rcases cases_ with seen | refused | empty | ⟨t, own, red⟩ | uncovered | met | passed
    · obtain ⟨parsed, rest⟩ := not_or.mp seen
      obtain ⟨tried, scored⟩ := not_or.mp rest
      exact ⟨missed, green, fun t own tests => tried ⟨t, own, tests⟩, parsed,
        fun t own stage => scored ⟨t, own, stage⟩, covered⟩
    · exact absurd open_ refused
    · exact absurd empty some_
    · rw [green t own] at red
      cases red
    · exact absurd covered uncovered
    · exact absurd missed met
    · exact absurd (passed.symm.trans failed) (by decide)

end Run

end Uta.PythonGate
