/- When the passing verdict of a sampled run is deserved. -/
import Uta.PythonGate.Projection

namespace Uta.PythonGate
open Uta.Lib

/-- The plan of the target selected work, or mutants of its changed lines were generated. -/
def RequiresMutation (m : MutationPayload) : Prop :=
  candidatePlanRequiresMutationExecution m.candidatePlan = true ∨ 0 < m.changedLineMutantsGenerated

section Verdict
variable (gate : ℚ) (skips : List TargetPayload) (evidence : BindingEvidence)

/-- What a passing verdict of a sampled run promises. -/
structure Earned : Prop where
  targets : ∀ t ∈ skips ++ evidence.targets, t.status ≠ "passed" → sampledMiss t = true
  attached : evidence.status = "passed" ∨ ∃ t ∈ evidence.targets, t.status ≠ "passed"
  scored : (∃ m ∈ mutations (skips ++ evidence.targets), RequiresMutation m) →
    0 < scoredMutants (mutations (skips ++ evidence.targets))
  rate : ¬ RateMissed gate (skips ++ evidence.targets)

/-- The run is refused: a failure that is not of the sample is named by a binding
that does not itself report a pass, or the rate misses the gate. -/
def Refused : Prop :=
  (evidence.status ≠ "passed" ∧ ∃ t ∈ skips ++ evidence.targets, NamedFailure t) ∨
    RateMissed gate (skips ++ evidence.targets)

/-- The reports that the filter reads rightly: reason codes name what failed, the
binding's status is that of its targets, and required mutants were scored. -/
structure Legible : Prop where
  named : ∀ t ∈ skips ++ evidence.targets, t.status ≠ "passed" → t.reasonCode ∉ excusedReasons
  attached : evidence.status ≠ "passed" → ∃ t ∈ evidence.targets, t.status ≠ "passed"
  agreed : evidence.status = "passed" → ∀ t ∈ skips ++ evidence.targets, ¬ NamedFailure t
  scored : (∃ m ∈ mutations (skips ++ evidence.targets), RequiresMutation m) →
    0 < scoredMutants (mutations (skips ++ evidence.targets))

variable {gate skips evidence}

theorem sampledMiss_reason {t : TargetPayload} (miss : sampledMiss t = true) :
    t.reasonCode ∉ excusedReasons := by
  simp only [sampledMiss, Bool.and_eq_true, decide_eq_true_eq] at miss
  obtain ⟨⟨⟨reason, -⟩, -⟩, -⟩ := miss
  simp only [List.mem_cons, List.not_mem_nil, or_false] at reason
  rcases reason with reason | reason <;> rw [reason] <;> decide

theorem Legible.earned (legible : Legible skips evidence)
    (accepted : evidence.status = "passed" ∨ ∀ t ∈ skips ++ evidence.targets, ¬ NamedFailure t)
    (rate : ¬ RateMissed gate (skips ++ evidence.targets)) : Earned gate skips evidence where
  targets t member failing := by
    have unnamed : ¬ NamedFailure t := accepted.elim (legible.agreed · t member) (· t member)
    rcases failing_cases failing with miss | named | excused
    · exact miss
    · exact absurd named unnamed
    · exact absurd excused (legible.named t member failing)
  attached := or_iff_not_imp_left.mpr legible.attached
  scored := legible.scored
  rate

theorem Earned.legible (earned : Earned gate skips evidence) : Legible skips evidence where
  named t member failing := sampledMiss_reason (earned.targets t member failing)
  attached := or_iff_not_imp_left.mp earned.attached
  agreed _ t member named :=
    Bool.eq_false_iff.mp named.2.1 (earned.targets t member named.1)
  scored := earned.scored

end Verdict

/-- A sampled run passes on merit alone exactly where it is refused or its reports are
legible to the filter. -/
theorem sampled_earned_iff (gates : Gates) (skips : List TargetPayload) (evidence : BindingEvidence)
    (envelope : Envelope) (sampled : gates.sampling = true) :
    ((projectBindingEvidence gates skips evidence envelope).passed = true →
        Earned gates.mutationGate skips evidence) ↔
      Refused gates.mutationGate skips evidence ∨ Legible skips evidence := by
  rw [project_sampled_passed_iff gates skips evidence envelope sampled]
  constructor
  · intro earns
    by_cases rate : RateMissed gates.mutationGate (skips ++ evidence.targets)
    · exact .inl (.inr rate)
    by_cases accepted : evidence.status = "passed" ∨
        ∀ t ∈ skips ++ evidence.targets, ¬ NamedFailure t
    · exact .inr (earns ⟨accepted, rate⟩).legible
    · push Not at accepted
      exact .inl (.inl accepted)
  · rintro refused ⟨accepted, rate⟩
    rcases refused with (⟨failed, t, member, named⟩ | missed) | legible
    · exact (accepted.elim failed fun none => none t member named).elim
    · exact absurd missed rate
    · exact legible.earned accepted rate

/-- What the binding reports of a file that it cannot parse. -/
def syntaxError : BindingEvidence where
  status := "error"
  reasonCode := "syntax_error"

/-- A target whose one sampled mutant was killed, or survived. -/
def oneMutant (killed : Bool) : TargetPayload where
  status := if killed then "passed" else "failed"
  reasonCode := if killed then "passed" else "mutation_failed"
  testsPass := true
  coverage := some { covered := 4, total := 4, passed := true }
  mutation := some
    { generated := 1
      changedLineMutantsGenerated := 1
      changedLineMutantsKilled := if killed then 1 else 0
      changedLineMutantsScored := some 1
      rate := if killed then 100 else 0
      passed := killed
      scope := "changed_lines" }

def sampledRun : BindingEvidence where
  status := "failed"
  reasonCode := "quality_gate_failed"
  targets := [oneMutant false, oneMutant true]

theorem sampledRun_earned :
    (projectBindingEvidence ⟨80, 50, true⟩ [] sampledRun
      { headCommit := "head", changedLines := [] }).passed = true ∧ Earned 50 [] sampledRun := by
  have passed : (projectBindingEvidence ⟨80, 50, true⟩ [] sampledRun
      { headCommit := "head", changedLines := [] }).passed = true := by decide +kernel
  have legible : Legible [] sampledRun :=
    { named := by decide
      attached _ := ⟨oneMutant false, by simp [sampledRun], by decide⟩
      agreed status := absurd status (by decide)
      scored _ := by decide +kernel }
  exact ⟨passed, (sampled_earned_iff ⟨80, 50, true⟩ [] sampledRun
    { headCommit := "head", changedLines := [] } rfl).mpr (.inr legible) passed⟩

/-- The failure of a file that cannot be parsed is attached to no target: the sampled
run passes. -/
theorem syntaxError_passes :
    ¬ ∀ (gates : Gates) (skips : List TargetPayload) (evidence : BindingEvidence)
      (envelope : Envelope), gates.sampling = true →
      (projectBindingEvidence gates skips evidence envelope).passed = true →
        Earned gates.mutationGate skips evidence := by
  intro always
  have earned := always ⟨80, 70, true⟩ [] syntaxError
    { headCommit := "head", changedLines := [("jobs/run.py", [1])] } rfl (by decide +kernel)
  rcases earned.attached with passed | ⟨t, member, -⟩
  · exact absurd passed (by decide)
  · cases member

end Uta.PythonGate
