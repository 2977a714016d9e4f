/- What a unit that ends with a passing verdict has shown since the last turn of the agent. -/
import Uta.Cycle.Turns

namespace Uta.Cycle.Java
open Uta.Lib

/-! The trail. -/

/-- The states that a run has left, with the answers that they met. -/
abbrev Trail := List (State × Answer)

/-- A step that keeps the trail since the last turn. -/
def watch (setting : Setting) (x : State × Trail) (a : Answer) : State × Trail :=
  (step setting x.1 a, if x.1.node.isTurn then [] else x.2 ++ [(x.1, a)])

theorem watch_state (setting : Setting) (x : State × Trail) (answers : List Answer) :
    (run (watch setting) x answers).1 = run (step setting) x.1 answers := by
  induction answers generalizing x with
  | nil => rfl
  | cons a answers ih => rw [run_cons, run_cons, ih, watch]

variable (setting : Setting)

/-- `verify_tests` has found the suite green. -/
def Tested (trail : Trail) : Prop :=
  ∃ x ∈ trail, x.1.node = .run .verifyTests ∧ x.2.testsPass = true

/-- `measure_coverage` has found every class of the batch at the gate. -/
def Covered (trail : Trail) : Prop :=
  ∃ x ∈ trail, x.1.node = .run .measureCoverage ∧ x.2.jacocoTestsPass = true ∧
    x.2.jacocoReport = true ∧ ∀ fqn ∈ setting.batch, (setting.coverageGate : ℚ) ≤ x.2.line fqn

/-- PIT has reported on a class, whose score is at the gate or no mutant of which survived. -/
def Pit.Clears (gate : ℤ) : Pit → Prop
  | .report score survived => (gate : ℚ) ≤ score ∨ survived = 0
  | _ => False

/-- `measure_mutation` is off, or has found every class of the batch clear. -/
def Mutated (trail : Trail) : Prop :=
  setting.mutationGate ≤ 0 ∨
    ∃ x ∈ trail, x.1.node = .run .measureMutation ∧
      ∀ fqn ∈ setting.batch, (x.2.pit fqn).Clears setting.mutationGate

/-- The precheck has found the delegated gate failing, and no repair has been tried. -/
def State.Prechecked (s : State) : Prop :=
  s.attempts .delegatedQualityGate = 0 ∧ ∃ gate, s.precheckGate = some gate ∧ gate.passed = false

section Grows
variable {setting} {trail : Trail} (x : State × Trail) (y : State × Answer)

theorem Tested.append (tested : Tested trail) : Tested (trail ++ [y]) := by
  obtain ⟨x, member, there, green⟩ := tested
  exact ⟨x, List.mem_append_left _ member, there, green⟩

theorem Covered.append (covered : Covered setting trail) : Covered setting (trail ++ [y]) := by
  obtain ⟨x, member, there, measured⟩ := covered
  exact ⟨x, List.mem_append_left _ member, there, measured⟩

theorem Mutated.append (mutated : Mutated setting trail) : Mutated setting (trail ++ [y]) := by
  rcases mutated with off | ⟨x, member, there, clear⟩
  · exact .inl off
  · exact .inr ⟨x, List.mem_append_left _ member, there, clear⟩

end Grows

/-! The verdicts that pass. -/

section Verdicts
variable {setting : Setting} {a : Answer} {s : State}

variable (setting a s) in
/-- The policy keeps a verdict, or turns it into a review or a failure. -/
theorem settle_verdict (c : Check) (outcome : PhaseOutcome) (evidence : Generation.Evidence ℚ) :
    (settle setting a c s outcome evidence).1 ∈ [outcome, .reviewEquivalence, .failed] := by
  unfold settle
  dsimp only
  split_ifs <;> simp

theorem verifyTests_moves (moves : (verifyTests setting a s).1 = .passed ∨
    (verifyTests setting a s).1 = .delegated) : a.testsPass = true := by
  by_contra red
  rw [verifyTests, if_neg red] at moves
  split_ifs at moves <;> simp at moves

theorem measureCoverage_passed (passed : (measureCoverage setting a s).1 = .passed) :
    a.jacocoTestsPass = true ∧ a.jacocoReport = true ∧
      ∀ fqn ∈ setting.batch, (setting.coverageGate : ℚ) ≤ a.line fqn := by
  rw [measureCoverage] at passed
  split_ifs at passed with _ red all
  · simp only [not_or, Bool.not_eq_false] at red
    refine ⟨red.1, red.2, fun fqn member => ?_⟩
    have kept := List.filter_eq_nil_iff.mp all fqn member
    simpa using kept
  · have stays := settle_verdict setting a s .measureCoverage .repair
      { scoresByTarget := reportedScores (uncovered setting a) a.line
        failureReason := some "coverage_below_gate" }
    rw [passed] at stays
    simp at stays

/-- What is measured passes, is repaired or reviewed, or fails: it is never skipped. -/
theorem Measured.outcome {c : Check} {w : Work} {r : Return} (measured : Measured setting a s c w r) :
    r.1 ∈ [PhaseOutcome.passed, .repair, .reviewEquivalence, .failed] := by
  obtain ⟨outcome, evidence, _, verdict, _, _, rfl⟩ := measured
  have stays := settle_verdict setting a s c outcome evidence
  rcases verdict with rfl | rfl <;>
    simp only [List.mem_cons, List.not_mem_nil, or_false] at stays ⊢ <;> tauto

variable (setting a s) in
theorem measureCoverage_verdict : (measureCoverage setting a s).1 ∈
    [PhaseOutcome.passed, .repair, .reviewEquivalence, .failed] := by
  rcases measureCoverage_cases setting a s with failed | measured
  · simp [failed]
  · exact measured.outcome

variable (setting a s) in
theorem measureMutation_verdict : (measureMutation setting a s).1 ∈
    [PhaseOutcome.passed, .repair, .reviewEquivalence, .failed, .skipped, .testsFailed] := by
  rcases measureMutation_cases setting a s with failed | skipped | ⟨red, _⟩ | measured
  · simp [failed]
  · simp [skipped]
  · simp [red]
  · exact List.mem_append_left [.skipped, .testsFailed] measured.outcome

theorem clears_of_measured (reported : unreported setting a = none) (clear : surviving setting a = [])
    {fqn : String} (member : fqn ∈ setting.batch) : (a.pit fqn).Clears setting.mutationGate := by
  have found := List.find?_eq_none.mp reported _ (List.mem_map_of_mem member)
  have kept := List.filter_eq_nil_iff.mp clear fqn member
  cases answer : a.pit fqn with
  | report score survived =>
      rw [answer] at kept
      by_cases below : score < (setting.mutationGate : ℚ)
      · right
        simpa [below] using kept
      · exact .inl (not_lt.mp below)
  | redSuite | failed | noReport =>
      rw [answer] at found
      exact absurd rfl found

theorem measureMutation_moves (moves : (measureMutation setting a s).1 = .passed ∨
    (measureMutation setting a s).1 = .skipped) : setting.mutationGate ≤ 0 ∨
      ∀ fqn ∈ setting.batch, (a.pit fqn).Clears setting.mutationGate := by
  by_cases off : setting.mutationGate ≤ 0
  · exact .inl off
  right
  by_cases empty : setting.batch = []
  · simp [empty]
  rw [measureMutation, if_neg empty, if_neg off] at moves
  cases reported : unreported setting a with
  | some pit =>
      rw [reported] at moves
      cases pit <;> simp at moves
  | none =>
      rw [reported] at moves
      dsimp only at moves
      by_cases clear : surviving setting a = []
      · exact fun fqn member => clears_of_measured reported clear member
      · rw [if_neg clear, if_neg clear] at moves
        have stays := settle_verdict setting a s .measureMutation .repair
          { scoresByTarget := reportedScores (surviving setting a) (pitScore a)
            failureReason := some "mutation_below_gate" }
        rcases moves with moves | moves <;> rw [moves] at stays <;> simp at stays

variable (setting a s) in
theorem repairGate_stays (gate : GateResult) : (repairGate setting a s gate).1 ∈
    [PhaseOutcome.repair, .reviewEquivalence, .failed] := by
  unfold repairGate
  split_ifs
  · exact settle_verdict setting a s _ _ _
  · simp

/-- The delegated gate passes where it is passed now, and no failure that the precheck found on
the same batch is left unanswered. -/
theorem verifyDelegated_moves (moves : (verifyDelegatedQualityGate setting a s).1 = .passed ∨
    (verifyDelegatedQualityGate setting a s).1 = .skipped) (on : setting.mavenEnforcer = true) :
    a.gate.passed = true ∧ unresolvedAuthoritativeFailure s = none := by
  have refuse : ∀ gate, ¬ ((repairGate setting a s gate).1 = .passed ∨
      (repairGate setting a s gate).1 = .skipped) := by
    intro gate passes
    have stays := repairGate_stays setting a s gate
    rcases passes with passes | passes <;> rw [passes] at stays <;> simp at stays
  rw [verifyDelegatedQualityGate, if_neg (not_not.mpr on)] at moves
  split_ifs at moves with empty passed
  · simp at moves
  · cases found : unresolvedAuthoritativeFailure s with
    | none => exact ⟨passed, rfl⟩
    | some gate =>
        rw [found] at moves
        exact absurd moves (refuse gate)
  · exact absurd moves (refuse _)

theorem classPasses_iff {fqn : String} : classPasses setting a fqn = true ↔
    (a.existing fqn).surefirePassed = true ∧ (setting.coverageGate : ℚ) ≤ (a.existing fqn).line ∧
      (setting.mutationGate ≤ 0 ∨ ∃ score survived, (a.existing fqn).pit = .report score survived ∧
        (setting.mutationGate : ℚ) ≤ score) := by
  unfold classPasses
  cases (a.existing fqn).pit <;> simp [and_assoc]

/-- A passing verdict ends the cycle at the precheck, or at the verification of the gate. -/
theorem passing_ends {c : Check} (ends : c.route (runPhase setting a s c).1 = complete)
    (passes : (runPhase setting a s c).1 ∈ [PhaseOutcome.passed, .skipped, .skipTarget]) :
    c = .precheckExistingTests ∧ (precheckExistingTests setting a s).1 = .skipTarget ∨
    c = .delegatedQualityGateVerify ∧ ((verifyDelegatedQualityGate setting a s).1 = .passed ∨
      (verifyDelegatedQualityGate setting a s).1 = .skipped) := by
  cases c with
  | precheckExistingTests =>
      change (precheckExistingTests setting a s).1 ∈ _ at passes
      rcases (precheck_verdict setting a s).2 with h | h | h | ⟨h, _⟩
      · simp [h] at passes
      · exact .inl ⟨rfl, h⟩
      · simp [h] at passes
      · simp [h] at passes
  | verifyCompile =>
      change Check.route _ (verifyCompile setting a s).1 = _ at ends
      change (verifyCompile setting a s).1 ∈ _ at passes
      rcases (verifyCompile_verdict setting a s).2 with h | h | ⟨h, _⟩
      · simp [h] at passes
      · rw [h] at ends
        cases ends
      · simp [h] at passes
  | verifyTests =>
      change Check.route _ (verifyTests setting a s).1 = _ at ends
      change (verifyTests setting a s).1 ∈ _ at passes
      rcases (verifyTests_verdict setting a s).2 with h | h | ⟨h, _⟩
      · simp [h] at passes
      · rw [h] at ends
        split_ifs at ends <;> cases ends
      · simp [h] at passes
  | measureCoverage =>
      change Check.route _ (measureCoverage setting a s).1 = _ at ends
      change (measureCoverage setting a s).1 ∈ _ at passes
      have measured := measureCoverage_verdict setting a s
      simp only [List.mem_cons, List.not_mem_nil, or_false] at passes
      rcases passes with h | h | h <;> rw [h] at ends measured
      · cases ends
      · simp at measured
      · simp at measured
  | measureMutation =>
      change Check.route _ (measureMutation setting a s).1 = _ at ends
      change (measureMutation setting a s).1 ∈ _ at passes
      have measured := measureMutation_verdict setting a s
      simp only [List.mem_cons, List.not_mem_nil, or_false] at passes
      rcases passes with h | h | h <;> rw [h] at ends measured
      · cases ends
      · cases ends
      · simp at measured
  | delegatedQualityGateVerify =>
      change (verifyDelegatedQualityGate setting a s).1 ∈ _ at passes
      rcases verifyDelegatedQualityGate_cases setting a s with h | h | h | ⟨_, measured⟩
      · simp [h] at passes
      · exact .inr ⟨rfl, .inr (by rw [h])⟩
      · exact .inr ⟨rfl, .inl (by rw [h])⟩
      · have outcome := measured.outcome
        refine .inr ⟨rfl, ?_⟩
        simp only [List.mem_cons, List.not_mem_nil, or_false] at passes outcome
        rcases outcome with h | h | h | h
        · exact .inl h
        all_goals simp [h] at passes
  | completeGeneration => cases ends

end Verdicts

/-! Runs. -/

/-- What a node rests on. -/
def Backs (s : State) (trail : Trail) : Node → Prop
  | .reconcile .precheckExistingTests | .run .precheckExistingTests =>
    s.attempts .delegatedQualityGate = 0
  | .reconcile .measureCoverage | .run .measureCoverage => Tested trail
  | .reconcile .measureMutation | .run .measureMutation => Tested trail ∧ Covered setting trail
  | .reconcile .delegatedQualityGateVerify | .run .delegatedQualityGateVerify =>
    if setting.mavenEnforcer then Tested trail ∨ s.Prechecked
    else Tested trail ∧ Covered setting trail ∧ Mutated setting trail
  | _ => True

def Backed (x : State × Trail) : Prop := Backs setting x.1 x.2 x.1.node

/-- A phase that ends the cycle with a passing verdict. -/
def Succeeds (s : State) (a : Answer) : Prop :=
  ∃ c, s.node = .run c ∧ c.route (runPhase setting a s c).1 = complete ∧
    (runPhase setting a s c).1 ∈ [PhaseOutcome.passed, .skipped, .skipTarget]

/-- What the existing tests have shown: the delegated gate passes, or every class has a green test
file at both gates. -/
def ExistingSuffices (a : Answer) : Prop :=
  if setting.ciIncremental = true ∧ setting.mavenEnforcer = true then a.gate.passed = true
  else a.existingTestsPass = true ∧ a.existingReport = true ∧ ∀ fqn ∈ setting.batch,
    (a.existing fqn).testFile = true ∧ (a.existing fqn).surefirePassed = true ∧
      (setting.coverageGate : ℚ) ≤ (a.existing fqn).line ∧
      (setting.mutationGate ≤ 0 ∨
        ∃ score survived, (a.existing fqn).pit = .report score survived ∧
          (setting.mutationGate : ℚ) ≤ score)

/-- What the tests of the unit have shown since the last turn, by the backend of the gate. -/
def TurnSuffices (x : State × Trail) (a : Answer) : Prop :=
  if setting.mavenEnforcer then
    a.gate.passed = true ∧
      (Tested x.2 ∨ ∃ gate, x.1.precheckGate = some gate ∧ gate.matchesBatch = false)
  else Tested x.2 ∧ Covered setting x.2 ∧ Mutated setting x.2

section Runs
variable {setting}

theorem precheck_suffices {s : State} {a : Answer}
    (skips : (precheckExistingTests setting a s).1 = .skipTarget) : ExistingSuffices setting a := by
  unfold precheckExistingTests at skips
  unfold ExistingSuffices
  split_ifs at skips with empty enforced passed enough
  · rwa [if_pos enforced]
  · rw [if_neg enforced]
    obtain ⟨files, green, report, classes⟩ := enough
    refine ⟨green, report, fun fqn member => ?_⟩
    have file := List.all_eq_true.mp files fqn member
    obtain ⟨green', line, pit⟩ := classPasses_iff.mp (List.all_eq_true.mp classes fqn member)
    exact ⟨file, green', line, pit⟩

theorem interpreted_backs (s : State) (trail : Trail) (w : Work) (outcome : PhaseOutcome) :
    Backs setting s trail (w.route outcome) := by
  cases w <;> cases outcome <;> exact trivial

theorem run_backs {s : State} {trail : Trail} {c : Check} (a : Answer) (here : s.node = .run c)
    (backed : Backs setting s trail (.run c)) :
    Backs setting (runPhase setting a s c).2 (trail ++ [(s, a)])
      (c.route (runPhase setting a s c).1) := by
  have kept : ∀ w, (runPhase setting a s c).2.attempts w = s.attempts w :=
    attempts_of_frame (runPhase_frame setting a s c)
  have latest : (s, a) ∈ trail ++ [(s, a)] := List.mem_append_right _ List.mem_cons_self
  cases c with
  | precheckExistingTests =>
      show Backs _ (precheckExistingTests setting a s).2 _ (Check.route _ (precheckExistingTests setting a s).1)
      have unspent : s.attempts .delegatedQualityGate = 0 := backed
      unfold precheckExistingTests
      split_ifs with _ enforced failing
      · exact trivial
      · exact trivial
      · show if setting.mavenEnforcer then _ else _
        rw [if_pos enforced.2]
        exact .inr ⟨unspent, a.gate, rfl, by simpa using failing⟩
      · exact trivial
      · exact trivial
  | verifyCompile =>
      show Backs _ _ _ (Check.route _ (verifyCompile setting a s).1)
      cases (verifyCompile setting a s).1 <;> exact trivial
  | verifyTests =>
      show Backs _ _ _ (Check.route _ (verifyTests setting a s).1)
      have tested : (verifyTests setting a s).1 = .passed ∨ (verifyTests setting a s).1 = .delegated →
          Tested (trail ++ [(s, a)]) := fun moves => ⟨_, latest, here, verifyTests_moves moves⟩
      cases verdict : (verifyTests setting a s).1 with
      | passed => exact tested (.inl verdict)
      | delegated =>
          have on : setting.mavenEnforcer = true := by
            rw [verifyTests] at verdict
            split_ifs at verdict with _ _ on
            exact on
          show if setting.mavenEnforcer then _ else _
          rw [if_pos on]
          exact .inl (tested (.inr verdict))
      | _ => exact trivial
  | measureCoverage =>
      show Backs _ _ _ (Check.route _ (measureCoverage setting a s).1)
      have tested : Tested trail := backed
      have measured := measureCoverage_verdict setting a s
      cases verdict : (measureCoverage setting a s).1 with
      | passed => exact ⟨tested.append _, _, latest, here, measureCoverage_passed verdict⟩
      | «continue» | skipped =>
          rw [verdict] at measured
          simp at measured
      | _ => exact trivial
  | measureMutation =>
      obtain ⟨tested, covered⟩ : Tested trail ∧ Covered setting trail := backed
      show Backs _ _ _ (Check.route _ (measureMutation setting a s).1)
      have moved : ∀ s', (measureMutation setting a s).1 = .passed ∨
          (measureMutation setting a s).1 = .skipped →
          Backs setting s' (trail ++ [(s, a)]) (.reconcile .delegatedQualityGateVerify) := by
        intro s' moves
        have mutated : Mutated setting (trail ++ [(s, a)]) :=
          (measureMutation_moves moves).imp id fun clear => ⟨_, latest, here, clear⟩
        show if setting.mavenEnforcer then _ else _
        split_ifs
        · exact .inl (tested.append _)
        · exact ⟨tested.append _, covered.append _, mutated⟩
      cases verdict : (measureMutation setting a s).1 with
      | passed => exact moved _ (.inl verdict)
      | skipped => exact moved _ (.inr verdict)
      | _ => exact trivial
  | delegatedQualityGateVerify =>
      show Backs _ _ _ (Check.route _ (verifyDelegatedQualityGate setting a s).1)
      cases (verifyDelegatedQualityGate setting a s).1 <;> exact trivial
  | completeGeneration => exact trivial

theorem watch_backed (x : State × Trail) (a : Answer) (backed : Backed setting x) :
    Backed setting (watch setting x a) := by
  obtain ⟨s, trail⟩ := x
  unfold Backed at backed ⊢
  rw [watch]
  dsimp only at backed ⊢
  cases here : s.node with
  | reconcile c =>
      rw [step_reconcile here]
      rw [here] at backed
      cases c with
      | measureCoverage => exact Tested.append _ backed
      | measureMutation => exact ⟨backed.1.append _, backed.2.append _⟩
      | delegatedQualityGateVerify =>
          unfold Backs at backed
          show if setting.mavenEnforcer then _ else _
          by_cases on : setting.mavenEnforcer = true
          · rw [if_pos on] at backed ⊢
            exact backed.imp (Tested.append _) id
          · rw [if_neg on] at backed ⊢
            exact ⟨backed.1.append _, backed.2.1.append _, backed.2.2.append _⟩
      | precheckExistingTests => exact backed
      | _ => exact trivial
  | run c =>
      rw [step_run here]
      rw [here] at backed
      exact run_backs a here backed
  | interpret w =>
      rw [step_interpret here]
      exact interpreted_backs _ _ w _
  | turn w =>
      unfold step
      rw [here]
      cases cancelled : a.turn.cancelled <;> simp only [Work.turnRoute] <;> exact trivial
  | turnReconcile w | prompt w | interpretReconcile w | terminateGeneration =>
      unfold step
      rw [here]
      exact trivial
  | rehydrate c | turnRehydrate w | resultRehydrate w | pauseGeneration | ended =>
      have still : step setting s a = s := by rw [step, here]
      rw [still, here]
      exact trivial

theorem start_backed (maximums : Work → ℕ) : Backed setting (State.start maximums, []) := by
  show (State.start maximums).attempts .delegatedQualityGate = 0
  rfl

end Runs

/-- A green suite that kills every mutant at nine tenths of the lines. -/
def greenAnswer : Answer where
  line := fun _ => 90
  pit := fun _ => .report 100 0

def sampleSetting : Setting where
  batch := ["com.acme.A"]
  coverageGate := 80
  mutationGate := 60

end Uta.Cycle.Java
