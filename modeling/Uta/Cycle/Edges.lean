/- What one node of a crash-free run can do: the branches that the Java backend takes, and
the attempt that each of them needs. -/
import Uta.Cycle.Java

namespace Uta.Cycle.Java
open Uta.Lib.Marks
open Uta.Generation

/-! Attempts. -/

@[simp] theorem attempts_spend_self (s : State) (w : Work) : (s.spend w).attempts w = s.attempts w + 1 := by
  simp [State.spend, State.attempts, CycleState.attempts]

theorem phase_injective {v w : Work} (same : v.phase = w.phase) : v = w := by
  cases v <;> cases w <;> first | rfl | exact absurd same (by decide)

theorem phase_ne_check (w : Work) (c : Check) : w.phase ≠ c.phase := by
  cases w <;> cases c <;> decide

theorem attempts_spend_of_ne (s : State) {v w : Work} (other : v ≠ w) :
    (s.spend w).attempts v = s.attempts v := by
  have names : v.phase ≠ w.phase := fun same => other (phase_injective same)
  simp [State.spend, State.attempts, CycleState.attempts, AList.lookup_insert_ne names]

/-- The advance of the verification phases leaves the attempts of the others. -/
theorem lookup_advance (attempts : Named ℤ) (w : Work) :
    (advanceVerificationAttempts attempts).lookup w.phase = attempts.lookup w.phase := by
  unfold advanceVerificationAttempts
  generalize invalidatedByRepair = cs
  induction cs generalizing attempts with
  | nil => rfl
  | cons c cs ih =>
      rw [List.foldl_cons, ih]
      exact AList.lookup_insert_ne (phase_ne_check w c)

@[simp] theorem attempts_advance (s : State) (w : Work) : s.advance.attempts w = s.attempts w := by
  unfold State.advance State.attempts CycleState.attempts
  rw [lookup_advance]

@[simp] theorem attempts_goto (s : State) (n : Node) (w : Work) : (s.goto n).attempts w = s.attempts w := rfl

/-- The attempt limits of a unit stay what they are. -/
def State.Limited (maximums : Work → ℕ) (s : State) : Prop :=
  s.progress.maxAttemptsByPhase = maxAttemptsByPhase maximums

section Limits
variable {maximums : Work → ℕ} {s : State}

theorem lookup_maximum (maximums : Work → ℕ) {w : Work} (bounded : w ∈ limited) :
    (maxAttemptsByPhase maximums).lookup w.phase = some (maximums w : ℤ) := by
  simp only [limited, List.mem_cons, List.not_mem_nil, or_false] at bounded
  rcases bounded with rfl | rfl | rfl | rfl | rfl | rfl | rfl <;> rfl

theorem State.Limited.maximum (lim : s.Limited maximums) {w : Work} (bounded : w ∈ limited)
    (default_ : ℤ) : s.maximum w default_ = maximums w := by
  rw [State.maximum, lim, lookup_maximum maximums bounded, Option.getD_some]

theorem State.Limited.hardCap (lim : s.Limited maximums) {w : Work} (bounded : w ∈ limited) :
    s.progress.hardCap w.phase = maximums w := by
  rw [CycleState.hardCap, lim, lookup_maximum maximums bounded, Option.getD_some]

end Limits

/-! The policy. -/

/-- The parts of a state that say where a run may still go. -/
def State.frame (s : State) : Named ℤ × Named ℤ × ℕ :=
  (s.progress.attemptsByPhase, s.progress.maxAttemptsByPhase, s.turns)

theorem project_frame (state : CycleState ℚ) (projection : Projection ℚ) :
    (state.project projection).attemptsByPhase = state.attemptsByPhase ∧
      (state.project projection).maxAttemptsByPhase = state.maxAttemptsByPhase := by
  unfold CycleState.project
  cases projection.decided <;> exact ⟨rfl, rfl⟩

section Settle
variable {setting : Setting} {a : Answer} {c : Check} {s : State} {outcome : PhaseOutcome}
  {evidence : Evidence ℚ} {kind : RepairKind}

theorem settle_frame : (settle setting a c s outcome evidence).2.frame = s.frame := by
  have kept := fun projection => project_frame s.progress projection
  unfold settle
  dsimp only
  split_ifs <;> simp only [State.frame, kept]

/-- A round is granted below the ceiling only, and a stall is found only there. -/
theorem decided_open (decided : decidedKind c.phase ⟨verdictText outcome, evidence⟩ = some kind)
    (verdict : outcome = .repair) :
    let projection := applyRepairProgress plusEpsilon c.phase s.progress ⟨verdictText outcome, evidence⟩
    projection.phaseOutcome = verdictText outcome ∨
        projection.failureReason = some "mutation_repair_no_progress" →
      s.progress.attempts (repairPhaseOf kind evidence) < s.progress.hardCap (repairPhaseOf kind evidence) := by
  subst verdict
  intro projection settled
  by_contra full
  have spent : s.progress.hardCap (repairPhaseOf kind evidence) ≤
    s.progress.attempts (repairPhaseOf kind evidence) := not_lt.mp full
  have refused : decisionOn plusEpsilon kind s.progress ⟨verdictText .repair, evidence⟩ =
      ⟨false, kind.value ++ "_repair_attempts_exhausted",
        (decisionOn plusEpsilon kind s.progress ⟨verdictText .repair, evidence⟩).bestScores,
        (decisionOn plusEpsilon kind s.progress ⟨verdictText .repair, evidence⟩).improved,
        (decisionOn plusEpsilon kind s.progress ⟨verdictText .repair, evidence⟩).noProgressTurns⟩ := by
    unfold decisionOn decideRepairProgress
    dsimp only
    rw [if_pos spent]
  have same : projection = decidedProjection plusEpsilon kind s.progress ⟨verdictText .repair, evidence⟩ := by
    show applyRepairProgress _ _ _ _ = _
    unfold applyRepairProgress
    rw [decided]
  rw [same] at settled
  unfold decidedProjection at settled
  dsimp only at settled
  rw [refused] at settled
  rcases settled with verdict | reason
  · exact absurd verdict (by simp [verdictText])
  · cases kind <;> exact absurd reason (by simp [verdictText, RepairKind.value])

theorem settle_passed (decided : decidedKind c.phase ⟨verdictText .passed, evidence⟩ = some kind) :
    (settle setting a c s .passed evidence).1 = .passed := by
  have stays : (applyRepairProgress plusEpsilon c.phase s.progress
      ⟨verdictText .passed, evidence⟩).phaseOutcome = verdictText .passed := by
    unfold applyRepairProgress
    rw [decided]
    simp [decidedProjection, verdictText]
  unfold settle
  dsimp only
  rw [if_pos stays]

/-- What becomes of a measurement: its own verdict, a review, or a failure. -/
theorem settle_spec (decided : decidedKind c.phase ⟨verdictText outcome, evidence⟩ = some kind)
    (verdict : outcome = .passed ∨ outcome = .repair) :
    (settle setting a c s outcome evidence).1 = .failed ∨
      (settle setting a c s outcome evidence).1 = .passed ∨
      ((settle setting a c s outcome evidence).1 = .repair ∨
          (settle setting a c s outcome evidence).1 = .reviewEquivalence) ∧
        s.progress.attempts (repairPhaseOf kind evidence) <
          s.progress.hardCap (repairPhaseOf kind evidence) := by
  rcases verdict with rfl | rfl
  · exact .inr (.inl (settle_passed decided))
  · have below := @decided_open _ s _ _ _ decided rfl
    unfold settle
    dsimp only at below ⊢
    split_ifs with stays stalled
    · exact .inr (.inr ⟨.inl rfl, below (.inl stays)⟩)
    · exact .inr (.inr ⟨.inr rfl, below (.inr stalled.1)⟩)
    · exact .inl rfl

end Settle

/-- A measurement that the policy decides on, with the attempts of a repair phase. -/
def Measured (setting : Setting) (a : Answer) (s : State) (c : Check) (w : Work) (r : Return) : Prop :=
  ∃ outcome evidence kind, (outcome = PhaseOutcome.passed ∨ outcome = .repair) ∧
    decidedKind c.phase ⟨verdictText outcome, evidence⟩ = some kind ∧
    repairPhaseOf kind evidence = w.phase ∧ r = settle setting a c s outcome evidence

section Phases
variable {maximums : Work → ℕ} {setting : Setting} {a : Answer} {s : State}

theorem Measured.frame {c : Check} {w : Work} {r : Return} (measured : Measured setting a s c w r) :
    r.2.frame = s.frame := by
  obtain ⟨_, _, _, -, -, -, rfl⟩ := measured
  exact settle_frame

theorem Measured.verdict {c : Check} {w : Work} {r : Return} (measured : Measured setting a s c w r)
    (lim : s.Limited maximums) (bounded : w ∈ limited) :
    r.1 = .failed ∨ r.1 = .passed ∨
      (r.1 = .repair ∨ r.1 = .reviewEquivalence) ∧ s.attempts w < maximums w := by
  obtain ⟨_, _, _, verdict, decided, phase, rfl⟩ := measured
  have settled := @settle_spec setting a _ s _ _ _ decided verdict
  rwa [phase, lim.hardCap bounded] at settled

/-! The verdicts of the deterministic phases. -/

/-- The mutation tool reports a suite that is not green only while a test repair is left. -/
def SuiteWithin (setting : Setting) (s : State) (a : Answer) : Prop :=
  s.node = .run .measureMutation → 0 < setting.mutationGate →
    unreported setting a = some .redSuite → s.attempts .fixTests < s.maximum .fixTests 3

section Verdicts
variable (setting a s)

theorem precheck_verdict : (precheckExistingTests setting a s).2.frame = s.frame ∧
    ((precheckExistingTests setting a s).1 = .failed ∨
      (precheckExistingTests setting a s).1 = .skipTarget ∨
      (precheckExistingTests setting a s).1 = .proceed ∨
      (precheckExistingTests setting a s).1 = .delegatedRepair ∧ setting.mavenEnforcer = true) := by
  unfold precheckExistingTests
  split_ifs with _ enforced
  · exact ⟨rfl, .inl rfl⟩
  · exact ⟨rfl, .inr (.inl rfl)⟩
  · exact ⟨rfl, .inr (.inr (.inr ⟨rfl, enforced.2⟩))⟩
  · exact ⟨rfl, .inr (.inl rfl)⟩
  · exact ⟨rfl, .inr (.inr (.inl rfl))⟩

theorem verifyCompile_verdict : (verifyCompile setting a s).2.frame = s.frame ∧
    ((verifyCompile setting a s).1 = .failed ∨ (verifyCompile setting a s).1 = .passed ∨
      (verifyCompile setting a s).1 = .repair ∧ s.attempts .fixCompile < s.maximum .fixCompile 3) := by
  unfold verifyCompile
  dsimp only
  split_ifs with _ _ _ full
  · exact ⟨rfl, .inr (.inl rfl)⟩
  · exact ⟨rfl, .inr (.inl rfl)⟩
  · exact ⟨rfl, .inl rfl⟩
  · exact ⟨rfl, .inl rfl⟩
  · exact ⟨rfl, .inr (.inr ⟨rfl, not_le.mp full⟩)⟩

theorem verifyTests_verdict : (verifyTests setting a s).2.frame = s.frame ∧
    ((verifyTests setting a s).1 = .failed ∨
      (verifyTests setting a s).1 = (if setting.mavenEnforcer then .delegated else .passed) ∨
      (verifyTests setting a s).1 = .repair ∧ s.attempts .fixTests < s.maximum .fixTests 3) := by
  rw [verifyTests]
  by_cases empty : setting.batch = []
  · rw [if_pos empty]
    exact ⟨rfl, .inl rfl⟩
  · rw [if_neg empty]
    by_cases green : a.testsPass = true
    · rw [if_pos green]
      exact ⟨rfl, .inr (.inl rfl)⟩
    · rw [if_neg green]
      by_cases full : s.maximum .fixTests 3 ≤ s.attempts .fixTests
      · rw [if_pos full]
        exact ⟨rfl, .inl rfl⟩
      · rw [if_neg full]
        exact ⟨rfl, .inr (.inr ⟨rfl, not_le.mp full⟩)⟩

theorem measureCoverage_cases : measureCoverage setting a s = (.failed, s) ∨
    Measured setting a s .measureCoverage .fixCoverage (measureCoverage setting a s) := by
  rw [measureCoverage]
  by_cases empty : setting.batch = []
  · exact .inl (if_pos empty)
  · rw [if_neg empty]
    by_cases red : a.jacocoTestsPass = false ∨ a.jacocoReport = false
    · exact .inl (if_pos red)
    · rw [if_neg red]
      right
      by_cases all : uncovered setting a = []
      · exact ⟨_, _, .coverage, .inl (if_pos all), by rw [if_pos all]; rfl, rfl, rfl⟩
      · exact ⟨_, _, .coverage, .inr (if_neg all), by rw [if_neg all]; rfl, rfl, rfl⟩

theorem measureMutation_cases : measureMutation setting a s = (.failed, s) ∨
    measureMutation setting a s = (.skipped, s) ∨
    measureMutation setting a s = (.testsFailed, s) ∧ 0 < setting.mutationGate ∧
      unreported setting a = some .redSuite ∨
    Measured setting a s .measureMutation .fixMutation (measureMutation setting a s) := by
  rw [measureMutation]
  by_cases empty : setting.batch = []
  · exact .inl (if_pos empty)
  · rw [if_neg empty]
    by_cases off : setting.mutationGate ≤ 0
    · exact .inr (.inl (if_pos off))
    · rw [if_neg off]
      rcases unreported setting a with _ | ⟨_ | _ | _ | _⟩
      · right; right; right
        by_cases all : surviving setting a = []
        · exact ⟨_, _, .mutation, .inl (if_pos all), by rw [if_pos all]; rfl, rfl, rfl⟩
        · exact ⟨_, _, .mutation, .inr (if_neg all), by rw [if_neg all]; rfl, rfl, rfl⟩
      · exact .inr (.inr (.inl ⟨rfl, by omega, rfl⟩))
      all_goals exact .inl rfl

theorem repairGate_cases (gate : GateResult) : repairGate setting a s gate = (.failed, s) ∨
    Measured setting a s .delegatedQualityGateVerify .delegatedQualityGate
      (repairGate setting a s gate) := by
  rw [repairGate]
  by_cases own : gate.matchesBatch = true
  · rw [if_pos own]
    right
    cases stage : gate.mutationStage with
    | false => exact ⟨_, _, .coverage, .inr rfl, by simp [gateEvidence, stage]; rfl, rfl, rfl⟩
    | true => exact ⟨_, _, .mutation, .inr rfl, by simp [gateEvidence, stage]; rfl, rfl, rfl⟩
  · exact .inl (if_neg own)

theorem verifyDelegatedQualityGate_cases :
    verifyDelegatedQualityGate setting a s = (.failed, s) ∨
    verifyDelegatedQualityGate setting a s = (.skipped, s) ∨
    verifyDelegatedQualityGate setting a s = (.passed, s) ∨ setting.mavenEnforcer = true ∧
      Measured setting a s .delegatedQualityGateVerify .delegatedQualityGate
        (verifyDelegatedQualityGate setting a s) := by
  rw [verifyDelegatedQualityGate]
  cases enforced : setting.mavenEnforcer with
  | false => exact .inr (.inl rfl)
  | true =>
      rw [if_neg (not_not.mpr rfl)]
      by_cases empty : setting.batch = []
      · exact .inl (if_pos empty)
      · rw [if_neg empty]
        cases a.gate.passed with
        | false =>
            rw [if_neg Bool.false_ne_true]
            rcases repairGate_cases setting a s a.gate with h | h
            · exact .inl h
            · exact .inr (.inr (.inr ⟨rfl, h⟩))
        | true =>
            rw [if_pos rfl]
            cases unresolvedAuthoritativeFailure s with
            | none => exact .inr (.inr (.inl rfl))
            | some gate =>
                rcases repairGate_cases setting a s gate with h | h
                · exact .inl h
                · exact .inr (.inr (.inr ⟨rfl, h⟩))

theorem runPhase_frame (c : Check) : (runPhase setting a s c).2.frame = s.frame := by
  cases c with
  | precheckExistingTests => exact (precheck_verdict setting a s).1
  | verifyCompile => exact (verifyCompile_verdict setting a s).1
  | verifyTests => exact (verifyTests_verdict setting a s).1
  | measureCoverage =>
      rcases measureCoverage_cases setting a s with h | measured
      · exact congrArg (fun r : Return => r.2.frame) h
      · exact measured.frame
  | measureMutation =>
      rcases measureMutation_cases setting a s with h | h | ⟨h, _⟩ | measured
      · exact congrArg (fun r : Return => r.2.frame) h
      · exact congrArg (fun r : Return => r.2.frame) h
      · exact congrArg (fun r : Return => r.2.frame) h
      · exact measured.frame
  | delegatedQualityGateVerify =>
      rcases verifyDelegatedQualityGate_cases setting a s with
        h | h | h | ⟨_, measured⟩
      · exact congrArg (fun r : Return => r.2.frame) h
      · exact congrArg (fun r : Return => r.2.frame) h
      · exact congrArg (fun r : Return => r.2.frame) h
      · exact measured.frame
  | completeGeneration => rfl

end Verdicts
end Phases
end Uta.Cycle.Java

namespace Uta.Cycle

/-! Edges. -/

/-- The attempt that a node works on: a repair is paid for when its phase is entered, and a
review with the repair that was given up for it. -/
def Work.charges (enforced : Bool) : Work → Option Work
  | .planTests | .generateTests => none
  | .reviewEquivalentMutants => some (if enforced then .delegatedQualityGate else .fixMutation)
  | w => some w

def Node.charges (enforced : Bool) : Node → Option Work
  | .turnReconcile w | .prompt w | .turn w | .interpretReconcile w | .interpret w => w.charges enforced
  | _ => none

/-- The nodes that a crash-free run can reach under a backend of the quality gate. -/
def Check.fits (enforced : Bool) : Check → Bool
  | .measureCoverage | .measureMutation => !enforced
  | _ => true

def Work.fits (enforced : Bool) : Work → Bool
  | .fixCoverage | .fixMutation => !enforced
  | .delegatedQualityGate => enforced
  | _ => true

def Node.fits (enforced : Bool) : Node → Bool
  | .reconcile c | .run c => c.fits enforced
  | .turnReconcile w | .prompt w | .turn w | .interpretReconcile w | .interpret w => w.fits enforced
  | .terminateGeneration | .ended => true
  | .rehydrate _ | .turnRehydrate _ | .resultRehydrate _ | .pauseGeneration => false

/-- The verifier that a repair goes back to. -/
def Work.verifier : Work → Check
  | .generateTests | .fixCompile => .verifyCompile
  | _ => .verifyTests

def repairs : List Work := [.fixCompile, .fixTests, .fixCoverage, .fixMutation, .delegatedQualityGate]

/-- The branches to a node that does not end the cycle, with the attempt each takes. -/
inductive Edge (enforced : Bool) : Node → Node → Option Work → Prop
  | started (c : Check) : Edge enforced (.reconcile c) (.run c) none
  | begun (w : Work) : Edge enforced (.turnReconcile w) (.prompt w) none
  | prompted (w : Work) : Edge enforced (.prompt w) (.turn w) none
  | answered (w : Work) : Edge enforced (.turn w) (.interpretReconcile w) none
  | read (w : Work) : Edge enforced (.interpretReconcile w) (.interpret w) none
  | proceed : Edge enforced (.run .precheckExistingTests) (.turnReconcile .planTests) none
  | delegatedRepair (on : enforced = true) :
      Edge enforced (.run .precheckExistingTests) (.reconcile .delegatedQualityGateVerify) none
  | compiled : Edge enforced (.run .verifyCompile) (.reconcile .verifyTests) none
  | tested (off : enforced = false) :
      Edge enforced (.run .verifyTests) (.reconcile .measureCoverage) none
  | delegated (on : enforced = true) :
      Edge enforced (.run .verifyTests) (.reconcile .delegatedQualityGateVerify) none
  | covered : Edge enforced (.run .measureCoverage) (.reconcile .measureMutation) none
  | mutated : Edge enforced (.run .measureMutation) (.reconcile .delegatedQualityGateVerify) none
  | compileRepair :
      Edge enforced (.run .verifyCompile) (.turnReconcile .fixCompile) (some .fixCompile)
  | testRepair : Edge enforced (.run .verifyTests) (.turnReconcile .fixTests) (some .fixTests)
  | coverageRepair :
      Edge enforced (.run .measureCoverage) (.turnReconcile .fixCoverage) (some .fixCoverage)
  | mutationRepair :
      Edge enforced (.run .measureMutation) (.turnReconcile .fixMutation) (some .fixMutation)
  | redSuite : Edge enforced (.run .measureMutation) (.turnReconcile .fixTests) (some .fixTests)
  | mutationReview (off : enforced = false) :
      Edge enforced (.run .measureMutation) (.turnReconcile .reviewEquivalentMutants) (some .fixMutation)
  | gateRepair (on : enforced = true) :
      Edge enforced (.run .delegatedQualityGateVerify) (.turnReconcile .delegatedQualityGate)
        (some .delegatedQualityGate)
  | gateReview (on : enforced = true) :
      Edge enforced (.run .delegatedQualityGateVerify) (.turnReconcile .reviewEquivalentMutants)
        (some .delegatedQualityGate)
  | planned : Edge enforced (.interpret .planTests) (.turnReconcile .generateTests) none
  | replanned : Edge enforced (.interpret .planTests) (.turnReconcile .planTests) (some .planTests)
  | generated : Edge enforced (.interpret .generateTests) (.reconcile .verifyCompile) none
  | regenerated :
      Edge enforced (.interpret .generateTests) (.turnReconcile .generateTests) (some .generateTests)
  | repaired (w : Work) (repair : w ∈ repairs) :
      Edge enforced (.interpret w) (.reconcile w.verifier) none

theorem Edge.fits {enforced : Bool} {n n' : Node} {charge : Option Work}
    (edge : Edge enforced n n' charge) (fits : n.fits enforced = true) : n'.fits enforced = true := by
  cases edge with
  | tested off | mutationReview off => subst off; rfl
  | delegatedRepair on | delegated on | gateRepair on | gateReview on => subst on; rfl
  | repaired w repair => cases w <;> rfl
  | mutated | redSuite => rfl
  | _ => exact fits

end Uta.Cycle

namespace Uta.Cycle.Java
open Uta.Lib.Marks

/-- The attempts of a phase that are spent, or entered. -/
def State.used (enforced : Bool) (s : State) (w : Work) : ℤ :=
  s.attempts w + if s.node.charges enforced = some w then 1 else 0

/-- A step along an edge: it ends the cycle, or takes the attempt of the edge, which was left. -/
def Follows (maximums : Work → ℕ) (enforced : Bool) (s s' : State) : Prop :=
  s'.node.terminal = true ∨
    ∃ charge, Edge enforced s.node s'.node charge ∧
      (∀ w, s'.used enforced w = s.used enforced w + if charge = some w then 1 else 0) ∧
      ∀ c ∈ charge, c ∈ limited ∧ s.used enforced c < maximums c

section Steps
variable {maximums : Work → ℕ} {setting : Setting} {a : Answer} {s : State}

theorem used_idle {enforced : Bool} (idle : s.node.charges enforced = none) (w : Work) :
    s.used enforced w = s.attempts w := by
  rw [State.used, idle, if_neg nofun, add_zero]

theorem attempts_of_frame {s' : State} (same : s'.frame = s.frame) (w : Work) :
    s'.attempts w = s.attempts w := by
  have first := congrArg Prod.fst same
  exact congrArg (fun named : Named ℤ => (named.lookup w.phase).getD 0) first

/-- A step that keeps the attempts follows an edge, if it goes along one that takes what its
target charges. -/
theorem follows_moved {enforced : Bool} {s' : State} {n' : Node} {charge : Option Work}
    (kept : ∀ w, s'.attempts w = s.attempts w) (idle : s.node.charges enforced = none)
    (edge : Edge enforced s.node n' charge) (charges : n'.charges enforced = charge)
    (room : ∀ c ∈ charge, c ∈ limited ∧ s.attempts c < maximums c) :
    Follows maximums enforced s (s'.goto n') := by
  right
  refine ⟨charge, edge, fun w => ?_, fun c taken => ?_⟩
  · rw [used_idle idle, ← kept w, ← charges]
    rfl
  · rw [used_idle idle]
    exact room c taken

/-- A step inside a phase. -/
theorem follows_inside {enforced : Bool} {s' : State} (kept : ∀ w, s'.attempts w = s.attempts w)
    (edge : Edge enforced s.node s'.node none)
    (same : s'.node.charges enforced = s.node.charges enforced) :
    Follows maximums enforced s s' := by
  right
  refine ⟨none, edge, fun w => ?_, nofun⟩
  have free : ¬ (none : Option Work) = some w := nofun
  rw [State.used, State.used, same, kept w, if_neg free, add_zero]

/-- Where the branch at a deterministic phase goes. -/
theorem follows_run {c : Check} (here : s.node = .run c) (lim : s.Limited maximums)
    (fits : s.node.fits setting.mavenEnforcer = true) (within : SuiteWithin setting s a) :
    Follows maximums setting.mavenEnforcer s
      ((runPhase setting a s c).2.goto (c.route (runPhase setting a s c).1)) := by
  have idle : s.node.charges setting.mavenEnforcer = none := by rw [here]; rfl
  have moved : ∀ {r : Return} {n' : Node} {charge : Option Work}, r.2.frame = s.frame →
      Edge setting.mavenEnforcer (.run c) n' charge → n'.charges setting.mavenEnforcer = charge →
      (∀ w ∈ charge, w ∈ limited ∧ s.attempts w < maximums w) →
      Follows maximums setting.mavenEnforcer s (r.2.goto n') := by
    intro r n' charge same edge charges room
    exact follows_moved (attempts_of_frame same) idle (here ▸ edge) charges room
  have taken : ∀ {w : Work}, w ∈ limited → s.attempts w < maximums w →
      ∀ v ∈ some w, v ∈ limited ∧ s.attempts v < maximums v := by
    rintro w bounded below v ⟨⟩
    exact ⟨bounded, below⟩
  have finished : ∀ {r : Return}, (c.route r.1).terminal = true →
      Follows maximums setting.mavenEnforcer s (r.2.goto (c.route r.1)) := fun ends => .inl ends
  rw [here] at fits
  cases c with
  | precheckExistingTests =>
      show Follows _ _ _ ((precheckExistingTests setting a s).2.goto
        (Check.route _ (precheckExistingTests setting a s).1))
      obtain ⟨same, h | h | h | ⟨h, on⟩⟩ := precheck_verdict setting a s
      · exact finished (by rw [h]; rfl)
      · exact finished (by rw [h]; rfl)
      · rw [h]
        exact moved same .proceed rfl nofun
      · rw [h]
        exact moved same (.delegatedRepair on) rfl nofun
  | verifyCompile =>
      show Follows _ _ _ ((verifyCompile setting a s).2.goto
        (Check.route _ (verifyCompile setting a s).1))
      obtain ⟨same, h | h | ⟨h, below⟩⟩ := verifyCompile_verdict setting a s
      · exact finished (by rw [h]; rfl)
      · rw [h]
        exact moved same .compiled rfl nofun
      · rw [h]
        rw [lim.maximum (by decide)] at below
        exact moved same .compileRepair rfl (taken (by decide) below)
  | verifyTests =>
      show Follows _ _ _ ((verifyTests setting a s).2.goto
        (Check.route _ (verifyTests setting a s).1))
      obtain ⟨same, h | h | ⟨h, below⟩⟩ := verifyTests_verdict setting a s
      · exact finished (by rw [h]; rfl)
      · rw [h]
        by_cases on : setting.mavenEnforcer = true
        · rw [if_pos on]
          exact moved same (.delegated on) rfl nofun
        · rw [if_neg on]
          exact moved same (.tested (Bool.eq_false_iff.mpr on)) rfl nofun
      · rw [h]
        rw [lim.maximum (by decide)] at below
        exact moved same .testRepair rfl (taken (by decide) below)
  | measureCoverage =>
      show Follows _ _ _ ((measureCoverage setting a s).2.goto
        (Check.route _ (measureCoverage setting a s).1))
      rcases measureCoverage_cases setting a s with h | measured
      · exact finished (by rw [h]; rfl)
      · rcases measured.verdict lim (by decide) with h | h | ⟨h | h, below⟩
        · exact finished (by rw [h]; rfl)
        · rw [h]
          exact moved measured.frame .covered rfl nofun
        · rw [h]
          exact moved measured.frame .coverageRepair rfl (taken (by decide) below)
        · exact finished (by rw [h]; rfl)
  | measureMutation =>
      have off : setting.mavenEnforcer = false := by
        simpa only [Node.fits, Check.fits, Bool.not_eq_true'] using fits
      show Follows _ _ _ ((measureMutation setting a s).2.goto
        (Check.route _ (measureMutation setting a s).1))
      rcases measureMutation_cases setting a s with
        h | h | ⟨h, gate, red⟩ | measured
      · exact finished (by rw [h]; rfl)
      · rw [h]
        exact moved rfl .mutated rfl nofun
      · rw [h]
        have below := within here gate red
        rw [lim.maximum (by decide)] at below
        exact moved rfl .redSuite rfl (taken (by decide) below)
      · rcases measured.verdict lim (by decide) with h | h | ⟨h | h, below⟩
        · exact finished (by rw [h]; rfl)
        · rw [h]
          exact moved measured.frame .mutated rfl nofun
        · rw [h]
          exact moved measured.frame .mutationRepair rfl (taken (by decide) below)
        · rw [h]
          exact moved measured.frame (.mutationReview off) (by rw [off]; rfl) (taken (by decide) below)
  | delegatedQualityGateVerify =>
      show Follows _ _ _ ((verifyDelegatedQualityGate setting a s).2.goto
        (Check.route _ (verifyDelegatedQualityGate setting a s).1))
      rcases verifyDelegatedQualityGate_cases setting a s with
        h | h | h | ⟨on, measured⟩
      · exact finished (by rw [h]; rfl)
      · exact finished (by rw [h]; rfl)
      · exact finished (by rw [h]; rfl)
      · rcases measured.verdict lim (by decide) with h | h | ⟨h | h, below⟩
        · exact finished (by rw [h]; rfl)
        · exact finished (by rw [h]; rfl)
        · rw [h]
          exact moved measured.frame (.gateRepair on) rfl (taken (by decide) below)
        · rw [h]
          exact moved measured.frame (.gateReview on) (by rw [on]; rfl) (taken (by decide) below)
  | completeGeneration => exact finished rfl

/-- A retry of planning or of generation. -/
theorem follows_retry {enforced : Bool} {w : Work} (here : s.node = .interpret w)
    (free : w.charges enforced = none) (bounded : w ∈ limited) (below : s.attempts w < maximums w)
    (edge : Edge enforced (.interpret w) (.turnReconcile w) (some w)) :
    Follows maximums enforced s ((s.spend w).goto (.turnReconcile w)) := by
  have idle : s.node.charges enforced = none := by rw [here]; exact free
  right
  refine ⟨some w, here ▸ edge, fun v => ?_, ?_⟩
  · rw [used_idle idle, used_idle (show Node.charges enforced (.turnReconcile w) = none from free),
      attempts_goto]
    by_cases own : v = w
    · subst own
      rw [attempts_spend_self, if_pos rfl]
    · rw [attempts_spend_of_ne s own, if_neg fun same => own (Option.some.inj same).symm, add_zero]
  · rintro v ⟨⟩
    rw [used_idle idle]
    exact ⟨bounded, below⟩

/-- A repair is spent, and what it invalidated is verified again. -/
theorem follows_repaired {enforced : Bool} {w : Work} (here : s.node = .interpret w) (repair : w ∈ repairs) :
    Follows maximums enforced s ((s.advance.spend w).goto (.reconcile w.verifier)) := by
  have charges : s.node.charges enforced = some w := by
    rw [here]
    cases w <;> first | rfl | exact absurd repair (by decide)
  right
  refine ⟨none, here ▸ .repaired w repair, fun v => ?_, nofun⟩
  have free : ¬ (none : Option Work) = some v := nofun
  rw [used_idle rfl, attempts_goto, State.used, charges, if_neg free, add_zero]
  by_cases own : v = w
  · subst own
    rw [attempts_spend_self, attempts_advance, if_pos rfl]
  · rw [attempts_spend_of_ne _ own, attempts_advance,
      if_neg fun same => own (Option.some.inj same).symm, add_zero]

/-- Where the branch at an interpreter goes. -/
theorem follows_interpret {w : Work} (here : s.node = .interpret w) (lim : s.Limited maximums) :
    Follows maximums setting.mavenEnforcer s
      ((interpretPhase setting a s w).2.goto (w.route (interpretPhase setting a s w).1)) := by
  cases w with
  | planTests =>
      show Follows _ _ _ ((interpretPlanTests setting a s).2.goto
        (Work.route _ (interpretPlanTests setting a s).1))
      have idle : s.node.charges setting.mavenEnforcer = none := by rw [here]; rfl
      unfold interpretPlanTests
      split_ifs with _ _ below
      · exact .inl rfl
      · rw [lim.maximum (by decide)] at below
        exact follows_retry here rfl (by decide) below .replanned
      · exact .inl rfl
      · exact .inl rfl
      · exact follows_moved (fun _ => rfl) idle (here ▸ .planned) rfl nofun
  | generateTests =>
      show Follows _ _ _ ((interpretGenerateTests setting a s).2.goto
        (Work.route _ (interpretGenerateTests setting a s).1))
      have idle : s.node.charges setting.mavenEnforcer = none := by rw [here]; rfl
      unfold interpretGenerateTests
      split_ifs with _ _ below
      · exact .inl rfl
      · rw [lim.maximum (by decide)] at below
        exact follows_retry here rfl (by decide) below .regenerated
      · exact .inl rfl
      · exact .inl rfl
      · exact follows_moved (fun _ => rfl) idle (here ▸ .generated) rfl nofun
  | reviewEquivalentMutants => exact .inl rfl
  | fixCompile | fixTests | fixCoverage | fixMutation | delegatedQualityGate =>
      exact follows_repaired here (by decide)

/-- No operator stops the turn. -/
def Uncancelled (s : State) (a : Answer) : Prop := ∀ w, s.node = .turn w → a.turn.cancelled = false

/-- What a run of the tools and the agent may answer. -/
def Within (setting : Setting) (s : State) (a : Answer) : Prop :=
  Uncancelled s a ∧ SuiteWithin setting s a

/-- Where a crash-free run is: within the graph, under the limits of its unit. -/
structure State.Placed (maximums : Work → ℕ) (setting : Setting) (s : State) : Prop where
  limits : s.Limited maximums
  fits : s.node.terminal = false → s.node.fits setting.mavenEnforcer = true

/-! Steps by their nodes. -/

theorem step_reconcile {c : Check} (here : s.node = .reconcile c) : step setting s a = s.goto (.run c) := by
  unfold step
  rw [here]
  rfl

theorem step_run {c : Check} (here : s.node = .run c) :
    step setting s a = (runPhase setting a s c).2.goto (c.route (runPhase setting a s c).1) := by
  unfold step
  rw [here]

theorem step_turnReconcile {w : Work} (here : s.node = .turnReconcile w) :
    step setting s a = s.goto (.prompt w) := by
  unfold step
  rw [here]
  rfl

theorem step_prompt {w : Work} (here : s.node = .prompt w) : step setting s a = s.goto (.turn w) := by
  unfold step
  rw [here]

theorem step_turn {w : Work} (here : s.node = .turn w) (uncancelled : Uncancelled s a) :
    step setting s a = { s with node := .interpretReconcile w, turns := s.turns + 1 } := by
  unfold step
  rw [here]
  dsimp only
  rw [uncancelled w here]
  rfl

theorem step_interpretReconcile {w : Work} (here : s.node = .interpretReconcile w) :
    step setting s a = s.goto (.interpret w) := by
  unfold step
  rw [here]
  rfl

theorem step_interpret {w : Work} (here : s.node = .interpret w) : step setting s a =
    (interpretPhase setting a s w).2.goto (w.route (interpretPhase setting a s w).1) := by
  unfold step
  rw [here]

theorem step_follows (placed : s.Placed maximums setting) (within : Within setting s a)
    (going : s.node.terminal = false) : Follows maximums setting.mavenEnforcer s (step setting s a) := by
  have inside : ∀ {s' : State}, (∀ w, s'.attempts w = s.attempts w) → ∀ {n : Node}, s.node = n →
      Edge setting.mavenEnforcer n s'.node none →
      s'.node.charges setting.mavenEnforcer = n.charges setting.mavenEnforcer →
      Follows maximums setting.mavenEnforcer s s' := by
    rintro s' kept n rfl edge same
    exact follows_inside kept edge same
  cases here : s.node with
  | reconcile c =>
      rw [step_reconcile here]
      exact inside (fun _ => rfl) here (.started c) rfl
  | run c =>
      rw [step_run here]
      exact follows_run here placed.limits (placed.fits going) within.2
  | turnReconcile w =>
      rw [step_turnReconcile here]
      exact inside (fun _ => rfl) here (.begun w) rfl
  | prompt w =>
      rw [step_prompt here]
      exact inside (fun _ => rfl) here (.prompted w) rfl
  | turn w =>
      rw [step_turn here within.1]
      exact inside (fun _ => rfl) here (.answered w) rfl
  | interpretReconcile w =>
      rw [step_interpretReconcile here]
      exact inside (fun _ => rfl) here (.read w) rfl
  | interpret w =>
      rw [step_interpret here]
      exact follows_interpret here placed.limits
  | rehydrate _ | turnRehydrate _ | resultRehydrate _ | pauseGeneration =>
      exact absurd (placed.fits going) (by rw [here]; exact Bool.false_ne_true)
  | terminateGeneration | ended =>
      rw [here] at going
      cases going

theorem interpretPhase_limits (w : Work) :
    (interpretPhase setting a s w).2.progress.maxAttemptsByPhase = s.progress.maxAttemptsByPhase := by
  cases w with
  | planTests =>
      show (interpretPlanTests setting a s).2.progress.maxAttemptsByPhase = _
      unfold interpretPlanTests
      split_ifs <;> rfl
  | generateTests =>
      show (interpretGenerateTests setting a s).2.progress.maxAttemptsByPhase = _
      unfold interpretGenerateTests
      split_ifs <;> rfl
  | _ => rfl

theorem step_limits : (step setting s a).progress.maxAttemptsByPhase = s.progress.maxAttemptsByPhase := by
  unfold step
  cases s.node with
  | run c => exact congrArg (fun frame => frame.2.1) (runPhase_frame setting a s c)
  | interpret w => exact interpretPhase_limits w
  | _ => rfl

/-- The phases that end the cycle lead nowhere else. -/
theorem step_terminal (finished : s.node.terminal = true) : (step setting s a).node.terminal = true := by
  cases here : s.node with
  | reconcile c | run c =>
      rw [here] at finished
      cases c with
      | completeGeneration => first | rw [step_reconcile here]; rfl | rw [step_run here]; rfl
      | _ => cases finished
  | rehydrate _ | terminateGeneration | ended =>
      unfold step
      rw [here]
      first | rfl | exact finished
  | _ =>
      rw [here] at finished
      cases finished

theorem step_placed (placed : s.Placed maximums setting) (within : Within setting s a) :
    (step setting s a).Placed maximums setting := by
  refine ⟨step_limits.trans placed.limits, fun going => ?_⟩
  cases before : s.node.terminal with
  | true => exact absurd (step_terminal before) (by rw [going]; exact Bool.false_ne_true)
  | false =>
      rcases step_follows placed within before with finished | ⟨_, edge, _⟩
      · exact absurd finished (by rw [going]; exact Bool.false_ne_true)
      · exact edge.fits (placed.fits before)

theorem start_placed : (State.start maximums).Placed maximums setting := ⟨rfl, fun _ => rfl⟩

end Steps
end Uta.Cycle.Java
