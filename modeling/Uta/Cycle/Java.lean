/- The Java backend of the generation cycle: what each phase makes of the answers of its
tools, and what its interpreters make of a turn. -/
import Uta.Cycle.Topology
import Uta.Generation.RepairProgress
import Mathlib.Algebra.Order.Ring.Rat

namespace Uta.Cycle.Java
open Uta.Lib.Marks
open Uta.Generation (CycleState Evidence PhaseResult Projection Reported applyRepairProgress)

/-! What the tools answer. -/

/-- A compile error: its signature, and whether its file is a test of the batch. -/
structure CompileError where
  signature : String
  expected : Bool
  deriving DecidableEq

structure Compilation where
  ok : Bool
  errors : List CompileError := []

/-- A result of the delegated gate. `rate` is the measured metric of the failing kind. -/
structure GateResult where
  passed : Bool
  matchesBatch : Bool := true
  mutationStage : Bool := false
  rate : Option ℚ := none
  deriving DecidableEq

/-- A run of PIT on one class. -/
inductive Pit where
  | redSuite
  | failed
  | noReport
  | report (score : ℚ) (survived : ℕ)
  deriving DecidableEq

/-- What the existing-test precheck of one class finds. -/
structure Existing where
  testFile : Bool
  surefirePassed : Bool
  line : ℚ
  pit : Pit

/-- What a turn ended with. -/
structure Turn where
  completed : Bool
  cancelled : Bool := false
  blank : Bool := false
  narrowPlan : Bool := false
  missingTestFiles : Bool := false

/-- The answers of the ports that one node asks, each by the class where it is about one. -/
structure Answer where
  existing : String → Existing := fun _ => ⟨false, false, 0, .failed⟩
  existingTestsPass : Bool := false
  existingReport : Bool := false
  compilation : Compilation := ⟨true, []⟩
  testsPass : Bool := true
  jacocoTestsPass : Bool := true
  jacocoReport : Bool := true
  line : String → ℚ := fun _ => 0
  pit : String → Pit := fun _ => .failed
  gate : GateResult := ⟨true, true, false, none⟩
  reviewEligible : Bool := false
  turn : Turn := ⟨true, false, false, false, false⟩

/-! The unit. -/

inductive StopAfter where
  | planTests | generation
  deriving DecidableEq

structure Setting where
  batch : List String
  coverageGate : ℤ
  mutationGate : ℤ
  ciIncremental : Bool := false
  mavenEnforcer : Bool := false
  stopAfterStage : Option StopAfter := none

/-- The state of the cycle that its phases read. `turns` counts the agent turns. -/
structure State where
  node : Node
  progress : CycleState ℚ
  errorSignatures : List String := []
  precheckGate : Option GateResult := none
  reviewed : Bool := false
  turns : ℕ := 0

/-- What a phase returns: its verdict and the state it projects. -/
abbrev Return := PhaseOutcome × State

namespace State
variable (s : State)

/-- `int(attempts.get(phase, 0))`. -/
def attempts (w : Work) : ℤ := s.progress.attempts w.phase

/-- `int(maximums.get(phase, default))`. -/
def maximum (w : Work) (default_ : ℤ) : ℤ :=
  (s.progress.maxAttemptsByPhase.lookup w.phase).getD default_

/-- One more attempt of a phase. -/
def spend (w : Work) : State :=
  { s with progress :=
    { s.progress with
      attemptsByPhase := s.progress.attemptsByPhase.insert w.phase (s.attempts w + 1) } }

end State

/-- `INVALIDATED_BY_REPAIR`. -/
def invalidatedByRepair : List Check :=
  [.verifyCompile, .verifyTests, .measureCoverage, .measureMutation, .delegatedQualityGateVerify]

/-- `advance_verification_attempts`. -/
def advanceVerificationAttempts (attempts : Named ℤ) : Named ℤ :=
  invalidatedByRepair.foldl
    (fun advanced c => advanced.insert c.phase ((advanced.lookup c.phase).getD 0 + 1)) attempts

def State.advance (s : State) : State :=
  { s with progress :=
    { s.progress with attemptsByPhase := advanceVerificationAttempts s.progress.attemptsByPhase } }

/-! The score-driven policy. -/

/-- `IMPROVEMENT_EPSILON`. -/
def plusEpsilon (best : ℚ) : ℚ := best + 1 / 20

/-- What `apply_repair_progress` reads and writes as a verdict. -/
def verdictText : PhaseOutcome → String
  | .passed => "passed"
  | .repair => "repair"
  | _ => "other"

/-- `apply_repair_progress` and `prepare_review` on the result of a deterministic phase. -/
def settle (setting : Setting) (a : Answer) (c : Check) (s : State) (outcome : PhaseOutcome)
    (evidence : Evidence ℚ) : Return :=
  let projection := applyRepairProgress plusEpsilon c.phase s.progress
    ⟨verdictText outcome, evidence⟩
  let s' := { s with progress := s.progress.project projection }
  if projection.phaseOutcome = verdictText outcome then (outcome, s')
  else if projection.failureReason = some "mutation_repair_no_progress" ∧ setting.ciIncremental ∧
      ¬ s.reviewed ∧ a.reviewEligible then (.reviewEquivalence, s')
  else (.failed, s')

/-! The deterministic phases. -/

section Phases
variable (setting : Setting) (a : Answer) (s : State)

/-- The gates of `_class_level_precheck` on one class of the batch. -/
def classPasses (fqn : String) : Bool :=
  (a.existing fqn).surefirePassed && decide ((setting.coverageGate : ℚ) ≤ (a.existing fqn).line) &&
    (decide (setting.mutationGate ≤ 0) ||
      match (a.existing fqn).pit with
      | .report score _ => decide ((setting.mutationGate : ℚ) ≤ score)
      | _ => false)

/-- `precheck_existing_tests`. -/
def precheckExistingTests : Return :=
  if setting.batch = [] then (.failed, s)
  else if setting.ciIncremental ∧ setting.mavenEnforcer then
    if a.gate.passed then (.skipTarget, s)
    else (.delegatedRepair, { s with precheckGate := some a.gate })
  else if setting.batch.all (fun fqn => (a.existing fqn).testFile) ∧ a.existingTestsPass ∧
      a.existingReport ∧ setting.batch.all (classPasses setting a) then (.skipTarget, s)
  else (.proceed, s)

/-- The errors that count: in a CI increment, those in the tests of the batch. -/
def countedErrors : List CompileError :=
  if setting.ciIncremental then a.compilation.errors.filter (·.expected) else a.compilation.errors

/-- Every error that counts was there before the last repair. -/
def allRecurring : Bool :=
  (countedErrors setting a).all fun e => decide (e.signature ∈ s.errorSignatures)

/-- `verify_compile`. -/
def verifyCompile : Return :=
  let failing := { s with errorSignatures := (countedErrors setting a).map (·.signature) }
  if a.compilation.ok then (.passed, { s with errorSignatures := [] })
  else if setting.ciIncremental ∧ a.compilation.errors ≠ [] ∧ countedErrors setting a = [] then
    (.passed, { s with errorSignatures := [] })
  else if 0 < s.attempts .fixCompile ∧ countedErrors setting a ≠ [] ∧ allRecurring setting a s then
    (.failed, failing)
  else if s.maximum .fixCompile 3 ≤ s.attempts .fixCompile then (.failed, failing)
  else (.repair, failing)

/-- `verify_tests`. -/
def verifyTests : Return :=
  if setting.batch = [] then (.failed, s)
  else if a.testsPass then (if setting.mavenEnforcer then .delegated else .passed, s)
  else if s.maximum .fixTests 3 ≤ s.attempts .fixTests then (.failed, s)
  else (.repair, s)

/-- The classes of the batch whose line coverage is below the gate. -/
def uncovered : List String :=
  setting.batch.filter fun fqn => decide (a.line fqn < (setting.coverageGate : ℚ))

/-- A score map, as evidence reports it. -/
def reportedScores (classes : List String) (score : String → ℚ) : Named (Reported ℚ) :=
  classes.foldl (fun named fqn => named.insert fqn (.number (score fqn))) ∅

/-- `measure_coverage`. -/
def measureCoverage : Return :=
  if setting.batch = [] then (.failed, s)
  else if a.jacocoTestsPass = false ∨ a.jacocoReport = false then (.failed, s)
  else
    settle setting a .measureCoverage s
      (if uncovered setting a = [] then .passed else .repair)
      { scoresByTarget := reportedScores (uncovered setting a) a.line
        failureReason := if uncovered setting a = [] then none else some "coverage_below_gate" }

/-- The score of a class that PIT has reported on. -/
def pitScore (fqn : String) : ℚ :=
  match a.pit fqn with
  | .report score _ => score
  | _ => 0

/-- The classes whose reported score is below the gate, with mutants that survived. -/
def surviving : List String := setting.batch.filter fun fqn =>
  match a.pit fqn with
  | .report score survived => decide (score < (setting.mutationGate : ℚ)) && decide (0 < survived)
  | _ => false

/-- The first class without a report ends the loop over the batch. -/
def unreported : Option Pit := (setting.batch.map a.pit).find? fun p =>
  match p with
  | .report _ _ => false
  | _ => true

/-- `measure_mutation`. -/
def measureMutation : Return :=
  if setting.batch = [] then (.failed, s)
  else if setting.mutationGate ≤ 0 then (.skipped, s)
  else
    match unreported setting a with
    | some .redSuite => (.testsFailed, s)
    | some _ => (.failed, s)
    | none =>
      settle setting a .measureMutation s
        (if surviving setting a = [] then .passed else .repair)
        { scoresByTarget := reportedScores (surviving setting a) (pitScore a)
          failureReason := if surviving setting a = [] then none else some "mutation_below_gate" }

/-- `_unresolved_authoritative_failure`. -/
def unresolvedAuthoritativeFailure : Option GateResult :=
  if s.attempts .delegatedQualityGate ≠ 0 then none
  else s.precheckGate.filter fun gate => !gate.passed && gate.matchesBatch

/-- Maven reports one aggregate for the batch. -/
def batchKey : String := String.intercalate "|" (setting.batch.mergeSort fun x y => decide (x ≤ y))

/-- The measured result of the delegated gate that is to be repaired. -/
def gateEvidence (gate : GateResult) : Evidence ℚ where
  repairKind := some (if gate.mutationStage then "mutation" else "coverage")
  repairPhase := some Work.delegatedQualityGate.phase
  scoresByTarget := match gate.rate with
    | some rate => (∅ : Named (Reported ℚ)).insert (batchKey setting) (.number rate)
    | none => ∅

/-- A failing result of the delegated gate. -/
def repairGate (gate : GateResult) : Return :=
  if gate.matchesBatch then
    settle setting a .delegatedQualityGateVerify s .repair (gateEvidence setting gate)
  else (.failed, s)

/-- `verify_delegated_quality_gate`. -/
def verifyDelegatedQualityGate : Return :=
  if ¬ setting.mavenEnforcer then (.skipped, s)
  else if setting.batch = [] then (.failed, s)
  else if a.gate.passed then
    match unresolvedAuthoritativeFailure s with
    | none => (.passed, s)
    | some gate => repairGate setting a s gate
  else repairGate setting a s a.gate

/-- `run_phase`. -/
def runPhase : Check → Return
  | .precheckExistingTests => precheckExistingTests setting a s
  | .verifyCompile => verifyCompile setting a s
  | .verifyTests => verifyTests setting a s
  | .measureCoverage => measureCoverage setting a s
  | .measureMutation => measureMutation setting a s
  | .delegatedQualityGateVerify => verifyDelegatedQualityGate setting a s
  | .completeGeneration => (.passed, s)

/-! The interpreters. -/

/-- `interpret_plan_tests`. -/
def interpretPlanTests : Return :=
  if a.turn.completed = false then (.failed, s)
  else if a.turn.blank ∨ a.turn.narrowPlan then
    if s.attempts .planTests < s.maximum .planTests 1 then (.retry, s.spend .planTests)
    else (.exhausted, s)
  else if setting.stopAfterStage = some .planTests then (.failed, s)
  else (.passed, s)

/-- `interpret_generate_tests`. -/
def interpretGenerateTests : Return :=
  if a.turn.completed = false then (.failed, s)
  else if a.turn.missingTestFiles then
    if s.attempts .generateTests < s.maximum .generateTests 1 then (.retry, s.spend .generateTests)
    else (.exhausted, s)
  else if setting.stopAfterStage = some .generation then (.failed, s)
  else (.passed, s)

/-- `interpret_fix_compile`, `interpret_fix_tests`, `interpret_fix_coverage`,
`interpret_fix_mutation` and `interpret_delegated_quality_gate`. -/
def interpretRepair (w : Work) : Return := (.passed, s.advance.spend w)

/-- `interpret_phase`. The review decides, and its unit still fails. -/
def interpretPhase : Work → Return
  | .planTests => interpretPlanTests setting a s
  | .generateTests => interpretGenerateTests setting a s
  | .fixCompile => interpretRepair s .fixCompile
  | .fixTests => interpretRepair s .fixTests
  | .fixCoverage => interpretRepair s .fixCoverage
  | .fixMutation => interpretRepair s .fixMutation
  | .delegatedQualityGate => interpretRepair s .delegatedQualityGate
  | .reviewEquivalentMutants => (.failed, { s with reviewed := true })

end Phases

/-! The inputs of a unit. -/

/-- The settings that bound the repairs of a Java unit, with their defaults. -/
structure RepairSettings where
  coverageRepairMaxAttempts : ℤ := 6
  mutationRepairMaxAttempts : ℤ := 6
  mutationEnhancementAttempts : ℤ := 5

/-- `int(value or default)`. -/
def orDefault (value default_ : ℤ) : ℤ := if value = 0 then default_ else value

/-- `maximums` of `prepare_java_cycle_state`. -/
def RepairSettings.maximums (r : RepairSettings) : Work → ℕ
  | .planTests => 1
  | .generateTests => 1
  | .fixCompile => 3
  | .fixTests => 3
  | .fixCoverage => (max 1 (orDefault r.coverageRepairMaxAttempts 1)).toNat
  | .fixMutation => (max (orDefault r.mutationRepairMaxAttempts 0)
      (max 0 (orDefault r.mutationEnhancementAttempts 1 - 1))).toNat
  | .delegatedQualityGate => (max 6 (max (orDefault r.coverageRepairMaxAttempts 1)
      (orDefault r.mutationRepairMaxAttempts 1))).toNat
  | .reviewEquivalentMutants => 0

/-- The phases with an attempt limit. -/
def limited : List Work :=
  [.planTests, .generateTests, .fixCompile, .fixTests, .fixCoverage, .fixMutation,
    .delegatedQualityGate]

/-- `max_attempts_by_phase`. -/
def maxAttemptsByPhase (maximums : Work → ℕ) : Named ℤ :=
  limited.foldl (fun named w => named.insert w.phase (maximums w : ℤ)) ∅

def State.start (maximums : Work → ℕ) : State where
  node := entry
  progress := { maxAttemptsByPhase := maxAttemptsByPhase maximums }

/-! Crash-free runs. -/

def State.goto (s : State) (node : Node) : State := { s with node }

/-- A node of a run without crashes. The slot that it reconciles is new to the ledger, so
that nothing is restored; a pause leaves the graph. -/
def step (setting : Setting) (s : State) (a : Answer) : State :=
  match s.node with
  | .reconcile c => s.goto (c.reconcileRoute .run)
  | .run c => (runPhase setting a s c).2.goto (c.route (runPhase setting a s c).1)
  | .turnReconcile w => s.goto (w.turnReconcileRoute .run)
  | .prompt w => s.goto (.turn w)
  | .turn w => { s with node := w.turnRoute a.turn.cancelled, turns := s.turns + 1 }
  | .interpretReconcile w => s.goto (w.interpretReconcileRoute .run)
  | .interpret w => (interpretPhase setting a s w).2.goto (w.route (interpretPhase setting a s w).1)
  | .terminateGeneration => s.goto .ended
  | .rehydrate _ | .turnRehydrate _ | .resultRehydrate _ | .pauseGeneration | .ended => s

end Uta.Cycle.Java
