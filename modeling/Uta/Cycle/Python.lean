/- The Python backend of the generation cycle: what each phase makes of a verification, what its
interpreters make of a turn, and which verification the completion reports. -/
import Uta.Cycle.Java

namespace Uta.Cycle.Python
open Uta.Lib.Marks
open Uta.Operations (Outcome)
open Uta.Generation (CycleState Evidence PhaseResult Projection Reported applyRepairProgress)
open Uta.Cycle.Java (advanceVerificationAttempts plusEpsilon verdictText)

/-! Verifications. -/

structure CoverageSummary where
  rate : ℚ
  passed : Bool
  deriving DecidableEq

structure MutationSummary where
  rate : ℚ
  generated : ℕ
  killed : ℕ
  survived : ℕ
  noCoverage : ℕ
  noTests : ℕ
  timeout : ℕ
  suspicious : ℕ
  deriving DecidableEq

/-- `PythonVerificationResult`. -/
structure Verification where
  status : String
  reasonCode : String
  testsPass : Bool := false
  coverage : Option CoverageSummary := none
  mutation : Option MutationSummary := none
  message : String := ""
  deriving DecidableEq

/-- What a verification reports of its target. -/
structure ResultFields where
  status : String
  coverage : ℚ
  testsPass : Bool
  mutationScore : Option ℚ
  survivingMutants : Option ℕ := none
  totalMutants : Option ℕ := none
  killedMutants : Option ℕ := none
  noCoverageMutants : Option ℕ := none
  noTestsMutants : Option ℕ := none
  timeoutMutants : Option ℕ := none
  suspiciousMutants : Option ℕ := none
  verificationStatus : Option String := none
  verificationReason : Option String := none
  verificationMessage : Option String := none
  error : Option String := none
  deriving DecidableEq

/-- `verification_task_status`. -/
def verificationTaskStatus (status reasonCode : String) : String :=
  if status = "passed" then "PASS"
  else if reasonCode ∈ ["mutation_gate_failed", "mutation_command_failed",
      "missing_mutation_report"] then "MUTATION_FAIL"
  else "FAIL"

/-- `as_result_fields`. -/
def Verification.asResultFields (v : Verification) : ResultFields where
  status := verificationTaskStatus v.status v.reasonCode
  coverage := (v.coverage.map (·.rate)).getD 0
  testsPass := v.testsPass
  mutationScore := v.mutation.map (·.rate)
  survivingMutants := v.mutation.map (·.survived)
  totalMutants := v.mutation.map (·.generated)
  killedMutants := v.mutation.map (·.killed)
  noCoverageMutants := v.mutation.map (·.noCoverage)
  noTestsMutants := v.mutation.map (·.noTests)
  timeoutMutants := v.mutation.map (·.timeout)
  suspiciousMutants := v.mutation.map (·.suspicious)
  verificationStatus := some v.status
  verificationReason := some v.reasonCode
  verificationMessage := some v.message
  error := if v.status = "passed" then none
    else some (if v.message = "" then v.reasonCode else v.message)

/-- The fields of a target that nothing has verified. -/
def unverifiedFields : ResultFields := ⟨"FAIL", 0, false, none, none, none, none, none, none, none,
  none, none, none, none, none⟩

/-- `NON_REPAIRABLE_MUTATION_REASONS`. -/
def nonRepairableMutationReasons : List String :=
  ["mutation_backend_failed", "mutation_candidate_plan_drift", "mutation_candidate_plan_failed",
    "mutation_candidate_plan_missing_context", "mutation_resource_exhausted"]

/-! The unit. -/

/-- The test file; `none` where it does not exist. -/
abbrev Workspace := Option (List Char)

structure Setting where
  targetId : String
  mutationGate : ℚ
  ciIncremental : Bool := false

/-- What the tools, the agent and the ledger answer at one node. -/
structure Answer where
  /-- `enforce_generated_test`. -/
  verification : Verification
  /-- What is wrong with the test file as it is read: its syntax, or its imports. -/
  compileError : Option String := none
  reviewEligible : Bool := false
  cancelled : Bool := false
  /-- What a turn leaves as the test file. -/
  edited : Workspace := none
  /-- The body that a generation turn produced, if it is a test. -/
  body : Option (List Char) := none
  outcome : Outcome := .run

/-- The state of the cycle that its phases read, with the last verification that ran and the test
file that it ran on. -/
structure State where
  node : Node
  tests : Workspace
  progress : CycleState ℚ
  existing : Option Verification := none
  tested : Option Verification := none
  measured : Option Verification := none
  reviewed : Bool := false
  paused : Option Work := none
  last : Option (Verification × Workspace) := none
  reported : Option ResultFields := none

abbrev Return := PhaseOutcome × State

namespace State
variable (s : State)

/-- `attempts["python_repair_total"]`. -/
def repairTotal : ℤ := s.progress.attempts "python_repair_total"

def repairMaximum : ℤ := (s.progress.maxAttemptsByPhase.lookup "python_repair_total").getD 2

/-- A verification of the test file as it is. -/
def verified (v : Verification) : State := { s with last := some (v, s.tests) }

def goto (node : Node) : State := { s with node }

/-- `_latest_verification`, by the preference of `complete_generation`. -/
def preferred : Option Verification := s.measured.or (s.tested.or s.existing)

end State

/-! The deterministic phases. -/

section Phases
variable (setting : Setting) (a : Answer) (s : State)

/-- `_repair_or_fail`. -/
def repairOrFail : PhaseOutcome := if s.repairTotal < s.repairMaximum then .repair else .failed

/-- `apply_repair_progress` and `prepare_review` on the result of a deterministic phase. -/
def settle (c : Check) (outcome : PhaseOutcome) (evidence : Evidence ℚ) : Return :=
  let projection := applyRepairProgress plusEpsilon c.phase s.progress
    ⟨verdictText outcome, evidence⟩
  let s' := { s with progress := s.progress.project projection }
  if projection.phaseOutcome = verdictText outcome then (outcome, s')
  else if projection.failureReason = some "mutation_repair_no_progress" ∧
      setting.ciIncremental = true ∧ s.reviewed = false ∧ a.reviewEligible = true then
    (.reviewEquivalence, s')
  else (.failed, s')

/-- `precheck_existing_tests`. -/
def precheckExistingTests : Return :=
  if s.tests = none then (.planSkipped, s)
  else
    let checked := { s.verified a.verification with existing := some a.verification }
    if a.verification.status = "passed" then (.skipTarget, checked)
    else if a.verification.reasonCode ∈ nonRepairableMutationReasons then (.failed, checked)
    else (.existingRepair, checked)

/-- `verify_compile`. -/
def verifyCompile : Return :=
  match a.compileError with
  | some _ => (repairOrFail s, s)
  | none => (.passed, s)

/-- `verify_tests`. -/
def verifyTests : Return :=
  let tested := { s.verified a.verification with tested := some a.verification }
  if a.verification.testsPass = true then (.passed, tested) else (repairOrFail s, tested)

/-- The score that a phase reports of its target. -/
def reportedScore (score : ℚ) : Named (Reported ℚ) :=
  (∅ : Named (Reported ℚ)).insert setting.targetId (.number score)

/-- `measure_coverage`. -/
def measureCoverage : Return :=
  match s.tested.bind (·.coverage) with
  | none => (.failed, s)
  | some coverage =>
    settle setting a s .measureCoverage (if coverage.passed then .passed else .repair)
      { scoresByTarget := reportedScore setting coverage.rate
        failureReason := if coverage.passed then none else some "coverage_gate_failed" }

/-- `measure_mutation`. -/
def measureMutation : Return :=
  if setting.mutationGate ≤ 0 then (.skipped, { s with measured := none })
  else
    let measured := { s.verified a.verification with measured := some a.verification }
    let scores := (a.verification.mutation.map fun m => reportedScore setting m.rate).getD ∅
    if a.verification.status = "passed" then
      settle setting a measured .measureMutation .passed { scoresByTarget := scores }
    else if a.verification.reasonCode ∈ nonRepairableMutationReasons then (.failed, measured)
    else settle setting a measured .measureMutation .repair
      { scoresByTarget := scores, failureReason := some a.verification.reasonCode }

/-- `complete_generation`. -/
def completeGeneration : Return :=
  (.passed, { s with
    reported := some ((s.preferred.map Verification.asResultFields).getD unverifiedFields) })

/-- `run_phase`. -/
def runPhase : Check → Return
  | .precheckExistingTests => precheckExistingTests a s
  | .verifyCompile => verifyCompile a s
  | .verifyTests => verifyTests a s
  | .measureCoverage => measureCoverage setting a s
  | .measureMutation => measureMutation setting a s
  | .delegatedQualityGateVerify => (.skipped, s)
  | .completeGeneration => completeGeneration s

/-! The interpreters. -/

/-- `interpret_generate`. -/
def interpretGenerate : Return :=
  match a.body with
  | none => (.failed, s)
  | some body => (.passed, { s with tests := some body })

/-- `BUDGETED_REPAIR_PHASES`. -/
def budgetedRepairPhases : List Work := [.fixCompile, .fixTests]

/-- `interpret_repair`. -/
def interpretRepair (w : Work) : Return :=
  let advanced := advanceVerificationAttempts s.progress.attemptsByPhase
  let attempts := advanced.insert w.phase ((advanced.lookup w.phase).getD 0 + 1)
  let budgeted := if w ∈ budgetedRepairPhases then
    attempts.insert "python_repair_total" ((attempts.lookup "python_repair_total").getD 0 + 1)
    else attempts
  (.passed, { s with progress := { s.progress with attemptsByPhase := budgeted } })

/-- `interpret_phase`; the other phases are not the backend's, which raises. -/
def interpretPhase : Work → Option Return
  | .generateTests => some (interpretGenerate a s)
  | .fixCompile => some (interpretRepair s .fixCompile)
  | .fixTests => some (interpretRepair s .fixTests)
  | .fixCoverage => some (interpretRepair s .fixCoverage)
  | .fixMutation => some (interpretRepair s .fixMutation)
  | .reviewEquivalentMutants => some (.failed, { s with reviewed := true })
  | .planTests | .delegatedQualityGate => none

end Phases

/-! Runs. -/

/-- A node of the cycle. What is restored is what was recorded for the same slot: the node is gone
through with the recorded answers. -/
def step (setting : Setting) (s : State) (a : Answer) : State :=
  match s.node with
  | .reconcile c => s.goto (c.reconcileRoute a.outcome)
  | .run c | .rehydrate c =>
    (runPhase setting a s c).2.goto (c.route (runPhase setting a s c).1)
  | .turnReconcile w => s.goto (w.turnReconcileRoute a.outcome)
  | .prompt w => s.goto (.turn w)
  | .turn w =>
    { s with
      tests := a.edited
      paused := if a.cancelled then some w else s.paused
      node := w.turnRoute a.cancelled }
  | .turnRehydrate w => s.goto (w.turnRehydrateRoute true)
  | .interpretReconcile w => s.goto (w.interpretReconcileRoute a.outcome)
  | .interpret w | .resultRehydrate w =>
    match interpretPhase a s w with
    | some answer => answer.2.goto (w.route answer.1)
    | none => s.goto .ended
  | .pauseGeneration =>
    if a.cancelled then s
    else s.goto ((s.paused.map Node.turnReconcile).getD complete)
  | .terminateGeneration => s.goto .ended
  | .ended => s

def State.start (tests : Workspace) (progress : CycleState ℚ) : State where
  node := entry
  tests := tests
  progress := progress

end Uta.Cycle.Python
