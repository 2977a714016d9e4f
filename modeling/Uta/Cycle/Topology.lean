/- The graph of the generation cycle: its phases, the nodes of each and the branches
between them, as `generation-cycle.yaml` declares them. -/
import Uta.Operations.Reconcile

namespace Uta.Cycle
open Uta.Operations (Outcome)

/-- A deterministic phase. -/
inductive Check where
  | precheckExistingTests | verifyCompile | verifyTests | measureCoverage | measureMutation
  | delegatedQualityGateVerify | completeGeneration
  deriving DecidableEq, Repr

/-- A phase that a turn of the agent drives. -/
inductive Work where
  | planTests | generateTests | fixCompile | fixTests | fixCoverage | fixMutation
  | delegatedQualityGate | reviewEquivalentMutants
  deriving DecidableEq, Repr

def Check.phase : Check → String
  | .precheckExistingTests => "precheck_existing_tests"
  | .verifyCompile => "verify_compile"
  | .verifyTests => "verify_tests"
  | .measureCoverage => "measure_coverage"
  | .measureMutation => "measure_mutation"
  | .delegatedQualityGateVerify => "delegated_quality_gate_verify"
  | .completeGeneration => "complete_generation"

def Work.phase : Work → String
  | .planTests => "plan_tests"
  | .generateTests => "generate_tests"
  | .fixCompile => "fix_compile"
  | .fixTests => "fix_tests"
  | .fixCoverage => "fix_coverage"
  | .fixMutation => "fix_mutation"
  | .delegatedQualityGate => "delegated_quality_gate"
  | .reviewEquivalentMutants => "review_equivalent_mutants"

/-- The nodes of a phase have one shape, by its kind. -/
inductive Node where
  | reconcile (c : Check)
  | run (c : Check)
  | rehydrate (c : Check)
  | turnReconcile (w : Work)
  | prompt (w : Work)
  | turn (w : Work)
  | turnRehydrate (w : Work)
  | interpretReconcile (w : Work)
  | interpret (w : Work)
  | resultRehydrate (w : Work)
  | pauseGeneration
  | terminateGeneration
  | ended
  deriving DecidableEq, Repr

def entry : Node := .reconcile .precheckExistingTests

/-- The verdicts that phases return. -/
inductive PhaseOutcome where
  | passed | repair | retry | exhausted | failed | skipped
  | proceed | planSkipped | existingRepair | skipTarget | delegatedRepair
  | delegated | «continue» | testsFailed | reviewEquivalence
  deriving DecidableEq, Repr

def complete : Node := .reconcile .completeGeneration

/-! The branches. -/

/-- The branch at `<phase>_run` and at `<phase>_rehydrate`. -/
def Check.route : Check → PhaseOutcome → Node
  | .precheckExistingTests, .proceed => .turnReconcile .planTests
  | .precheckExistingTests, .planSkipped => .turnReconcile .generateTests
  | .precheckExistingTests, .existingRepair => .reconcile .verifyCompile
  | .precheckExistingTests, .delegatedRepair => .reconcile .delegatedQualityGateVerify
  | .verifyCompile, .passed | .verifyCompile, .skipped => .reconcile .verifyTests
  | .verifyCompile, .repair => .turnReconcile .fixCompile
  | .verifyTests, .passed => .reconcile .measureCoverage
  | .verifyTests, .delegated => .reconcile .delegatedQualityGateVerify
  | .verifyTests, .repair => .turnReconcile .fixTests
  | .measureCoverage, .passed | .measureCoverage, .continue | .measureCoverage, .skipped =>
      .reconcile .measureMutation
  | .measureCoverage, .repair => .turnReconcile .fixCoverage
  | .measureMutation, .reviewEquivalence => .turnReconcile .reviewEquivalentMutants
  | .measureMutation, .passed | .measureMutation, .skipped => .reconcile .delegatedQualityGateVerify
  | .measureMutation, .repair => .turnReconcile .fixMutation
  | .measureMutation, .testsFailed => .turnReconcile .fixTests
  | .delegatedQualityGateVerify, .reviewEquivalence => .turnReconcile .reviewEquivalentMutants
  | .delegatedQualityGateVerify, .repair => .turnReconcile .delegatedQualityGate
  | .completeGeneration, _ => .ended
  | _, _ => complete

/-- The branch at `<phase>_interpret` and at `<phase>_result_rehydrate`. -/
def Work.route : Work → PhaseOutcome → Node
  | .planTests, .passed => .turnReconcile .generateTests
  | .generateTests, .passed | .fixCompile, .passed => .reconcile .verifyCompile
  | .fixTests, .passed | .fixCoverage, .passed | .fixMutation, .passed
  | .delegatedQualityGate, .passed => .reconcile .verifyTests
  | .reviewEquivalentMutants, _ => complete
  | w, .retry => .turnReconcile w
  | _, _ => complete

def Check.reconcileRoute (c : Check) : Outcome → Node
  | .run | .retryNoEffect => .run c
  | .reuseResult | .adoptResult => .rehydrate c
  | .verifyExistingEdit | .failIndeterminate | .failUnsafe => .terminateGeneration

/-- Where `verify_existing_edit` goes: a verifier, for the phases that may edit. -/
def Work.editRoute : Work → Node
  | .generateTests | .fixCompile => .reconcile .verifyCompile
  | .fixTests | .fixCoverage | .fixMutation | .delegatedQualityGate => .reconcile .verifyTests
  | .planTests | .reviewEquivalentMutants => .terminateGeneration

def Work.turnReconcileRoute (w : Work) : Outcome → Node
  | .run | .retryNoEffect => .prompt w
  | .reuseResult | .adoptResult => .turnRehydrate w
  | .verifyExistingEdit => w.editRoute
  | .failIndeterminate | .failUnsafe => .terminateGeneration

def Work.interpretReconcileRoute (w : Work) : Outcome → Node
  | .run | .retryNoEffect => .interpret w
  | .reuseResult | .adoptResult => .resultRehydrate w
  | .verifyExistingEdit => w.editRoute
  | .failIndeterminate | .failUnsafe => .terminateGeneration

/-- `normalized_turn_outcome`. -/
def Work.turnRoute (w : Work) (cancelled : Bool) : Node :=
  if cancelled then .pauseGeneration else .interpretReconcile w

/-- `rehydration_outcome`. -/
def Work.turnRehydrateRoute (w : Work) (ready : Bool) : Node :=
  if ready then .interpretReconcile w else complete

/-- The nodes of the phases that end the cycle. -/
def Node.terminal : Node → Bool
  | .reconcile .completeGeneration | .run .completeGeneration | .rehydrate .completeGeneration
  | .terminateGeneration | .ended => true
  | _ => false

end Uta.Cycle
