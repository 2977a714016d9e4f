/- The longest run of a unit: every attempt is taken, the ones that cost most as late as
they can be, and every score improves on the one before it. -/
import Uta.Cycle.Turns
import Uta.Generation.RepairTrace
import Mathlib.Tactic.Linarith

namespace Uta.Cycle.Java
open Uta.Lib Uta.Lib.Marks
open Uta.Generation

/-! Scores of one class. -/

/-- The class of the batch. -/
def only : String := "A"

/-- The best score of the class in the history of a repair phase. -/
def State.best (s : State) (w : Work) : WithBot ℚ := mark (bestScoresFor s.progress w.phase) only

/-- A measurement, as a round of the policy. -/
def State.round (s : State) (c : Check) (outcome : PhaseOutcome) (evidence : Evidence ℚ) : Round ℚ where
  attemptsByPhase := s.progress.attemptsByPhase
  maxAttemptsByPhase := s.progress.maxAttemptsByPhase
  mainModel := s.progress.mainModel
  phase := c.phase
  result := ⟨verdictText outcome, evidence⟩

section Scores
variable {setting : Setting} {a : Answer} {c : Check} {s : State} {kind : RepairKind} {w : Work}

theorem settle_progress (outcome : PhaseOutcome) (evidence : Evidence ℚ) :
    (settle setting a c s outcome evidence).2.progress =
      (s.round c outcome evidence).advance plusEpsilon s.progress := by
  unfold settle
  dsimp only
  split_ifs <;> rfl

/-- The evidence of the score-driven phases. -/
def scored (classes : List String) (score : String → ℚ) (reason : Option String) : Evidence ℚ :=
  { scoresByTarget := reportedScores classes score, failureReason := reason }

theorem scored_kind (driven : scoreDrivenPhases c.phase = some kind) {outcome : PhaseOutcome}
    (verdict : outcome = .passed ∨ outcome = .repair) (evidence : Evidence ℚ) :
    decidedKind c.phase ⟨verdictText outcome, evidence⟩ = some kind := by
  unfold decidedKind kindOf
  rw [driven]
  rcases verdict with rfl | rfl <;> rfl

/-- What a score adds to the histories. -/
theorem best_settle (driven : scoreDrivenPhases c.phase = some kind)
    (own : repairPhaseFor kind = w.phase) {outcome : PhaseOutcome}
    (verdict : outcome = .passed ∨ outcome = .repair) (classes : List String) (score : String → ℚ)
    (reason : Option String) (v : Work) :
    State.best (settle setting a c s outcome (scored classes score reason)).2 v =
      max (s.best v) (if v = w then mark (scores (reportedScores classes score)) only else ⊥) := by
  have history : (s.round c outcome (scored classes score reason)).history = some w.phase := by
    have decided : (s.round c outcome (scored classes score reason)).kind = some kind :=
      scored_kind driven verdict _
    rw [history_decided decided, ← own]
    rfl
  unfold State.best
  rw [settle_progress, mark_advance]
  congr 1
  unfold Round.adds
  rw [history]
  by_cases same : v = w
  · subst same
    rw [if_pos rfl, if_pos rfl]
    rfl
  · rw [if_neg same, if_neg fun equal => same (phase_injective (Option.some.inj equal)).symm]
    rfl

theorem beats_mono {best : WithBot ℚ} {x y : ℚ} (above : x ≤ y)
    (beaten : beats plusEpsilon best x = true) : beats plusEpsilon best y = true := by
  induction best using WithBot.recBotCoe with
  | bot => rfl
  | coe b =>
      have low : plusEpsilon b < x := of_decide_eq_true beaten
      exact decide_eq_true (low.trans_le above)

theorem beats_max {b c : WithBot ℚ} {x : ℚ} (first : beats plusEpsilon b x = true)
    (second : beats plusEpsilon c x = true) : beats plusEpsilon (max b c) x = true := by
  rcases max_choice b c with same | same <;> rw [same] <;> assumption

/-- A repair below the ceiling is granted when a score improved, or none was measured. -/
theorem settle_granted {evidence : Evidence ℚ}
    (decided : decidedKind c.phase ⟨verdictText .repair, evidence⟩ = some kind)
    (below : s.progress.attempts (repairPhaseOf kind evidence) <
      s.progress.hardCap (repairPhaseOf kind evidence))
    (worth : (decisionOn plusEpsilon kind s.progress ⟨verdictText .repair, evidence⟩).improved ≠ [] ∨
      (scores evidence.scoresByTarget).entries = []) :
    (settle setting a c s .repair evidence).1 = .repair := by
  have granted : (decisionOn plusEpsilon kind s.progress
      ⟨verdictText .repair, evidence⟩).shouldRepair = true := by
    rw [← Bool.not_eq_false]
    intro refused
    rcases decision_refused.mp refused with full | ⟨flat, measured, _⟩
    · exact absurd below (not_lt.mpr full)
    · rcases worth with improved | unmeasured
      · exact improved flat
      · exact measured unmeasured
  have stays : (applyRepairProgress plusEpsilon c.phase s.progress
      ⟨verdictText .repair, evidence⟩).phaseOutcome = verdictText .repair := by
    unfold applyRepairProgress
    rw [decided]
    unfold decidedProjection
    dsimp only
    rw [granted]
    rfl
  unfold settle
  dsimp only
  rw [if_pos stays]

theorem settle_improved (driven : scoreDrivenPhases c.phase = some kind)
    (own : repairPhaseFor kind = w.phase) (score : String → ℚ) (reason : Option String)
    (below : s.progress.attempts w.phase < s.progress.hardCap w.phase)
    (improves : beats plusEpsilon (s.best w) (score only) = true) :
    (settle setting a c s .repair (scored [only] score reason)).1 = .repair := by
  have phase : repairPhaseOf kind (scored [only] score reason) = w.phase := own
  refine settle_granted (scored_kind driven (.inr rfl) _) (by rwa [phase]) (.inl ?_)
  refine decision_improved.mpr (List.any_eq_true.mpr ⟨⟨only, score only⟩, .head _, ?_⟩)
  rw [scores_recorded]
  show beats plusEpsilon (mark (bestScoresFor s.progress (repairPhaseFor kind)) only) _ = true
  rw [own]
  exact improves

end Scores

/-! The answers. -/

section Answers
variable (maximums : Work → ℕ) (enforced : Bool) (s : State)

def longestSetting : Setting where
  batch := [only]
  coverageGate := maximums .fixCoverage + 1
  mutationGate := maximums .fixMutation + 1
  mavenEnforcer := enforced

/-- An attempt of a phase is left. -/
def State.leaves (w : Work) : Bool := decide (s.attempts w < maximums w)

/-- Every phase fails while it has an attempt left. Scores follow the attempts. -/
def longestAnswer : Answer where
  compilation := ⟨!s.leaves maximums .fixCompile, []⟩
  testsPass := !(enforced && s.leaves maximums .fixTests)
  line := fun _ => s.attempts .fixCoverage + 1
  pit := fun _ =>
    if s.leaves maximums .fixTests then .redSuite else .report (s.attempts .fixMutation + 1) 1
  gate := ⟨!s.leaves maximums .delegatedQualityGate, true, false, none⟩
  turn := ⟨true, false, s.leaves maximums .planTests, false, s.leaves maximums .generateTests⟩

def longestVerdict : Check → PhaseOutcome
  | .precheckExistingTests => .proceed
  | .verifyCompile => if s.leaves maximums .fixCompile then .repair else .passed
  | .verifyTests =>
      if enforced then if s.leaves maximums .fixTests then .repair else .delegated else .passed
  | .measureCoverage => if s.leaves maximums .fixCoverage then .repair else .passed
  | .measureMutation =>
      if s.leaves maximums .fixTests then .testsFailed
      else if s.leaves maximums .fixMutation then .repair else .passed
  | .delegatedQualityGateVerify =>
      if enforced then if s.leaves maximums .delegatedQualityGate then .repair else .passed else .skipped
  | .completeGeneration => .passed

end Answers

section Verdicts
variable {maximums : Work → ℕ} {enforced : Bool} {s : State}

theorem leaves_iff {w : Work} : s.leaves maximums w = true ↔ s.attempts w < maximums w :=
  decide_eq_true_iff

/-- The score of an attempt is below the gate while one is left. -/
theorem score_below (w : Work) : ((s.attempts w + 1 : ℚ) < ((maximums w + 1 : ℤ) : ℚ)) ↔
    s.leaves maximums w = true := by
  rw [leaves_iff]
  push_cast
  rw [add_lt_add_iff_right]
  exact_mod_cast Iff.rfl

theorem longest_compile (lim : s.Limited maximums) : (verifyCompile (longestSetting maximums enforced)
    (longestAnswer maximums enforced s) s).1 = longestVerdict maximums enforced s .verifyCompile := by
  unfold verifyCompile longestVerdict
  cases left : s.leaves maximums .fixCompile with
  | false => simp [longestAnswer, left]
  | true =>
      have below := leaves_iff.mp left
      rw [← lim.maximum (by decide) 3] at below
      simp [longestAnswer, longestSetting, left, countedErrors, not_le.mpr below]

theorem longest_tests (lim : s.Limited maximums) : (verifyTests (longestSetting maximums enforced)
    (longestAnswer maximums enforced s) s).1 = longestVerdict maximums enforced s .verifyTests := by
  unfold verifyTests longestVerdict
  cases enforced with
  | false => simp [longestAnswer, longestSetting]
  | true =>
      cases left : s.leaves maximums .fixTests with
      | false => simp [longestAnswer, longestSetting, left]
      | true =>
          have below := leaves_iff.mp left
          rw [← lim.maximum (by decide) 3] at below
          simp [longestAnswer, longestSetting, left, not_le.mpr below]

theorem longest_precheck : (precheckExistingTests (longestSetting maximums enforced)
    (longestAnswer maximums enforced s) s).1 = longestVerdict maximums enforced s .precheckExistingTests := by
  simp [precheckExistingTests, longestVerdict, longestAnswer, longestSetting]

/-- Coverage is measured below the gate while a repair of it is left. -/
theorem longest_coverage : measureCoverage (longestSetting maximums enforced)
    (longestAnswer maximums enforced s) s =
    settle (longestSetting maximums enforced) (longestAnswer maximums enforced s) .measureCoverage s
      (if s.leaves maximums .fixCoverage then .repair else .passed)
      (scored (if s.leaves maximums .fixCoverage then [only] else [])
        (fun _ => s.attempts .fixCoverage + 1)
        (if s.leaves maximums .fixCoverage then some "coverage_below_gate" else none)) := by
  have low : uncovered (longestSetting maximums enforced) (longestAnswer maximums enforced s) =
      if s.leaves maximums .fixCoverage then [only] else [] := by
    have same := Bool.eq_iff_iff.mpr (decide_eq_true_iff.trans (@score_below maximums s .fixCoverage))
    unfold uncovered
    rw [show (longestSetting maximums enforced).batch = [only] from rfl, List.filter_singleton]
    exact (congrArg (fun b => bif b then [only] else []) same).trans (Bool.cond_eq_ite _ _ _)
  unfold measureCoverage
  rw [low]
  cases s.leaves maximums .fixCoverage <;> rfl

/-- So is mutation, once the suite is green. -/
theorem longest_mutation (green : s.leaves maximums .fixTests = false) :
    measureMutation (longestSetting maximums enforced) (longestAnswer maximums enforced s) s =
    settle (longestSetting maximums enforced) (longestAnswer maximums enforced s) .measureMutation s
      (if s.leaves maximums .fixMutation then .repair else .passed)
      (scored (if s.leaves maximums .fixMutation then [only] else [])
        (fun _ => s.attempts .fixMutation + 1)
        (if s.leaves maximums .fixMutation then some "mutation_below_gate" else none)) := by
  have pit : (longestAnswer maximums enforced s).pit = fun _ => .report (s.attempts .fixMutation + 1) 1 := by
    unfold longestAnswer
    simp only [green, Bool.false_eq_true, if_false]
  have low : surviving (longestSetting maximums enforced) (longestAnswer maximums enforced s) =
      if s.leaves maximums .fixMutation then [only] else [] := by
    have same := Bool.eq_iff_iff.mpr (decide_eq_true_iff.trans (@score_below maximums s .fixMutation))
    unfold surviving
    rw [pit, show (longestSetting maximums enforced).batch = [only] from rfl, List.filter_singleton]
    have and_true : ∀ b : Bool, (b && decide (0 < 1)) = b := fun b => Bool.and_true b
    exact (congrArg (fun b => bif b then [only] else []) ((and_true _).trans same)).trans
      (Bool.cond_eq_ite _ _ _)
  have all : unreported (longestSetting maximums enforced) (longestAnswer maximums enforced s) = none := by
    unfold unreported
    rw [pit]
    rfl
  have open_ : ¬ (longestSetting maximums enforced).mutationGate ≤ 0 := by
    show ¬ (maximums .fixMutation : ℤ) + 1 ≤ 0
    omega
  have scores : pitScore (longestAnswer maximums enforced s) = fun _ => (s.attempts .fixMutation + 1 : ℚ) := by
    funext fqn
    unfold pitScore
    rw [pit]
  unfold measureMutation
  rw [if_neg open_, all, low, scores]
  cases s.leaves maximums .fixMutation <;> rfl

theorem longest_redSuite (red : s.leaves maximums .fixTests = true) :
    measureMutation (longestSetting maximums enforced) (longestAnswer maximums enforced s) s =
      (.testsFailed, s) := by
  have suite : unreported (longestSetting maximums enforced) (longestAnswer maximums enforced s) =
      some .redSuite := by
    unfold unreported longestAnswer
    simp only [red, if_true]
    rfl
  have open_ : ¬ (longestSetting maximums enforced).mutationGate ≤ 0 := by
    show ¬ (maximums .fixMutation : ℤ) + 1 ≤ 0
    omega
  unfold measureMutation
  rw [if_neg open_, suite]
  rfl

theorem longest_gate (lim : s.Limited maximums) (unset : s.precheckGate = none) :
    (verifyDelegatedQualityGate (longestSetting maximums enforced)
      (longestAnswer maximums enforced s) s).1 =
      longestVerdict maximums enforced s .delegatedQualityGateVerify := by
  have calm : unresolvedAuthoritativeFailure s = none := by
    unfold unresolvedAuthoritativeFailure
    rw [unset]
    split_ifs <;> rfl
  unfold verifyDelegatedQualityGate longestVerdict
  cases enforced with
  | false => rfl
  | true =>
      have on : ¬¬ (longestSetting maximums true).mavenEnforcer = true := not_not.mpr rfl
      rw [if_neg on, if_neg (show ¬ (longestSetting maximums true).batch = [] from nofun)]
      cases left : s.leaves maximums .delegatedQualityGate with
      | false =>
          rw [if_pos (show (longestAnswer maximums true s).gate.passed = true from congrArg not left), calm]
          rfl
      | true =>
          have failed : ¬ (longestAnswer maximums true s).gate.passed = true := by
            rw [show (longestAnswer maximums true s).gate.passed = false from congrArg not left]
            exact Bool.false_ne_true
          have below := leaves_iff.mp left
          rw [← lim.hardCap (by decide)] at below
          rw [if_neg failed]
          exact settle_granted rfl below (.inr rfl)

/-- The scores of a class improve from one measurement to the next. -/
def State.Improving (s : State) : Prop :=
  ∀ w ∈ [Work.fixCoverage, .fixMutation], beats plusEpsilon (s.best w) (s.used false w + 1) = true

/-- What the phases make of the answers. -/
theorem longest_verdict {c : Check} (fits : c.fits enforced = true) (lim : s.Limited maximums)
    (unset : s.precheckGate = none) (improves : enforced = false → ∀ w ∈ [Work.fixCoverage, .fixMutation],
      beats plusEpsilon (s.best w) (s.attempts w + 1) = true) :
    (runPhase (longestSetting maximums enforced) (longestAnswer maximums enforced s) s c).1 =
      longestVerdict maximums enforced s c := by
  cases c with
  | precheckExistingTests => exact longest_precheck
  | verifyCompile => exact longest_compile lim
  | verifyTests => exact longest_tests lim
  | measureCoverage =>
      have off : enforced = false := by simpa only [Check.fits, Bool.not_eq_true'] using fits
      show (measureCoverage _ _ _).1 = _
      rw [longest_coverage]
      unfold longestVerdict
      cases left : s.leaves maximums .fixCoverage with
      | false => exact settle_passed rfl
      | true =>
          have below := leaves_iff.mp left
          rw [← lim.hardCap (by decide)] at below
          exact settle_improved rfl rfl _ _ below (improves off _ (by decide))
  | measureMutation =>
      have off : enforced = false := by simpa only [Check.fits, Bool.not_eq_true'] using fits
      show (measureMutation _ _ _).1 = _
      unfold longestVerdict
      cases red : s.leaves maximums .fixTests with
      | true => rw [longest_redSuite red]; rfl
      | false =>
          rw [longest_mutation red]
          cases left : s.leaves maximums .fixMutation with
          | false => exact settle_passed rfl
          | true =>
              have below := leaves_iff.mp left
              rw [← lim.hardCap (by decide)] at below
              exact settle_improved rfl rfl _ _ below (improves off _ (by decide))
  | delegatedQualityGateVerify => exact longest_gate lim unset
  | completeGeneration => rfl

end Verdicts
end Uta.Cycle.Java

namespace Uta.Cycle

/-! The way of the longest run. -/

/-- The phases whose attempts are all taken once the run is at a node. -/
def Check.gone (enforced : Bool) : Check → List Work
  | .precheckExistingTests | .completeGeneration => []
  | .verifyCompile => [.planTests, .generateTests]
  | .verifyTests | .measureCoverage => [.planTests, .generateTests, .fixCompile]
  | .measureMutation => [.planTests, .generateTests, .fixCompile, .fixCoverage]
  | .delegatedQualityGateVerify =>
      .planTests :: .generateTests :: .fixCompile :: .fixTests ::
        if enforced then [] else [.fixCoverage, .fixMutation]

def Work.gone (enforced : Bool) : Work → List Work
  | .planTests => []
  | .generateTests => [.planTests]
  | .fixCompile => [.planTests, .generateTests]
  | .reviewEquivalentMutants => Java.limited.filter (Work.fits enforced)
  | _ => [.planTests, .generateTests, .fixCompile]

def Node.gone (enforced : Bool) : Node → List Work
  | .reconcile c | .run c => c.gone enforced
  | .turnReconcile w | .prompt w | .turn w | .interpretReconcile w | .interpret w => w.gone enforced
  | _ => []

/-- The branches of the longest run, with the phases that have no attempt left where each is
taken. -/
inductive Way (enforced : Bool) : Node → Node → List Work → Prop
  | started (c : Check) : Way enforced (.reconcile c) (.run c) []
  | begun (w : Work) : Way enforced (.turnReconcile w) (.prompt w) []
  | prompted (w : Work) : Way enforced (.prompt w) (.turn w) []
  | answered (w : Work) : Way enforced (.turn w) (.interpretReconcile w) []
  | read (w : Work) : Way enforced (.interpretReconcile w) (.interpret w) []
  | proceed : Way enforced (.run .precheckExistingTests) (.turnReconcile .planTests) []
  | replanned : Way enforced (.interpret .planTests) (.turnReconcile .planTests) []
  | planned : Way enforced (.interpret .planTests) (.turnReconcile .generateTests) [.planTests]
  | regenerated : Way enforced (.interpret .generateTests) (.turnReconcile .generateTests) []
  | generated : Way enforced (.interpret .generateTests) (.reconcile .verifyCompile) [.generateTests]
  | compileRepair : Way enforced (.run .verifyCompile) (.turnReconcile .fixCompile) []
  | compiled : Way enforced (.run .verifyCompile) (.reconcile .verifyTests) [.fixCompile]
  | testRepair (on : enforced = true) :
      Way enforced (.run .verifyTests) (.turnReconcile .fixTests) []
  | delegated (on : enforced = true) :
      Way enforced (.run .verifyTests) (.reconcile .delegatedQualityGateVerify) [.fixTests]
  | gateRepair (on : enforced = true) :
      Way enforced (.run .delegatedQualityGateVerify) (.turnReconcile .delegatedQualityGate) []
  | tested (off : enforced = false) :
      Way enforced (.run .verifyTests) (.reconcile .measureCoverage) []
  | coverageRepair (off : enforced = false) :
      Way enforced (.run .measureCoverage) (.turnReconcile .fixCoverage) []
  | covered (off : enforced = false) :
      Way enforced (.run .measureCoverage) (.reconcile .measureMutation) [.fixCoverage]
  | redSuite (off : enforced = false) :
      Way enforced (.run .measureMutation) (.turnReconcile .fixTests) []
  | mutationRepair (off : enforced = false) :
      Way enforced (.run .measureMutation) (.turnReconcile .fixMutation) []
  | mutated (off : enforced = false) :
      Way enforced (.run .measureMutation) (.reconcile .delegatedQualityGateVerify)
        [.fixTests, .fixMutation]
  | repaired (w : Work) (repair : w ∈ repairs) :
      Way enforced (.interpret w) (.reconcile w.verifier) []

section Tight
variable {enforced : Bool} {n n' : Node} {spent : List Work}

/-- A branch of the way counts for as much as its node and its attempt can. -/
theorem Way.tight (way : Way enforced n n' spent) {charge : Option Work}
    (edge : Edge enforced n n' charge) :
    n'.distance enforced + 1 = n.distance enforced + (charge.map (Work.nodes enforced)).getD 0 ∧
      n'.turns + n.isTurn.toNat = n.turns + (charge.map (Work.turns enforced)).getD 0 := by
  cases way with
  | started c => cases edge; cases c <;> exact ⟨rfl, rfl⟩
  | begun w | prompted w | answered w | read w => cases edge; exact ⟨rfl, rfl⟩
  | testRepair on | delegated on | gateRepair on => subst on; cases edge; exact ⟨rfl, rfl⟩
  | tested off | coverageRepair off | covered off | redSuite off | mutationRepair off | mutated off =>
      subst off; cases edge; exact ⟨rfl, rfl⟩
  | repaired w repair =>
      cases w <;> first | exact absurd repair (by decide) | (cases edge; exact ⟨rfl, rfl⟩)
  | generated =>
      cases edge with
      | generated => cases enforced <;> exact ⟨rfl, rfl⟩
      | repaired _ repair => exact absurd repair (by decide)
  | _ => cases edge; cases enforced <;> exact ⟨rfl, rfl⟩

theorem Way.going (way : Way enforced n n' spent) (going : n.terminal = false) : n'.terminal = false := by
  cases way with
  | started c => cases c <;> first | rfl | cases going
  | repaired w repair => cases w <;> rfl
  | _ => rfl

theorem Way.gone (way : Way enforced n n' spent) {v : Work} (gone : v ∈ n'.gone enforced) :
    v ∈ n.gone enforced ∨ v ∈ spent := by
  cases way with
  | started c | begun w | prompted w | answered w | read w => exact .inl gone
  | repaired w repair => cases w <;> first | exact .inl gone | exact absurd repair (by decide)
  | testRepair on | delegated on | gateRepair on => subst on; revert v; decide
  | tested off | coverageRepair off | covered off | redSuite off | mutationRepair off | mutated off =>
      subst off; revert v; decide
  | _ => cases enforced <;> (revert v; decide)

end Tight

namespace Java
open Uta.Lib Uta.Lib.Marks
open Uta.Generation

/-- A step of the longest run: along the way, or to the end with nothing left. -/
def Onward (maximums : Work → ℕ) (enforced : Bool) (s s' : State) : Prop :=
  (∃ spent, Way enforced s.node s'.node spent ∧
      ∀ w ∈ spent, s'.left maximums enforced w = 0) ∨
    s'.node.terminal = true ∧ s.node.distance enforced = 1 ∧ s.node.turns = 0 ∧
      ∀ w ∈ limited, w.fits enforced = true → s.left maximums enforced w = 0

section Way
variable {maximums : Work → ℕ} {enforced : Bool} {s : State}

theorem left_of_leaves {s' : State} {w : Work} (kept : s'.attempts w = s.attempts w)
    (idle : s'.node.charges enforced = none) (none_ : s.leaves maximums w = false) :
    s'.left maximums enforced w = 0 := by
  have full : ¬ s.attempts w < maximums w := of_decide_eq_false none_
  rw [State.left, used_idle idle, kept]
  omega

theorem onward_along {s' : State} {n n' : Node} (here : s.node = n) (next : s'.node = n')
    {spent : List Work} (way : Way enforced n n' spent)
    (zero : ∀ w ∈ spent, s'.left maximums enforced w = 0) : Onward maximums enforced s s' :=
  .inl ⟨spent, here ▸ next ▸ way, zero⟩

/-- The branch at a deterministic phase. -/
theorem onward_run {c : Check} {s' : State} (here : s.node = .run c) (fits : c.fits enforced = true)
    (going : s.node.terminal = false) (kept : ∀ w, s'.attempts w = s.attempts w)
    (gone : ∀ w ∈ s.node.gone enforced, s.left maximums enforced w = 0)
    (next : s'.node = c.route (longestVerdict maximums enforced s c)) :
    Onward maximums enforced s s' := by
  have zero : s'.node.charges enforced = none → ∀ w, s.leaves maximums w = false →
      s'.left maximums enforced w = 0 := fun idle w none_ => left_of_leaves (kept w) idle none_
  unfold longestVerdict at next
  cases c with
  | completeGeneration => rw [here] at going; cases going
  | precheckExistingTests => exact onward_along here next .proceed nofun
  | verifyCompile =>
      cases left : s.leaves maximums .fixCompile with
      | true =>
          rw [left] at next
          exact onward_along here next .compileRepair nofun
      | false =>
          rw [left] at next
          refine onward_along here next .compiled (List.forall_mem_singleton.mpr ?_)
          exact zero (by rw [next]; rfl) _ left
  | verifyTests =>
      cases enforced with
      | false => exact onward_along here next (.tested rfl) nofun
      | true =>
          cases left : s.leaves maximums .fixTests with
          | true =>
              rw [left] at next
              exact onward_along here next (.testRepair rfl) nofun
          | false =>
              rw [left] at next
              refine onward_along here next (.delegated rfl) (List.forall_mem_singleton.mpr ?_)
              exact zero (by rw [next]; rfl) _ left
  | measureCoverage =>
      have off : enforced = false := by simpa only [Check.fits, Bool.not_eq_true'] using fits
      cases left : s.leaves maximums .fixCoverage with
      | true =>
          rw [left] at next
          exact onward_along here next (.coverageRepair off) nofun
      | false =>
          rw [left] at next
          refine onward_along here next (.covered off) (List.forall_mem_singleton.mpr ?_)
          exact zero (by rw [next]; rfl) _ left
  | measureMutation =>
      have off : enforced = false := by simpa only [Check.fits, Bool.not_eq_true'] using fits
      cases red : s.leaves maximums .fixTests with
      | true =>
          rw [red] at next
          exact onward_along here next (.redSuite off) nofun
      | false =>
          cases left : s.leaves maximums .fixMutation with
          | true =>
              rw [red, left] at next
              exact onward_along here next (.mutationRepair off) nofun
          | false =>
              rw [red, left] at next
              have idle : s'.node.charges enforced = none := by rw [next]; rfl
              exact onward_along here next (.mutated off)
                (List.forall_mem_cons.mpr ⟨zero idle _ red, List.forall_mem_singleton.mpr (zero idle _ left)⟩)
  | delegatedQualityGateVerify =>
      rw [here] at gone
      cases enforced with
      | false =>
          right
          rw [here, next]
          refine ⟨rfl, rfl, rfl, fun w bounded own => gone w ?_⟩
          revert w
          decide
      | true =>
          cases left : s.leaves maximums .delegatedQualityGate with
          | true =>
              rw [left] at next
              exact onward_along here next (.gateRepair rfl) nofun
          | false =>
              right
              have last : s.left maximums true .delegatedQualityGate = 0 :=
                left_of_leaves rfl (by rw [here]; rfl) left
              rw [next, left, here]
              refine ⟨rfl, rfl, rfl, fun w bounded own => ?_⟩
              by_cases same : w = .delegatedQualityGate
              · rw [same]
                exact last
              · refine gone w ?_
                revert w
                decide

end Way

/-! The run. -/

/-- The state of the longest run. -/
structure State.Longest (maximums : Work → ℕ) (enforced : Bool) (s : State) : Prop where
  placed : s.Placed maximums (longestSetting maximums enforced)
  unset : s.precheckGate = none
  gone : s.node.terminal = false → ∀ w ∈ s.node.gone enforced, s.left maximums enforced w = 0
  improving : s.node.terminal = false → enforced = false → s.Improving
  turns : s.turns + s.turnsAhead maximums enforced = mostTurns maximums enforced

/-- One node of the longest run. -/
def longestStep (maximums : Work → ℕ) (enforced : Bool) (s : State) : State :=
  step (longestSetting maximums enforced) s (longestAnswer maximums enforced s)

section Run
variable {maximums : Work → ℕ} {enforced : Bool} {s : State}

theorem longest_within (lim : s.Limited maximums) :
    Within (longestSetting maximums enforced) s (longestAnswer maximums enforced s) := by
  refine ⟨fun _ _ => rfl, fun _ _ suite => ?_⟩
  rw [lim.maximum (by decide)]
  apply leaves_iff.mp
  by_contra green
  have pit : (longestAnswer maximums enforced s).pit only = .report (s.attempts .fixMutation + 1) 1 :=
    if_neg green
  have same := List.find?_some suite
  have found : Pit.redSuite ∈ [(longestAnswer maximums enforced s).pit only] :=
    List.mem_of_find?_eq_some suite
  rw [pit] at found
  cases List.mem_singleton.mp found

/-- Planning and generation retry while they can. -/
theorem onward_interpret {w : Work} (here : s.node = .interpret w) (going : s.node.terminal = false)
    (longest : s.Longest maximums enforced) :
    Onward maximums enforced s (longestStep maximums enforced s) := by
  unfold longestStep
  rw [step_interpret here]
  cases w with
  | planTests =>
      show Onward _ _ _ ((interpretPlanTests _ _ s).2.goto (Work.route _ (interpretPlanTests _ _ s).1))
      unfold interpretPlanTests
      cases left : s.leaves maximums .planTests with
      | true =>
          have below := leaves_iff.mp left
          rw [← longest.placed.limits.maximum (by decide) 1] at below
          simp only [longestAnswer, left, below]
          exact onward_along here rfl .replanned nofun
      | false =>
          simp only [longestAnswer, longestSetting, left]
          exact onward_along here rfl .planned
            (List.forall_mem_singleton.mpr (left_of_leaves rfl rfl left))
  | generateTests =>
      show Onward _ _ _ ((interpretGenerateTests _ _ s).2.goto
        (Work.route _ (interpretGenerateTests _ _ s).1))
      unfold interpretGenerateTests
      cases left : s.leaves maximums .generateTests with
      | true =>
          have below := leaves_iff.mp left
          rw [← longest.placed.limits.maximum (by decide) 1] at below
          simp only [longestAnswer, left, below]
          exact onward_along here rfl .regenerated nofun
      | false =>
          simp only [longestAnswer, longestSetting, left]
          exact onward_along here rfl .generated
            (List.forall_mem_singleton.mpr (left_of_leaves rfl rfl left))
  | reviewEquivalentMutants =>
      right
      have gone := longest.gone going
      rw [here] at gone ⊢
      exact ⟨rfl, rfl, rfl, fun v bounded own => gone v (List.mem_filter.mpr ⟨bounded, own⟩)⟩
  | fixCompile | fixTests | fixCoverage | fixMutation | delegatedQualityGate =>
      exact onward_along here rfl (.repaired _ (by decide)) nofun

theorem longest_onward (longest : s.Longest maximums enforced) (going : s.node.terminal = false) :
    Onward maximums enforced s (longestStep maximums enforced s) := by
  have fits := longest.placed.fits going
  cases here : s.node with
  | reconcile c =>
      exact onward_along here (congrArg State.node (step_reconcile here)) (.started c) nofun
  | run c =>
      rw [here] at fits
      have fits : c.fits enforced = true := fits
      have idle : s.node.charges false = none := by rw [here]; rfl
      have improves : enforced = false → ∀ w ∈ [Work.fixCoverage, .fixMutation],
          beats plusEpsilon (s.best w) (s.attempts w + 1) = true := by
        intro off w scores
        rw [← used_idle idle w]
        exact longest.improving going off w scores
      have verdict := longest_verdict fits longest.placed.limits longest.unset improves
      refine onward_run here fits going (fun w => ?_) (longest.gone going) ?_
      · unfold longestStep
        rw [step_run here]
        exact attempts_of_frame (runPhase_frame _ _ _ _) w
      · unfold longestStep
        rw [step_run here, verdict]
        rfl
  | turnReconcile w =>
      exact onward_along here (congrArg State.node (step_turnReconcile here)) (.begun w) nofun
  | prompt w => exact onward_along here (congrArg State.node (step_prompt here)) (.prompted w) nofun
  | turn w =>
      exact onward_along here (congrArg State.node (step_turn here fun _ _ => rfl)) (.answered w) nofun
  | interpretReconcile w =>
      exact onward_along here (congrArg State.node (step_interpretReconcile here)) (.read w) nofun
  | interpret w => exact onward_interpret here going longest
  | rehydrate _ | turnRehydrate _ | resultRehydrate _ | pauseGeneration =>
      rw [here] at fits
      cases fits
  | terminateGeneration | ended =>
      rw [here] at going
      cases going

/-- A round that spends an attempt leaves a best score that the next round improves on. -/
theorem improving_settled (maximums : Work → ℕ) (w : Work) {s' : State}
    (improves : ∀ v ∈ [Work.fixCoverage, .fixMutation],
      beats plusEpsilon (s.best v) (s.attempts v + 1) = true)
    (best : ∀ v, s'.best v = max (s.best v) (if v = w then mark (scores (reportedScores
      (if s.leaves maximums w then [only] else []) fun _ => s.attempts w + 1)) only else ⊥))
    (grows : ∀ v, s.attempts v ≤ s'.used false v)
    (spent : s.leaves maximums w = true → s.attempts w < s'.used false w) : s'.Improving := by
  intro v scores
  have later : (s.attempts v + 1 : ℚ) ≤ s'.used false v + 1 := by
    have more := grows v
    gcongr
  rw [best v]
  refine beats_max (beats_mono later (improves v scores)) ?_
  by_cases own : v = w
  · subst own
    rw [if_pos rfl]
    cases left : s.leaves maximums v with
    | false => rfl
    | true =>
        have more : (s.attempts v + 1 : ℚ) ≤ s'.used false v := by exact_mod_cast spent left
        show decide (plusEpsilon (s.attempts v + 1) < _) = true
        rw [decide_eq_true_iff, plusEpsilon]
        linarith
  · rw [if_neg own]
    rfl

theorem interpret_scores {setting : Setting} {a : Answer} (w : Work) :
    (interpretPhase setting a s w).2.progress.bestScoresByPhase = s.progress.bestScoresByPhase ∧
      (interpretPhase setting a s w).2.precheckGate = s.precheckGate := by
  cases w with
  | planTests =>
      show (interpretPlanTests setting a s).2.progress.bestScoresByPhase = _ ∧
        (interpretPlanTests setting a s).2.precheckGate = _
      unfold interpretPlanTests
      split_ifs <;> exact ⟨rfl, rfl⟩
  | generateTests =>
      show (interpretGenerateTests setting a s).2.progress.bestScoresByPhase = _ ∧
        (interpretGenerateTests setting a s).2.precheckGate = _
      unfold interpretGenerateTests
      split_ifs <;> exact ⟨rfl, rfl⟩
  | _ => exact ⟨rfl, rfl⟩

theorem settle_gate {setting : Setting} {a : Answer} {c : Check} (outcome : PhaseOutcome)
    (evidence : Evidence ℚ) : (settle setting a c s outcome evidence).2.precheckGate = s.precheckGate := by
  unfold settle
  dsimp only
  split_ifs <;> rfl

theorem measured_gate {setting : Setting} {a : Answer} {c : Check} {w : Work} {r : Return}
    (measured : Measured setting a s c w r) : r.2.precheckGate = s.precheckGate := by
  obtain ⟨outcome, evidence, _, -, -, -, rfl⟩ := measured
  exact settle_gate outcome evidence

/-- Outside a CI increment no result of a gate is kept. -/
theorem runPhase_gate {setting : Setting} {a : Answer} (plain : setting.ciIncremental = false) (c : Check) :
    (runPhase setting a s c).2.precheckGate = s.precheckGate := by
  have of_same : ∀ {r : Return} {o : PhaseOutcome}, r = (o, s) → r.2.precheckGate = s.precheckGate := by
    rintro _ _ rfl
    rfl
  cases c with
  | precheckExistingTests =>
      show (precheckExistingTests setting a s).2.precheckGate = _
      unfold precheckExistingTests
      rw [plain]
      split_ifs with _ increment <;> first | rfl | cases increment.1
  | verifyCompile =>
      show (verifyCompile setting a s).2.precheckGate = _
      unfold verifyCompile
      dsimp only
      split_ifs <;> rfl
  | verifyTests =>
      show (verifyTests setting a s).2.precheckGate = _
      unfold verifyTests
      split_ifs <;> rfl
  | measureCoverage =>
      rcases measureCoverage_cases setting a s with h | measured
      · exact of_same h
      · exact measured_gate measured
  | measureMutation =>
      rcases measureMutation_cases setting a s with h | h | ⟨h, _⟩ | measured
      · exact of_same h
      · exact of_same h
      · exact of_same h
      · exact measured_gate measured
  | delegatedQualityGateVerify =>
      rcases verifyDelegatedQualityGate_cases setting a s with h | h | h | ⟨_, measured⟩
      · exact of_same h
      · exact of_same h
      · exact of_same h
      · exact measured_gate measured
  | completeGeneration => rfl

/-- The phases without a score leave the scores. -/
theorem longest_unscored {c : Check} (unscored : scoreDrivenPhases c.phase = none)
    (off : enforced = false) : (runPhase (longestSetting maximums enforced)
      (longestAnswer maximums enforced s) s c).2.progress = s.progress := by
  subst off
  cases c with
  | precheckExistingTests | completeGeneration | delegatedQualityGateVerify => rfl
  | verifyCompile =>
      show (verifyCompile _ _ s).2.progress = _
      unfold verifyCompile
      dsimp only
      split_ifs <;> rfl
  | verifyTests =>
      show (verifyTests _ _ s).2.progress = _
      unfold verifyTests
      split_ifs <;> rfl
  | measureCoverage | measureMutation => cases unscored

theorem improving_kept {s' : State} (improving : s.Improving) (same : ∀ v, s'.best v = s.best v)
    (grows : ∀ v, s.used false v ≤ s'.used false v) : s'.Improving := by
  intro v scores
  rw [same v]
  refine beats_mono ?_ (improving v scores)
  have more := grows v
  gcongr

theorem best_of_scores {s' : State}
    (same : s'.progress.bestScoresByPhase = s.progress.bestScoresByPhase) (v : Work) :
    s'.best v = s.best v := by
  unfold State.best bestScoresFor
  rw [same]

/-- A measurement of the longest run leaves a best score to improve on. -/
theorem improving_run {c : Check} (here : s.node = .run c) (fits : c.fits false = true)
    (longest : s.Longest maximums false) (going : s.node.terminal = false)
    (grows : ∀ v, s.used false v ≤ (longestStep maximums false s).used false v) :
    (longestStep maximums false s).Improving := by
  have idle : s.node.charges false = none := by rw [here]; rfl
  have improving := longest.improving going rfl
  have improves : ∀ v ∈ [Work.fixCoverage, .fixMutation],
      beats plusEpsilon (s.best v) (s.attempts v + 1) = true := by
    intro v scores
    rw [← used_idle idle v]
    exact improving v scores
  have lands : longestStep maximums false s = (runPhase (longestSetting maximums false)
      (longestAnswer maximums false s) s c).2.goto (c.route (runPhase (longestSetting maximums false)
        (longestAnswer maximums false s) s c).1) := step_run here
  have above : ∀ v, s.attempts v ≤ (longestStep maximums false s).used false v := fun v =>
    (used_idle idle v).symm.trans_le (grows v)
  have same : ∀ v, (longestStep maximums false s).attempts v = s.attempts v := fun v => by
    rw [lands]
    exact attempts_of_frame (runPhase_frame _ _ _ _) v
  have verdict := longest_verdict fits longest.placed.limits longest.unset fun _ => improves
  have entered : ∀ w, (longestStep maximums false s).node.charges false = some w →
      s.attempts w < (longestStep maximums false s).used false w := fun w charges => by
    rw [State.used, charges, same, if_pos rfl]
    exact Int.lt_succ _
  cases c with
  | measureCoverage =>
      refine improving_settled maximums .fixCoverage improves (fun v => ?_) above fun left => ?_
      · rw [lands]
        show State.best (measureCoverage _ _ s).2 v = _
        rw [longest_coverage]
        refine best_settle rfl rfl ?_ _ _ _ v
        cases s.leaves maximums .fixCoverage
        · exact .inl rfl
        · exact .inr rfl
      · apply entered
        rw [lands, verdict, longestVerdict, left]
        rfl
  | measureMutation =>
      cases red : s.leaves maximums .fixTests with
      | true =>
          refine improving_kept improving (best_of_scores ?_) grows
          rw [lands]
          show (measureMutation _ _ s).2.progress.bestScoresByPhase = _
          rw [longest_redSuite red]
      | false =>
          refine improving_settled maximums .fixMutation improves (fun v => ?_) above fun left => ?_
          · rw [lands]
            show State.best (measureMutation _ _ s).2 v = _
            rw [longest_mutation red]
            refine best_settle rfl rfl ?_ _ _ _ v
            cases s.leaves maximums .fixMutation
            · exact .inl rfl
            · exact .inr rfl
          · apply entered
            rw [lands, verdict, longestVerdict, red, left]
            rfl
  | _ =>
      refine improving_kept improving (best_of_scores ?_) grows
      rw [lands]
      exact congrArg CycleState.bestScoresByPhase (longest_unscored rfl rfl)

theorem longest_improving (longest : s.Longest maximums false) (going : s.node.terminal = false)
    (grows : ∀ v, s.used false v ≤ (longestStep maximums false s).used false v) :
    (longestStep maximums false s).Improving := by
  cases here : s.node with
  | run c =>
      have fits := longest.placed.fits going
      rw [here] at fits
      exact improving_run here fits longest going grows
  | interpret w =>
      refine improving_kept (longest.improving going rfl) (best_of_scores ?_) grows
      unfold longestStep
      rw [step_interpret here]
      exact (interpret_scores w).1
  | _ =>
      refine improving_kept (longest.improving going rfl) (best_of_scores ?_) grows
      unfold longestStep step
      rw [here] <;> rfl

theorem longest_unset (longest : s.Longest maximums enforced) :
    (longestStep maximums enforced s).precheckGate = none := by
  rw [← longest.unset]
  cases here : s.node with
  | run c =>
      unfold longestStep
      rw [step_run here]
      exact runPhase_gate rfl c
  | interpret w =>
      unfold longestStep
      rw [step_interpret here]
      exact (interpret_scores w).2
  | _ =>
      unfold longestStep step
      rw [here] <;> rfl

/-- Nothing is left of what a backend of the quality gate uses. -/
theorem reserve_gone {weight : Work → ℕ} (idle : ∀ w, w.fits enforced = false → weight w = 0)
    (zero : ∀ w ∈ limited, w.fits enforced = true → s.left maximums enforced w = 0) :
    reserve weight (s.left maximums enforced) limited = 0 := by
  unfold reserve
  rw [List.sum_eq_zero_iff]
  intro n member
  obtain ⟨w, bounded, rfl⟩ := List.mem_map.mp member
  cases fits : w.fits enforced with
  | false => rw [idle w fits, Nat.zero_mul]
  | true => rw [zero w bounded fits, Nat.mul_zero]

/-- Every node of the longest run counts for one, and every turn for one. -/
theorem longest_tight (longest : s.Longest maximums enforced) (going : s.node.terminal = false) :
    (longestStep maximums enforced s).Longest maximums enforced ∧
      s.ahead maximums enforced = (longestStep maximums enforced s).ahead maximums enforced + 1 := by
  have within : Within (longestSetting maximums enforced) s (longestAnswer maximums enforced s) :=
    longest_within longest.placed.limits
  have placed : (longestStep maximums enforced s).Placed maximums (longestSetting maximums enforced) :=
    step_placed longest.placed within
  have follows : Follows maximums enforced s (longestStep maximums enforced s) :=
    step_follows longest.placed within going
  have turns : (longestStep maximums enforced s).turns = s.turns + s.node.isTurn.toNat := step_turns
  have open_ : ∀ {s' : State}, s'.Placed maximums (longestSetting maximums enforced) →
      s'.node.terminal = false → s'.node.halted = false := by
    intro s' placed going
    have fits := placed.fits going
    refine Bool.or_eq_false_iff.mpr ⟨going, decide_eq_false fun paused => ?_⟩
    rw [paused] at fits
    cases fits
  have counted := longest.turns
  unfold State.turnsAhead at counted
  rw [open_ longest.placed going, if_neg Bool.false_ne_true] at counted
  rcases longest_onward longest going with ⟨spent, way, zero⟩ | ⟨finished, last, free, gone⟩
  · have goes := way.going going
    rcases follows with finished | ⟨charge, edge, taken, room⟩
    · exact absurd finished (by rw [goes]; exact Bool.false_ne_true)
    obtain ⟨nodes, turn⟩ := way.tight edge
    have nodesLeft := left_of_taken taken room (Work.nodes enforced)
    have turnsLeft := left_of_taken taken room (Work.turns enforced)
    have grows : ∀ v, s.used enforced v ≤ (longestStep maximums enforced s).used enforced v := by
      intro v
      have more := taken v
      split_ifs at more <;> omega
    refine ⟨⟨placed, longest_unset longest, fun _ v member => ?_, fun _ off => ?_, ?_⟩, ?_⟩
    · rcases way.gone member with before | now
      · have empty := longest.gone going v before
        have more := grows v
        unfold State.left at empty ⊢
        omega
      · exact zero v now
    · subst off
      exact longest_improving longest going grows
    · unfold State.turnsAhead
      rw [open_ placed goes, if_neg Bool.false_ne_true]
      omega
    · unfold State.ahead
      rw [going, goes, if_neg Bool.false_ne_true, if_neg Bool.false_ne_true]
      omega
  · have noNodes : reserve (Work.nodes enforced) (s.left maximums enforced) limited = 0 := by
      refine reserve_gone (fun w foreign => ?_) gone
      revert foreign
      cases enforced <;> cases w <;> first | exact fun _ => rfl | exact nofun
    have noTurns : reserve (Work.turns enforced) (s.left maximums enforced) limited = 0 :=
      reserve_gone (fun w foreign => if_neg (by rw [foreign]; exact Bool.false_ne_true)) gone
    have still := s.node.isTurn_le
    have ended : ¬ (longestStep maximums enforced s).node.terminal = false := by
      rw [finished]
      exact nofun
    refine ⟨⟨placed, longest_unset longest, fun goes => absurd goes ended,
      fun goes => absurd goes ended, ?_⟩, ?_⟩
    · unfold State.turnsAhead
      rw [if_pos (Node.halted_of_terminal finished)]
      omega
    · unfold State.ahead
      rw [going, if_neg Bool.false_ne_true, if_pos finished]
      omega

end Run
end Java
end Uta.Cycle
