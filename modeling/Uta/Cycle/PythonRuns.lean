/- Runs of the Python cycle: which verification a completed unit reports. -/
import Uta.Cycle.Python
import Uta.Lib.Run

namespace Uta.Cycle.Python
open Uta.Lib Uta.Lib.Marks

/-- A completed unit reports its last verification, which ran on the test file that it leaves. -/
def Faithful (s : State) : Prop :=
  ∀ fields, s.reported = some fields →
    match s.last with
    | none => fields = unverifiedFields
    | some (v, on) => on = s.tests ∧ fields = v.asResultFields

/-- No verification is older than the test file, and none that is preferred is older than the
last. -/
def Current (s : State) : Prop :=
  s.preferred = s.last.map Prod.fst ∧ ∀ v on, s.last = some (v, on) → on = s.tests

/-- The steps that end a cycle do so on its last verification: the suite fails for good, and
coverage does, only before the first measurement of mutation; the test file does not compile for
good only while it is as it was verified; and a review leaves it as it is. -/
def FreshAt (setting : Setting) (s : State) (a : Answer) : Node → Prop
  | .run .verifyCompile | .rehydrate .verifyCompile =>
      a.compileError ≠ none → s.repairMaximum ≤ s.repairTotal →
        ∀ v on, s.last = some (v, on) → on = s.tests
  | .run .verifyTests | .rehydrate .verifyTests =>
      a.verification.testsPass = false → s.repairMaximum ≤ s.repairTotal → s.measured = none
  | .run .measureCoverage | .rehydrate .measureCoverage =>
      (measureCoverage setting a s).1 ∉ [PhaseOutcome.passed, .repair] → s.measured = none
  | .turn .reviewEquivalentMutants => a.edited = s.tests
  | _ => True

def Fresh (setting : Setting) (s : State) (a : Answer) : Prop := FreshAt setting s a s.node

/-! What is known at each node. -/

/-- Nothing was verified but by the precheck. -/
def Early (s : State) : Prop :=
  s.tested = none ∧ s.measured = none ∧ s.existing = s.last.map Prod.fst

/-- Nothing was verified. -/
def Unverified (s : State) : Prop := Early s ∧ s.last = none

/-- The suite was verified last, as it is. -/
def JustTested (s : State) : Prop := ∃ v, s.tested = some v ∧ s.last = some (v, s.tests)

def AtCheck (s : State) : Check → Prop
  | .precheckExistingTests => Unverified s
  | .verifyCompile => Early s
  | .verifyTests => True
  | .measureCoverage | .measureMutation => JustTested s
  | .delegatedQualityGateVerify | .completeGeneration => Current s

def AtWork (s : State) : Work → Prop
  | .planTests | .delegatedQualityGate => False
  | .generateTests => Unverified s
  | .fixCompile => Early s
  | .fixTests | .fixCoverage | .fixMutation => True
  | .reviewEquivalentMutants => Current s

def AtNode (s : State) : Node → Prop
  | .reconcile c | .run c | .rehydrate c => AtCheck s c
  | .turnReconcile w | .prompt w | .turn w | .turnRehydrate w | .interpretReconcile w
  | .interpret w | .resultRehydrate w => AtWork s w
  | .pauseGeneration => ∃ w, s.paused = some w ∧ AtWork s w
  | .terminateGeneration | .ended => True

/-- What every step keeps. -/
structure Inv (setting : Setting) (s : State) : Prop where
  node : AtNode s s.node
  disabled : setting.mutationGate ≤ 0 → s.measured = none
  unreported : s.node ≠ .ended → s.reported = none
  faithful : Faithful s

theorem Unverified.current {s : State} (unverified : Unverified s) : Current s := by
  obtain ⟨⟨tested, measured, existing⟩, none_⟩ := unverified
  constructor
  · rw [State.preferred, measured, tested, existing, none_]
    rfl
  · intro v on held
    rw [none_] at held
    cases held

theorem JustTested.current {s : State} (tested : JustTested s) (unmeasured : s.measured = none) :
    Current s := by
  obtain ⟨v, own, last⟩ := tested
  constructor
  · rw [State.preferred, unmeasured, own, last]
    rfl
  · intro w on held
    rw [last] at held
    cases held
    rfl

/-- The completion reports the last verification. -/
theorem Current.faithful {s : State} (current : Current s) : Faithful (completeGeneration s).2 := by
  rintro fields reported
  cases reported
  obtain ⟨preferred, on⟩ := current
  show match s.last with | none => _ | some (v, on) => _
  rcases last : s.last with _ | ⟨v, tests⟩
  · rw [preferred, last]
    rfl
  · refine ⟨on v tests last, ?_⟩
    rw [preferred, last]
    rfl

/-! The deterministic phases. -/

section Phases
variable {setting : Setting} {s : State} {a : Answer}

/-- What a phase other than the completion leaves behind. -/
structure Goes (setting : Setting) (s : State) (c : Check) (r : Return) : Prop where
  node : AtNode r.2 (c.route r.1)
  disabled : setting.mutationGate ≤ 0 → r.2.measured = none
  reported : r.2.reported = s.reported

theorem settle_state (c : Check) (outcome : PhaseOutcome) (evidence : Uta.Generation.Evidence ℚ) :
    ∃ progress, (settle setting a s c outcome evidence).2 = { s with progress } := by
  unfold settle
  dsimp only
  split_ifs <;> exact ⟨_, rfl⟩

/-- Where a settled phase goes from: its own verdict, a review, or a failure. -/
theorem settle_verdict (c : Check) (outcome : PhaseOutcome)
    (evidence : Uta.Generation.Evidence ℚ) : (settle setting a s c outcome evidence).1 ∈
      [outcome, .reviewEquivalence, .failed] := by
  unfold settle
  dsimp only
  split_ifs <;> simp

theorem precheck_goes (unverified : Unverified s) :
    Goes setting s .precheckExistingTests (precheckExistingTests a s) := by
  have checked : Early { s.verified a.verification with existing := some a.verification } ∧
      Current { s.verified a.verification with existing := some a.verification } := by
    obtain ⟨⟨tested, measured, -⟩, -⟩ := unverified
    refine ⟨⟨tested, measured, rfl⟩, ?_, ?_⟩
    · show s.measured.or (s.tested.or (some a.verification)) = _
      rw [measured, tested]
      rfl
    · rintro v on held
      cases held
      rfl
  unfold precheckExistingTests
  dsimp only
  split_ifs
  · exact ⟨unverified, fun _ => unverified.1.2.1, rfl⟩
  · exact ⟨checked.2, fun _ => unverified.1.2.1, rfl⟩
  · exact ⟨checked.2, fun _ => unverified.1.2.1, rfl⟩
  · exact ⟨checked.1, fun _ => unverified.1.2.1, rfl⟩

theorem verifyCompile_goes (early : Early s)
    (fresh : a.compileError ≠ none → s.repairMaximum ≤ s.repairTotal →
      ∀ v on, s.last = some (v, on) → on = s.tests) :
    Goes setting s .verifyCompile (verifyCompile a s) := by
  unfold verifyCompile
  rcases broken : a.compileError with _ | message
  · exact ⟨trivial, fun _ => early.2.1, rfl⟩
  · dsimp only
    rw [repairOrFail]
    by_cases left : s.repairTotal < s.repairMaximum
    · rw [if_pos left]
      exact ⟨early, fun _ => early.2.1, rfl⟩
    · rw [if_neg left]
      refine ⟨⟨?_, fresh (by rw [broken]; exact Option.some_ne_none _) (not_lt.mp left)⟩,
        fun _ => early.2.1, rfl⟩
      rw [State.preferred, early.2.1, early.1, early.2.2]
      rfl

theorem verifyTests_goes (disabled : setting.mutationGate ≤ 0 → s.measured = none)
    (fresh : a.verification.testsPass = false → s.repairMaximum ≤ s.repairTotal →
      s.measured = none) :
    Goes setting s .verifyTests (verifyTests a s) := by
  have tested : JustTested { s.verified a.verification with tested := some a.verification } :=
    ⟨a.verification, rfl, rfl⟩
  unfold verifyTests
  dsimp only
  by_cases green : a.verification.testsPass = true
  · rw [if_pos green]
    exact ⟨tested, disabled, rfl⟩
  · rw [if_neg green, repairOrFail]
    by_cases left : s.repairTotal < s.repairMaximum
    · rw [if_pos left]
      exact ⟨trivial, disabled, rfl⟩
    · rw [if_neg left]
      have unmeasured := fresh (Bool.not_eq_true _ ▸ green) (not_lt.mp left)
      exact ⟨tested.current unmeasured, disabled, rfl⟩

theorem measureCoverage_state :
    ∃ progress, (measureCoverage setting a s).2 = { s with progress } := by
  unfold measureCoverage
  split
  · exact ⟨s.progress, rfl⟩
  · exact settle_state _ _ _

theorem measureCoverage_goes (tested : JustTested s)
    (disabled : setting.mutationGate ≤ 0 → s.measured = none)
    (fresh : (measureCoverage setting a s).1 ∉ [PhaseOutcome.passed, .repair] →
      s.measured = none) :
    Goes setting s .measureCoverage (measureCoverage setting a s) := by
  obtain ⟨progress, same⟩ : ∃ progress, (measureCoverage setting a s).2 = { s with progress } :=
    measureCoverage_state
  refine ⟨?_, by rw [same]; exact disabled, by rw [same]⟩
  rw [same]
  by_cases open_ : (measureCoverage setting a s).1 ∈ [PhaseOutcome.passed, .repair]
  · rcases List.mem_cons.mp open_ with passed | repair
    · rw [passed]
      exact tested
    · rw [List.mem_singleton.mp repair]
      exact trivial
  · have current : Current { s with progress } := tested.current (fresh open_)
    rcases verdict : (measureCoverage setting a s).1 <;> rw [verdict] at open_ <;>
      first | exact current | exact tested | exact absurd (by decide) open_

/-- A measurement that was just made is what every way out of it reports. -/
theorem settle_goes {m : State} (current : Current m) (kept : m.reported = s.reported)
    (enabled : ¬ setting.mutationGate ≤ 0) {outcome : PhaseOutcome}
    (verdict : outcome = .passed ∨ outcome = .repair) (evidence : Uta.Generation.Evidence ℚ) :
    Goes setting s .measureMutation (settle setting a m .measureMutation outcome evidence) := by
  obtain ⟨progress, same⟩ : ∃ progress,
      (settle setting a m .measureMutation outcome evidence).2 = { m with progress } :=
    settle_state .measureMutation outcome evidence
  refine ⟨?_, fun off => absurd off enabled, by rw [same]; exact kept⟩
  rw [same]
  have ways : (settle setting a m .measureMutation outcome evidence).1 ∈
      [outcome, .reviewEquivalence, .failed] :=
    settle_verdict .measureMutation outcome evidence
  rcases List.mem_cons.mp ways with own | ways
  · rw [own]
    rcases verdict with rfl | rfl
    · exact current
    · exact trivial
  · rcases List.mem_cons.mp ways with review | failed
    · rw [review]
      exact current
    · rw [List.mem_singleton.mp failed]
      exact current

theorem measureMutation_goes (tested : JustTested s) :
    Goes setting s .measureMutation (measureMutation setting a s) := by
  unfold measureMutation
  by_cases off : setting.mutationGate ≤ 0
  · rw [if_pos off]
    exact ⟨JustTested.current tested rfl, fun _ => rfl, rfl⟩
  · have current : Current { s.verified a.verification with measured := some a.verification } := by
      refine ⟨rfl, ?_⟩
      rintro v on held
      cases held
      rfl
    rw [if_neg off]
    dsimp only
    split_ifs
    · exact settle_goes (s := s) current rfl off (.inl rfl) _
    · exact ⟨current, fun held => absurd held off, rfl⟩
    · exact settle_goes (s := s) current rfl off (.inr rfl) _

/-- Every phase but the completion goes where what is known holds. -/
theorem runPhase_goes {c : Check} (unfinished : c ≠ .completeGeneration) (known : AtCheck s c)
    (disabled : setting.mutationGate ≤ 0 → s.measured = none)
    (fresh : FreshAt setting s a (.run c)) :
    Goes setting s c (runPhase setting a s c) := by
  cases c with
  | precheckExistingTests => exact precheck_goes known
  | verifyCompile => exact verifyCompile_goes known fresh
  | verifyTests => exact verifyTests_goes disabled fresh
  | measureCoverage => exact measureCoverage_goes known disabled fresh
  | measureMutation => exact measureMutation_goes known
  | delegatedQualityGateVerify => exact ⟨known, disabled, rfl⟩
  | completeGeneration => exact absurd rfl unfinished

end Phases

/-! The steps. -/

section Steps
variable {setting : Setting} {s : State} {a : Answer}

theorem Inv.goto (inv : Inv setting s) (open_ : s.node ≠ .ended) {node : Node}
    (known : AtNode s node) : Inv setting (s.goto node) :=
  ⟨known, inv.disabled, fun _ => inv.unreported open_, inv.faithful⟩

theorem reconcileRoute_known {c : Check} (known : AtCheck s c) (outcome : Uta.Operations.Outcome) :
    AtNode s (c.reconcileRoute outcome) := by
  cases outcome <;> first | exact known | exact trivial

/-- An edit that a crash left behind goes to a verifier of it. -/
theorem editRoute_known {w : Work} (known : AtWork s w) : AtNode s w.editRoute := by
  cases w with
  | generateTests => exact known.1
  | fixCompile => exact known
  | fixTests | fixCoverage | fixMutation => exact trivial
  | planTests | delegatedQualityGate => exact known.elim
  | reviewEquivalentMutants => exact trivial

theorem turnReconcileRoute_known {w : Work} (known : AtWork s w)
    (outcome : Uta.Operations.Outcome) : AtNode s (w.turnReconcileRoute outcome) := by
  cases outcome <;> first | exact known | exact trivial | exact editRoute_known known

theorem interpretReconcileRoute_known {w : Work} (known : AtWork s w)
    (outcome : Uta.Operations.Outcome) : AtNode s (w.interpretReconcileRoute outcome) := by
  cases outcome <;> first | exact known | exact trivial | exact editRoute_known known

/-- A turn that edits the test file. -/
theorem AtWork.edited {w : Work} (known : AtWork s w)
    (fresh : w = .reviewEquivalentMutants → a.edited = s.tests) (paused : Option Work)
    (node : Node) : AtWork { s with tests := a.edited, paused, node } w := by
  cases w with
  | reviewEquivalentMutants =>
      refine ⟨known.1, fun v on held => ?_⟩
      exact (known.2 v on held).trans (fresh rfl).symm
  | planTests | delegatedQualityGate => exact known
  | generateTests | fixCompile => exact known
  | fixTests | fixCoverage | fixMutation => exact trivial

theorem run_known {c : Check} (inv : Inv setting s) (open_ : s.node ≠ .ended) (known : AtCheck s c)
    (fresh : FreshAt setting s a (.run c)) :
    Inv setting ((runPhase setting a s c).2.goto (c.route (runPhase setting a s c).1)) := by
  by_cases finished : c = .completeGeneration
  · subst finished
    refine ⟨trivial, inv.disabled, fun unended => absurd rfl unended, ?_⟩
    exact Current.faithful known
  · have goes := runPhase_goes finished known inv.disabled fresh
    have unreported : (runPhase setting a s c).2.reported = none :=
      goes.reported.trans (inv.unreported open_)
    refine ⟨goes.node, goes.disabled, fun _ => unreported, ?_⟩
    rintro fields reported
    have none_ : (none : Option ResultFields) = some fields := unreported.symm.trans reported
    cases none_

theorem turn_known {w : Work} (inv : Inv setting s) (open_ : s.node ≠ .ended) (known : AtWork s w)
    (fresh : w = .reviewEquivalentMutants → a.edited = s.tests) :
    Inv setting { s with
      tests := a.edited
      paused := if a.cancelled then some w else s.paused
      node := w.turnRoute a.cancelled } := by
  have unreported := inv.unreported open_
  refine ⟨?_, inv.disabled, fun _ => unreported, ?_⟩
  · rw [Work.turnRoute]
    cases a.cancelled with
    | true => exact ⟨w, rfl, known.edited fresh _ _⟩
    | false => exact known.edited fresh _ _
  · rintro fields reported
    have none_ : (none : Option ResultFields) = some fields := unreported.symm.trans reported
    cases none_

/-- A repair leads back to a verifier. -/
theorem repair_known {w : Work} (inv : Inv setting s) (open_ : s.node ≠ .ended)
    (known : AtNode s (w.route .passed)) :
    Inv setting ((interpretRepair s w).2.goto (w.route (interpretRepair s w).1)) :=
  ⟨known, inv.disabled, fun _ => inv.unreported open_, inv.faithful⟩

theorem interpretGenerate_known (inv : Inv setting s) (open_ : s.node ≠ .ended)
    (known : Unverified s) : Inv setting ((interpretGenerate a s).2.goto
      (Work.generateTests.route (interpretGenerate a s).1)) := by
  have unreported := inv.unreported open_
  rw [interpretGenerate]
  rcases a.body with _ | body
  · exact inv.goto open_ known.current
  · refine ⟨known.1, inv.disabled, fun _ => unreported, ?_⟩
    rintro fields reported
    have none_ : (none : Option ResultFields) = some fields := unreported.symm.trans reported
    cases none_

theorem interpret_known {w : Work} (inv : Inv setting s) (open_ : s.node ≠ .ended)
    (known : AtWork s w) : Inv setting (match interpretPhase a s w with
      | some answer => answer.2.goto (w.route answer.1)
      | none => s.goto .ended) := by
  cases w with
  | planTests | delegatedQualityGate => exact known.elim
  | generateTests => exact interpretGenerate_known inv open_ known
  | fixCompile => exact repair_known inv open_ known
  | fixTests | fixCoverage | fixMutation => exact repair_known inv open_ trivial
  | reviewEquivalentMutants =>
      exact ⟨known, inv.disabled, fun _ => inv.unreported open_, inv.faithful⟩

theorem resume_known (inv : Inv setting s) (open_ : s.node ≠ .ended)
    (known : AtNode s .pauseGeneration) :
    Inv setting (if a.cancelled then s
      else s.goto ((s.paused.map Node.turnReconcile).getD complete)) := by
  obtain ⟨w, paused, work⟩ := known
  cases a.cancelled with
  | true => exact inv
  | false =>
      rw [paused]
      exact inv.goto open_ work

theorem step_inv (inv : Inv setting s) (fresh : Fresh setting s a) :
    Inv setting (step setting s a) := by
  have known := inv.node
  have open_ : ∀ {node}, s.node = node → node ≠ .ended → s.node ≠ .ended :=
    fun here unended => here ▸ unended
  rw [Fresh] at fresh
  rw [step]
  rcases here : s.node with c | c | c | w | w | w | w | w | w | w | _ | _ | _ <;>
    rw [here] at known fresh
  · exact inv.goto (open_ here Node.noConfusion) (reconcileRoute_known known a.outcome)
  · exact run_known inv (open_ here Node.noConfusion) known fresh
  · exact run_known inv (open_ here Node.noConfusion) known (by cases c <;> exact fresh)
  · exact inv.goto (open_ here Node.noConfusion) (turnReconcileRoute_known known a.outcome)
  · exact inv.goto (open_ here Node.noConfusion) known
  · exact turn_known inv (open_ here Node.noConfusion) known (by rintro rfl; exact fresh)
  · exact inv.goto (open_ here Node.noConfusion) known
  · exact inv.goto (open_ here Node.noConfusion) (interpretReconcileRoute_known known a.outcome)
  · exact interpret_known inv (open_ here Node.noConfusion) known
  · exact interpret_known inv (open_ here Node.noConfusion) known
  · exact resume_known inv (open_ here Node.noConfusion) known
  · exact inv.goto (open_ here Node.noConfusion) trivial
  · exact inv

end Steps

theorem start_inv (setting : Setting) (tests : Workspace) (progress : Uta.Generation.CycleState ℚ) :
    Inv setting (.start tests progress) where
  node := ⟨⟨rfl, rfl, rfl⟩, rfl⟩
  disabled _ := rfl
  unreported _ := rfl
  faithful _ reported := by cases reported

/-- Where every step that ends the cycle does so on its last verification, what is reported is that
verification. -/
theorem completion_faithful (setting : Setting) (tests : Workspace)
    (progress : Uta.Generation.CycleState ℚ) (answers : List Answer)
    (fresh : Meets (step setting) (Fresh setting) (.start tests progress) answers) :
    Always (step setting) Faithful (.start tests progress) answers :=
  always_mono (step setting) (fun _ inv => inv.faithful) _ _
    (always_of_meets (step setting) (fun _ _ inv held => step_inv inv held) _ _
      (start_inv setting tests progress) fresh)

/-! Two runs. -/

def greenVerification : Verification where
  status := "passed"
  reasonCode := ""
  testsPass := true
  coverage := some ⟨90, true⟩

/-- The suite is green, and mutation is below its gate. -/
def weakVerification : Verification where
  status := "failed"
  reasonCode := "mutation_gate_failed"
  testsPass := true
  coverage := some ⟨90, true⟩
  mutation := some ⟨60, 10, 6, 4, 0, 0, 0, 0⟩

def redVerification : Verification where
  status := "failed"
  reasonCode := "tests_failed"

/-- A target whose tests are there and pass. -/
theorem precheckedTarget_faithful :
    Always (step ⟨"pyfile:a.py", 70, false⟩) Faithful (.start (some []) {})
      (List.replicate 4 { verification := greenVerification }) :=
  completion_faithful _ _ _ _ ⟨trivial, trivial, trivial, trivial, trivial⟩

/-- Tests are generated and measured; the repair of mutation breaks them, and two more repairs do
not mend them. -/
def brokenRun : List Answer :=
  List.replicate 14
      { verification := greenVerification, edited := some ['a'], body := some ['a'] } ++
    { verification := weakVerification } ::
      List.replicate 23 { verification := redVerification, edited := some ['b'] }

/-- The target is reported with green tests. -/
theorem brokenRun_unfaithful : ¬ ∀ setting tests progress answers,
    Always (step setting) Faithful (.start tests progress) answers := by
  intro claimed
  have always := claimed ⟨"pyfile:a.py", 70, false⟩ none {} brokenRun
  have ends := (always_iff_reached _ _ _).mp always brokenRun [] (List.append_nil _).symm
  have reported : (run (step ⟨"pyfile:a.py", 70, false⟩) (.start none {}) brokenRun).reported =
      some weakVerification.asResultFields := by
    decide +kernel
  have last : (run (step ⟨"pyfile:a.py", 70, false⟩) (.start none {}) brokenRun).last =
      some (redVerification, some ['b']) := by
    decide +kernel
  have same := ends _ reported
  rw [last] at same
  exact absurd same.2 (by decide)

end Uta.Cycle.Python
