/- The agent turns of a crash-free run: how many the way to the end still holds, and how
many each attempt that is left can add. -/
import Uta.Cycle.Budget

namespace Uta.Cycle

/-- The turns that follow the interpreter of a phase, on the way that takes no attempt. -/
def Work.turnsAfter : Work → ℕ
  | .planTests => 1
  | _ => 0

/-- The turns from a node to the end, on the way that takes no attempt. -/
def Node.turns : Node → ℕ
  | .reconcile .precheckExistingTests | .run .precheckExistingTests => 2
  | .turnReconcile w | .prompt w | .turn w => w.turnsAfter + 1
  | .interpretReconcile w | .interpret w => w.turnsAfter
  | _ => 0

/-- An attempt adds a turn, if its phase belongs to the backend of the quality gate. -/
def Work.turns (enforced : Bool) (w : Work) : ℕ := if w.fits enforced then 1 else 0

def Node.isTurn : Node → Bool
  | .turn _ => true
  | _ => false

theorem Node.isTurn_le (n : Node) : n.isTurn.toNat ≤ n.turns := by
  cases n with
  | turn w => exact Nat.le_add_left 1 _
  | _ => exact Nat.zero_le _

/-- A turn is one less to come, and a repair one more, which its attempt pays for. -/
theorem Edge.turns {enforced : Bool} {n n' : Node} {charge : Option Work}
    (edge : Edge enforced n n' charge) (fits : n.fits enforced = true) :
    n'.turns + n.isTurn.toNat ≤ n.turns + (charge.map (Work.turns enforced)).getD 0 := by
  cases edge with
  | started c => cases c <;> exact Nat.le_refl _
  | begun w | prompted w | answered w | read w => exact Nat.le_refl _
  | tested off | mutationReview off => subst off; decide
  | delegatedRepair on | delegated on | gateRepair on | gateReview on => subst on; decide
  | repaired w repair => cases w <;> exact Nat.zero_le _
  | _ => cases enforced <;> first | decide | exact absurd fits (by decide)

/-- The nodes that lead nowhere else: those that end the cycle, and the pause. -/
def Node.halted (n : Node) : Bool := n.terminal || decide (n = .pauseGeneration)

theorem Node.halted_of_terminal {n : Node} (finished : n.terminal = true) : n.halted = true :=
  Bool.or_eq_true_iff.mpr (.inl finished)

namespace Java
open Uta.Lib

/-- The turns that a run can still take. -/
def State.turnsAhead (maximums : Work → ℕ) (enforced : Bool) (s : State) : ℕ :=
  if s.node.halted then 0
  else s.node.turns + reserve (Work.turns enforced) (s.left maximums enforced) limited

/-- The most turns that a unit takes. -/
def mostTurns (maximums : Work → ℕ) (enforced : Bool) : ℕ :=
  2 + reserve (Work.turns enforced) maximums limited

/-- The sum of the attempt limits. -/
def sumOfLimits (maximums : Work → ℕ) : ℕ := (limited.map maximums).sum

section Limits
variable (maximums : Work → ℕ)

theorem sumOfLimits_eq : sumOfLimits maximums =
    maximums .planTests + maximums .generateTests + maximums .fixCompile + maximums .fixTests +
      maximums .fixCoverage + maximums .fixMutation + maximums .delegatedQualityGate := by
  simp only [sumOfLimits, limited, List.map_cons, List.map_nil, List.sum_cons, List.sum_nil]
  omega

theorem mostTurns_builtin : mostTurns maximums false =
    2 + maximums .planTests + maximums .generateTests + maximums .fixCompile + maximums .fixTests +
      maximums .fixCoverage + maximums .fixMutation := by
  simp only [mostTurns, reserve, limited, List.map_cons, List.map_nil, List.sum_cons, List.sum_nil,
    Work.turns, Work.fits, Bool.not_false, Bool.false_eq_true, if_true, if_false]
  omega

theorem mostTurns_enforced : mostTurns maximums true =
    2 + maximums .planTests + maximums .generateTests + maximums .fixCompile + maximums .fixTests +
      maximums .delegatedQualityGate := by
  simp only [mostTurns, reserve, limited, List.map_cons, List.map_nil, List.sum_cons, List.sum_nil,
    Work.turns, Work.fits, Bool.not_true, Bool.false_eq_true, if_true, if_false]
  omega

end Limits

/-- Where a run is when its turns may be stopped as well. -/
structure State.Standing (maximums : Work → ℕ) (setting : Setting) (s : State) : Prop where
  limits : s.Limited maximums
  fits : s.node.halted = false → s.node.fits setting.mavenEnforcer = true
  below : s.node.halted = false → ∀ w ∈ limited, s.used setting.mavenEnforcer w ≤ maximums w

section Steps
variable {maximums : Work → ℕ} {setting : Setting} {a : Answer} {s : State}

/-- A step takes a turn at a turn, and nowhere else. -/
theorem step_turns : (step setting s a).turns = s.turns + s.node.isTurn.toNat := by
  unfold step
  cases s.node with
  | run c => exact congrArg (fun frame => frame.2.2) (runPhase_frame setting a s c)
  | interpret w =>
      cases w with
      | planTests =>
          show (interpretPlanTests setting a s).2.turns = s.turns
          unfold interpretPlanTests
          split_ifs <;> rfl
      | generateTests =>
          show (interpretGenerateTests setting a s).2.turns = s.turns
          unfold interpretGenerateTests
          split_ifs <;> rfl
      | _ => rfl
  | _ => rfl

theorem step_halted (halted : s.node.halted = true) :
    (step setting s a).node.halted = true ∧ s.node.isTurn = false := by
  rcases Bool.or_eq_true_iff.mp halted with finished | paused
  · refine ⟨Node.halted_of_terminal (step_terminal finished), ?_⟩
    cases here : s.node with
    | turn w => rw [here] at finished; cases finished
    | _ => rfl
  · have here := of_decide_eq_true paused
    unfold step
    rw [here]
    exact ⟨halted, rfl⟩

/-- A stopped turn leaves the graph, and spends nothing. -/
theorem step_cancelled {w : Work} (here : s.node = .turn w) (cancelled : a.turn.cancelled = true) :
    step setting s a = { s with node := .pauseGeneration, turns := s.turns + 1 } := by
  unfold step
  rw [here]
  dsimp only
  rw [cancelled]
  rfl

/-- A step follows an edge, leaves the graph for a pause, or is at an end. -/
theorem step_goes (standing : s.Standing maximums setting) (suite : SuiteWithin setting s a)
    (going : s.node.halted = false) : Follows maximums setting.mavenEnforcer s (step setting s a) ∨
      ∃ w, s.node = .turn w ∧
        step setting s a = { s with node := .pauseGeneration, turns := s.turns + 1 } := by
  by_cases stopped : ∃ w, s.node = .turn w ∧ a.turn.cancelled = true
  · obtain ⟨w, here, cancelled⟩ := stopped
    exact .inr ⟨w, here, step_cancelled here cancelled⟩
  · left
    have uncancelled : Uncancelled s a := fun w here =>
      Bool.eq_false_iff.mpr fun cancelled => stopped ⟨w, here, cancelled⟩
    have open_ : s.node.terminal = false := (Bool.or_eq_false_iff.mp going).1
    exact step_follows ⟨standing.limits, fun _ => standing.fits going⟩ ⟨uncancelled, suite⟩ open_

theorem step_standing (standing : s.Standing maximums setting) (suite : SuiteWithin setting s a) :
    (step setting s a).Standing maximums setting := by
  have closed : ∀ {s' : State}, s'.Limited maximums → s'.node.halted = true →
      s'.Standing maximums setting := fun limits halted =>
    ⟨limits, fun going => absurd halted (by rw [going]; exact Bool.false_ne_true),
      fun going => absurd halted (by rw [going]; exact Bool.false_ne_true)⟩
  have limits : (step setting s a).Limited maximums := step_limits.trans standing.limits
  cases halted : s.node.halted with
  | true => exact closed limits (step_halted halted).1
  | false =>
      rcases step_goes standing suite halted with (finished | ⟨charge, edge, taken, room⟩) | ⟨_, _, paused⟩
      · exact closed limits (Node.halted_of_terminal finished)
      · refine ⟨limits, fun _ => edge.fits (standing.fits halted), fun _ w bounded => ?_⟩
        have before := standing.below halted w bounded
        rw [taken w]
        by_cases own : charge = some w
        · have open_ := (room w own).2
          rw [if_pos own]
          omega
        · rw [if_neg own]
          omega
      · exact closed limits (by rw [paused]; rfl)

/-- A turn is paid for out of the turns that were still to come. -/
theorem step_pays (standing : s.Standing maximums setting) (suite : SuiteWithin setting s a) :
    (step setting s a).turns + (step setting s a).turnsAhead maximums setting.mavenEnforcer ≤
      s.turns + s.turnsAhead maximums setting.mavenEnforcer := by
  rw [step_turns]
  unfold State.turnsAhead
  cases halted : s.node.halted with
  | true =>
      obtain ⟨still, idle⟩ := @step_halted setting a s halted
      rw [if_pos still, idle]
      exact Nat.le_refl _
  | false =>
      rw [if_neg Bool.false_ne_true]
      have pays := s.node.isTurn_le
      rcases step_goes standing suite halted with (finished | ⟨charge, edge, taken, room⟩) | ⟨w, here, paused⟩
      · rw [if_pos (Node.halted_of_terminal finished)]
        omega
      · have turns := edge.turns (standing.fits halted)
        have paid := left_of_taken taken room (Work.turns setting.mavenEnforcer)
        split_ifs <;> omega
      · rw [paused]
        rw [if_pos (show Node.halted .pauseGeneration = true from rfl)]
        omega

end Steps

section Runs
variable {maximums : Work → ℕ} {setting : Setting} {s : State} {answers : List Answer}

theorem start_standing : (State.start maximums).Standing maximums setting := by
  refine ⟨rfl, fun _ => rfl, fun _ w _ => ?_⟩
  rw [used_idle rfl]
  exact Int.natCast_nonneg _

theorem run_standing (standing : s.Standing maximums setting)
    (meets : Meets (step setting) (SuiteWithin setting) s answers) :
    (run (step setting) s answers).Standing maximums setting := by
  induction answers generalizing s with
  | nil => exact standing
  | cons a answers ih => exact ih (step_standing standing meets.1) meets.2

theorem run_pays (standing : s.Standing maximums setting)
    (meets : Meets (step setting) (SuiteWithin setting) s answers) :
    (run (step setting) s answers).turns +
        (run (step setting) s answers).turnsAhead maximums setting.mavenEnforcer ≤
      s.turns + s.turnsAhead maximums setting.mavenEnforcer :=
  spent_le (fun _ _ standing suite => step_standing standing suite)
    (fun _ _ standing suite => step_pays standing suite) s answers standing meets

theorem start_turnsAhead (maximums : Work → ℕ) (enforced : Bool) :
    (State.start maximums).turnsAhead maximums enforced = mostTurns maximums enforced := by
  unfold State.turnsAhead mostTurns
  rw [if_neg (show ¬ (State.start maximums).node.halted = true from Bool.false_ne_true),
    reserve_same _ fun w _ => start_left maximums enforced w]
  rfl

/-- A run takes no more turns than the attempts pay for. -/
theorem run_turns_le (meets : Meets (step setting) (SuiteWithin setting) (State.start maximums) answers) :
    (run (step setting) (State.start maximums) answers).turns ≤ mostTurns maximums setting.mavenEnforcer := by
  have pays := run_pays start_standing meets
  rw [start_turnsAhead] at pays
  exact (Nat.le_add_right _ _).trans (pays.trans_eq (Nat.zero_add _))

theorem run_halted (halted : s.node.halted = true) :
    (run (step setting) s answers).turns = s.turns := by
  induction answers generalizing s with
  | nil => rfl
  | cons a answers ih =>
      obtain ⟨still, idle⟩ := @step_halted setting a s halted
      rw [run_cons, ih still, step_turns, idle]
      rfl

/-- A way round that takes a turn takes an attempt of some phase that has a limit, and stays
within it. -/
theorem lap_spends (standing : s.Standing maximums setting)
    (meets : Meets (step setting) (SuiteWithin setting) s answers)
    (back : (run (step setting) s answers).node = s.node)
    (turn : s.turns < (run (step setting) s answers).turns) :
    ∃ w ∈ limited, s.attempts w < (run (step setting) s answers).attempts w ∧
      (run (step setting) s answers).attempts w ≤ maximums w := by
  have going : s.node.halted = false := by
    by_contra halted
    rw [run_halted (Bool.not_eq_false _ ▸ halted)] at turn
    exact absurd turn (Nat.lt_irrefl _)
  have pays := run_pays standing meets
  have below := (run_standing standing meets).below (back ▸ going)
  unfold State.turnsAhead at pays
  rw [back, going, if_neg Bool.false_ne_true, if_neg Bool.false_ne_true] at pays
  by_contra kept
  have more : reserve (Work.turns setting.mavenEnforcer) (s.left maximums setting.mavenEnforcer) limited ≤
      reserve (Work.turns setting.mavenEnforcer)
        ((run (step setting) s answers).left maximums setting.mavenEnforcer) limited := by
    refine reserve_mono _ fun w bounded => ?_
    have stays : ¬ s.attempts w < (run (step setting) s answers).attempts w := fun grown => by
      refine kept ⟨w, bounded, grown, ?_⟩
      have used := below w bounded
      unfold State.used at used
      split_ifs at used <;> omega
    unfold State.left State.used
    rw [back]
    omega
  omega

end Runs
end Java
end Uta.Cycle
