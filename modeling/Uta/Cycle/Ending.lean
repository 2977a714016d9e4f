/- The end of a unit: the nodes that it executes against the limit of the graph, and its
turns against the limits of its phases. -/
import Uta.Cycle.Longest

namespace Uta.Cycle.Java
open Uta.Lib

/-! Nodes. -/

/-- Every run of a unit under a backend of the quality gate reaches a phase that ends the
cycle before it has executed `limit` nodes. -/
def EndsWithin (limit : ℕ) (enforced : Bool) (maximums : Work → ℕ) : Prop :=
  ∀ setting : Setting, setting.mavenEnforcer = enforced → ∀ answers : List Answer,
    Meets (step setting) (Within setting) (State.start maximums) answers → limit ≤ answers.length →
      DoneBefore (step setting) (fun s => s.node.terminal = true) limit (State.start maximums) answers

section Nodes
variable {maximums : Work → ℕ} {enforced : Bool} {limit : ℕ}

theorem endsWithin_of_lt (below : worstCase maximums enforced < limit) :
    EndsWithin limit enforced maximums := by
  rintro setting rfl answers meets long
  have falls : ∀ s a, State.Placed maximums setting s → Within setting s a →
      ¬ s.node.terminal = true →
      (step setting s a).ahead maximums setting.mavenEnforcer <
        s.ahead maximums setting.mavenEnforcer := by
    intro s a placed within going
    have going : s.node.terminal = false := Bool.eq_false_iff.mpr going
    exact (step_follows placed within going).falls (placed.fits going) going
  have start : (State.start maximums).ahead maximums setting.mavenEnforcer < limit := by
    rwa [start_ahead]
  exact doneBefore_of_falling (fun _ _ placed within => step_placed placed within) falls _ answers
    start_placed meets start long

theorem start_longest (maximums : Work → ℕ) (enforced : Bool) :
    (State.start maximums).Longest maximums enforced :=
  ⟨start_placed, rfl, fun _ => nofun, fun _ _ _ _ => rfl,
    (Nat.zero_add _).trans (start_turnsAhead maximums enforced)⟩

/-- Some run takes every node that the attempts allow, and every turn. -/
theorem exists_longest (maximums : Work → ℕ) (enforced : Bool) : ∃ answers : List Answer,
    answers.length = worstCase maximums enforced ∧
      Meets (step (longestSetting maximums enforced)) (Within (longestSetting maximums enforced))
        (State.start maximums) answers ∧
      (run (step (longestSetting maximums enforced)) (State.start maximums) answers).turns =
        mostTurns maximums enforced ∧
      ¬ DoneBefore (step (longestSetting maximums enforced)) (fun s => s.node.terminal = true)
        (worstCase maximums enforced) (State.start maximums) answers := by
  have tight : ∀ s : State, s.Longest maximums enforced → ¬ s.node.terminal = true →
      ∃ a, Within (longestSetting maximums enforced) s a ∧
        (step (longestSetting maximums enforced) s a).Longest maximums enforced ∧
        s.ahead maximums enforced =
          (step (longestSetting maximums enforced) s a).ahead maximums enforced + 1 := by
    intro s longest going
    obtain ⟨next, falls⟩ := longest_tight longest (Bool.eq_false_iff.mpr going)
    exact ⟨_, longest_within longest.placed.limits, next, falls⟩
  obtain ⟨answers, length, meets, last, done, early⟩ := exists_run_of_tight tight
    (fun s _ finished => if_pos finished) (State.start maximums) (start_longest maximums enforced)
  rw [start_ahead] at length early
  refine ⟨answers, length, meets, ?_, early⟩
  have counted := last.turns
  rwa [State.turnsAhead, if_pos (Node.halted_of_terminal done), Nat.add_zero] at counted

/-- A unit ends before the limit of the graph just when its attempts cannot make up for it. -/
theorem endsWithin_iff (limit : ℕ) (enforced : Bool) (maximums : Work → ℕ) :
    EndsWithin limit enforced maximums ↔ worstCase maximums enforced < limit := by
  refine ⟨fun ends => ?_, endsWithin_of_lt⟩
  by_contra full
  obtain ⟨answers, length, meets, -, early⟩ := exists_longest maximums enforced
  obtain ⟨taken, rest, split, short, finished⟩ := ends _ rfl answers meets (by omega)
  exact early ⟨taken, rest, split, by omega, finished⟩

end Nodes

example : worstCase (RepairSettings.maximums {}) false = 206 ∧
    worstCase (RepairSettings.maximums {}) true = 124 := by decide

/-- An answer of a green build, with the scores of its classes. -/
def measuredAnswer (line score : ℚ) : Answer where
  line := fun _ => line
  pit := fun _ => .report score 1

/-- Six rounds of coverage and six of mutation, each a step up. -/
def improvingRun : List Answer :=
  List.replicate 17 (measuredAnswer 10 10) ++
    (List.range 6).flatMap (fun k => List.replicate 9 (measuredAnswer (10 + 10 * k) 10)) ++
    List.replicate 2 (measuredAnswer 80 10) ++
    (List.range 6).flatMap (fun k => List.replicate 11 (measuredAnswer 80 (10 + 10 * k))) ++
    List.replicate 3 (measuredAnswer 80 70)

def ordinary : Setting where
  batch := ["app.Cart"]
  coverageGate := 80
  mutationGate := 70

theorem improvingRun_meets (setting : Setting) (s : State) :
    Meets (step setting) (Within setting) s improvingRun := by
  have measured : ∀ a ∈ improvingRun, ∃ line score, a = measuredAnswer line score := by
    intro a member
    simp only [improvingRun, List.mem_append, List.mem_flatMap, List.mem_replicate] at member
    obtain (((⟨_, rfl⟩ | ⟨k, _, _, rfl⟩) | ⟨_, rfl⟩) | ⟨k, _, _, rfl⟩) | ⟨_, rfl⟩ := member <;>
      exact ⟨_, _, rfl⟩
  revert measured
  generalize improvingRun = answers
  intro measured
  induction answers generalizing s with
  | nil => trivial
  | cons a answers ih =>
      refine ⟨?_, ih _ fun b later => measured b (List.mem_cons_of_mem a later)⟩
      obtain ⟨line, score, rfl⟩ := measured a List.mem_cons_self
      refine ⟨fun _ _ => rfl, fun _ _ suite => ?_⟩
      have red := List.mem_of_find?_eq_some suite
      obtain ⟨_, _, found⟩ := List.mem_map.mp red
      cases found

theorem ends_late_by_default : ¬ EndsWithin 120 false (RepairSettings.maximums {}) := by
  intro ends
  have early := ends ordinary rfl improvingRun (improvingRun_meets _ _) (by decide +kernel)
  have finished := doneBefore_take (fun _ _ => step_terminal) early
  revert finished
  decide +kernel

/-! Turns. -/

/-- A unit under a backend of the quality gate takes no more turns than its limits add up to. -/
def TurnsWithin (enforced : Bool) (maximums : Work → ℕ) : Prop :=
  ∀ setting : Setting, setting.mavenEnforcer = enforced → ∀ answers : List Answer,
    Meets (step setting) (SuiteWithin setting) (State.start maximums) answers →
      (run (step setting) (State.start maximums) answers).turns ≤ sumOfLimits maximums

/-- Every way round the graph that takes a turn spends an attempt within its limit. -/
def LapsSpend (enforced : Bool) (maximums : Work → ℕ) : Prop :=
  ∀ setting : Setting, setting.mavenEnforcer = enforced → ∀ earlier lap : List Answer,
    Meets (step setting) (SuiteWithin setting) (State.start maximums) (earlier ++ lap) →
      let before := run (step setting) (State.start maximums) earlier
      let after := run (step setting) before lap
      after.node = before.node → before.turns < after.turns →
        ∃ w ∈ limited, before.attempts w < after.attempts w ∧ after.attempts w ≤ maximums w

/-- The limits of the phases that a backend does without. -/
def spare (enforced : Bool) (maximums : Work → ℕ) : ℕ :=
  if enforced then maximums .fixCoverage + maximums .fixMutation else maximums .delegatedQualityGate

section Turns
variable (maximums : Work → ℕ) (enforced : Bool)

/-- The first plan and the first generation are in no limit. -/
theorem mostTurns_le_iff : mostTurns maximums enforced ≤ sumOfLimits maximums ↔
    2 ≤ spare enforced maximums := by
  rw [sumOfLimits_eq]
  cases enforced with
  | false =>
      rw [mostTurns_builtin, spare, if_neg Bool.false_ne_true]
      omega
  | true =>
      rw [mostTurns_enforced, spare, if_pos rfl]
      omega

theorem turnsWithin_iff : TurnsWithin enforced maximums ↔ 2 ≤ spare enforced maximums := by
  rw [← mostTurns_le_iff]
  constructor
  · intro within
    obtain ⟨answers, -, meets, turns, -⟩ := exists_longest maximums enforced
    rw [← turns]
    exact within _ rfl answers (meets_mono _ (fun _ _ allowed => allowed.2) _ answers meets)
  · rintro room setting rfl answers meets
    exact (run_turns_le meets).trans room

theorem lapsSpend : LapsSpend enforced maximums := by
  rintro setting rfl earlier lap meets before after back turn
  obtain ⟨first, second⟩ := (meets_append _ _ earlier lap).mp meets
  exact lap_spends (run_standing start_standing first) second back turn

/-- The turns of a unit, where the mutation tool reports a red suite only while a repair of
the tests is left. -/
theorem turns_spend_attempts : (TurnsWithin enforced maximums ↔ 2 ≤ spare enforced maximums) ∧
    LapsSpend enforced maximums :=
  ⟨turnsWithin_iff maximums enforced, lapsSpend maximums enforced⟩

end Turns

/-! A suite that is green for the tests, and red for the mutation tool every time. -/

def redAnswer : Answer where
  line := fun _ => 100
  pit := fun _ => .redSuite

theorem red_coverage (s : State) : ∃ t : State, t.turns = s.turns ∧
    step ordinary (s.goto (.run .measureCoverage)) redAnswer = t.goto (.reconcile .measureMutation) := by
  have low : uncovered ordinary redAnswer = [] := by decide +kernel
  refine ⟨(measureCoverage ordinary redAnswer (s.goto (.run .measureCoverage))).2,
    congrArg (fun frame => frame.2.2) (runPhase_frame ordinary redAnswer _ .measureCoverage), ?_⟩
  have passed : (measureCoverage ordinary redAnswer (s.goto (.run .measureCoverage))).1 = .passed := by
    unfold measureCoverage
    rw [low]
    show (settle ordinary redAnswer .measureCoverage _ .passed _).1 = .passed
    exact settle_passed rfl
  rw [step_run rfl]
  show State.goto _ (Check.route _ (measureCoverage _ _ _).1) = _
  rw [passed]
  rfl

/-- A lap from the tests to their repair: it takes a turn, whatever was spent. -/
theorem red_lap {s : State} (here : s.node = .reconcile .verifyTests) :
    (run (step ordinary) s (List.replicate 11 redAnswer)).node = .reconcile .verifyTests ∧
      (run (step ordinary) s (List.replicate 11 redAnswer)).turns = s.turns + 1 := by
  have tested : run (step ordinary) s (List.replicate 3 redAnswer) = s.goto (.run .measureCoverage) := by
    obtain ⟨node, progress, errorSignatures, precheckGate, reviewed, turns⟩ := s
    subst here
    rfl
  obtain ⟨t, same, covered⟩ := red_coverage s
  rw [show List.replicate 11 redAnswer = List.replicate 3 redAnswer ++ redAnswer ::
    List.replicate 7 redAnswer from rfl, run_append, tested, run_cons, covered, ← same]
  exact ⟨rfl, rfl⟩

/-- However often it is asked, a red suite has the unit back at its tests with a turn more. -/
theorem red_laps (n : ℕ) : ∃ answers : List Answer,
    (run (step ordinary) (State.start (RepairSettings.maximums {})) answers).node =
        .reconcile .verifyTests ∧
      n < (run (step ordinary) (State.start (RepairSettings.maximums {})) answers).turns := by
  induction n with
  | zero => exact ⟨List.replicate 14 redAnswer, by decide +kernel, by decide +kernel⟩
  | succ n ih =>
      obtain ⟨answers, here, more⟩ := ih
      obtain ⟨back, turn⟩ := red_lap here
      refine ⟨answers ++ List.replicate 11 redAnswer, ?_, ?_⟩
      · rw [run_append]
        exact back
      · rw [run_append, turn]
        omega

theorem red_suite_turns_unbounded : ¬ ∃ bound : ℕ, ∀ answers : List Answer,
    (run (step ordinary) (State.start (RepairSettings.maximums {})) answers).turns ≤ bound := by
  rintro ⟨bound, bounded⟩
  obtain ⟨answers, -, more⟩ := red_laps bound
  have within := bounded answers
  omega

end Uta.Cycle.Java
