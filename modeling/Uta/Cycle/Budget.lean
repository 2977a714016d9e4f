/- The nodes that a crash-free run of the cycle executes: how far each node is from the end,
and how many more each attempt that is left can add. -/
import Uta.Cycle.Edges
import Uta.Lib.Potential

namespace Uta.Cycle

/-- The nodes from the run of a phase to the end, on the longest way that takes no attempt. -/
def Check.distance (enforced : Bool) : Check → ℕ
  | .completeGeneration => 0
  | .delegatedQualityGateVerify => 1
  | .measureMutation => 3
  | .measureCoverage => 5
  | .verifyTests => if enforced then 3 else 7
  | .verifyCompile => if enforced then 5 else 9
  | .precheckExistingTests => if enforced then 17 else 21

/-- The nodes from the interpreter of a phase to the end. -/
def Work.distance (enforced : Bool) : Work → ℕ
  | .reviewEquivalentMutants => 1
  | .planTests => Check.distance enforced .verifyCompile + 7
  | w => w.verifier.distance enforced + 2

def Node.distance (enforced : Bool) : Node → ℕ
  | .reconcile c => c.distance enforced + 1
  | .run c => c.distance enforced
  | .turnReconcile w => w.distance enforced + 4
  | .prompt w => w.distance enforced + 3
  | .turn w => w.distance enforced + 2
  | .interpretReconcile w => w.distance enforced + 1
  | .interpret w => w.distance enforced
  | _ => 0

/-- The nodes that one attempt can add. -/
def Work.nodes (enforced : Bool) : Work → ℕ
  | .planTests | .generateTests => 5
  | .fixCompile => 7
  | .fixTests => if enforced then 7 else 11
  | .fixCoverage => if enforced then 0 else 9
  | .fixMutation => if enforced then 0 else 11
  | .delegatedQualityGate => if enforced then 9 else 0
  | .reviewEquivalentMutants => 0

/-- An edge goes one node forward, or as far back as its attempt pays for. -/
theorem Edge.shorter {enforced : Bool} {n n' : Node} {charge : Option Work}
    (edge : Edge enforced n n' charge) (fits : n.fits enforced = true) :
    n'.distance enforced + 1 ≤ n.distance enforced + (charge.map (Work.nodes enforced)).getD 0 := by
  cases edge with
  | started c | begun w | prompted w | answered w | read w => exact Nat.le_refl _
  | tested off | mutationReview off => subst off; decide
  | delegatedRepair on | delegated on | gateRepair on | gateReview on => subst on; decide
  | repaired w repair =>
      cases w <;> first | exact Nat.le_refl _ | exact absurd repair (by decide)
  | _ => cases enforced <;> first | decide | exact absurd fits (by decide)

theorem Node.distance_pos {enforced : Bool} {n : Node} (fits : n.fits enforced = true)
    (going : n.terminal = false) : 0 < n.distance enforced := by
  cases n with
  | run c => cases c <;> first | (cases enforced <;> decide) | cases going
  | interpret w => cases w <;> exact Nat.succ_pos _
  | terminateGeneration | ended => cases going
  | rehydrate _ | turnRehydrate _ | resultRehydrate _ | pauseGeneration => cases fits
  | _ => exact Nat.succ_pos _

namespace Java
open Uta.Lib

section Left
variable (maximums : Work → ℕ) (enforced : Bool) (s : State)

/-- The attempts of a phase that are left. -/
def State.left (w : Work) : ℕ := (maximums w - s.used enforced w).toNat

/-- The nodes that a run can still execute. -/
def State.ahead : ℕ :=
  if s.node.terminal then 0
  else s.node.distance enforced + reserve (Work.nodes enforced) (s.left maximums enforced) limited

/-- The most nodes that a unit executes before it ends. -/
def worstCase : ℕ := entry.distance enforced + reserve (Work.nodes enforced) maximums limited

end Left

section Falls
variable {maximums : Work → ℕ} {enforced : Bool} {s s' : State}

/-- An attempt that is taken is one less that is left; the others stay. -/
theorem left_of_taken {charge : Option Work}
    (taken : ∀ w, s'.used enforced w = s.used enforced w + if charge = some w then 1 else 0)
    (room : ∀ c ∈ charge, c ∈ limited ∧ s.used enforced c < maximums c) (weight : Work → ℕ) :
    reserve weight (s.left maximums enforced) limited =
      reserve weight (s'.left maximums enforced) limited + (charge.map weight).getD 0 := by
  cases charge with
  | none =>
      refine reserve_same weight fun w _ => ?_
      have same := taken w
      rw [if_neg nofun, add_zero] at same
      rw [State.left, State.left, same]
  | some c =>
      obtain ⟨bounded, below⟩ := room c rfl
      refine reserve_take weight (by decide) bounded ?_ fun w other => ?_
      · have one := taken c
        rw [if_pos rfl] at one
        rw [State.left, State.left]
        omega
      · have same := taken w
        rw [if_neg fun equal => other (Option.some.inj equal).symm, add_zero] at same
        rw [State.left, State.left, same]

theorem Follows.falls (follows : Follows maximums enforced s s') (fits : s.node.fits enforced = true)
    (going : s.node.terminal = false) : s'.ahead maximums enforced < s.ahead maximums enforced := by
  have positive := Node.distance_pos fits going
  unfold State.ahead
  rw [going, if_neg Bool.false_ne_true]
  rcases follows with finished | ⟨charge, edge, taken, room⟩
  · rw [if_pos finished]
    omega
  · have shorter := edge.shorter fits
    have paid := left_of_taken taken room (Work.nodes enforced)
    split_ifs <;> omega

end Falls

theorem start_left (maximums : Work → ℕ) (enforced : Bool) (w : Work) :
    (State.start maximums).left maximums enforced w = maximums w := by
  rw [State.left, used_idle rfl]
  exact Int.toNat_natCast _

theorem start_ahead (maximums : Work → ℕ) (enforced : Bool) :
    (State.start maximums).ahead maximums enforced = worstCase maximums enforced := by
  unfold State.ahead worstCase
  rw [if_neg (show ¬ (State.start maximums).node.terminal = true from Bool.false_ne_true),
    reserve_same _ fun w _ => start_left maximums enforced w]
  rfl

end Java
end Uta.Cycle
