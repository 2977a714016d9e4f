/- Whether a rebase is in progress when a delivery has ended. -/
import Uta.Delivery.Effects

namespace Uta.Delivery
open Uta.Lib Uta.Lib.Prog

section Settled
variable (w : Weather) (s : Repo)

/-- A rebase that was in progress at the start has been aborted. -/
def StaleEnded (d : Desk) : Prop := s.rebasing = none ∨ d.Did w .rebaseAbort

/-- No pull has stopped in the middle of its rebase. -/
def PullsWhole (d : Desk) : Prop :=
  ∀ met, (Command.pullRebase, met) ∈ d.trace → ¬ met.BreaksOff (w .pullRebase)

/-- The two say whether a rebase is in progress. -/
def Told (d : Desk) : Prop := d.repo.rebasing = none ↔ StaleEnded w s d ∧ PullsWhole w d

def NoPull (d : Desk) : Prop := ∀ met, (Command.pullRebase, met) ∉ d.trace

variable {w s}

theorem pullsWhole_after (d : Desk) {c : Command} :
    PullsWhole w (d.after w c) ↔
      PullsWhole w d ∧ (c = .pullRebase → ¬ (d.met w c).BreaksOff (w .pullRebase)) := by
  unfold PullsWhole
  simp only [Desk.after_trace, List.mem_append, List.mem_singleton, Prod.mk.injEq]
  constructor
  · intro whole
    exact ⟨fun met member => whole met (.inl member), fun same => whole _ (.inr ⟨same.symm, rfl⟩)⟩
  · rintro ⟨before, now⟩ met (member | ⟨same, rfl⟩)
    · exact before met member
    · exact now same.symm

theorem told_after {d : Desk} {c : Command} (told : Told w s d) (first : c = .rebaseAbort → NoPull d) :
    Told w s (d.after w c) := by
  unfold Told StaleEnded at *
  rw [pullsWhole_after, Desk.did_after]
  by_cases abort : c = .rebaseAbort
  · subst abort
    have before : PullsWhole w d := fun met member => absurd member (first rfl met)
    have ends : (d.after w .rebaseAbort).repo.rebasing = none ↔
        d.repo.rebasing = none ∨ d.answer w .rebaseAbort = .ok := by
      rw [← d.met_rebasing w .rebaseAbort]
      exact (d.met w .rebaseAbort).rebaseAbort_rebasing (w .rebaseAbort).exit
    rw [ends, told]
    simp [before, or_assoc]
  · by_cases pull : c = .pullRebase
    · subst pull
      have ends : (d.after w .pullRebase).repo.rebasing = none ↔
          d.repo.rebasing = none ∧ ¬ (d.met w .pullRebase).BreaksOff (w .pullRebase) := by
        rw [← d.met_rebasing w .pullRebase]
        exact (d.met w .pullRebase).pullRebase_rebasing (w .pullRebase)
      rw [ends, told]
      simp [and_assoc]
    · have same : (d.after w c).repo.rebasing = d.repo.rebasing := by
        rw [← d.met_rebasing w c]
        exact (d.met w c).perform_rebasing (w c) abort pull
      rw [same, told]
      simp [abort, pull]

/-- The rule for the part of a delivery before its pull. -/
theorem triple_early {α : Type} {p : DeliveryProg α} (only : p.Only (Stmt.Git (· ≠ .pullRebase))) :
    Triple (Desk.exec w) (fun d => Told w s d ∧ NoPull d) p (fun _ d => Told w s d ∧ NoPull d)
      (Told w s) := by
  refine (Triple.invariant only ?_).mono (fun _ => id) (fun _ _ => id) fun _ => And.left
  intro statement allowed d holds
  cases statement with
  | rebaseInProgress => exact holds
  | record r => exact holds
  | git c =>
      refine ⟨told_after holds.1 fun _ => holds.2, fun met member => ?_⟩
      rcases List.mem_append.mp member with before | now
      · exact holds.2 met before
      · exact allowed (Prod.mk.inj (List.mem_singleton.mp now)).1.symm

/-- The rule for the part of a delivery after its abort. -/
theorem triple_late {α : Type} {p : DeliveryProg α} (only : p.Only (Stmt.Git (· ≠ .rebaseAbort))) :
    Triple (Desk.exec w) (Told w s) p (fun _ => Told w s) (Told w s) := by
  refine Triple.invariant only ?_
  intro statement allowed d holds
  cases statement with
  | rebaseInProgress => exact holds
  | record r => exact holds
  | git c => exact told_after holds fun same => absurd same allowed

theorem triple_rebaseRetry_told : Triple (Desk.exec w) (fun d => Told w s d ∧ NoPull d) rebaseRetry
    (fun _ => Told w s) (Told w s) := by
  refine .bind (triple_early (only_abortInProgressRebase (by simp) (by simp))) fun _ => ?_
  refine (triple_late ?_).of_pre fun _ => And.left
  refine (only_gitRun (by simp)).bind fun checkout => ?_
  by_cases switched : checkout.Zero
  · rw [if_neg (not_not.mpr switched)]
    refine (only_gitRun (by simp)).bind fun stash => (only_gitRun (by simp)).bind fun rebase => ?_
    by_cases pulled : rebase.Zero
    · rw [if_neg (not_not.mpr pulled)]
      exact (only_gitRun (by simp)).bind fun _ => (only_unstash (by simp) _).bind fun _ => trivial
    · rw [if_pos pulled]
      exact (only_unstash (by simp) _).bind fun _ => trivial
  · rw [if_pos switched]
    trivial

theorem triple_publish_told (c : ℕ) : Triple (Desk.exec w) (fun d => Told w s d ∧ NoPull d) (publish c)
    (fun _ => Told w s) (Told w s) := by
  refine .bind (Q := fun _ => Told w s) ?_ fun push => ?_
  · refine .bind (triple_early (only_gitRun (by simp))) fun push => ?_
    by_cases rejected : push = .rejected
    · rw [if_pos rejected]
      exact triple_rebaseRetry_told
    · rw [if_neg rejected]
      exact .ret fun _ => And.left
  · refine triple_late ?_
    by_cases zero : push.Zero
    · rw [if_pos zero]
      refine (only_gitRun (by simp)).bind fun answer => ?_
      exact (only_record _).bind fun _ => only_record _
    · rw [if_neg zero]
      exact only_record _

/-- When a delivery has ended, a rebase is in progress exactly when an old one has not
been aborted or a pull has stopped in the middle of one. -/
theorem triple_commitToBranch_told (files : List String) :
    Triple (Desk.exec w) (fun d => Told w s d ∧ NoPull d) (commitToBranch files) (fun _ => Told w s)
      (Told w s) := by
  refine .bind (triple_early (only_commitAll files (by simp) (by simp) (by simp))) fun commitSha => ?_
  refine .bind (Triple.attempt (R := fun _ => Told w s) ?_ fun _ _ => id) fun _ => triple_late (only_record _)
  refine .bind (triple_early (only_record _)) fun _ => ?_
  cases commitSha with
  | none => exact .ret fun _ => And.left
  | some c => exact triple_publish_told c

end Settled

end Uta.Delivery
