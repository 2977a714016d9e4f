/- Whether the local changes that a delivery puts away are back when it has ended. -/
import Uta.Delivery.Effects

namespace Uta.Delivery
open Uta.Lib Uta.Lib.Prog

section Restored
variable (w : Weather)

/-- The local changes that were put away are in the working tree. -/
def Restored (d : Desk) : Prop :=
  ∀ met, (Command.stashSave, met) ∈ d.trace → (met.perform (w .stashSave) .stashSave).1 = .ok →
    ∀ change ∈ met.changes, change ∈ d.repo.changes

/-- What was stashed has been popped. -/
def Popped (d : Desk) : Prop := d.Did w .stashSave → d.Did w .stashPop

def Unstashed (d : Desk) : Prop := (∀ met, (Command.stashSave, met) ∉ d.trace) ∧ ¬ d.Did w .stashPop

/-- The local changes are on top of the stash, and nowhere else. -/
def Shelved (d : Desk) : Prop :=
  d.Did w .stashSave ∧ ¬ d.Did w .stashPop ∧ d.repo.changes = [] ∧ ∃ top rest, d.repo.stash = top :: rest ∧
    top ≠ [] ∧ ∀ met, (Command.stashSave, met) ∈ d.trace → met.changes = top

variable {w} {d : Desk} {c : Command}

theorem restored_of_did_not (not : ¬ d.Did w .stashSave) : Restored w d ↔ Popped w d :=
  ⟨fun _ did => absurd did not, fun _ met member done => absurd ⟨met, member, done⟩ not⟩

theorem Unstashed.did_not (unstashed : Unstashed w d) : ¬ d.Did w .stashSave :=
  fun ⟨met, member, _⟩ => unstashed.1 met member

theorem Shelved.restored_iff (shelved : Shelved w d) : Restored w d ↔ Popped w d := by
  obtain ⟨⟨met, member, done⟩, kept, clean, top, _, _, something, only⟩ := shelved
  constructor
  · intro restored
    obtain ⟨change, there⟩ := List.exists_mem_of_ne_nil _ something
    have back := restored met member done change (by rwa [only met member])
    rw [clean] at back
    cases back
  · intro popped
    exact absurd (popped ⟨met, member, done⟩) kept

theorem saved_after (other : c ≠ .stashSave) (met : Repo) :
    (Command.stashSave, met) ∈ (d.after w c).trace ↔ (Command.stashSave, met) ∈ d.trace := by
  rw [Desk.after_trace, List.mem_append, List.mem_singleton, Prod.mk.injEq]
  exact or_iff_left fun now => other now.1.symm

theorem did_after_other {c' : Command} (other : c ≠ c') : (d.after w c).Did w c' ↔ d.Did w c' := by
  rw [Desk.did_after]
  exact or_iff_left fun now => other now.1

theorem after_changes (leaves : c.LeavesChanges) :
    (d.after w c).repo.changes = d.repo.changes ∧ (d.after w c).repo.stash = d.repo.stash := by
  rw [← d.met_changes w c, ← d.met_stash w c]
  exact (d.met w c).perform_changes (w c) leaves

theorem Command.LeavesChanges.ne (leaves : c.LeavesChanges) : c ≠ .stashSave ∧ c ≠ .stashPop := by
  constructor <;> rintro rfl <;> exact leaves

theorem restored_iff_after (leaves : c.LeavesChanges) (holds : Restored w d ↔ Popped w d) :
    Restored w (d.after w c) ↔ Popped w (d.after w c) := by
  unfold Restored Popped at *
  simpa only [saved_after leaves.ne.1, did_after_other leaves.ne.1, did_after_other leaves.ne.2,
    (after_changes leaves).1] using holds

theorem Shelved.after (shelved : Shelved w d) (leaves : c.LeavesChanges) : Shelved w (d.after w c) := by
  unfold Shelved at *
  simpa only [saved_after leaves.ne.1, did_after_other leaves.ne.1, did_after_other leaves.ne.2,
    after_changes leaves] using shelved

theorem Unstashed.after (unstashed : Unstashed w d) (early : c ≠ .stashSave) (notPop : c ≠ .stashPop) :
    Unstashed w (d.after w c) := by
  unfold Unstashed at *
  simpa only [saved_after early, did_after_other notPop] using unstashed

theorem Unstashed.save (unstashed : Unstashed w d) :
    (d.answer w .stashSave = .ok → Shelved w (d.after w .stashSave)) ∧
      (d.answer w .stashSave ≠ .ok → ¬ (d.after w .stashSave).Did w .stashSave) := by
  have did : (d.after w .stashSave).Did w .stashSave ↔ d.answer w .stashSave = .ok := by
    rw [Desk.did_after, or_iff_right unstashed.did_not, and_iff_right rfl]
  refine ⟨fun saved => ?_, fun unsaved => fun now => unsaved (did.mp now)⟩
  obtain ⟨unsaved, _⟩ | ⟨_, dirty, left⟩ := (d.met w .stashSave).stashSave_cases (w .stashSave).exit
  · exact absurd saved unsaved
  · have ends : (d.after w .stashSave).repo = _ := left
    refine ⟨did.mpr saved, ?_, ?_, (d.met w .stashSave).changes, (d.met w .stashSave).stash, ?_, dirty,
      fun met member => ?_⟩
    · rw [did_after_other (by simp)]
      exact unstashed.2
    · rw [ends]
    · rw [ends]
    · obtain before | now := List.mem_append.mp member
      · exact absurd before (unstashed.1 met)
      · rw [(Prod.mk.inj (List.mem_singleton.mp now)).2]

theorem Shelved.pop (shelved : Shelved w d) :
    Restored w (d.after w .stashPop) ↔ Popped w (d.after w .stashPop) := by
  obtain ⟨did, kept, clean, top, rest, stashed, something, only⟩ := shelved
  rw [← d.met_stash w .stashPop] at stashed
  obtain ⟨popped, changes⟩ | ⟨unpopped, changes, stash⟩ :=
    (d.met w .stashPop).stashPop_cases stashed (w .stashPop).exit
  · constructor
    · exact fun _ _ => d.did_after w .stashPop .stashPop |>.mpr (.inr ⟨rfl, popped⟩)
    · intro _ met member _ change there
      have ends : (d.after w .stashPop).repo.changes = _ := changes
      rw [ends, ← only met ((saved_after (by simp) met).mp member)]
      exact List.mem_append_left _ there
  · refine Shelved.restored_iff ⟨?_, ?_, ?_, top, rest, ?_, something, fun met member => ?_⟩
    · exact (did_after_other (by simp)).mpr did
    · rw [Desk.did_after]
      rintro (before | ⟨_, now⟩)
      · exact kept before
      · exact unpopped now
    · exact changes.trans ((d.met_changes w .stashPop).trans clean)
    · exact stash.trans stashed
    · exact only met ((saved_after (by simp) met).mp member)

theorem triple_unstashed {α : Type} {p : DeliveryProg α}
    (only : p.Only (Stmt.Git fun c => c ≠ .stashSave ∧ c ≠ .stashPop)) :
    Triple (Desk.exec w) (Unstashed w) p (fun _ => Unstashed w) (fun d => Restored w d ↔ Popped w d) := by
  refine (Triple.invariant only ?_).mono (fun _ => id) (fun _ _ => id)
    fun _ unstashed => restored_of_did_not unstashed.did_not
  intro statement allowed d holds
  cases statement with
  | git c => exact holds.after allowed.1 allowed.2
  | _ => exact holds

variable (w) in
/-- What the retry knows of the local changes once it has tried to put them away. -/
def Tried (stashed : Bool) (d : Desk) : Prop :=
  match stashed with
  | true => Shelved w d
  | false => ¬ d.Did w .stashSave

theorem Tried.restored_iff {stashed : Bool} (tried : Tried w stashed d) : Restored w d ↔ Popped w d := by
  cases stashed with
  | true => exact Shelved.restored_iff tried
  | false => exact restored_of_did_not tried

theorem Unstashed.tried (unstashed : Unstashed w d) :
    Tried w (decide (d.answer w .stashSave = .ok)) (d.after w .stashSave) := by
  by_cases saved : d.answer w .stashSave = .ok
  · rw [decide_eq_true saved]
    exact unstashed.save.1 saved
  · rw [decide_eq_false saved]
    exact unstashed.save.2 saved

/-- Other commands keep what holds of the local changes. -/
theorem triple_leaves {α : Type} {p : DeliveryProg α} {I : Desk → Prop}
    (only : p.Only (Stmt.Git Command.LeavesChanges))
    (kept : ∀ d (c : Command), c.LeavesChanges → I d → I (d.after w c))
    (recorded : ∀ (d : Desk) r, I d → I { d with records := d.records ++ [r] }) :
    Triple (Desk.exec w) I p (fun _ => I) I := by
  refine Triple.invariant only ?_
  intro statement allowed d holds
  cases statement with
  | git c => exact kept d c allowed holds
  | rebaseInProgress => exact holds
  | record r => exact recorded d r holds

theorem triple_restored {α : Type} {p : DeliveryProg α} (only : p.Only (Stmt.Git Command.LeavesChanges)) :
    Triple (Desk.exec w) (fun d => Restored w d ↔ Popped w d) p
      (fun _ d => Restored w d ↔ Popped w d) (fun d => Restored w d ↔ Popped w d) :=
  triple_leaves only (fun _ _ leaves => restored_iff_after leaves) fun _ _ => id

theorem triple_tried {c : Command} (leaves : c.LeavesChanges) (stashed : Bool) :
    Triple (Desk.exec w) (Tried w stashed) (gitRun c) (fun _ => Tried w stashed)
      (fun d => Restored w d ↔ Popped w d) := by
  refine (triple_leaves (only_gitRun leaves) ?_ ?_).mono (fun _ => id) (fun _ _ => id)
    fun _ => Tried.restored_iff
  · intro d c leaves tried
    cases stashed with
    | true => exact Shelved.after tried leaves
    | false => exact fun did => tried ((did_after_other leaves.ne.1).mp did)
  · cases stashed <;> exact fun _ _ => id

theorem triple_unstash (stashed : Bool) : Triple (Desk.exec w) (Tried w stashed) (unstash stashed)
    (fun _ d => Restored w d ↔ Popped w d) (fun d => Restored w d ↔ Popped w d) := by
  cases stashed with
  | false => exact .ret fun _ => Tried.restored_iff
  | true =>
      refine .bind (Q := fun _ d => Restored w d ↔ Popped w d) ?_ fun _ => .ret fun _ => id
      exact triple_gitRun (fun _ shelved _ => Shelved.pop shelved) fun _ shelved _ => Shelved.pop shelved

theorem triple_rebaseRetry_restored : Triple (Desk.exec w) (Unstashed w) rebaseRetry
    (fun _ d => Restored w d ↔ Popped w d) (fun d => Restored w d ↔ Popped w d) := by
  refine .bind (triple_unstashed (only_abortInProgressRebase (by simp) (by simp))) fun _ => ?_
  refine .bind (triple_unstashed (only_gitRun (by simp))) fun checkout => ?_
  by_cases switched : checkout.Zero
  · rw [if_neg (not_not.mpr switched)]
    refine .bind (Q := fun r => Tried w (decide (r = .ok)))
      (triple_gitRun (fun d unstashed _ => unstashed.tried) fun d unstashed _ =>
        unstashed.tried.restored_iff) fun stash => ?_
    refine .bind (triple_tried (c := .pullRebase) trivial _) fun rebase => ?_
    by_cases pulled : rebase.Zero
    · rw [if_neg (not_not.mpr pulled)]
      refine .bind (triple_tried (c := .retryPush) trivial _) fun retry => ?_
      exact .bind (triple_unstash _) fun _ => .ret fun _ => id
    · rw [if_pos pulled]
      exact .bind (triple_unstash _) fun _ => .ret fun _ => id
  · rw [if_pos switched]
    exact .ret fun _ unstashed => restored_of_did_not unstashed.did_not

theorem triple_publish_restored (c : ℕ) : Triple (Desk.exec w) (Unstashed w) (publish c)
    (fun _ d => Restored w d ↔ Popped w d) (fun d => Restored w d ↔ Popped w d) := by
  refine .bind (Q := fun _ d => Restored w d ↔ Popped w d) ?_ fun push => ?_
  · refine .bind (triple_unstashed (only_gitRun (by simp))) fun push => ?_
    by_cases rejected : push = .rejected
    · rw [if_pos rejected]
      exact triple_rebaseRetry_restored
    · rw [if_neg rejected]
      exact .ret fun _ unstashed => restored_of_did_not unstashed.did_not
  · refine triple_restored ?_
    by_cases zero : push.Zero
    · rw [if_pos zero]
      refine (only_gitRun trivial).bind fun answer => ?_
      exact (only_record _).bind fun _ => only_record _
    · rw [if_neg zero]
      exact only_record _

/-- When a delivery has ended, the local changes it put away are back exactly when a stash
it made has been popped. -/
theorem triple_commitToBranch_restored (files : List String) :
    Triple (Desk.exec w) (Unstashed w) (commitToBranch files)
      (fun _ d => Restored w d ↔ Popped w d) (fun d => Restored w d ↔ Popped w d) := by
  refine .bind (triple_unstashed (only_commitAll files (by simp) (by simp) (by simp))) fun commitSha => ?_
  refine .bind (Triple.attempt (R := fun _ d => Restored w d ↔ Popped w d) ?_ fun _ _ => id)
    fun _ => triple_restored (only_record _)
  refine .bind (triple_unstashed (only_record _)) fun _ => ?_
  cases commitSha with
  | none => exact .ret fun _ unstashed => restored_of_did_not unstashed.did_not
  | some c => exact triple_publish_restored c

end Restored
end Uta.Delivery
