/- How many checks are under way at a time, and what a stop does to that. -/
import Uta.Ci.Checks

namespace Uta.Ci
open Uta.Lib

/-- The checks under way whose record was not stopped. -/
def Service.unstopped (st : Service) : List ℕ := st.checks.filter fun id => id ∉ st.stopRequested

/-- The record whose check a thread is executing. -/
def executes (st : Service) (t : Thread Stmt Stmt.Answer CiError Call) : Option ℕ :=
  match t.rest with
  | .stmt (.returns a) _ => (st.at? a).map CiTaskRecord.taskId
  | _ => none

/-- The records whose checks are being executed. -/
def CiSystem.executing (sys : CiSystem) : List ℕ := sys.threads.filterMap (executes sys.store)

/-- The limit bounds the checks of the records that were not stopped. A check is
executed between its claim and its release. -/
def CiSystem.WithinLimit (parallelLimit : ℤ) (sys : CiSystem) : Prop :=
  (CiSystem.executing sys).Subperm sys.store.checks ∧
    (0 < parallelLimit → (sys.store.unstopped.length : ℤ) ≤ parallelLimit)

/-! The limit is not changed. -/

theorem Service.saveNow_limit (st : Service) (a : ℕ) :
    (st.saveNow a).parallelLimit = st.parallelLimit := (Service.saveNow_rest st a).2.2.2.2.2.2

theorem exec_limit (s : Stmt) (st : Service) : (s.exec st).2.parallelLimit = st.parallelLimit := by
  cases s with
  | claim a listed =>
      change (st.claim a listed).2.parallelLimit = _
      unfold Service.claim
      split
      · rfl
      · split
        · rfl
        · split
          · exact Service.saveNow_limit _ a
          · exact Service.saveNow_limit _ a
  | claimNext listed =>
      change (st.claimNext listed).2.parallelLimit = _
      unfold Service.claimNext
      split
      · rfl
      · split
        · rfl
        · exact Service.saveNow_limit _ _
        · exact Service.saveNow_limit _ _
  | giveBack a =>
      change (st.giveBack a).parallelLimit = _
      unfold Service.giveBack
      split
      · rfl
      · exact Service.saveNow_limit _ a
  | stop a =>
      change (st.stop a).2.parallelLimit = _
      unfold Service.stop
      split
      · rfl
      · split
        · rfl
        · exact Service.saveNow_limit _ a
  | replace temp =>
      change (st.replace temp).parallelLimit = _
      unfold Service.replace
      split <;> rfl
  | release a =>
      change (st.release a).parallelLimit = _
      unfold Service.release
      split <;> rfl
  | finish a passed summary =>
      change (st.unlessStopped a _).2.parallelLimit = _
      unfold Service.unlessStopped
      split
      · rfl
      · split <;> rfl
  | crash a error =>
      change (st.unlessStopped a _).2.parallelLimit = _
      unfold Service.unlessStopped
      split
      · rfl
      · split <;> rfl
  | mark a =>
      change (st.ofRecord a st _).parallelLimit = _
      unfold Service.ofRecord
      split
      · rfl
      · split <;> rfl
  | unmark a =>
      change (st.ofRecord a st _).parallelLimit = _
      unfold Service.ofRecord
      split <;> rfl
  | runs a =>
      change (st.ofRecord a st _).parallelLimit = _
      unfold Service.ofRecord
      split <;> rfl
  | _ => rfl

theorem next_limit (sys : CiSystem) (t : Turn Call) :
    (CiSystem.next sys t).store.parallelLimit = sys.store.parallelLimit := by
  unfold CiSystem.next
  rw [System.turn_store]
  rcases sys.executes t with _ | ⟨c, s⟩
  · rfl
  · exact exec_limit s sys.store

theorem run_limit (sys : CiSystem) (turns : List (Turn Call)) :
    (run CiSystem.next sys turns).store.parallelLimit = sys.store.parallelLimit :=
  run_invariant (P := fun reached => reached.store.parallelLimit = sys.store.parallelLimit) _
    (fun reached t before => (next_limit reached t).trans before) sys turns rfl

/-! The slots. -/

/-- The checks of records that were not stopped have a slot each. -/
theorem Sound.within {st : Service} {held unrun : List ℕ} (sound : Sound st held unrun)
    (positive : 0 < st.parallelLimit) : (st.unstopped.length : ℤ) ≤ st.parallelLimit := by
  have bounded := sound.bounded positive
  have nodup : st.unstopped.Nodup := sound.checks_nodup.filter _
  have slots : st.unstopped.toFinset ⊆ st.active := by
    intro id member
    obtain ⟨checked, unstopped⟩ := List.mem_filter.mp (List.mem_toFinset.mp member)
    obtain ⟨a, claimed, object⟩ := List.mem_filterMap.mp (sound.checks.mem_iff.mp checked)
    obtain ⟨r, here, rfl⟩ := Option.map_eq_some_iff.mp object
    exact (sound.slots a claimed r here).resolve_right (of_decide_eq_true unstopped)
  have count := Finset.card_le_card slots
  rw [List.toFinset_card_of_nodup nodup] at count
  omega

/-- A thread that executes a check holds its claim. -/
theorem executing_subperm {sys : CiSystem} {permits : List Permit}
    (disciplined : sys.Disciplined discipline permits) (good : Good sys.store permits) :
    (CiSystem.executing sys).Subperm sys.store.checks := by
  have claims : (CiSystem.executing sys).Sublist (sys.store.idsOf (permits.filterMap Permit.held)) := by
    unfold CiSystem.executing Service.idsOf
    rw [List.filterMap_filterMap]
    refine System.forall₂_filterMap_sublist disciplined ?_
    rintro ⟨c, rest⟩ p follows id executed
    unfold executes at executed
    split at executed
    · next a next program =>
      obtain rfl : rest = .stmt (.returns a) next := program
      have allowed : p.Allows (.returns a) := follows.1
      cases p with
      | idle => exact allowed.elim
      | judging b => exact allowed.elim
      | orphaned b => exact allowed.elim
      | holds b stage =>
          obtain ⟨rfl, _⟩ := allowed
          exact executed
    · cases executed
  exact claims.subperm.trans (Sound.checks good).symm.subperm

/-- In any interleaving without a race of claims, the limit bounds the checks under
way, those of stopped records apart. -/
theorem always_within_limit (parallelLimit : ℤ) (managed : Bool) (handled : String → Bool)
    (marked : Bool) (foreign : Finset ℕ) (files : List CiTaskRecord) (turns : List (Turn Call))
    (unraced : Meets CiSystem.next (System.Allowed Unraced)
      (System.idle (.boot parallelLimit managed handled marked foreign files)) turns) :
    Always CiSystem.next (CiSystem.WithinLimit parallelLimit)
      (System.idle (.boot parallelLimit managed handled marked foreign files)) turns := by
  have good := always_good parallelLimit managed handled marked foreign files turns unraced
  rw [always_iff_reached] at good ⊢
  intro done rest split
  obtain ⟨permits, disciplined, sound⟩ := good done rest split
  refine ⟨executing_subperm disciplined sound, fun positive => ?_⟩
  have limit := run_limit (System.idle (.boot parallelLimit managed handled marked foreign files)) done
  have within := Sound.within sound (limit.symm ▸ positive)
  exact within.trans limit.le

/-- A check is stopped while it is executed, and another record waits. -/
def stopTurns : List (Turn Call) :=
  Turn.inOrder 3 [.submit "python" 0 none, .submit "python" 1 none] ++
  .call (.runCheck 1 [] passing []) :: List.replicate 15 (.go 2) ++
  .call (.stopCiTask 1 [⟨[], passing⟩]) :: List.replicate 15 (.go 3)

theorem stop_within_limit :
    Always CiSystem.next (CiSystem.WithinLimit 1)
      (System.idle (.boot 1 true (fun _ => true) true ∅ [])) stopTurns :=
  always_within_limit 1 true (fun _ => true) true ∅ [] stopTurns (by decide)

/-- The stop hands the slot on at once: with a limit of one, two checks are executed. -/
theorem stop_hands_slot_on :
    ¬ Always CiSystem.next (fun sys => (CiSystem.executing sys).length ≤ 1)
      (System.idle (.boot 1 true (fun _ => true) true ∅ [])) stopTurns := by
  rw [always_iff_reached]
  intro limited
  have final := limited stopTurns [] (List.append_nil _).symm
  revert final
  decide

end Uta.Ci
