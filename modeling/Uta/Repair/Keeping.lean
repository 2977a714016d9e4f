/- What a refresh keeps of the repair tasks and the record. -/
import Uta.Repair.Sessions

namespace Uta.Repair
open Uta.Lib Uta.Ci Uta.Tasks

/-! What a round keeps. -/

/-- No task has failed, has been completed, or is under way again. -/
def TasksKept (before after : List RepoStatus) : Prop :=
  ∀ (id : ℕ) (s : RepoStatus), before[id]? = some s →
    ∃ t, after[id]? = some t ∧ (FailedRepo t ↔ FailedRepo s) ∧ (t = .completed ↔ s = .completed)

theorem TasksKept.refl (l : List RepoStatus) : TasksKept l l :=
  fun _ s present => ⟨s, present, Iff.rfl, Iff.rfl⟩

theorem TasksKept.trans {a b c : List RepoStatus} (first : TasksKept a b) (second : TasksKept b c) :
    TasksKept a c := by
  intro id s present
  obtain ⟨t, middle, failed, completed⟩ := first id s present
  obtain ⟨u, last, failed', completed'⟩ := second id t middle
  exact ⟨u, last, failed'.trans failed, completed'.trans completed⟩

theorem tasksKept_append (l m : List RepoStatus) : TasksKept l (l ++ m) := by
  intro id s present
  obtain ⟨inside, _⟩ := List.getElem?_eq_some_iff.mp present
  exact ⟨s, (List.getElem?_append_left inside).trans present, Iff.rfl, Iff.rfl⟩

theorem tasksKept_preempt (ids : List ℕ) (l : List RepoStatus) : TasksKept l (Focus.preempt ids l) := by
  intro id s present
  unfold Focus.preempt
  rw [List.getElem?_mapIdx, present]
  by_cases running : id ∈ ids ∧ s = .running
  · refine ⟨.stopRequested, congrArg some (if_pos running), ?_⟩
    rw [running.2]
    decide
  · exact ⟨s, congrArg some (if_neg running), Iff.rfl, Iff.rfl⟩

/-- What a round keeps. -/
structure Keeping (f g : Focus) : Prop where
  tasks : TasksKept f.tasks g.tasks
  workspacePath : g.record.workspacePath = f.record.workspacePath
  fingerprint : g.session.fingerprint = f.session.fingerprint

/-- What is kept where no thread is started. -/
structure Holding (f g : Focus) : Prop extends Keeping f g where
  creating : g.session.creating = f.session.creating

theorem Keeping.trans {f g h : Focus} (first : Keeping f g) (second : Keeping g h) : Keeping f h :=
  ⟨first.tasks.trans second.tasks, second.workspacePath.trans first.workspacePath,
    second.fingerprint.trans first.fingerprint⟩

namespace Holding
variable {f g h : Focus}

theorem refl (f : Focus) : Holding f f := ⟨⟨.refl _, rfl, rfl⟩, rfl⟩

theorem trans (first : Holding f g) (second : Holding g h) : Holding f h :=
  ⟨first.toKeeping.trans second.toKeeping, second.creating.trans first.creating⟩

/-- A change of the session and the record only. -/
theorem of_same (tasks : g.tasks = f.tasks) (path : g.record.workspacePath = f.record.workspacePath)
    (fingerprint : g.session.fingerprint = f.session.fingerprint)
    (creating : g.session.creating = f.session.creating) : Holding f g :=
  ⟨⟨tasks ▸ .refl _, path, fingerprint⟩, creating⟩

end Holding

section Keeps
variable {f : Focus} {cfg : Config} {o : Outcome} {m : Moment}

theorem report_holding (now : ℕ) (passed : Bool) (key : String) :
    Holding f (f.reportRepairResultOnce cfg now passed key) := by
  unfold Focus.reportRepairResultOnce Focus.reportResult
  split
  · split <;> exact .of_same rfl rfl rfl rfl
  · exact .refl f

variable (cfg) in
theorem apply_holding (now : ℕ) (result : QualityGateResult) (grant : Option String) :
    Holding f (f.applyRepairEnforcementResult cfg now result grant) := by
  unfold Focus.applyRepairEnforcementResult
  split
  all_goals
    refine Holding.trans ?_ (report_holding ..)
    exact .of_same rfl rfl rfl rfl

theorem attachRepairTask_holding (c : Creation) : Holding f (f.attachRepairTask c).2 := by
  unfold Focus.attachRepairTask
  dsimp only
  split
  · exact .of_same rfl rfl rfl rfl
  · split
    · exact ⟨⟨tasksKept_append _ _, rfl, rfl⟩, rfl⟩
    · split
      · exact ⟨⟨tasksKept_append _ _, rfl, rfl⟩, rfl⟩
      · exact ⟨⟨(tasksKept_append _ _).trans (tasksKept_preempt _ _), rfl, rfl⟩, rfl⟩

theorem prepareRepairTask_holding (c : Creation) : Holding f (f.prepareRepairTask c).2 := by
  unfold Focus.prepareRepairTask
  split
  · exact .refl f
  · exact attachRepairTask_holding c

theorem createRepairTask_holding (now : ℕ) (c : Creation) :
    Holding f (f.createRepairTask cfg now c).2 := by
  unfold Focus.createRepairTask
  split
  · exact .refl f
  · split
    · exact .of_same rfl rfl rfl rfl
    · split
      · exact .refl f
      · split
        · exact prepareRepairTask_holding c
        · dsimp only
          split
          · exact .of_same rfl rfl rfl rfl
          · exact .of_same rfl rfl rfl rfl
          next result _ =>
            split
            · have applied := apply_holding cfg (f := { f with
                session := { f.session with status := .rerunRunning, rerunStartedAt := some now } })
                now result none
              exact ⟨⟨applied.tasks, applied.workspacePath, applied.fingerprint⟩, applied.creating⟩
            · refine Holding.trans ?_ (prepareRepairTask_holding c)
              exact .of_same rfl rfl rfl rfl

theorem judgeCompleted_holding : Holding f (f.judgeCompleted cfg o m).2 := by
  unfold Focus.judgeCompleted
  generalize (if cfg.handler then o.taskResult else Except.ok none) = answer
  rcases answer with e | _ | result
  · exact .refl f
  · dsimp only
    split
    · exact .refl f
    · split
      · exact .refl f
      · split
        · refine Holding.trans ?_ (report_holding ..)
          exact .of_same rfl rfl rfl rfl
        · split
          · exact .refl f
          · cases o.rerun with
            | error e => exact .of_same rfl rfl rfl rfl
            | ok result =>
                refine Holding.trans ?_ (apply_holding ..)
                exact .of_same rfl rfl rfl rfl
  · exact apply_holding ..

theorem revive_holding (task : RepoStatus) : Holding f (f.revive task) := by
  unfold Focus.revive
  split <;> exact .of_same rfl rfl rfl rfl

theorem followRepairTask_holding (task : RepoStatus) :
    Holding f (f.followRepairTask cfg o m task).2 := by
  unfold Focus.followRepairTask
  dsimp only
  split
  · exact revive_holding task
  · split
    · refine (revive_holding task).trans (Holding.trans ?_ (report_holding ..))
      exact .of_same rfl rfl rfl rfl
    · split
      · exact revive_holding task
      · exact (revive_holding task).trans judgeCompleted_holding

theorem ensure_keeping : Keeping f (f.ensureDeferredRepairTaskCreation cfg) := by
  unfold Focus.ensureDeferredRepairTaskCreation
  split <;> exact ⟨.refl _, rfl, rfl⟩

theorem materializeRetryRequest_keeping (now : ℕ) (c : Creation) :
    Keeping f (f.materializeRetryRequest cfg now c).2 := by
  unfold Focus.materializeRetryRequest
  split
  · exact ⟨.refl _, rfl, rfl⟩
  · split
    · exact ⟨.refl _, rfl, rfl⟩
    · split
      · exact ⟨.refl _, rfl, rfl⟩
      · dsimp only
        split
        · exact ⟨.refl _, rfl, rfl⟩
        · refine Keeping.trans ?_ (createRepairTask_holding now c).toKeeping
          exact ⟨.refl _, rfl, rfl⟩

theorem refreshSession_keeping : Keeping f (f.refreshSession cfg o m).2 := by
  have found : Keeping f ((f.ensureDeferredRepairTaskCreation cfg).materializeRetryRequest cfg m.now
      m.creation).2 := ensure_keeping.trans (materializeRetryRequest_keeping _ _)
  unfold Focus.refreshSession
  split
  next seen => rwa [seen] at found
  next seen =>
    rw [seen] at found
    split
    · exact found
    · split
      · exact found
      · exact found.trans (followRepairTask_holding _).toKeeping

end Keeps

end Uta.Repair
