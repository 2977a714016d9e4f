/- A refresh that ran to its end and skipped no rerun leaves nothing to a second one;
and the reports of a run of refreshes. -/
import Uta.Lib.Run
import Uta.Repair.Keeping
import Uta.Repair.Reports

namespace Uta.Repair
open Uta.Lib Uta.Ci Uta.Tasks

/-! Conditions. -/

/-- The session's rerun is left to another process: it is marked as running, or its
lock is held. -/
def Focus.WaitsOn (f : Focus) (cfg : Config) (o : Outcome) (m : Moment) : Prop :=
  (match if cfg.handler then o.taskResult else .ok none with
    | .ok none => True
    | _ => False) ∧
  ¬ f.session.status.FailedRerun ∧
  (f.session.status = .rerunRunning ∧ ¬ Focus.RerunIsStale cfg m.now f.session ∨
    cfg.runner = true ∧ m.lockAcquired = false)

/-- A session without a verdict whose repair task is completed, and whose rerun the
refresh skips. -/
def Focus.Waits (f : Focus) (cfg : Config) (o : Outcome) (m : Moment) : Prop :=
  match f.found cfg m with
  | (some _, _) => False
  | (none, g) =>
    ¬ g.session.status.Passed ∧ g.task? g.session.repoTaskId = some .completed ∧
      (g.revive .completed).WaitsOn cfg o m

instance (f : Focus) (cfg : Config) (o : Outcome) (m : Moment) : Decidable (f.WaitsOn cfg o m) := by
  unfold Focus.WaitsOn
  generalize (if cfg.handler then o.taskResult else Except.ok none) = answer
  rcases answer with e | _ | result <;> infer_instance

instance (f : Focus) (cfg : Config) (o : Outcome) (m : Moment) : Decidable (f.Waits cfg o m) := by
  unfold Focus.Waits
  split <;> infer_instance

/-- The refresh runs to its end and skips no rerun. -/
def Complete (cfg : Config) (st : State) : Step → Prop
  | .refresh o m =>
    cfg.taskManager = true →
      (st.refresh cfg o m).1 = none ∧
        Rounds (fun f o m => ¬ f.Waits cfg o m) cfg o m st.sessions st.toShared
  | _ => True

instance (cfg : Config) (st : State) (step : Step) : Decidable (Complete cfg st step) := by
  apply Step.casesOn (motive := fun step => Decidable (Complete cfg st step)) step <;> intros <;>
    unfold Complete <;> infer_instance

/-- Another refresh that finds the same outcomes, whenever it comes, reports nothing
and changes no session's status. -/
def Repeats (cfg : Config) (st : State) : Step → Prop
  | .refresh o m =>
    ∀ later : ℕ → Moment,
      ((st.refresh cfg o m).2.refresh cfg o later).2.sent = (st.refresh cfg o m).2.sent ∧
      ((st.refresh cfg o m).2.refresh cfg o later).2.sessions.map Session.status =
        (st.refresh cfg o m).2.sessions.map Session.status
  | _ => True

/-- The repair task that the session has in its round has failed. -/
def Focus.TaskFailed (f : Focus) (cfg : Config) (m : Moment) : Prop :=
  match f.found cfg m with
  | (some _, _) => False
  | (none, g) => ∃ task ∈ g.task? g.session.repoTaskId, FailedRepo task

instance (f : Focus) (cfg : Config) (m : Moment) : Decidable (f.TaskFailed cfg m) := by
  unfold Focus.TaskFailed
  split <;> infer_instance

/-- The failure of the session's repair task is not to be reported after a success,
unless an operator has released the record. -/
def RoundSpares (cfg : Config) (f : Focus) (m : Moment) : Prop :=
  f.TaskFailed cfg m → ¬ f.session.status.Passed → Focus.Due f.session "repair_failed" →
    true ∈ f.sent → f.record.callbackOverride = true

instance (cfg : Config) (f : Focus) (m : Moment) : Decidable (RoundSpares cfg f m) :=
  inferInstanceAs (Decidable (_ → _))

def Spared (cfg : Config) (st : State) : Step → Prop
  | .refresh o m =>
    cfg.protocol = true → cfg.taskManager = true →
      Rounds (fun f _ m => RoundSpares cfg f m) cfg o m st.sessions st.toShared
  | _ => True

instance (cfg : Config) (st : State) (step : Step) : Decidable (Spared cfg st step) := by
  apply Step.casesOn (motive := fun step => Decidable (Spared cfg st step)) step <;> intros <;>
    unfold Spared <;> infer_instance

/-- Once a success was reported, no session whose repair task has failed reports a failure. -/
def Spares (cfg : Config) (st : State) : Step → Prop
  | .refresh o m =>
    cfg.taskManager = true →
      Rounds (fun f o m => f.TaskFailed cfg m → true ∈ f.sent →
        (f.refreshSession cfg o m).2.sent ≠ f.sent ++ [false]) cfg o m st.sessions st.toShared
  | _ => True

instance (cfg : Config) (st : State) (step : Step) : Decidable (Spares cfg st step) := by
  apply Step.casesOn (motive := fun step => Decidable (Spares cfg st step)) step <;> intros <;>
    unfold Spares <;> infer_instance

/-! Settled sessions. -/

/-- Judging the session again gives the status that it has and no report. -/
def JudgedAlready (cfg : Config) (o : Outcome) (s : Session) : Prop :=
  match if cfg.handler then o.taskResult else .ok none with
  | .error _ => False
  | .ok none => s.status.FailedRerun
  | .ok (some result) =>
    result.passed = false ∧ o.grant = none ∧ s.status = .rerunFailed ∧
      ¬ Focus.Due s (Focus.repairTerminalCallbackKey false result.summary)

/-- The session's status and report say what its repair task has come to. -/
inductive Settled (cfg : Config) (o : Outcome) (task : RepoStatus) (s : Session) : Prop where
  | passed (passed : s.status.Passed)
  | failed (failed : FailedRepo task) (status : s.status = .repairFailed)
      (told : ¬ Focus.Due s "repair_failed")
  | underWay (open_ : ¬ FailedRepo task) (unfinished : task ≠ .completed)
      (status : s.status ≠ .repairFailed)
  | judged (completed : task = .completed) (status : s.status ≠ .repairFailed)
      (judged : JudgedAlready cfg o s)

/-- A session that a refresh has nothing to do for. -/
structure Quiet (cfg : Config) (o : Outcome) (path : Option String) (tasks : List RepoStatus)
    (s : Session) : Prop where
  asked : s.status = .retryRequested → path = none
  settled : ∀ id, s.repoTaskId = some id → ∃ task, tasks[id]? = some task ∧ Settled cfg o task s

section Round
variable {f : Focus} {cfg : Config} {o : Outcome} {m : Moment}

theorem judgeCompleted_settles (finished : (f.judgeCompleted cfg o m).1 = none)
    (open_ : f.session.status ≠ .repairFailed) (attended : ¬ f.WaitsOn cfg o m) :
    (f.judgeCompleted cfg o m).2.session.status.Passed ∨
      (f.judgeCompleted cfg o m).2.session.status ≠ .repairFailed ∧
        JudgedAlready cfg o (f.judgeCompleted cfg o m).2.session := by
  unfold Focus.judgeCompleted JudgedAlready Focus.WaitsOn at *
  generalize (if cfg.handler then o.taskResult else Except.ok none) = answer at *
  rcases answer with e | _ | result
  · exact nomatch finished
  · dsimp only at finished attended ⊢
    split at finished
    next failed =>
      rw [if_pos failed]
      exact .inr ⟨open_, failed⟩
    next unfailed =>
      rw [if_neg unfailed]
      split at finished
      next running => exact absurd ⟨trivial, unfailed, .inl running⟩ attended
      next stale =>
        rw [if_neg stale]
        split at finished
        next idle =>
          have unavailable : SessionStatus.rerunUnavailable.FailedRerun := by decide
          rw [if_pos idle, report_status]
          exact .inr ⟨nofun, unavailable⟩
        next runner =>
          rw [if_neg runner]
          split at finished
          next held =>
            exact absurd ⟨trivial, unfailed, .inr ⟨not_not.mp runner, Bool.not_eq_true _ ▸ held⟩⟩
              attended
          next free =>
            rw [if_neg free]
            cases rerun : o.rerun with
            | error e =>
                rw [rerun] at finished
                exact nomatch finished
            | ok result =>
                rcases apply_settles cfg (f := { f with session := { f.session with
                  status := .rerunRunning, rerunStartedAt := some m.now } })
                  m.now result o.grant with passed | ⟨_, _, status, _⟩
                · exact .inl passed
                · refine .inr ⟨?_, ?_⟩
                  · rw [status]
                    exact nofun
                  · rw [status]
                    decide
  · rcases apply_settles cfg m.now result o.grant with passed | verdict
    · exact .inl passed
    · refine .inr ⟨?_, verdict⟩
      rw [verdict.2.2.1]
      exact nofun

theorem revive_open {task : RepoStatus} (open_ : ¬ FailedRepo task) :
    (f.revive task).session.status ≠ .repairFailed := by
  unfold Focus.revive
  split
  · simp only [Focus.setStatus]
    split <;> simp
  next given => exact fun failed => given ⟨failed, open_⟩

/-- A round that is not left waiting settles the session. -/
theorem followRepairTask_settles {task : RepoStatus}
    (finished : (f.followRepairTask cfg o m task).1 = none)
    (attended : task = .completed → ¬ f.session.status.Passed → ¬ (f.revive task).WaitsOn cfg o m) :
    Settled cfg o task (f.followRepairTask cfg o m task).2.session := by
  unfold Focus.followRepairTask at finished ⊢
  dsimp only at finished ⊢
  split at finished
  next passed =>
    rw [if_pos passed]
    exact .passed passed
  next unpassed =>
    rw [if_neg unpassed]
    split at finished
    next failed =>
      rw [if_pos failed]
      exact .failed failed (report_status ..) (report_settles _ _ _)
    next open_ =>
      rw [if_neg open_]
      split at finished
      next unfinished =>
        rw [if_pos unfinished]
        exact .underWay open_ unfinished (revive_open open_)
      next done =>
        rw [if_neg done]
        have completed : task = .completed := not_not.mp done
        rcases judgeCompleted_settles finished (revive_open open_)
          (attended completed fun passed => unpassed ((revive_passed task).mpr passed))
          with passed | ⟨status, judged⟩
        · exact .passed passed
        · exact .judged completed status judged

/-- A round keeps the session's repair task, once its retry request is granted. -/
theorem judgeCompleted_repoTaskId :
    (f.judgeCompleted cfg o m).2.session.repoTaskId = f.session.repoTaskId := by
  unfold Focus.judgeCompleted
  generalize (if cfg.handler then o.taskResult else Except.ok none) = answer
  rcases answer with e | _ | result
  · rfl
  · dsimp only
    split
    · rfl
    · split
      · rfl
      · split
        · exact report_repoTaskId ..
        · split
          · rfl
          · cases o.rerun with
            | error e => rfl
            | ok result => exact apply_repoTaskId ..
  · exact apply_repoTaskId ..

theorem followRepairTask_repoTaskId (task : RepoStatus) :
    (f.followRepairTask cfg o m task).2.session.repoTaskId = f.session.repoTaskId := by
  have revived : (f.revive task).session.repoTaskId = f.session.repoTaskId := by
    unfold Focus.revive
    split <;> rfl
  unfold Focus.followRepairTask
  dsimp only
  split
  · exact revived
  · split
    · exact (report_repoTaskId ..).trans revived
    · split
      · exact revived
      · exact judgeCompleted_repoTaskId.trans revived

/-! Retry requests. -/

theorem apply_unasked (now : ℕ) (result : QualityGateResult) (grant : Option String) :
    (f.applyRepairEnforcementResult cfg now result grant).session.status ≠ .retryRequested := by
  unfold Focus.applyRepairEnforcementResult
  split
  · rw [report_status]
    exact nofun
  · rw [report_status]
    dsimp only
    split <;> exact nofun

theorem judgeCompleted_unasked (unasked : f.session.status ≠ .retryRequested) :
    (f.judgeCompleted cfg o m).2.session.status ≠ .retryRequested := by
  unfold Focus.judgeCompleted
  generalize (if cfg.handler then o.taskResult else Except.ok none) = answer
  rcases answer with e | _ | result
  · exact unasked
  · dsimp only
    split
    · exact unasked
    · split
      · exact unasked
      · split
        · rw [report_status]
          exact nofun
        · split
          · exact unasked
          · cases o.rerun with
            | error e => exact nofun
            | ok result => exact apply_unasked _ _ _
  · exact apply_unasked _ _ _

theorem followRepairTask_unasked (task : RepoStatus) (unasked : f.session.status ≠ .retryRequested) :
    (f.followRepairTask cfg o m task).2.session.status ≠ .retryRequested := by
  have revived : (f.revive task).session.status ≠ .retryRequested := by
    unfold Focus.revive
    split
    · simp only [Focus.setStatus]
      split <;> simp
    · exact unasked
  unfold Focus.followRepairTask
  dsimp only
  split
  · exact revived
  · split
    · rw [report_status]
      simp [Focus.setStatus]
    · split
      · exact revived
      · exact judgeCompleted_unasked revived

theorem prepareRepairTask_unasked (c : Creation) (finished : (f.prepareRepairTask c).1 = none) :
    (f.prepareRepairTask c).2.session.status ≠ .retryRequested := by
  unfold Focus.prepareRepairTask Focus.attachRepairTask at *
  cases context : c.context with
  | some e =>
      rw [context] at finished
      cases finished
  | none =>
      dsimp only
      split
      · intro asked
        cases asked
      · split
        · intro asked
          cases asked
        · split <;> intro asked <;> cases asked

theorem createRepairTask_unasked (now : ℕ) (c : Creation)
    (finished : (f.createRepairTask cfg now c).1 = none) :
    (f.createRepairTask cfg now c).2.session.status ≠ .retryRequested := by
  unfold Focus.createRepairTask at *
  split at finished
  · exact nomatch finished
  · split
    · exact nofun
    next sound =>
      rw [if_neg sound] at finished
      split
      next idle =>
        rw [if_pos idle] at finished
        exact nomatch finished
      next equipped =>
        rw [if_neg equipped] at finished
        split
        next direct =>
          rw [if_pos direct] at finished
          exact prepareRepairTask_unasked c finished
        next rerun =>
          rw [if_neg rerun] at finished
          dsimp only at finished ⊢
          split
          next failed =>
            rw [failed] at finished
            exact nomatch finished
          next absent =>
            rw [absent] at finished
            exact nomatch finished
          next result present =>
            rw [present] at finished
            dsimp only at finished
            split
            · exact apply_unasked _ _ _
            next red =>
              rw [if_neg red] at finished
              exact prepareRepairTask_unasked c finished

/-- After its round a session asks for a retry only where no retry is possible. -/
theorem materializeRetryRequest_unasked (manager : cfg.taskManager = true) (now : ℕ) (c : Creation)
    (finished : (f.materializeRetryRequest cfg now c).1 = none)
    (asked : (f.materializeRetryRequest cfg now c).2.session.status = .retryRequested) :
    f.record.workspacePath = none := by
  unfold Focus.materializeRetryRequest at finished asked
  split at asked
  next unasked => exact absurd asked unasked
  next asks =>
    rw [if_neg asks] at finished
    split at asked
    next poor => exact poor.resolve_left fun none_ => none_ manager
    next equipped =>
      rw [if_neg equipped] at finished
      split at asked
      · exact nomatch asked
      next dead =>
        rw [if_neg dead] at finished
        dsimp only at finished asked
        split at asked
        · exact nomatch asked
        next inline_ =>
          rw [if_neg inline_] at finished
          exact absurd asked (createRepairTask_unasked now c finished)

/-! The first refresh. -/

theorem Settled.kept {before after : RepoStatus} {s : Session} (settled : Settled cfg o before s)
    (failed : FailedRepo after ↔ FailedRepo before)
    (completed : after = .completed ↔ before = .completed) : Settled cfg o after s := by
  cases settled with
  | passed passed => exact .passed passed
  | failed failing status told => exact .failed (failed.mpr failing) status told
  | underWay open_ unfinished status =>
      exact .underWay (fun failing => open_ (failed.mp failing))
        (fun done => unfinished (completed.mp done)) status
  | judged done status judged => exact .judged (completed.mpr done) status judged

theorem Quiet.kept {path : Option String} {before after : List RepoStatus} {s : Session}
    (quiet : Quiet cfg o path before s) (kept : TasksKept before after) :
    Quiet cfg o path after s := by
  refine ⟨quiet.asked, fun id attached => ?_⟩
  obtain ⟨task, present, settled⟩ := quiet.settled id attached
  obtain ⟨now, there, failed, completed⟩ := kept id task present
  exact ⟨now, there, settled.kept failed completed⟩

theorem refreshSession_quiet (manager : cfg.taskManager = true)
    (finished : (f.refreshSession cfg o m).1 = none) (attended : ¬ f.Waits cfg o m) :
    Quiet cfg o f.record.workspacePath (f.refreshSession cfg o m).2.tasks
      (f.refreshSession cfg o m).2.session := by
  have ensured : (f.ensureDeferredRepairTaskCreation cfg).record = f.record := by
    unfold Focus.ensureDeferredRepairTaskCreation
    split <;> rfl
  have unasked := materializeRetryRequest_unasked (f := f.ensureDeferredRepairTaskCreation cfg)
    manager m.now m.creation
  rw [ensured] at unasked
  unfold Focus.Waits Focus.found at attended
  unfold Focus.refreshSession at finished ⊢
  generalize (f.ensureDeferredRepairTaskCreation cfg).materializeRetryRequest cfg m.now m.creation = g
    at attended finished unasked ⊢
  obtain ⟨_ | e, g⟩ := g
  · dsimp only at attended finished unasked ⊢
    unfold Focus.task? at attended
    cases attached : g.session.repoTaskId with
    | none =>
        refine ⟨unasked rfl, fun id other => ?_⟩
        rw [attached] at other
        cases other
    | some id =>
        rw [attached] at attended finished
        dsimp only [Option.bind] at attended finished ⊢
        cases present : g.tasks[id]? with
        | none =>
            rw [present] at finished
            cases finished
        | some task =>
            rw [present] at attended finished
            dsimp only at finished ⊢
            have settled := followRepairTask_settles finished fun completed unpassed waits =>
              attended ⟨unpassed, congrArg some completed, completed ▸ waits⟩
            refine ⟨fun asked => ?_, fun other same => ?_⟩
            · by_contra present
              exact followRepairTask_unasked task (fun asked => present (unasked rfl asked)) asked
            · rw [followRepairTask_repoTaskId, attached] at same
              obtain rfl : id = other := Option.some.inj same
              have holding : Holding g (g.followRepairTask cfg o m task).2 :=
                followRepairTask_holding task
              obtain ⟨now, there, failed, completed⟩ := holding.tasks id task present
              exact ⟨now, there, settled.kept failed completed⟩
  · cases finished

/-! The second refresh. -/

/-- A second round is idle: it sends nothing and leaves status, tasks and checkout. -/
structure Idle (f g : Focus) : Prop where
  sent : g.sent = f.sent
  status : g.session.status = f.session.status
  tasks : g.tasks = f.tasks
  workspacePath : g.record.workspacePath = f.record.workspacePath

theorem report_idle (now : ℕ) (passed : Bool) {key : String} (told : ¬ Focus.Due f.session key) :
    f.reportRepairResultOnce cfg now passed key = f := by
  unfold Focus.reportRepairResultOnce
  rw [if_neg told]

theorem judgeCompleted_idle (judged : JudgedAlready cfg o f.session) :
    (f.judgeCompleted cfg o m).1 = none ∧ Idle f (f.judgeCompleted cfg o m).2 := by
  unfold JudgedAlready at judged
  unfold Focus.judgeCompleted
  generalize (if cfg.handler then o.taskResult else Except.ok none) = answer at judged ⊢
  rcases answer with e | _ | result
  · exact judged.elim
  · dsimp only at judged ⊢
    rw [if_pos judged]
    exact ⟨rfl, rfl, rfl, rfl, rfl⟩
  · obtain ⟨failed, ungranted, status, told⟩ := judged
    refine ⟨rfl, ?_⟩
    unfold Focus.applyRepairEnforcementResult
    simp only [failed, ungranted, Bool.false_eq_true, if_false]
    rw [report_idle]
    · exact ⟨rfl, status.symm, rfl, rfl⟩
    · exact told

theorem followRepairTask_idle {task : RepoStatus} (settled : Settled cfg o task f.session) :
    (f.followRepairTask cfg o m task).1 = none ∧ Idle f (f.followRepairTask cfg o m task).2 := by
  have given_up : f.session.status = .repairFailed → ¬ f.session.status.Passed := by
    intro given
    rw [given]
    decide
  have fixed : f.revive task = f := by
    unfold Focus.revive
    refine if_neg fun ⟨given, open_⟩ => ?_
    cases settled with
    | passed passed => exact given_up given passed
    | failed failed status told => exact open_ failed
    | underWay _ _ status => exact status given
    | judged _ status _ => exact status given
  unfold Focus.followRepairTask
  dsimp only
  rw [fixed]
  by_cases passed : f.session.status.Passed
  · rw [if_pos passed]
    exact ⟨rfl, rfl, rfl, rfl, rfl⟩
  rw [if_neg passed]
  cases settled with
  | passed other => exact absurd other passed
  | failed failed status told =>
      rw [if_pos failed, report_idle]
      · exact ⟨rfl, rfl, status.symm, rfl, rfl⟩
      · exact told
  | underWay open_ unfinished status =>
      rw [if_neg open_, if_pos unfinished]
      exact ⟨rfl, rfl, rfl, rfl, rfl⟩
  | judged completed status judged =>
      have open_ : ¬ FailedRepo task := by
        rw [completed]
        decide
      rw [if_neg open_, if_neg (not_not_intro completed)]
      exact judgeCompleted_idle judged

theorem refreshSession_idle
    (quiet : Quiet cfg o f.record.workspacePath f.tasks f.session) :
    (f.refreshSession cfg o m).1 = none ∧ Idle f (f.refreshSession cfg o m).2 := by
  obtain ⟨creating, ensured⟩ : ∃ creating, f.ensureDeferredRepairTaskCreation cfg =
      { f with session := { f.session with creating } } := by
    unfold Focus.ensureDeferredRepairTaskCreation
    split
    · exact ⟨true, rfl⟩
    · exact ⟨f.session.creating, rfl⟩
  have found : f.found cfg m = (none, { f with session := { f.session with creating } }) := by
    unfold Focus.found Focus.materializeRetryRequest
    rw [ensured]
    by_cases asked : f.session.status = .retryRequested
    · rw [if_neg (not_not_intro asked), if_pos (.inr (quiet.asked asked))]
    · rw [if_pos asked]
  cases attached : f.session.repoTaskId with
  | none =>
      rw [refreshSession_detached found attached]
      exact ⟨rfl, rfl, rfl, rfl, rfl⟩
  | some id =>
      obtain ⟨task, present, settled⟩ := quiet.settled id attached
      rw [refreshSession_attached found attached present]
      have settled : Settled cfg o task { f.session with creating } := by
        cases settled with
        | passed passed => exact .passed passed
        | failed failed status told => exact .failed failed status told
        | underWay open_ unfinished status => exact .underWay open_ unfinished status
        | judged completed status judged => exact .judged completed status judged
      obtain ⟨finished, idle⟩ := followRepairTask_idle (m := m)
        (f := { f with session := { f.session with creating } }) settled
      exact ⟨finished, idle.sent, idle.status, idle.tasks, idle.workspacePath⟩

end Round

/-! Refreshes. -/

section Refresh
variable {cfg : Config}

theorem rounds_kept (l : List Session) (o : ℕ → Outcome) (m : ℕ → Moment) (sh : Shared) :
    TasksKept sh.tasks (refreshRepairSessions cfg o m l sh).2.2.tasks := by
  induction l generalizing o m sh with
  | nil => exact .refl _
  | cons s rest ih =>
      have first : Keeping ⟨sh, s⟩ (Focus.refreshSession ⟨sh, s⟩ cfg (o 0) (m 0)).2 :=
        refreshSession_keeping
      unfold refreshRepairSessions
      generalize Focus.refreshSession ⟨sh, s⟩ cfg (o 0) (m 0) = round at first ⊢
      obtain ⟨_ | e, f⟩ := round
      · exact first.tasks.trans (ih _ _ _)
      · exact first.tasks

theorem rounds_path (l : List Session) (o : ℕ → Outcome) (m : ℕ → Moment) (sh : Shared) :
    (refreshRepairSessions cfg o m l sh).2.2.record.workspacePath = sh.record.workspacePath := by
  induction l generalizing o m sh with
  | nil => rfl
  | cons s rest ih =>
      have first : Keeping ⟨sh, s⟩ (Focus.refreshSession ⟨sh, s⟩ cfg (o 0) (m 0)).2 :=
        refreshSession_keeping
      unfold refreshRepairSessions
      generalize Focus.refreshSession ⟨sh, s⟩ cfg (o 0) (m 0) = round at first ⊢
      obtain ⟨_ | e, f⟩ := round
      · exact (ih _ _ _).trans first.workspacePath
      · exact first.workspacePath

/-- A refresh that ran to its end, and skipped no rerun, leaves every session quiet. -/
theorem rounds_quiet (manager : cfg.taskManager = true) (l : List Session) (o : ℕ → Outcome)
    (m : ℕ → Moment) (sh : Shared) (finished : (refreshRepairSessions cfg o m l sh).1 = none)
    (attended : Rounds (fun f o m => ¬ f.Waits cfg o m) cfg o m l sh) (n : ℕ) (s : Session)
    (present : (refreshRepairSessions cfg o m l sh).2.1[n]? = some s) :
    Quiet cfg (o n) sh.record.workspacePath (refreshRepairSessions cfg o m l sh).2.2.tasks s := by
  induction l generalizing o m sh n with
  | nil => cases present
  | cons t rest ih =>
      have quiet := refreshSession_quiet (f := ⟨sh, t⟩) (o := o 0) (m := m 0) manager
      have kept : Keeping ⟨sh, t⟩ (Focus.refreshSession ⟨sh, t⟩ cfg (o 0) (m 0)).2 :=
        refreshSession_keeping
      obtain ⟨first, later⟩ := attended
      unfold refreshRepairSessions at finished present ⊢
      generalize Focus.refreshSession ⟨sh, t⟩ cfg (o 0) (m 0) = round
        at quiet kept later finished present ⊢
      obtain ⟨_ | e, f⟩ := round
      · dsimp only at finished present ⊢
        cases n with
        | zero =>
            obtain rfl : f.session = s := Option.some.inj present
            exact (quiet rfl first).kept (rounds_kept _ _ _ _)
        | succ n =>
            have rest := ih (o ∘ Nat.succ) (m ∘ Nat.succ) f.toShared finished (later rfl) n present
            rwa [kept.workspacePath] at rest
      · cases finished

/-- Quiet sessions stay as they are. -/
theorem rounds_idle (l : List Session) (o : ℕ → Outcome) (m : ℕ → Moment) (sh : Shared)
    (quiet : ∀ (n : ℕ) (s : Session), l[n]? = some s →
      Quiet cfg (o n) sh.record.workspacePath sh.tasks s) :
    (refreshRepairSessions cfg o m l sh).2.2.sent = sh.sent ∧
      (refreshRepairSessions cfg o m l sh).2.1.map Session.status = l.map Session.status := by
  induction l generalizing o m sh with
  | nil => exact ⟨rfl, rfl⟩
  | cons t rest ih =>
      obtain ⟨finished, idle⟩ :=
        refreshSession_idle (f := ⟨sh, t⟩) (o := o 0) (m := m 0) (quiet 0 t rfl)
      unfold refreshRepairSessions
      generalize Focus.refreshSession ⟨sh, t⟩ cfg (o 0) (m 0) = round at finished idle ⊢
      obtain ⟨_ | e, f⟩ := round
      · obtain ⟨sent, statuses⟩ := ih (o ∘ Nat.succ) (m ∘ Nat.succ) f.toShared fun n s present => by
          have later := quiet (n + 1) s present
          rwa [idle.workspacePath, idle.tasks]
        refine ⟨sent.trans idle.sent, ?_⟩
        dsimp only
        rw [List.map_cons, List.map_cons, statuses, idle.status]
      · cases finished

/-- A complete refresh leaves nothing to a second one. -/
theorem refresh_repeats {st : State} {step : Step} (complete : Complete cfg st step) :
    Repeats cfg st step := by
  cases step with
  | refresh o m =>
      intro later
      by_cases manager : cfg.taskManager = true
      · obtain ⟨finished, attended⟩ := complete manager
        rw [refresh_of_manager manager] at finished ⊢
        rw [refresh_of_manager manager]
        refine rounds_idle _ o later _ fun n s present => ?_
        have quiet := rounds_quiet manager st.sessions o m st.toShared finished attended n s present
        rwa [rounds_path]
      · unfold State.refresh
        rw [if_pos manager, if_pos manager]
        exact ⟨rfl, rfl⟩
  | _ => trivial

end Refresh

/-! Failed repair tasks. -/

theorem round_spares {f : Focus} {cfg : Config} {o : Outcome} {m : Moment}
    (spared : cfg.protocol = true → RoundSpares cfg f m)
    (failed : f.TaskFailed cfg m) (told : true ∈ f.sent) :
    (f.refreshSession cfg o m).2.sent ≠ f.sent ++ [false] := by
  have obeys : Obeys cfg f (f.refreshSession cfg o m).2 (f.report? cfg o m) := refreshSession_obeys
  have unsent : f.sent ≠ f.sent ++ [false] := by simp
  rw [obeys.sent]
  unfold Focus.report?
  split
  · dsimp only [Focus.sentBy, Focus.sentWith]
    split
    · simp
    · exact unsent
  · have given := failed
    unfold Focus.TaskFailed at given
    cases found : f.found cfg m with
    | mk e g =>
        rw [found] at given
        cases e with
        | some e => exact given.elim
        | none =>
            obtain ⟨task, present, failing⟩ := given
            dsimp only
            rw [present]
            dsimp only
            unfold Focus.taskReport
            by_cases passed : f.session.status.Passed
            · rw [found_of_dead fun live => live.1 passed] at found
              obtain rfl : f = g := congrArg Prod.snd found
              rw [if_pos passed]
              exact unsent
            · split
              · exact unsent
              · dsimp only [Focus.sentBy, Focus.sentWith]
                split
                next due =>
                  rw [spared due.2 failed passed due.1 told]
                  simp
                next => exact unsent

theorem rounds_mono {P Q : Focus → Outcome → Moment → Prop} {cfg : Config}
    (weaker : ∀ f o m, P f o m → Q f o m) (l : List Session) (o : ℕ → Outcome) (m : ℕ → Moment)
    (sh : Shared) (rounds : Rounds P cfg o m l sh) : Rounds Q cfg o m l sh := by
  induction l generalizing o m sh with
  | nil => trivial
  | cons s rest ih =>
      exact ⟨weaker _ _ _ rounds.1, fun finished => ih _ _ _ (rounds.2 finished)⟩

theorem rounds_always {P : Focus → Outcome → Moment → Prop} {cfg : Config}
    (always : ∀ f o m, P f o m) (l : List Session) (o : ℕ → Outcome) (m : ℕ → Moment)
    (sh : Shared) : Rounds P cfg o m l sh := by
  induction l generalizing o m sh with
  | nil => trivial
  | cons s rest ih => exact ⟨always _ _ _, fun _ => ih _ _ _⟩

theorem refresh_spares {cfg : Config} {st : State} {step : Step} (spared : Spared cfg st step) :
    Spares cfg st step := by
  cases step with
  | refresh o m =>
      intro manager
      by_cases protocol : cfg.protocol = true
      · exact rounds_mono (fun f o m given => round_spares fun _ => given) _ _ _ _
          (spared protocol manager)
      · exact rounds_always (fun f o m => round_spares fun reports => absurd reports protocol) _ _ _ _
  | _ => trivial

/-! Runs. -/

/-- A failed record with a checkout. -/
def failedRecord : State := .fresh { status := .failed, workspacePath := some "checkout" } []

/-- The sessions of two requests; the repair task of the first turns out green. -/
def firstGreen : List Step :=
  [.request ["a"] (fun _ => {}) (fun _ => {}) 0 none {}, .create 0 1 {},
    .request ["b"] (fun _ => {}) (fun _ => {}) 2 none {}, .create 1 3 {},
    .task 0 .completed,
    .refresh (fun _ => { taskResult := .ok (some { status := "success", passed := true }) }) fun _ => {}]

end Uta.Repair
