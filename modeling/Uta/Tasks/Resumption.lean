/- The programs that stop tasks for an urgent one, and that take them up again when
it ends. -/
import Uta.Tasks.Keeping

namespace Uta.Tasks
open Uta.Lib

/-! Tasks taken up again. -/

theorem resumeTask_outcome {w : World} {taskId : ℕ} (durable : Durable w)
    (stopped : w.statusOf taskId = some .stopped) :
    ∃ v, (resumeTask taskId).outcome Stmt.exec w = (.ok (), v) ∧ Durable v ∧
      ∀ other, v.statusOf other = if other = taskId then some .queued else w.statusOf other := by
  obtain ⟨row, found, status⟩ := Option.map_eq_some_iff.mp stopped
  have engine := engine_of_open durable found (by rw [status]; decide) (by rw [status]; decide)
  let patch : TaskPatch :=
    { requeuePatch "resume requested" with resumeCount := some (row.resumeCount + 1) }
  obtain ⟨queued, updated, durable', -, statuses⟩ :=
    update_outcome patch durable stopped (by decide) (by decide) rfl
  let rest : TaskProg Unit := do
    acknowledgeControls taskId
    requeueClasses taskId none (resumable false false)
    addEvent { taskId, eventType := "task_resumed", message := "Task resumed and queued",
               stage := some "queued",
               payload := [("force_rerun_all", .flag false), ("force_rerun_failed", .flag false)] }
  have calm : rest.Calm (Keeps Nowhere) := by
    refine .bind (calm_ask trivial fun _ => rfl) fun _ => .bind (calm_requeueClasses _ _ _) fun _ => ?_
    exact calm_event (by simp)
  obtain ⟨_, v, returns, durable'', within⟩ := calm_outcome calm durable'
  refine ⟨v, ?_, durable'', fun other => (within.statuses other id).trans (statuses other)⟩
  have same : (resumeTask taskId).outcome Stmt.exec w =
      (updateRepoTask taskId patch >>= fun _ => rest).outcome Stmt.exec w := by
    have open_ : row.status ≠ .stopRequested := by
      rw [status]
      decide
    have read : (getRepoTask taskId).outcome Stmt.exec w = (.ok (some row), w) := by
      rw [← found]
      rfl
    rw [resumeTask, Prog.outcome_bind_ok _ read]
    simp only [requireDurableGenerationTask, engine, if_neg open_]
    rfl
  rw [same, Prog.outcome_bind_ok _ updated]
  exact returns

/-- One round of the loop that takes preempted tasks up again. -/
def resumeRound (urgentTaskId : ℕ) (row : TaskEvent) : TaskProg PUnit :=
  if preemptedBy row ≠ urgentTaskId then pure ()
  else do
    match ← getRepoTask row.repoTaskId with
    | none => pure ()
    | some task =>
      if task.status ≠ .stopped then pure ()
      else do
        resumeTask row.repoTaskId
        addEvent { taskId := urgentTaskId, eventType := "preempted_task_resumed",
                   message := s!"Resumed preempted batch task {row.repoTaskId}",
                   stage := some "finished",
                   payload := [("preempted_task_id", .number row.repoTaskId)] }

theorem resumeRound_outcome {w : World} (durable : Durable w) (urgentTaskId : ℕ) (row : TaskEvent) :
    ∃ v, (resumeRound urgentTaskId row).outcome Stmt.exec w = (.ok (), v) ∧ Durable v ∧
      ∀ taskId, v.statusOf taskId =
        if w.statusOf taskId = some .stopped ∧ row.repoTaskId = taskId ∧ preemptedBy row = urgentTaskId
        then some .queued else w.statusOf taskId := by
  unfold resumeRound
  by_cases ours : preemptedBy row = urgentTaskId
  swap
  · rw [if_pos ours]
    exact ⟨w, rfl, durable, fun taskId => (if_neg fun all => ours all.2.2).symm⟩
  rw [if_neg (not_not_intro ours)]
  by_cases stopped : w.statusOf row.repoTaskId = some .stopped
  · obtain ⟨resumed, first, durable', statuses⟩ := resumeTask_outcome durable stopped
    obtain ⟨task, found, status⟩ := Option.map_eq_some_iff.mp stopped
    have calm : (addEvent { taskId := urgentTaskId, eventType := "preempted_task_resumed",
                            message := s!"Resumed preempted batch task {row.repoTaskId}",
                            stage := some "finished",
                            payload := [("preempted_task_id", .number row.repoTaskId)] }).Calm
        (Keeps Nowhere) := calm_event (by simp)
    obtain ⟨_, v, returns, durable'', within⟩ := calm_outcome calm durable'
    refine ⟨v, ?_, durable'', fun taskId => ?_⟩
    · change Prog.outcome Stmt.exec (match w.tasks.find? row.repoTaskId with
        | none => _ | some task => _) w = _
      rw [found]
      simp only [status, ne_eq, not_true_eq_false, if_false]
      rw [Prog.outcome_bind_ok _ first]
      exact returns
    · rw [within.statuses taskId id, statuses]
      by_cases here : taskId = row.repoTaskId
      · rw [if_pos here, if_pos ⟨here ▸ stopped, here.symm, ours⟩]
      · rw [if_neg here, if_neg fun all => here all.2.1.symm]
  · refine ⟨w, ?_, durable, fun taskId => ?_⟩
    swap
    · rw [if_neg]
      rintro ⟨here, rfl, _⟩
      exact stopped here
    change Prog.outcome Stmt.exec (match w.tasks.find? row.repoTaskId with
      | none => _ | some task => _) w = _
    cases found : w.tasks.find? row.repoTaskId with
    | none => rfl
    | some task =>
        have other : task.status ≠ .stopped := by
          intro same
          exact stopped (by rw [World.statusOf, found, Option.map_some, same])
        dsimp only
        rw [if_pos other]
        rfl

/-- Every stopped task that some event names as preempted is put back in the queue. -/
theorem resumeRounds_outcome (rows : List TaskEvent) (urgentTaskId : ℕ) {w : World} (durable : Durable w) :
    ∃ v, (rows.forM (resumeRound urgentTaskId)).outcome Stmt.exec w = (.ok (), v) ∧ Durable v ∧
      ∀ taskId, v.statusOf taskId =
        if w.statusOf taskId = some .stopped ∧
          ∃ row ∈ rows, row.repoTaskId = taskId ∧ preemptedBy row = urgentTaskId
        then some .queued else w.statusOf taskId := by
  induction rows generalizing w with
  | nil => exact ⟨w, rfl, durable, fun taskId => (if_neg fun all => nomatch all.2).symm⟩
  | cons row rows ih =>
      obtain ⟨w', first, durable', statuses⟩ := resumeRound_outcome durable urgentTaskId row
      obtain ⟨v, rest, durable'', statuses'⟩ := ih durable'
      refine ⟨v, ?_, durable'', fun taskId => ?_⟩
      · exact (Prog.outcome_bind_ok _ first fun _ => rows.forM (resumeRound urgentTaskId)).trans rest
      · rw [statuses', statuses]
        by_cases stopped : w.statusOf taskId = some .stopped
        · by_cases here : row.repoTaskId = taskId ∧ preemptedBy row = urgentTaskId
          · simp [stopped, here]
          · simp [stopped, here]
        · simp [stopped]

theorem resumePreemptedTasks_statuses {w : World} (durable : Durable w) (urgentTaskId taskId : ℕ) :
    ((resumePreemptedTasks urgentTaskId).outcome Stmt.exec w).2.statusOf taskId =
      if w.statusOf taskId = some .stopped ∧ w.Preempted taskId urgentTaskId then some .queued
      else w.statusOf taskId := by
  obtain ⟨v, returns, -, statuses⟩ := resumeRounds_outcome w.preemptions urgentTaskId durable
  have same : (resumePreemptedTasks urgentTaskId).outcome Stmt.exec w = (.ok (), v) := returns
  rw [same]
  exact statuses taskId

/-! Programs that end a task. -/

section Ends
variable {w v : World} {target : ℕ}

theorem only_cancelTask (taskId : ℕ) (reason : Option String) :
    (cancelTask taskId reason).Only (Keeps (· = taskId)) := by
  refine .bind (only_ask trivial fun _ => rfl) fun _ => ?_
  refine .bind (only_ask trivial fun _ => rfl) fun rows => ?_
  refine .bind (Prog.only_forM _ fun row _ => ?_) fun _ => only_finish _ (by simp)
  split
  · exact .bind (only_ask trivial fun _ => rfl) fun _ => only_ask trivial fun _ => rfl
  · trivial

theorem only_recordPushVerified (taskId : ℕ) (branchName localHead : String)
    (remoteHead : Option String) :
    (recordPushVerified taskId branchName localHead remoteHead).Only (Keeps (· = taskId)) := by
  unfold recordPushVerified
  have records : ∀ patch : TaskPatch, ∀ {e : EventArgs}, e.eventType ≠ "task_preempted" →
      (updateRepoTask taskId patch >>= fun _ => addEvent e).Only (Keeps (· = taskId)) :=
    fun patch _ other => .bind (only_update _ patch) fun _ => (calm_event other).only
  have repairs : ∀ rows : List ClassTask, (rows.forM fun row => updateClassTask row.id
      { status := some .pass, currentStage := some (some "finished"),
        currentDetail := some (some "PUSH_VERIFIED"), error := some none,
        lastError := some none }).Only (Keeps (· = taskId)) :=
    fun rows => Prog.only_forM _ fun row _ => only_ask trivial fun _ => rfl
  refine .bind (only_ask trivial fun _ => rfl) fun task => ?_
  split
  · refine .bind ⟨⟨trivial, fun _ => .inl rfl⟩, fun _ => trivial⟩ fun pushFailed => ?_
    refine .bind (only_ask trivial fun _ => rfl) fun now => ?_
    split
    · exact .bind (repairs _) fun _ => records _ (by simp)
    · exact records _ (by simp)
  · refine .bind trivial fun pushFailed => .bind (only_ask trivial fun _ => rfl) fun now => ?_
    split
    · exact .bind (repairs _) fun _ => records _ (by simp)
    · exact records _ (by simp)

theorem only_recordPushFailed (taskId : ℕ) (branchName message : String) (classFqns : List String) :
    (recordPushFailed taskId branchName message classFqns).Only (Keeps (· = taskId)) := by
  refine .bind (Prog.only_forM _ fun classFqn _ => ?_) fun _ => ?_
  · refine .bind (only_ask trivial fun _ => rfl) fun found => ?_
    cases found with
    | none => trivial
    | some row => exact only_ask trivial fun _ => rfl
  · exact .bind (only_update _ _) fun _ => (calm_event (by simp)).only

/-- The stopped tasks that the target once preempted are put back in the queue, and no
other task is touched. -/
def Released (target : ℕ) (w v : World) : Prop :=
  ∀ taskId ≠ target, v.statusOf taskId =
    if w.statusOf taskId = some .stopped ∧ w.Preempted taskId target then some .queued
    else w.statusOf taskId

/-- From `w` the program ends no task, or ends the target and looks for the tasks that
made way for it. -/
def HeedsAt (target : ℕ) (p : TaskProg Unit) (w : World) : Prop :=
  Durable w → Unclosing w (p.outcome Stmt.exec w).2 ∨ Released target w (p.outcome Stmt.exec w).2

theorem resume_released (within : Within (· = target) w v) (kept : Durable v) :
    Released target w ((resumePreemptedTasks target).outcome Stmt.exec v).2 := by
  intro taskId other
  rw [resumePreemptedTasks_statuses kept, within.statuses taskId other]
  exact if_congr (and_congr_right fun _ => within.preempted) rfl rfl

/-- Calm statements before it make no difference. -/
theorem HeedsAt.after {α : Type} {x : TaskProg α} {f : α → TaskProg Unit}
    (calm : x.Calm (Keeps Nowhere)) (rest : ∀ a v, Within Nowhere w v → HeedsAt target (f a) v) :
    HeedsAt target (x >>= f) w := by
  intro durable
  obtain ⟨a, v, returns, kept, within⟩ := calm_outcome calm durable
  rw [Prog.outcome_bind_ok _ returns]
  rcases rest a v within kept with unclosing | released
  · refine .inl fun taskId s terminal after => ?_
    rw [← within.statuses taskId id]
    exact unclosing taskId s terminal after
  · refine .inr fun taskId other => ?_
    rw [released taskId other, within.statuses taskId id]
    exact if_congr (and_congr_right fun _ => within.preempted) rfl rfl

theorem heeds_finish {args : FinishArgs} (quiet : "task_preempted" ∉ args.summaryEventTypes) :
    HeedsAt target (finishTask target args >>= fun _ => resumePreemptedTasks target) w := by
  intro durable
  have within := exec_within (keeps_finish (S := (· = target)) rfl quiet) w
  have kept := exec_durable (.finishTask target args) durable
  cases answer : ((Stmt.finishTask target args).exec w).1 with
  | ok _ =>
      right
      have same : (finishTask target args >>= fun _ => resumePreemptedTasks target).outcome Stmt.exec w =
          (resumePreemptedTasks target).outcome Stmt.exec ((Stmt.finishTask target args).exec w).2 := by
        refine Prog.outcome_bind_ok _ (a := ()) ?_ _
        simp only [finishTask, Prog.outcome]
        rw [answer]
        rfl
      rw [same]
      exact resume_released within kept
  | error e =>
      left
      have same : ((finishTask target args >>= fun _ => resumePreemptedTasks target).outcome
          Stmt.exec w).2 = w := by
        have unchanged : ((Stmt.finishTask target args).exec w).2 = w := by
          revert answer
          simp only [Stmt.exec, World.finishTask]
          split
          · exact fun _ => rfl
          · split
            · exact fun _ => rfl
            · split <;> intro refused <;> cases refused
        rw [Prog.outcome_bind]
        simp only [finishTask, Prog.outcome]
        rw [answer]
        exact unchanged
      rw [same]
      exact fun _ _ _ => id

theorem heeds_markFailed (threshold : ℕ) (message stage : String) :
    HeedsAt target (markFailed threshold target message stage) w := by
  unfold markFailed
  dsimp only
  have quiet : ∀ poison : Prop, [Decidable poison] →
      "task_preempted" ∉ (if poison then ["task_failed", "task_poisoned"] else ["task_failed"]) := by
    intro poison _
    split <;> simp
  split
  · exact .after (calm_ask trivial fun _ => rfl) fun failures v _ => heeds_finish (quiet _)
  · exact .after (x := pure 0) trivial fun failures v _ => heeds_finish (quiet _)

/-- A status that does not close the task is the one that was read. -/
theorem syncedStatus_idle {task : Option RepoTask} {rows : List ClassTask} {finalError : Option String}
    (idle : ¬ SyncTerminal (syncedStatus task rows finalError).1) :
    (syncedStatus task rows finalError).1 = (task.map RepoTask.status).getD .running := by
  revert idle
  unfold syncedStatus
  dsimp only
  have closes : ∀ s : RepoStatus, SyncTerminal s → ¬ SyncTerminal s →
      s = (task.map RepoTask.status).getD .running := fun _ holds fails => absurd holds fails
  split
  · exact fun _ => rfl
  · split
    · exact closes _ (by simp [SyncTerminal])
    · split
      · exact closes _ (by simp [SyncTerminal])
      · split
        · exact closes _ (by simp [SyncTerminal])
        · split
          · exact closes _ (by simp [SyncTerminal])
          · split
            · exact closes _ (by simp [SyncTerminal])
            · exact fun _ => rfl

theorem syncTerminal_terminal {s : RepoStatus} (closes : SyncTerminal s) : s.Terminal := by
  revert closes
  cases s <;> decide

/-- The last part of a sync, from the status it has found. -/
theorem heeds_sync {status : RepoStatus} {patch : TaskPatch} {e : EventArgs}
    (stores : patch.status = some status) (other : e.eventType ≠ "task_preempted")
    (idle : ¬ SyncTerminal status → ∀ row ∈ w.tasks.find? target, row.status = status) :
    HeedsAt target (updateRepoTask target patch >>= fun _ =>
      if SyncTerminal status then addEvent e >>= fun _ => resumePreemptedTasks target
      else pure ()) w := by
  intro durable
  by_cases closes : SyncTerminal status
  · right
    have answer : ((Stmt.updateRepoTask target patch).exec w).1 = .ok () := by
      simp only [Stmt.exec, stores]
      split
      next stored _ same _ =>
        rw [if_pos (Option.some.inj same ▸ syncTerminal_terminal closes)]
      next => rfl
    have updated : (updateRepoTask target patch).outcome Stmt.exec w =
        (.ok (), ((Stmt.updateRepoTask target patch).exec w).2) := by
      simp only [updateRepoTask, Prog.outcome]
      rw [answer]
      rfl
    have calm : (addEvent e).Calm (Keeps (· = target)) := calm_event other
    have prefix_ : (updateRepoTask target patch >>= fun _ => addEvent e).Only (Keeps (· = target)) :=
      .bind (only_update target patch) fun _ => calm.only
    have within := outcome_within prefix_ w
    have kept := outcome_durable (updateRepoTask target patch >>= fun _ => addEvent e) durable
    rw [Prog.outcome_bind_ok _ updated] at within kept ⊢
    rw [if_pos closes]
    obtain ⟨_, noted⟩ := calm.returns Stmt.exec ((Stmt.updateRepoTask target patch).exec w).2
    rw [Prog.outcome_bind_ok _ noted]
    exact resume_released within kept
  · left
    rw [if_neg closes]
    have same : ((updateRepoTask target patch >>= fun _ => (pure () : TaskProg Unit)).outcome
        Stmt.exec w).2 = ((Stmt.updateRepoTask target patch).exec w).2 := by
      rw [Prog.outcome_bind]
      simp only [updateRepoTask, Prog.outcome]
      cases ((Stmt.updateRepoTask target patch).exec w).1 <;> rfl
    rw [same]
    refine unclosing_of_not_entered fun taskId entered => ?_
    obtain ⟨stored, write, _, row, found, different⟩ := (entered_iff _ w taskId).mp entered
    simp only [Stmt.write, stores] at write
    split at write
    · obtain ⟨rfl, rfl⟩ := Write.stored.inj write
      exact different (idle closes row found)
    · cases write

theorem heeds_syncRepoStatus {task : Option RepoTask} (finalError : Option String)
    (current : w.statusOf target = task.map RepoTask.status) :
    HeedsAt target (syncRepoStatus target task finalError) w := by
  refine .after (calm_ask trivial fun _ => rfl) fun rows v within => ?_
  have idle : ¬ SyncTerminal (syncedStatus task rows finalError).1 →
      (syncedStatus task rows finalError).1 = (task.map RepoTask.status).getD .running :=
    syncedStatus_idle
  revert idle
  rcases syncedStatus task rows finalError with ⟨status, detail⟩
  intro idle
  refine .after (calm_ask trivial fun _ => rfl) fun now v' within' => ?_
  refine heeds_sync rfl ?_ fun open_ row found => ?_
  · dsimp only
    split <;> simp
  · have present : some row.status = task.map RepoTask.status := by
      rw [← current, ← within.statuses target id, ← within'.statuses target id, World.statusOf,
        Option.mem_def.mp found]
      rfl
    have same : status = (task.map RepoTask.status).getD .running := idle open_
    rw [same, ← present]
    rfl

theorem heeds_syncResults (results : List ClassResult) (finalError : Option String) :
    HeedsAt target (syncResults target results finalError) w := by
  change HeedsAt target (results.forM _ >>= fun _ => results.forM (syncClass target) >>= fun _ =>
    syncRepoStatus target (w.tasks.find? target) finalError) w
  refine .after (Prog.calm_forM _ fun result _ => calm_ask trivial fun _ => rfl) fun _ v within => ?_
  refine .after (Prog.calm_forM _ fun result _ => calm_syncClass _ result) fun _ v' within' => ?_
  refine heeds_syncRepoStatus finalError ?_
  rw [within'.statuses target id, within.statuses target id]
  rfl

theorem heeds_launch (threshold : ℕ) (runnerId : String) (runtimeError : Option String)
    (retryCount : ℕ) : HeedsAt target (launch threshold runnerId runtimeError target retryCount) w := by
  refine .after (calm_ask trivial fun _ => rfl) fun found v _ => ?_
  cases found with
  | none => exact fun _ => .inl fun _ _ _ => id
  | some row =>
      cases runtimeError with
      | none =>
          refine fun _ => .inl (outcome_unclosing (Prog.Calm.only ?_) v)
          exact Prog.calm_perform fun _ _ _ write => nomatch write
      | some message =>
          exact .after (calm_ask trivial fun _ => rfl) fun _ v' _ => heeds_markFailed threshold _ _

theorem heeds_settleFailure (threshold : ℕ) (runnerId : String) (slot : PoolSlot) (message : String) :
    HeedsAt slot.taskId (settleFailure threshold runnerId slot message) w := by
  have retries : ∀ retryCount backoffSeconds,
      HeedsAt slot.taskId (queueRetry runnerId slot.taskId retryCount backoffSeconds) w := by
    intro retryCount backoffSeconds _
    exact .inl (outcome_unclosing (Prog.only_of_safe (safe_queueRetry _ _ _ _)) w)
  unfold settleFailure
  split
  · exact heeds_finish (by simp)
  · split
    · exact retries _ _
    · exact heeds_markFailed _ _ _
  · split
    · exact retries _ _
    · exact heeds_markFailed _ _ _
  · exact heeds_markFailed _ _ _
end Ends

/-! Tasks told to make way. -/

section Rounds
variable (urgentTaskId preemptedId : ℕ)

def preemptedEvent : EventArgs where
  taskId := preemptedId
  eventType := "task_preempted"
  message := s!"preempted by urgent RDC repair task {urgentTaskId}"
  stage := some "preempted"
  severity := "WARNING"
  payload := [("preempted_by_task_id", .number urgentTaskId), ("preempted_task_id", .number preemptedId)]

def preemptingEvent : EventArgs where
  taskId := urgentTaskId
  eventType := "task_preempting"
  message := s!"Requested stop for batch task {preemptedId}"
  stage := some "preempted"
  payload := [("preempted_by_task_id", .number urgentTaskId), ("preempted_task_id", .number preemptedId)]

/-- One round of the loop that tells running tasks to make way. -/
def preemptRound : TaskProg PUnit := do
  stopTask preemptedId s!"preempted by urgent RDC repair task {urgentTaskId}"
  addEvent (preemptedEvent urgentTaskId preemptedId)
  addEvent (preemptingEvent urgentTaskId preemptedId)

end Rounds

/-- The task occupies its checkout. -/
def AtWork (w : World) (taskId : ℕ) : Prop := ∃ s, w.statusOf taskId = some s ∧ s.Active

theorem stopTask_outcome {w : World} {taskId : ℕ} (durable : Durable w) (active : AtWork w taskId)
    (reason : Option String) :
    ∃ v, (stopTask taskId reason).outcome Stmt.exec w = (.ok (), v) ∧ Durable v ∧
      v.preemptions = w.preemptions ∧
      ∀ other, v.statusOf other = if other = taskId then some .stopRequested else w.statusOf other := by
  obtain ⟨old, present, active⟩ := active
  have begun : old ≠ .created := by rintro rfl; revert active; decide
  have open_ : ¬ old.Terminal := by revert active; cases old <;> decide
  have requests : (requestControl taskId "stop" reason >>= fun _ => readClock).Calm (Keeps Nowhere) :=
    .bind (calm_ask trivial fun _ => rfl) fun _ => calm_ask trivial fun _ => rfl
  obtain ⟨now, w₁, asked, durable₁, within₁⟩ := calm_outcome requests durable
  obtain ⟨w₂, updated, durable₂, preemptions₂, statuses₂⟩ := update_outcome
    { status := some .stopRequested, stopRequestedAt := some (some (nowIso now)),
      currentDetail := some reason }
    durable₁ ((within₁.statuses taskId id).trans present) begun open_ rfl
  let told : EventArgs :=
    { taskId, eventType := "task_stopped", message := textOr reason "Stop requested",
      severity := "WARNING" }
  have tells : (addEvent told).Calm (Keeps Nowhere) := calm_event (by simp [told])
  obtain ⟨_, v, noted, durable₃, within₃⟩ := calm_outcome tells durable₂
  refine ⟨v, ?_, durable₃, ?_, fun other => ?_⟩
  · have split : stopTask taskId reason =
        (requestControl taskId "stop" reason >>= fun _ => readClock) >>= fun now =>
          updateRepoTask taskId
            { status := some .stopRequested, stopRequestedAt := some (some (nowIso now)),
              currentDetail := some reason } >>= fun _ => addEvent told := rfl
    rw [split, Prog.outcome_bind_ok _ asked, Prog.outcome_bind_ok _ updated]
    exact noted
  · exact within₃.preemptions.trans (preemptions₂.trans within₁.preemptions)
  · rw [within₃.statuses other id, statuses₂, within₁.statuses other id]

theorem preempted_addEvent {w : World} {e : EventArgs} {taskId byId : ℕ}
    (preempts : e.eventType = "task_preempted") :
    (w.addEvent e.row).Preempted taskId byId ↔
      w.Preempted taskId byId ∨ (e.taskId = taskId ∧ preemptedBy (e.row w.nextEventId w.now) = byId) := by
  have appended : (w.addEvent e.row).preemptions = w.preemptions ++ [e.row w.nextEventId w.now] := by
    unfold World.preemptions
    refine (List.filter_append _ _).trans (congrArg _ ?_)
    exact List.filter_cons_of_pos (decide_eq_true preempts)
  unfold World.Preempted
  rw [appended]
  simp only [List.mem_append, List.mem_singleton, or_and_right, exists_or, exists_eq_left]
  rfl

theorem preemptRound_outcome {w : World} {preemptedId : ℕ} (urgentTaskId : ℕ) (durable : Durable w)
    (active : AtWork w preemptedId) :
    ∃ v, (preemptRound urgentTaskId preemptedId).outcome Stmt.exec w = (.ok (), v) ∧ Durable v ∧
      (∀ taskId, AtWork w taskId → AtWork v taskId) ∧
      ∀ taskId byId, v.Preempted taskId byId ↔
        w.Preempted taskId byId ∨ (taskId = preemptedId ∧ byId = urgentTaskId) := by
  obtain ⟨w₁, stopped, durable₁, preemptions₁, statuses₁⟩ := stopTask_outcome durable active
    s!"preempted by urgent RDC repair task {urgentTaskId}"
  refine ⟨_, Prog.outcome_bind_ok _ stopped _, durable₁, fun taskId working => ?_, fun taskId byId => ?_⟩
  · obtain ⟨s, present, busy⟩ := working
    by_cases here : taskId = preemptedId
    · exact ⟨.stopRequested, (statuses₁ taskId).trans (if_pos here), by decide⟩
    · exact ⟨s, (statuses₁ taskId).trans ((if_neg here).trans present), busy⟩
  · have last := preemptions_appends (World.appends_addEvent
      (w₁.addEvent (preemptedEvent urgentTaskId preemptedId).row) (preemptingEvent urgentTaskId preemptedId))
      (by simp [preemptingEvent])
    change (∃ e ∈ ((w₁.addEvent _).addEvent _).preemptions, _) ↔ _
    rw [last]
    refine (preempted_addEvent (by rfl)).trans ?_
    unfold World.Preempted
    rw [preemptions₁]
    exact or_congr_right ⟨fun ⟨here, by_⟩ => ⟨here.symm, by_.symm⟩, fun ⟨here, by_⟩ => ⟨here.symm, by_.symm⟩⟩

theorem preemptRounds_outcome (ids : List ℕ) (urgentTaskId : ℕ) {w : World} (durable : Durable w)
    (active : ∀ id ∈ ids, AtWork w id) :
    ∃ v, (ids.forM (preemptRound urgentTaskId)).outcome Stmt.exec w = (.ok (), v) ∧
      ∀ taskId byId, v.Preempted taskId byId ↔
        w.Preempted taskId byId ∨ (taskId ∈ ids ∧ byId = urgentTaskId) := by
  induction ids generalizing w with
  | nil => exact ⟨w, rfl, fun taskId byId => ⟨.inl, fun either => either.resolve_right fun all => nomatch all.1⟩⟩
  | cons id ids ih =>
      obtain ⟨w', first, durable', lasts, preempted⟩ :=
        preemptRound_outcome urgentTaskId durable (active id List.mem_cons_self)
      obtain ⟨v, rest, preempted'⟩ :=
        ih durable' fun other member => lasts other (active other (List.mem_cons_of_mem id member))
      refine ⟨v, ?_, fun taskId byId => ?_⟩
      · exact (Prog.outcome_bind_ok _ first fun _ => ids.forM (preemptRound urgentTaskId)).trans rest
      · rw [preempted', preempted, or_assoc, ← or_and_right, List.mem_cons]

theorem mem_runningSameRepo {w : World} {repoPath : String} {taskId id : ℕ}
    (member : id ∈ w.runningSameRepo repoPath taskId) : AtWork w id ∧ id ≠ taskId := by
  obtain ⟨row, listed, rfl⟩ := List.mem_map.mp member
  rw [List.mem_insertionSort, List.mem_filter] at listed
  obtain ⟨present, -, running, other, -⟩ := And.imp_right of_decide_eq_true listed
  refine ⟨⟨.running, ?_, by decide⟩, other⟩
  rw [World.statusOf, Table.find?_mem present, Option.map_some, running]

end Uta.Tasks
