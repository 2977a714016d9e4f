/- The compact refresh of a record's sessions, and where it shows what the full one would store. -/
import Uta.Repair.Keeping
import Uta.Repair.Reports

namespace Uta.Repair
open Uta.Lib Uta.Ci Uta.Tasks

namespace Focus
variable (f : Focus)

/-- One round of the loop of `_refresh_repair_session_summaries`. -/
def refreshSessionSummary (cfg : Config) (o : Outcome) : Option Raised × Focus :=
  match f.task? f.session.repoTaskId with
  | none => (none, f)
  | some task =>
    if FailedRepo task then (none, f.setStatus .repairFailed)
    else if task ≠ .completed ∨ f.session.status.Passed then (none, f)
    else
      match if cfg.handler then o.taskResult else .ok none with
      | .error e => (some e, f)
      | .ok none => (none, f.setStatus .repairCompleted)
      | .ok (some result) =>
        (none, { f with
          record := { f.record with
            enforcementResult := some result
            summary := some result.summary
            status := if result.passed then .success else .failed }
          session := { f.session with status := if result.passed then .green else .rerunFailed } })

end Focus

/-- `_refresh_repair_session_summaries`, over the sessions that are left. -/
def refreshRepairSessionSummaries (cfg : Config) : (ℕ → Outcome) → List Session → Shared →
    Option Raised × List Session × Shared
  | _, [], sh => (none, [], sh)
  | o, s :: rest, sh =>
    match Focus.refreshSessionSummary ⟨sh, s⟩ cfg (o 0) with
    | (some e, f) => (some e, f.session :: rest, f.toShared)
    | (none, f) =>
      let (e, rest, sh) := refreshRepairSessionSummaries cfg (o ∘ Nat.succ) rest f.toShared
      (e, f.session :: rest, sh)

namespace State

/-- The compact refresh of a record. -/
def refreshSummaries (st : State) (cfg : Config) (o : ℕ → Outcome) : Option Raised × State :=
  if ¬ cfg.taskManager then (none, st)
  else
    let (e, sessions, sh) := refreshRepairSessionSummaries cfg o st.sessions st.toShared
    (e, ⟨sh, sessions⟩)

end State

/-! What is compared. -/

/-- The statuses of the sessions, and the record's status and summary. -/
def shown (sessions : List Session) (sh : Shared) :
    List SessionStatus × CiTaskStatus × Option String :=
  (sessions.map Session.status, sh.record.status, sh.record.summary)

/-- What the handler answers of a completed task. -/
def answerOf (cfg : Config) (o : Outcome) : Except Raised (Option QualityGateResult) :=
  if cfg.handler then o.taskResult else .ok none

namespace Focus
variable (f : Focus) (cfg : Config) (o : Outcome) (m : Moment)

/-- The full refresh carries out a retry. -/
def Retrying : Prop :=
  f.session.status = .retryRequested ∧ cfg.taskManager = true ∧ f.record.workspacePath ≠ none

instance : Decidable (f.Retrying cfg) := inferInstanceAs (Decidable (_ ∧ _))

/-- Without a result the full refresh runs the gate. -/
def AwaitsRerun : Prop :=
  ¬ f.session.status.FailedRerun ∧
    ¬ (f.session.status = .rerunRunning ∧ ¬ RerunIsStale cfg m.now f.session) ∧
    cfg.runner = true ∧ m.lockAcquired = true

instance : Decidable (f.AwaitsRerun cfg m) := inferInstanceAs (Decidable (_ ∧ _))

/-- The full refresh needs a new enforcement rerun of the session: the preflight of the task that a
retry creates, or the gate of a completed task that has left no result. -/
def NeedsRerun : Prop :=
  if f.Retrying cfg then
    f.Recreates cfg ∧ m.creation.refresh = none ∧ m.creation.rulesUnavailable = false ∧
      m.creation.shouldRerun = true
  else
    f.task? f.session.repoTaskId = some .completed ∧ ¬ f.session.status.Passed ∧
      answerOf cfg o = .ok none ∧ f.AwaitsRerun cfg m

/-- The repair task that a retry leaves the session with is under way. -/
def AttachesLive : Prop :=
  f.Retrying cfg →
    ∀ task ∈ (f.found cfg m).2.task? (f.found cfg m).2.session.repoTaskId, LiveRepo task

/-- The compact refresh follows the full one on a session with a task: a session that has passed has
a task that has not failed, one that was given up has no task under way, a result is not excused,
and without a result the session waits for a rerun that has not begun. -/
def MirrorsTask (task : RepoStatus) : Prop :=
  if f.session.status.Passed then ¬ FailedRepo task
  else if FailedRepo task then True
  else if task ≠ .completed then f.session.status ≠ .repairFailed
  else
    match answerOf cfg o with
    | .error _ => True
    | .ok (some result) => result.passed = true ∨ o.grant = none
    | .ok none =>
      f.session.status ∈ [SessionStatus.repairCompleted, .repairFailed] ∧ cfg.runner = true

/-- The compact refresh follows the full one on the session. -/
def Mirrored : Prop :=
  ¬ f.Retrying cfg ∧ ∀ task ∈ f.task? f.session.repoTaskId, f.MirrorsTask cfg o task

end Focus

/-! Verdicts. -/

/-- What a refresh makes of a session: its status, and the record's status and summary, if it writes
them. -/
structure Verdict where
  status : SessionStatus
  outcome : Option (CiTaskStatus × String) := none
  deriving DecidableEq

/-- The record's status and summary after a verdict. -/
def Verdict.recordView (v : Verdict) (r : Record) : CiTaskStatus × Option String :=
  match v.outcome with
  | none => (r.status, r.summary)
  | some (status, summary) => (status, some summary)

/-- A round that started from `f` came to the verdict, and kept what later rounds depend on. -/
structure Reaches (v : Verdict) (f g : Focus) : Prop where
  status : g.session.status = v.status
  record : (g.record.status, g.record.summary) = v.recordView f.record
  tasks : g.tasks = f.tasks
  workspacePath : g.record.workspacePath = f.record.workspacePath

/-- The verdict on a result that is not excused. -/
def resultVerdict (result : QualityGateResult) : Verdict :=
  if result.passed then ⟨.green, some (.success, result.summary)⟩
  else ⟨.rerunFailed, some (.failed, result.summary)⟩

def excusedVerdict (result : QualityGateResult) (grant : Option String) : Verdict :=
  match if result.passed then none else grant with
  | some summary => ⟨.passedWithEquivalentMutants, some (.success, summary)⟩
  | none => resultVerdict result

namespace Focus
variable (f : Focus) (cfg : Config) (o : Outcome) (m : Moment) (task : RepoStatus)

/-- The full refresh on a completed task, where it starts no rerun. -/
def judgedVerdict : Verdict :=
  match answerOf cfg o with
  | .error _ => ⟨f.session.status, none⟩
  | .ok (some result) => excusedVerdict result o.grant
  | .ok none =>
    if f.session.status.FailedRerun ∨
        f.session.status = .rerunRunning ∧ ¬ RerunIsStale cfg m.now f.session then
      ⟨f.session.status, none⟩
    else if ¬ cfg.runner then ⟨.rerunUnavailable, none⟩
    else ⟨f.session.status, none⟩

/-- The full refresh, given the status of the session's task. -/
def followedVerdict : Verdict :=
  if (f.revive task).session.status.Passed then ⟨(f.revive task).session.status, none⟩
  else if FailedRepo task then ⟨.repairFailed, none⟩
  else if task ≠ .completed then ⟨(f.revive task).session.status, none⟩
  else (f.revive task).judgedVerdict cfg o m

/-- The compact refresh, given the status of the session's task. -/
def compactVerdict : Verdict :=
  if FailedRepo task then ⟨.repairFailed, none⟩
  else if task ≠ .completed ∨ f.session.status.Passed then ⟨f.session.status, none⟩
  else
    match answerOf cfg o with
    | .error _ => ⟨f.session.status, none⟩
    | .ok none => ⟨.repairCompleted, none⟩
    | .ok (some result) => resultVerdict result

end Focus

/-! The verdict of a round. -/

section Rounds
variable {f : Focus} {cfg : Config} {o : Outcome} {m : Moment}

theorem Reaches.refl (f : Focus) : Reaches ⟨f.session.status, none⟩ f f := ⟨rfl, rfl, rfl, rfl⟩

/-- A report leaves the verdict as it is. -/
theorem report_reaches {v : Verdict} {g : Focus} (reaches : Reaches v f g) (now : ℕ) (passed : Bool)
    (key : String) : Reaches v f (g.reportRepairResultOnce cfg now passed key) := by
  have record : (g.reportRepairResultOnce cfg now passed key).record = g.record :=
    report_record now passed key
  refine ⟨(report_status ..).trans reaches.status, ?_, ?_, ?_⟩
  · rw [record]
    exact reaches.record
  · refine Eq.trans ?_ reaches.tasks
    unfold Focus.reportRepairResultOnce Focus.reportResult
    split
    · split <;> rfl
    · rfl
  · rw [record]
    exact reaches.workspacePath

theorem apply_reaches (result : QualityGateResult) (grant : Option String) :
    Reaches (excusedVerdict result grant) f
      (f.applyRepairEnforcementResult cfg m.now result grant) := by
  unfold Focus.applyRepairEnforcementResult excusedVerdict
  cases if result.passed then none else grant with
  | some summary =>
      refine report_reaches ?_ m.now true "passed_with_equivalent_mutants"
      exact ⟨rfl, rfl, rfl, rfl⟩
  | none =>
      refine report_reaches ?_ m.now result.passed _
      unfold resultVerdict
      cases passed : result.passed <;> exact ⟨rfl, rfl, rfl, rfl⟩

/-- Where no rerun is started, the verdict on a completed task. -/
theorem judgeCompleted_reaches (quiet : (f.judgeCompleted cfg o m).1 = none)
    (unneeded : answerOf cfg o = .ok none → ¬ f.AwaitsRerun cfg m) :
    Reaches (f.judgedVerdict cfg o m) f (f.judgeCompleted cfg o m).2 := by
  unfold Focus.judgeCompleted at quiet ⊢
  unfold Focus.judgedVerdict
  rw [answerOf] at *
  generalize (if cfg.handler then o.taskResult else Except.ok none) = answer at *
  rcases answer with e | _ | result
  · exact nomatch quiet
  · dsimp only at quiet ⊢
    by_cases failed : f.session.status.FailedRerun
    · rw [if_pos failed, if_pos (.inl failed)]
      exact .refl f
    by_cases running : f.session.status = .rerunRunning ∧
        ¬ Focus.RerunIsStale cfg m.now f.session
    · rw [if_neg failed, if_pos running, if_pos (.inr running)]
      exact .refl f
    rw [if_neg failed, if_neg running, if_neg (not_or.mpr ⟨failed, running⟩)]
    by_cases runner : cfg.runner = true
    · have locked : ¬ m.lockAcquired = true := fun acquired =>
        unneeded rfl ⟨failed, running, runner, acquired⟩
      rw [if_neg (not_not.mpr runner), if_neg (not_not.mpr runner), if_pos locked]
      exact .refl f
    · rw [if_pos runner, if_pos runner]
      refine report_reaches ?_ m.now false _
      exact ⟨rfl, rfl, rfl, rfl⟩
  · exact apply_reaches result o.grant

/-- What the sessions share decides from where the verdict was reached. -/
theorem Reaches.of_shared {v : Verdict} {g h : Focus} (shared : g.toShared = f.toShared)
    (reaches : Reaches v g h) : Reaches v f h := by
  obtain ⟨status, record, tasks, workspacePath⟩ := reaches
  rw [shared] at record tasks workspacePath
  exact ⟨status, record, tasks, workspacePath⟩

theorem revive_shared (task : RepoStatus) : (f.revive task).toShared = f.toShared := by
  unfold Focus.revive
  split <;> rfl

theorem revive_of_kept {task : RepoStatus} (kept : f.session.status ≠ .repairFailed) :
    f.revive task = f := if_neg fun given => kept given.1

/-- A session that is taken up awaits its rerun as it did. -/
theorem revive_awaits {task : RepoStatus} (awaits : (f.revive task).AwaitsRerun cfg m) :
    f.AwaitsRerun cfg m := by
  unfold Focus.revive at awaits
  split at awaits
  next given =>
    refine ⟨?_, ?_, awaits.2.2⟩
    · rw [given.1]
      decide
    · rw [given.1]
      exact fun running => nomatch running.1
  next => exact awaits

/-- The full refresh, given the status of the session's task. -/
theorem followRepairTask_reaches {task : RepoStatus}
    (quiet : (f.followRepairTask cfg o m task).1 = none)
    (unneeded : task = .completed → ¬ f.session.status.Passed → answerOf cfg o = .ok none →
      ¬ f.AwaitsRerun cfg m) :
    Reaches (f.followedVerdict cfg o m task) f (f.followRepairTask cfg o m task).2 := by
  unfold Focus.followRepairTask at quiet ⊢
  unfold Focus.followedVerdict
  dsimp only at quiet ⊢
  by_cases won : (f.revive task).session.status.Passed
  · rw [if_pos won, if_pos won]
    exact .of_shared (revive_shared task) (.refl _)
  rw [if_neg won] at quiet
  rw [if_neg won, if_neg won]
  by_cases failed : FailedRepo task
  · rw [if_pos failed, if_pos failed]
    have given : Reaches ⟨.repairFailed, none⟩ (f.revive task)
        ((f.revive task).setStatus .repairFailed) := ⟨rfl, rfl, rfl, rfl⟩
    exact .of_shared (revive_shared task) (report_reaches given ..)
  rw [if_neg failed] at quiet
  rw [if_neg failed, if_neg failed]
  by_cases completed : task = .completed
  · rw [if_neg (not_not.mpr completed)] at quiet
    rw [if_neg (not_not.mpr completed), if_neg (not_not.mpr completed)]
    refine .of_shared (revive_shared task)
      (judgeCompleted_reaches quiet fun unanswered awaits => ?_)
    exact unneeded completed (mt (revive_passed task).mpr won) unanswered (revive_awaits awaits)
  · rw [if_pos completed, if_pos completed]
    exact .of_shared (revive_shared task) (.refl _)

/-- The compact refresh, given the status of the session's task. -/
theorem refreshSessionSummary_reaches {task : RepoStatus}
    (found : f.task? f.session.repoTaskId = some task)
    (quiet : (f.refreshSessionSummary cfg o).1 = none) :
    Reaches (f.compactVerdict cfg o task) f (f.refreshSessionSummary cfg o).2 := by
  unfold Focus.refreshSessionSummary at quiet ⊢
  unfold Focus.compactVerdict
  rw [found] at quiet ⊢
  dsimp only at quiet ⊢
  by_cases failed : FailedRepo task
  · rw [if_pos failed, if_pos failed]
    exact ⟨rfl, rfl, rfl, rfl⟩
  rw [if_neg failed] at quiet
  rw [if_neg failed, if_neg failed]
  by_cases unjudged : task ≠ .completed ∨ f.session.status.Passed
  · rw [if_pos unjudged, if_pos unjudged]
    exact .refl f
  rw [if_neg unjudged] at quiet
  rw [if_neg unjudged, if_neg unjudged, answerOf]
  generalize (if cfg.handler then o.taskResult else Except.ok none) = answer at *
  rcases answer with e | _ | result
  · exact nomatch quiet
  · exact ⟨rfl, rfl, rfl, rfl⟩
  · refine ⟨?_, ?_, rfl, rfl⟩
    all_goals
      unfold resultVerdict
      dsimp only
      cases result.passed <;> rfl

/-! The verdicts compared. -/

theorem excused_eq {result : QualityGateResult} {grant : Option String}
    (plain : result.passed = true ∨ grant = none) :
    excusedVerdict result grant = resultVerdict result := by
  unfold excusedVerdict
  rcases plain with passed | plain
  · rw [if_pos passed]
  · rw [plain, ite_self]

/-- Where the full refresh comes to a verdict without a rerun, the compact one comes to the same if
it mirrors the task. -/
theorem verdicts_agree {task : RepoStatus} (quiet : (f.followRepairTask cfg o m task).1 = none)
    (mirrors : f.MirrorsTask cfg o task) :
    f.followedVerdict cfg o m task = f.compactVerdict cfg o task := by
  unfold Focus.followRepairTask at quiet
  unfold Focus.followedVerdict Focus.compactVerdict
  unfold Focus.MirrorsTask at mirrors
  dsimp only at quiet
  simp only [revive_passed] at quiet ⊢
  by_cases won : f.session.status.Passed
  · rw [if_pos won] at mirrors
    have kept : f.session.status ≠ .repairFailed := fun given => by
      rw [given] at won
      exact absurd won (by decide)
    rw [if_pos won, if_neg mirrors, if_pos (.inr won), revive_of_kept kept]
  rw [if_neg won] at mirrors quiet
  rw [if_neg won]
  by_cases failed : FailedRepo task
  · rw [if_pos failed, if_pos failed]
  rw [if_neg failed] at mirrors quiet
  rw [if_neg failed, if_neg failed]
  by_cases completed : task = .completed
  · rw [if_neg (not_not.mpr completed)] at mirrors quiet
    rw [if_neg (not_not.mpr completed), if_neg (not_or.mpr ⟨not_not.mpr completed, won⟩)]
    unfold Focus.judgeCompleted at quiet
    unfold Focus.judgedVerdict
    rw [answerOf] at *
    generalize (if cfg.handler then o.taskResult else Except.ok none) = answer at *
    rcases answer with e | _ | result
    · exact nomatch quiet
    · dsimp only at mirrors ⊢
      have waiting : (f.revive task).session.status = .repairCompleted := by
        rcases List.mem_pair.mp mirrors.1 with waits | given
        · have kept : f.session.status ≠ .repairFailed := by
            rw [waits]
            exact nofun
          rw [revive_of_kept kept, waits]
        · unfold Focus.revive
          rw [if_pos ⟨given, failed⟩, if_pos completed]
          rfl
      rw [waiting, if_neg (by simp [SessionStatus.FailedRerun]), if_neg (not_not.mpr mirrors.2)]
    · exact excused_eq mirrors
  · rw [if_pos completed] at mirrors
    rw [if_pos completed, if_pos (.inl completed), revive_of_kept mirrors]

/-- Otherwise it shows the session in another status. -/
theorem verdicts_differ {task : RepoStatus} (differs : ¬ f.MirrorsTask cfg o task) :
    (f.followedVerdict cfg o m task).status ≠ (f.compactVerdict cfg o task).status := by
  unfold Focus.followedVerdict Focus.compactVerdict
  unfold Focus.MirrorsTask at differs
  simp only [revive_passed]
  by_cases won : f.session.status.Passed
  · rw [if_pos won, not_not] at differs
    have kept : f.session.status ≠ .repairFailed := fun given => by
      rw [given] at won
      exact absurd won (by decide)
    rw [if_pos won, if_pos differs, revive_of_kept kept]
    exact kept
  rw [if_neg won] at differs
  rw [if_neg won]
  by_cases failed : FailedRepo task
  · rw [if_pos failed] at differs
    exact absurd trivial differs
  rw [if_neg failed] at differs
  rw [if_neg failed, if_neg failed]
  by_cases completed : task = .completed
  · rw [if_neg (not_not.mpr completed)] at differs
    rw [if_neg (not_not.mpr completed), if_neg (not_or.mpr ⟨not_not.mpr completed, won⟩)]
    unfold Focus.judgedVerdict
    generalize answerOf cfg o = answer at *
    rcases answer with e | _ | result
    · exact absurd trivial differs
    · dsimp only at differs ⊢
      by_cases ran : (f.revive task).session.status.FailedRerun ∨
          (f.revive task).session.status = .rerunRunning ∧
            ¬ Focus.RerunIsStale cfg m.now (f.revive task).session
      · rw [if_pos ran]
        intro same
        rw [show (f.revive task).session.status = .repairCompleted from same] at ran
        simp [SessionStatus.FailedRerun] at ran
      rw [if_neg ran]
      by_cases runner : cfg.runner = true
      · rw [if_neg (not_not.mpr runner)]
        intro same
        refine differs ⟨?_, runner⟩
        by_cases given : f.session.status = .repairFailed
        · rw [given]
          decide
        · rw [revive_of_kept given] at same
          rw [show f.session.status = .repairCompleted from same]
          decide
      · rw [if_pos runner]
        exact nofun
    · obtain ⟨failing, granted⟩ := not_or.mp differs
      obtain ⟨summary, grant⟩ := Option.ne_none_iff_exists'.mp granted
      unfold excusedVerdict resultVerdict
      dsimp only
      rw [if_neg failing, if_neg failing, grant]
      exact nofun
  · rw [if_pos completed, not_not] at differs
    rw [if_pos completed, if_pos (.inl completed)]
    unfold Focus.revive
    rw [if_pos ⟨differs, failed⟩, if_neg completed, differs]
    exact nofun

/-! Retries. -/

/-- The full refresh finds a session that asks for no retry as it is. -/
theorem found_of_calm (calm : ¬ f.Retrying cfg) :
    f.found cfg m = (none, f.ensureDeferredRepairTaskCreation cfg) := by
  obtain ⟨status, _, shared⟩ := ensure_same f cfg
  unfold Focus.found Focus.materializeRetryRequest
  rw [status, shared]
  by_cases asked : f.session.status ≠ .retryRequested
  · rw [if_pos asked]
  · rw [if_neg asked, if_pos]
    by_contra equipped
    obtain ⟨manager, workspace⟩ := not_or.mp equipped
    exact calm ⟨not_not.mp asked, not_not.mp manager, workspace⟩

theorem attachRepairTask_status (c : Creation) :
    (f.attachRepairTask c).2.session.status = .repairTaskCreated := by
  unfold Focus.attachRepairTask
  cases c.duplicateForTargets with
  | some id => rfl
  | none =>
      cases c.duplicate with
      | some other => rfl
      | none => cases c.preempted <;> rfl

/-- After a retry without a preflight the session has a new task, or none. -/
theorem found_of_retrying (retrying : f.Retrying cfg) (unneeded : ¬ f.NeedsRerun cfg o m)
    (quiet : (f.found cfg m).1 = none) :
    (f.found cfg m).2.session.status = .repairTaskCreated ∨
      (f.found cfg m).2.session.repoTaskId = none ∧
        (f.found cfg m).2.session.status ∈
          [SessionStatus.creatingRepairTask, .repairTaskCreateFailed] := by
  have idle : f.ensureDeferredRepairTaskCreation cfg = f := by
    refine if_neg fun creating => ?_
    cases retrying.1.symm.trans creating.2.2.2
  obtain ⟨asked, manager, workspace⟩ := retrying
  unfold Focus.NeedsRerun at unneeded
  rw [if_pos ⟨asked, manager, workspace⟩] at unneeded
  unfold Focus.found Focus.materializeRetryRequest at quiet ⊢
  rw [idle, if_neg (not_not.mpr asked), if_neg (by simp [manager, workspace])] at quiet ⊢
  by_cases live : f.LiveTask f.session.repoTaskId
  · rw [if_pos live]
    exact .inl rfl
  rw [if_neg live] at quiet ⊢
  dsimp only at quiet ⊢
  cases async : cfg.asyncRepairTaskCreation with
  | true => exact .inr ⟨rfl, List.mem_cons_self⟩
  | false =>
      have recreates : f.Recreates cfg := ⟨asked, manager, workspace, live, async⟩
      rw [async, if_neg Bool.false_ne_true] at quiet
      rw [if_neg Bool.false_ne_true]
      unfold Focus.createRepairTask at quiet ⊢
      cases refreshed : m.creation.refresh with
      | some e =>
          rw [refreshed] at quiet
          cases quiet
      | none =>
      rw [refreshed] at quiet
      dsimp only at quiet ⊢
      by_cases rules : m.creation.rulesUnavailable = true
      · rw [if_pos rules]
        exact .inr ⟨rfl, by simp [Focus.setStatus]⟩
      rw [if_neg rules] at quiet ⊢
      by_cases handler : cfg.handler = true
      · have rerun : ¬ m.creation.shouldRerun = true := fun rerun =>
          unneeded ⟨recreates, refreshed, Bool.not_eq_true _ ▸ rules, rerun⟩
        rw [if_neg (not_not.mpr handler), if_pos rerun] at quiet ⊢
        unfold Focus.prepareRepairTask at quiet ⊢
        cases context : m.creation.context with
        | some e =>
            rw [context] at quiet
            cases quiet
        | none => exact .inl (attachRepairTask_status _)
      · rw [if_pos handler] at quiet
        cases quiet

theorem followRepairTask_live {task : RepoStatus} (created : f.session.status = .repairTaskCreated)
    (live : LiveRepo task) :
    (f.followRepairTask cfg o m task).2.session.status = .repairTaskCreated := by
  have kept : f.revive task = f := revive_of_kept (by rw [created]; exact nofun)
  have underway : ¬ FailedRepo task ∧ task ≠ .completed := by
    revert live
    cases task <;> decide
  unfold Focus.followRepairTask
  dsimp only
  rw [kept, if_neg (by rw [created]; decide), if_neg underway.1, if_pos underway.2]
  exact created

/-- The full refresh of a session that asks for a retry. -/
theorem refreshSession_retrying (retrying : f.Retrying cfg) (unneeded : ¬ f.NeedsRerun cfg o m)
    (live : f.AttachesLive cfg m) (quiet : (f.refreshSession cfg o m).1 = none) :
    (f.refreshSession cfg o m).2.session.status ∈
      [SessionStatus.repairTaskCreated, .creatingRepairTask, .repairTaskCreateFailed] := by
  have attached := live retrying
  have finished := found_of_retrying (o := o) (m := m) retrying unneeded
  cases found : f.found cfg m with
  | mk e g =>
  rw [found] at attached finished
  dsimp only at attached finished
  cases e with
  | some e =>
      unfold Focus.found at found
      unfold Focus.refreshSession at quiet
      rw [found] at quiet
      exact nomatch quiet
  | none =>
      cases has : g.session.repoTaskId with
      | none =>
          rw [refreshSession_detached found has]
          rcases finished rfl with created | ⟨_, waits⟩
          · rw [created]
            decide
          · exact List.mem_cons_of_mem _ waits
      | some id =>
          cases present : g.tasks[id]? with
          | none =>
              rw [refreshSession_lost found has present] at quiet
              exact nomatch quiet
          | some task =>
              rw [refreshSession_attached found has present]
              have created := (finished rfl).resolve_right fun detached =>
                nomatch has.symm.trans detached.1
              have task_live := attached task (by rw [has]; exact present)
              rw [followRepairTask_live created task_live]
              decide

/-- The compact refresh of a session shows no other statuses. -/
theorem refreshSessionSummary_status : (f.refreshSessionSummary cfg o).2.session.status ∈
    [f.session.status, .repairFailed, .repairCompleted, .green, .rerunFailed] := by
  unfold Focus.refreshSessionSummary
  cases f.task? f.session.repoTaskId with
  | none => exact List.mem_cons_self
  | some task =>
  dsimp only
  split
  · simp [Focus.setStatus]
  split
  · exact List.mem_cons_self
  generalize (if cfg.handler then o.taskResult else Except.ok none) = answer
  rcases answer with e | _ | result
  · exact List.mem_cons_self
  · simp [Focus.setStatus]
  · dsimp only
    cases result.passed <;> simp

/-! A round. -/

/-- A copy of the session under which the same task is found. -/
structure Alongside (f g : Focus) : Prop where
  status : g.session.status = f.session.status
  repoTaskId : g.session.repoTaskId = f.session.repoTaskId
  tasks : g.tasks = f.tasks

theorem Alongside.found {g : Focus} (along : Alongside f g) :
    g.task? g.session.repoTaskId = f.task? f.session.repoTaskId := by
  rw [along.repoTaskId, Focus.task?, Focus.task?, along.tasks]

theorem Alongside.mirrors {g : Focus} (along : Alongside f g) (task : RepoStatus) :
    g.MirrorsTask cfg o task ↔ f.MirrorsTask cfg o task := by
  unfold Focus.MirrorsTask
  rw [along.status]

/-- The compact refresh raises nothing if the full one does not. -/
theorem refreshSessionSummary_quiet {task : RepoStatus} {g : Focus} (along : Alongside f g)
    (known : f.task? f.session.repoTaskId = some task)
    (quiet : (f.followRepairTask cfg o m task).1 = none) :
    (g.refreshSessionSummary cfg o).1 = none := by
  unfold Focus.followRepairTask Focus.judgeCompleted at quiet
  unfold Focus.refreshSessionSummary
  dsimp only at quiet ⊢
  rw [along.found, known]
  simp only [revive_passed] at quiet
  dsimp only
  rw [along.status]
  by_cases failed : FailedRepo task
  · rw [if_pos failed]
  rw [if_neg failed] at quiet ⊢
  by_cases unjudged : task ≠ .completed ∨ f.session.status.Passed
  · rw [if_pos unjudged]
  obtain ⟨completed, won⟩ := not_or.mp unjudged
  rw [if_neg won, if_neg completed] at quiet
  rw [if_neg unjudged]
  generalize (if cfg.handler then o.taskResult else Except.ok none) = answer at *
  rcases answer with e | _ | result
  · exact nomatch quiet
  · rfl
  · rfl

/-- A round in which the session has a task. -/
theorem followed_round {task : RepoStatus} {g : Focus} (along : Alongside f g)
    (known : f.task? f.session.repoTaskId = some task)
    (quiet : (f.followRepairTask cfg o m task).1 = none)
    (unneeded : task = .completed → ¬ f.session.status.Passed → answerOf cfg o = .ok none →
      ¬ f.AwaitsRerun cfg m) :
    (g.refreshSessionSummary cfg o).1 = none ∧
      ∃ v w : Verdict, Reaches v f (f.followRepairTask cfg o m task).2 ∧
        Reaches w g (g.refreshSessionSummary cfg o).2 ∧
        (f.MirrorsTask cfg o task → v = w) ∧
        (¬ f.MirrorsTask cfg o task → v.status ≠ w.status) := by
  have shown := refreshSessionSummary_quiet along known quiet
  have same : g.compactVerdict cfg o task = f.compactVerdict cfg o task := by
    unfold Focus.compactVerdict
    rw [along.status]
  refine ⟨shown, _, _, followRepairTask_reaches quiet unneeded,
    refreshSessionSummary_reaches (along.found.trans known) shown, fun mirrors => ?_,
    fun differs => ?_⟩
  · rw [same]
    exact verdicts_agree quiet mirrors
  · rw [same]
    exact verdicts_differ differs

/-- A round without a retry. -/
theorem calm_round {other : Shared} (calm : ¬ f.Retrying cfg) (beside : other.tasks = f.tasks)
    (quiet : (f.refreshSession cfg o m).1 = none) (unneeded : ¬ f.NeedsRerun cfg o m) :
    (Focus.refreshSessionSummary ⟨other, f.session⟩ cfg o).1 = none ∧
      ∃ v w : Verdict, Reaches v f (f.refreshSession cfg o m).2 ∧
        Reaches w ⟨other, f.session⟩ (Focus.refreshSessionSummary ⟨other, f.session⟩ cfg o).2 ∧
        (f.Mirrored cfg o → v = w) ∧ (¬ f.Mirrored cfg o → v.status ≠ w.status) := by
  have found := found_of_calm (m := m) calm
  obtain ⟨status, repoTaskId, shared⟩ := ensure_same f cfg
  have awaits : (f.ensureDeferredRepairTaskCreation cfg).AwaitsRerun cfg m →
      f.AwaitsRerun cfg m := by
    unfold Focus.ensureDeferredRepairTaskCreation
    split <;> exact id
  unfold Focus.NeedsRerun at unneeded
  rw [if_neg calm] at unneeded
  generalize f.ensureDeferredRepairTaskCreation cfg = g at found status repoTaskId shared awaits
  have along : Alongside g ⟨other, f.session⟩ :=
    ⟨status.symm, repoTaskId.symm, by rw [shared]; exact beside⟩
  have original : Alongside g f := ⟨status.symm, repoTaskId.symm, by rw [shared]⟩
  cases has : g.session.repoTaskId with
  | none =>
      have nothing : Focus.refreshSessionSummary ⟨other, f.session⟩ cfg o =
          (none, ⟨other, f.session⟩) := by
        unfold Focus.refreshSessionSummary
        rw [along.found, has]
        rfl
      rw [refreshSession_detached found has, nothing]
      refine ⟨rfl, ⟨f.session.status, none⟩, _, .of_shared shared ?_, .refl _, fun _ => rfl,
        fun differs => absurd ⟨calm, ?_⟩ differs⟩
      · rw [← status]
        exact .refl g
      · rw [original.found, has]
        exact nofun
  | some id =>
      cases present : g.tasks[id]? with
      | none =>
          rw [refreshSession_lost found has present] at quiet
          exact nomatch quiet
      | some task =>
          have known : g.task? g.session.repoTaskId = some task := by
            rw [has]
            exact present
          rw [refreshSession_attached found has present] at quiet ⊢
          obtain ⟨shown, v, w, full, compact, agree, differ⟩ := followed_round along known quiet (by
            rintro rfl won unanswered waits
            refine unneeded ⟨original.found.trans known, ?_, unanswered, awaits waits⟩
            rwa [← status])
          have mirrors : f.Mirrored cfg o ↔ g.MirrorsTask cfg o task := by
            rw [← original.mirrors]
            unfold Focus.Mirrored
            rw [original.found, known]
            simp [calm]
          rw [mirrors]
          exact ⟨shown, v, w, .of_shared shared full, compact, agree, differ⟩

/-- Two copies of a record on which both refreshes go on alike. -/
structure Beside (sh other : Shared) : Prop where
  status : other.record.status = sh.record.status
  summary : other.record.summary = sh.record.summary
  tasks : other.tasks = sh.tasks

theorem mirrored_round {other : Shared} (beside : Beside f.toShared other)
    (quiet : (f.refreshSession cfg o m).1 = none) (unneeded : ¬ f.NeedsRerun cfg o m)
    (mirrored : f.Mirrored cfg o) :
    (Focus.refreshSessionSummary ⟨other, f.session⟩ cfg o).1 = none ∧
      (Focus.refreshSessionSummary ⟨other, f.session⟩ cfg o).2.session.status =
        (f.refreshSession cfg o m).2.session.status ∧
      Beside (f.refreshSession cfg o m).2.toShared
        (Focus.refreshSessionSummary ⟨other, f.session⟩ cfg o).2.toShared ∧
      (f.refreshSession cfg o m).2.tasks = f.tasks ∧
      (f.refreshSession cfg o m).2.record.workspacePath = f.record.workspacePath := by
  obtain ⟨shown, v, w, full, compact, agree, _⟩ :=
    calm_round mirrored.1 beside.tasks quiet unneeded
  obtain rfl := agree mirrored
  have view : v.recordView other.record = v.recordView f.record := by
    unfold Verdict.recordView
    rw [beside.status, beside.summary]
  have record := (compact.record.trans view).trans full.record.symm
  rw [Prod.mk.injEq] at record
  exact ⟨shown, compact.status.trans full.status.symm,
    ⟨record.1, record.2, (compact.tasks.trans beside.tasks).trans full.tasks.symm⟩,
    full.tasks, full.workspacePath⟩

theorem differing_round {other : Shared} (beside : Beside f.toShared other)
    (quiet : (f.refreshSession cfg o m).1 = none) (unneeded : ¬ f.NeedsRerun cfg o m)
    (live : f.AttachesLive cfg m) (differs : ¬ f.Mirrored cfg o) :
    (Focus.refreshSessionSummary ⟨other, f.session⟩ cfg o).2.session.status ≠
      (f.refreshSession cfg o m).2.session.status := by
  by_cases retrying : f.Retrying cfg
  · have full := refreshSession_retrying (o := o) retrying unneeded live quiet
    have compact : (Focus.refreshSessionSummary ⟨other, f.session⟩ cfg o).2.session.status ∈
        [f.session.status, .repairFailed, .repairCompleted, .green, .rerunFailed] :=
      refreshSessionSummary_status
    intro same
    rw [same, retrying.1] at compact
    revert full compact
    generalize (f.refreshSession cfg o m).2.session.status = status
    cases status <;> decide
  · obtain ⟨_, v, w, full, compact, _, differ⟩ := calm_round retrying beside.tasks quiet unneeded
    rw [compact.status, full.status]
    exact (differ differs).symm

end Rounds

/-! The refreshes compared. -/

/-- The compact refresh raises nothing and shows what the full one stores. -/
def ShowsStored (compact full : Option Raised × List Session × Shared) : Prop :=
  compact.1 = none ∧ shown compact.2.1 compact.2.2 = shown full.2.1 full.2.2

theorem showsStored_cons (compact full : Option Raised × List Session × Shared) (s t : Session) :
    ShowsStored (compact.1, s :: compact.2.1, compact.2.2) (full.1, t :: full.2.1, full.2.2) ↔
      s.status = t.status ∧ ShowsStored compact full := by
  simp only [ShowsStored, shown, List.map_cons, Prod.mk.injEq, List.cons.injEq, and_assoc,
    and_left_comm]

section Run
variable {cfg : Config}

/-- A session is mirrored or not whatever else the record holds. -/
theorem mirrored_iff {sh sh' : Shared} (tasks : sh'.tasks = sh.tasks)
    (path : sh'.record.workspacePath = sh.record.workspacePath) (s : Session) (o : Outcome) :
    Focus.Mirrored ⟨sh', s⟩ cfg o ↔ Focus.Mirrored ⟨sh, s⟩ cfg o := by
  unfold Focus.Mirrored Focus.Retrying Focus.task?
  rw [tasks, path]
  exact Iff.rfl

theorem rounds_and {P Q : Focus → Outcome → Moment → Prop} (l : List Session) (o : ℕ → Outcome)
    (m : ℕ → Moment) (sh : Shared) (first : Rounds P cfg o m l sh)
    (second : Rounds Q cfg o m l sh) :
    Rounds (fun f o m => P f o m ∧ Q f o m) cfg o m l sh := by
  induction l generalizing o m sh with
  | nil => trivial
  | cons s rest ih =>
      exact ⟨⟨first.1, second.1⟩, fun finished => ih _ _ _ (first.2 finished) (second.2 finished)⟩

theorem summaries_shown (l : List Session) (o : ℕ → Outcome) (m : ℕ → Moment) (sh other : Shared)
    (beside : Beside sh other) (quiet : (refreshRepairSessions cfg o m l sh).1 = none)
    (rounds : Rounds (fun f o m => ¬ f.NeedsRerun cfg o m ∧ f.AttachesLive cfg m) cfg o m l sh) :
    ShowsStored (refreshRepairSessionSummaries cfg o l other) (refreshRepairSessions cfg o m l sh) ↔
      ∀ (n : ℕ) (s : Session), l[n]? = some s → Focus.Mirrored ⟨sh, s⟩ cfg (o n) := by
  induction l generalizing o m sh other with
  | nil =>
      refine iff_of_true ⟨rfl, ?_⟩ fun _ _ present => nomatch present
      simp only [shown, refreshRepairSessionSummaries, refreshRepairSessions, beside.status,
        beside.summary]
  | cons s rest ih =>
      obtain ⟨⟨unneeded, live⟩, later⟩ := rounds
      have mirrored := fun first => mirrored_round (f := ⟨sh, s⟩) beside first unneeded
      have differing := fun first => differing_round (f := ⟨sh, s⟩) beside first unneeded live
      unfold refreshRepairSessions at quiet ⊢
      unfold refreshRepairSessionSummaries
      generalize Focus.refreshSession ⟨sh, s⟩ cfg (o 0) (m 0) = full at *
      generalize Focus.refreshSessionSummary ⟨other, s⟩ cfg (o 0) = compact at *
      obtain ⟨_ | e, f⟩ := full
      swap
      · exact nomatch quiet
      dsimp only at quiet mirrored differing ⊢
      by_cases mirrors : Focus.Mirrored ⟨sh, s⟩ cfg (o 0)
      · obtain ⟨calm, status, beside, tasks, path⟩ := mirrored rfl mirrors
        obtain ⟨e, g⟩ := compact
        obtain rfl : e = none := calm
        have rest_shown := ih (o ∘ Nat.succ) (m ∘ Nat.succ) f.toShared g.toShared beside quiet
          (later rfl)
        dsimp only
        rw [showsStored_cons, rest_shown]
        refine ⟨fun both n t present => ?_, fun all => ⟨status, fun n t present => ?_⟩⟩
        · cases n with
          | zero =>
              obtain rfl := Option.some.inj present
              exact mirrors
          | succ n => exact (mirrored_iff tasks path t _).mp (both.2 n t present)
        · exact (mirrored_iff tasks path t _).mpr (all (n + 1) t present)
      · refine iff_of_false (fun stored => ?_) fun all => mirrors (all 0 s rfl)
        have differs := differing rfl mirrors
        obtain ⟨_ | e, g⟩ := compact
        · dsimp only at stored
          exact differs ((showsStored_cons ..).mp stored).1
        · exact nomatch stored.1

end Run

namespace State
variable (st : State) (cfg : Config) (o : ℕ → Outcome) (m : ℕ → Moment)

/-- What the full refresh stores. -/
def stored : List SessionStatus × CiTaskStatus × Option String :=
  shown (st.refresh cfg o m).2.sessions (st.refresh cfg o m).2.toShared

/-- What the compact refresh shows. -/
def summaries : List SessionStatus × CiTaskStatus × Option String :=
  shown (st.refreshSummaries cfg o).2.sessions (st.refreshSummaries cfg o).2.toShared

/-- The compact refresh shows of a record what the full one stores. -/
def SummariesAgree : Prop :=
  (st.refreshSummaries cfg o).1 = none ∧ st.summaries cfg o = st.stored cfg o m

/-- The full refresh runs no gate. -/
def RunsNoGate : Prop :=
  cfg.taskManager = true →
    Rounds (fun f o m => ¬ f.NeedsRerun cfg o m) cfg o m st.sessions st.toShared

/-- The repair tasks that retries leave the sessions with are under way. -/
def RetriesLive : Prop :=
  cfg.taskManager = true →
    Rounds (fun f _ m => f.AttachesLive cfg m) cfg o m st.sessions st.toShared

end State

theorem summariesAgree_iff (st : State) (cfg : Config) (o : ℕ → Outcome) (m : ℕ → Moment)
    (quiet : (st.refresh cfg o m).1 = none)
    (unneeded : st.RunsNoGate cfg o m) (live : st.RetriesLive cfg o m) :
    st.SummariesAgree cfg o m ↔ cfg.taskManager = false ∨
      ∀ (n : ℕ) (s : Session), st.sessions[n]? = some s →
        Focus.Mirrored ⟨st.toShared, s⟩ cfg (o n) := by
  cases manager : cfg.taskManager with
  | false =>
      unfold State.SummariesAgree State.summaries State.stored State.refreshSummaries State.refresh
      simp [manager]
  | true =>
      rw [refresh_of_manager manager] at quiet
      have stored := summaries_shown st.sessions o m st.toShared st.toShared ⟨rfl, rfl, rfl⟩ quiet
        (rounds_and st.sessions o m st.toShared (unneeded manager) (live manager))
      rw [or_iff_right nofun, ← stored, State.SummariesAgree,
        State.stored, State.summaries, refresh_of_manager manager, State.refreshSummaries,
        if_neg (not_not.mpr manager)]
      exact Iff.rfl

/-- A session that has passed, and whose task has been cancelled since. -/
def cancelledSincePassed : State where
  record := { status := .success, workspacePath := some "/w", summary := some "passed" }
  tasks := [.cancelled]
  sent := [true]
  sessions := [{ status := .green, repoTaskId := some 0 }]

/-- A session whose completed task has left a failing result. -/
def failingResult : State where
  record := { status := .failed, workspacePath := some "/w" }
  tasks := [.completed]
  sent := []
  sessions := [{ status := .repairing, repoTaskId := some 0 }]

/-- The handler answers with a failing result, which the saved reviews excuse. -/
def excusedOutcome : Outcome where
  taskResult := .ok (some { status := "failed", passed := false, summary := "2 mutants survive" })
  grant := some "every survivor is equivalent"

theorem summariesAgree_live :
    failingResult.SummariesAgree {} (fun _ => { excusedOutcome with grant := none })
      (fun _ => {}) := by
  refine (summariesAgree_iff failingResult _ _ _ rfl (fun _ => ⟨?_, fun _ => trivial⟩)
    fun _ => ⟨?_, fun _ => trivial⟩).mpr (.inr ?_)
  · rintro ⟨_, _, answered, _⟩
    exact nomatch answered
  · rintro ⟨asked, _⟩
    exact nomatch asked
  · rintro n s present
    match n with
    | 0 =>
      obtain rfl := Option.some.inj present
      refine ⟨fun retrying => (nomatch retrying.1), fun task found => ?_⟩
      obtain rfl := Option.some.inj found
      exact .inr rfl
    | n + 1 => exact nomatch present

/-- Without a rerun, a session that has passed is shown as failed, and an excused one too. -/
theorem passedSessions_shownFailed :
    (cancelledSincePassed.refresh {} (fun _ => {}) fun _ => {}).1 = none ∧
      cancelledSincePassed.RunsNoGate {} (fun _ => {}) (fun _ => {}) ∧
      cancelledSincePassed.stored {} (fun _ => {}) (fun _ => {}) =
        ([.green], .success, some "passed") ∧
      cancelledSincePassed.summaries {} (fun _ => {}) =
        ([.repairFailed], .success, some "passed") ∧
    (failingResult.refresh {} (fun _ => excusedOutcome) fun _ => {}).1 = none ∧
      failingResult.RunsNoGate {} (fun _ => excusedOutcome) (fun _ => {}) ∧
      failingResult.stored {} (fun _ => excusedOutcome) (fun _ => {}) =
        ([.passedWithEquivalentMutants], .success, some "every survivor is equivalent") ∧
      failingResult.summaries {} (fun _ => excusedOutcome) =
        ([.rerunFailed], .failed, some "2 mutants survive") := by
  refine ⟨rfl, fun _ => ⟨?_, fun _ => trivial⟩, rfl, rfl, rfl, fun _ => ⟨?_, fun _ => trivial⟩, rfl,
    rfl⟩
  · rintro ⟨cancelled, _⟩
    exact nomatch cancelled
  · rintro ⟨_, _, answered, _⟩
    exact nomatch answered

end Uta.Repair
