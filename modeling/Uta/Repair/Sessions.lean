/- The fix sessions of one CI record: their creation, their retry, and the refresh
that follows their repair tasks and reports their outcome. -/
import Mathlib.Data.List.Infix
import Mathlib.Data.List.Sort
import Uta.Ci.Service
import Uta.Lib.PyText
import Uta.Tasks.Rows

namespace Uta.Repair
open Uta.Lib Uta.Ci Uta.Tasks

/-! Sessions. -/

inductive SessionStatus where
  | created | creatingRepairTask | retryRequested | repairTaskCreated | repairing | repairCompleted
  | repairFailed | repairTaskCreateFailed
  | rerunRunning | rerunFailed | rerunUnavailable | repairStale
  | green | passedWithEquivalentMutants
  deriving DecidableEq, Repr

namespace SessionStatus

/-- `SESSION_PASSED_STATUSES`. -/
def Passed (s : SessionStatus) : Prop := s ∈ [green, passedWithEquivalentMutants]

/-- `_is_repair_session_terminal_failed`. -/
def TerminalFailed (s : SessionStatus) : Prop :=
  s ∈ [repairFailed, rerunFailed, rerunUnavailable, repairTaskCreateFailed]

/-- `failed_rerun_statuses`. -/
def FailedRerun (s : SessionStatus) : Prop := s ∈ [rerunFailed, rerunUnavailable, repairStale]

/-- Neither passed nor terminally failed. -/
def Live (s : SessionStatus) : Prop := ¬ s.Passed ∧ ¬ s.TerminalFailed

instance (s : SessionStatus) : Decidable s.Passed := inferInstanceAs (Decidable (_ ∈ _))
instance (s : SessionStatus) : Decidable s.TerminalFailed := inferInstanceAs (Decidable (_ ∈ _))
instance (s : SessionStatus) : Decidable s.FailedRerun := inferInstanceAs (Decidable (_ ∈ _))
instance (s : SessionStatus) : Decidable s.Live := inferInstanceAs (Decidable (_ ∧ _))

end SessionStatus

/-- `failed_repo_statuses`. -/
def FailedRepo (s : RepoStatus) : Prop := s ∈ [.failed, .cancelled, .stopped, .poisoned, .budgetExceeded]

/-- The statuses for which `_live_repo_task` finds the task. -/
def LiveRepo (s : RepoStatus) : Prop := s ∈ [.created, .queued, .running, .stopRequested]

instance (s : RepoStatus) : Decidable (FailedRepo s) := inferInstanceAs (Decidable (_ ∈ _))
instance (s : RepoStatus) : Decidable (LiveRepo s) := inferInstanceAs (Decidable (_ ∈ _))

/-- What `_repair_fingerprint` digests. -/
structure Fingerprint where
  rdcTaskId : Option String
  gitUrl : Option String
  branch : Option String
  commitId : Option String
  enforcementStatus : Option String
  enforcementCommand : Option (List String)
  failedTargets : List String
  deriving DecidableEq, Repr

/-- A session; its place in the list stands for its `sessionId`. `creating` is whether
`_repair_creation_threads` has a thread of it. -/
structure Session where
  status : SessionStatus
  fingerprint : Option Fingerprint := none
  repoTaskId : Option ℕ := none
  repoTaskHistory : List ℕ := []
  rerunStartedAt : Option ℕ := none
  terminalCallbackReportedKey : String := ""
  terminalCallbackReportedAt : Option ℕ := none
  alreadyGreenAfterRefresh : Bool := false
  creating : Bool := false
  deriving DecidableEq, Repr

abbrev Session.Live (s : Session) : Prop := s.status.Live

/-! The record. -/

/-- What is read of a `QualityGateResult`. -/
structure QualityGateResult where
  status : String
  passed : Bool
  command : List String := []
  summary : String := ""
  repairEligible : Option Bool := none
  toolingAvailable : Option Bool := none
  deriving DecidableEq, Repr

structure TriggerRequest where
  taskId : Option String := none
  gitUrl : Option String := none
  branch : Option String := none
  commitId : Option String := none
  deriving DecidableEq, Repr

/-- A CI record without its sessions. -/
structure Record where
  status : CiTaskStatus
  request : TriggerRequest := {}
  workspacePath : Option String := none
  summary : Option String := none
  enforcementResult : Option QualityGateResult := none
  /-- `callback_override` has `passed` true. -/
  callbackOverride : Bool := false
  gateOverride : Bool := false
  deriving DecidableEq, Repr

/-- What the service is configured with; `protocol` is whether there is one that can
report the record. -/
structure Config where
  taskManager : Bool := true
  handler : Bool := true
  runner : Bool := true
  protocol : Bool := true
  asyncRepairTaskCreation : Bool := true
  repairRateLimitPerTask : ℤ := 3
  rerunStaleSeconds : ℤ := 0
  deriving DecidableEq, Repr

/-- All that the sessions share: the record, the repair tasks by id, and the outcomes
sent to the protocol. -/
structure Shared where
  record : Record
  tasks : List RepoStatus
  sent : List Bool
  deriving DecidableEq, Repr

/-- The session that is being processed. -/
structure Focus extends Shared where
  session : Session
  deriving DecidableEq, Repr

inductive Raised where
  | value
  | other
  deriving DecidableEq, Repr

/-- What the creation of a repair task meets outside. -/
structure Creation where
  /-- `_refresh_repair_workspace` raises. -/
  refresh : Option Raised := none
  rulesUnavailable : Bool := false
  /-- `should_rerun_after_repair_workspace_refresh`. -/
  shouldRerun : Bool := false
  /-- `run_repair_preflight`: an exception, no result, or a result. -/
  preflight : Except Raised (Option QualityGateResult) := .ok none
  /-- The targets and the context cannot be made. -/
  context : Option Raised := none
  /-- `find_active_duplicate_repair_task_for_targets`. -/
  duplicateForTargets : Option ℕ := none
  createdStatus : RepoStatus := .queued
  /-- `find_active_duplicate_repair_task`. -/
  duplicate : Option ℕ := none
  /-- The tasks told to make way, unless that raises. -/
  preempted : Except Raised (List ℕ) := .ok []

/-- What the verdict on a repair task depends on outside. -/
structure Outcome where
  /-- `completed_task_enforcement_result`. -/
  taskResult : Except Raised (Option QualityGateResult) := .ok none
  /-- `runner.run`, unless it raises. -/
  rerun : Except Raised QualityGateResult := .error .other
  /-- The summary under which `_grant_equivalent_mutants` excuses a failure. -/
  grant : Option String := none

/-- What else a refresh meets: the clock, the rerun lock and the creation of tasks. -/
structure Moment where
  now : ℕ := 0
  lockAcquired : Bool := true
  creation : Creation := {}

namespace Focus
variable (f : Focus)

def setStatus (status : SessionStatus) : Focus := { f with session := { f.session with status } }

/-! Reports. -/

/-- `text in summary`. -/
def mentions (summary text : String) : Bool := decide (text.toList <:+: summary.toList)

def repairTerminalCallbackKey (passed : Bool) (summary : String) : String :=
  if passed then "success"
  else if mentions summary "repair_stale" then "repair_stale"
  else if mentions summary "rerun_unavailable" then "rerun_unavailable"
  else if mentions summary "repair_failed" then "repair_failed"
  else "failure"

/-- `_report_result`, where an operator's release makes every outcome a success. -/
def reportResult (cfg : Config) (passed : Bool) : Focus :=
  if cfg.protocol then { f with sent := f.sent ++ [passed || f.record.callbackOverride] } else f

/-- The session reports under the key. -/
def Due (s : Session) (key : String) : Prop :=
  s.terminalCallbackReportedKey ≠ key ∧
    (s.terminalCallbackReportedAt = none ∨ s.terminalCallbackReportedKey ≠ "" ∨ key = "repair_stale")

instance (s : Session) (key : String) : Decidable (Due s key) := inferInstanceAs (Decidable (_ ∧ _))

def reportRepairResultOnce (cfg : Config) (now : ℕ) (passed : Bool) (key : String) : Focus :=
  if Due f.session key then
    { f.reportResult cfg passed with
      session := { f.session with
        terminalCallbackReportedKey := key
        terminalCallbackReportedAt := some now } }
  else f

/-- `_apply_repair_enforcement_result`; `grant` is for a failure of a repair task. -/
def applyRepairEnforcementResult (cfg : Config) (now : ℕ) (result : QualityGateResult)
    (grant : Option String) : Focus :=
  match if result.passed then none else grant with
  | some summary =>
    Focus.reportRepairResultOnce
      { f with
        record := { f.record with
          enforcementResult := some result, gateOverride := true, status := .success, summary }
        session := { f.session with status := .passedWithEquivalentMutants } }
      cfg now true "passed_with_equivalent_mutants"
  | none =>
    Focus.reportRepairResultOnce
      { f with
        record := { f.record with
          enforcementResult := some result, gateOverride := false, summary := some result.summary
          status := if result.passed then .success else .failed }
        session := { f.session with status := if result.passed then .green else .rerunFailed } }
      cfg now result.passed (repairTerminalCallbackKey result.passed result.summary)

/-! Repair tasks. -/

/-- `get_task`. -/
def task? (id : Option ℕ) : Option RepoStatus := id.bind fun id => f.tasks[id]?

/-- `_live_repo_task` finds the task. -/
def LiveTask (id : Option ℕ) : Prop :=
  match f.task? id with
  | some s => LiveRepo s
  | none => False

instance (id : Option ℕ) : Decidable (f.LiveTask id) := by
  unfold LiveTask
  split <;> infer_instance

/-- Running tasks of the checkout are told to stop. -/
def preempt (ids : List ℕ) (tasks : List RepoStatus) : List RepoStatus :=
  tasks.mapIdx fun id s => if id ∈ ids ∧ s = .running then .stopRequested else s

/-- `_mark_repair_task_creation_started`. -/
def markRepairTaskCreationStarted : Focus := f.setStatus .creatingRepairTask

/-- `_start_deferred_repair_task_creation`. -/
def startDeferredRepairTaskCreation : Focus := { f with session := { f.session with creating := true } }

/-- The session gets a task of its own, or shares one that is under way. -/
def attachRepairTask (c : Creation) : Option Raised × Focus :=
  let attach (id : ℕ) (f : Focus) : Focus :=
    { f with session := { f.session with repoTaskId := some id, status := .repairTaskCreated } }
  match c.duplicateForTargets with
  | some id => (none, attach id f)
  | none =>
    let id := f.tasks.length
    match c.duplicate with
    | some other => (none, attach other { f with tasks := f.tasks ++ [.cancelled] })
    | none =>
      let f := attach id { f with tasks := f.tasks ++ [c.createdStatus] }
      match c.preempted with
      | .error e => (some e, f)
      | .ok ids => (none, { f with tasks := preempt ids f.tasks })

/-- The rest of `_create_repair_task`, once the workspace is known to need repair. -/
def prepareRepairTask (c : Creation) : Option Raised × Focus :=
  match c.context with
  | some e => (some e, f)
  | none => f.attachRepairTask c

/-- `_create_repair_task`. -/
def createRepairTask (cfg : Config) (now : ℕ) (c : Creation) : Option Raised × Focus :=
  match c.refresh with
  | some e => (some e, f)
  | none =>
    if c.rulesUnavailable then (none, f.setStatus .repairTaskCreateFailed)
    else if ¬ cfg.handler then (some .other, f)
    else if ¬ c.shouldRerun then f.prepareRepairTask c
    else
      let running : Focus :=
        { f with session := { f.session with status := .rerunRunning, rerunStartedAt := some now } }
      match c.preflight with
      | .error e => (some e, running)
      | .ok none => (some .value, running)
      | .ok (some result) =>
        if result.passed then
          let green := running.applyRepairEnforcementResult cfg now result none
          (none, { green with session := { green.session with alreadyGreenAfterRefresh := true } })
        else
          Focus.prepareRepairTask
            { running with
              record := { f.record with enforcementResult := some result, summary := result.summary }
              session := { running.session with status := .repairing } } c

/-- `_ensure_deferred_repair_task_creation`. -/
def ensureDeferredRepairTaskCreation (cfg : Config) : Focus :=
  if cfg.asyncRepairTaskCreation ∧ f.session.repoTaskId = none ∧
      f.session.alreadyGreenAfterRefresh = false ∧ f.session.status = .creatingRepairTask then
    f.startDeferredRepairTaskCreation
  else f

/-- The repair task is put away in the history. -/
def archiveRepairTask : Focus :=
  let history := match f.session.repoTaskId with
    | some id => if id ∈ f.session.repoTaskHistory then f.session.repoTaskHistory
      else f.session.repoTaskHistory ++ [id]
    | none => f.session.repoTaskHistory
  { f with session := { f.session with repoTaskId := none, repoTaskHistory := history } }

def materializeRetryRequest (cfg : Config) (now : ℕ) (c : Creation) : Option Raised × Focus :=
  if f.session.status ≠ .retryRequested then (none, f)
  else if ¬ cfg.taskManager ∨ f.record.workspacePath = none then (none, f)
  else if f.LiveTask f.session.repoTaskId then (none, f.setStatus .repairTaskCreated)
  else
    let f := f.archiveRepairTask
    if cfg.asyncRepairTaskCreation then
      (none, f.markRepairTaskCreationStarted.startDeferredRepairTaskCreation)
    else f.createRepairTask cfg now c

/-! The refresh. -/

/-- `_rerun_is_stale`. -/
def RerunIsStale (cfg : Config) (now : ℕ) (s : Session) : Prop :=
  match s.rerunStartedAt with
  | some started => 0 < cfg.rerunStaleSeconds ∧ cfg.rerunStaleSeconds < (now : ℤ) - started
  | none => False

instance (cfg : Config) (now : ℕ) (s : Session) : Decidable (RerunIsStale cfg now s) := by
  unfold RerunIsStale
  split <;> infer_instance

/-- The verdict on a session whose repair task is completed. -/
def judgeCompleted (cfg : Config) (o : Outcome) (m : Moment) : Option Raised × Focus :=
  match if cfg.handler then o.taskResult else .ok none with
  | .error e => (some e, f)
  | .ok (some result) => (none, f.applyRepairEnforcementResult cfg m.now result o.grant)
  | .ok none =>
    if f.session.status.FailedRerun then (none, f)
    else if f.session.status = .rerunRunning ∧ ¬ RerunIsStale cfg m.now f.session then (none, f)
    else if ¬ cfg.runner then
      (none, (f.setStatus .rerunUnavailable).reportRepairResultOnce cfg m.now false
        (repairTerminalCallbackKey false "repair session ended (rerun_unavailable)"))
    else if ¬ m.lockAcquired then (none, f)
    else
      let running : Focus :=
        { f with session := { f.session with status := .rerunRunning, rerunStartedAt := some m.now } }
      match o.rerun with
      | .error e => (some e, running)
      | .ok result => (none, running.applyRepairEnforcementResult cfg m.now result o.grant)

/-- The repair task is under way again after the session was given up. -/
def revive (task : RepoStatus) : Focus :=
  if f.session.status = .repairFailed ∧ ¬ FailedRepo task then
    f.setStatus (if task = .completed then .repairCompleted else .repairing)
  else f

/-- What a refresh makes of a session, given the status of its repair task. -/
def followRepairTask (cfg : Config) (o : Outcome) (m : Moment) (task : RepoStatus) :
    Option Raised × Focus :=
  let f := f.revive task
  if f.session.status.Passed then (none, f)
  else if FailedRepo task then
    (none, (f.setStatus .repairFailed).reportRepairResultOnce cfg m.now false
      (repairTerminalCallbackKey false "repair session ended (repair_failed)"))
  else if task ≠ .completed then (none, f)
  else f.judgeCompleted cfg o m

/-- One round of the loop of `_refresh_repair_sessions`. -/
def refreshSession (cfg : Config) (o : Outcome) (m : Moment) : Option Raised × Focus :=
  match (f.ensureDeferredRepairTaskCreation cfg).materializeRetryRequest cfg m.now m.creation with
  | (some e, f) => (some e, f)
  | (none, f) =>
    match f.session.repoTaskId with
    | none => (none, f)
    | some id =>
      match f.tasks[id]? with
      | none => (some .other, f)
      | some task => f.followRepairTask cfg o m task

end Focus

/-- `_refresh_repair_sessions`, over the sessions that are left. -/
def refreshRepairSessions (cfg : Config) : (ℕ → Outcome) → (ℕ → Moment) → List Session → Shared →
    Option Raised × List Session × Shared
  | _, _, [], sh => (none, [], sh)
  | o, m, s :: rest, sh =>
    match Focus.refreshSession ⟨sh, s⟩ cfg (o 0) (m 0) with
    | (some e, f) => (some e, f.session :: rest, f.toShared)
    | (none, f) =>
      let (e, rest, sh) := refreshRepairSessions cfg (o ∘ Nat.succ) (m ∘ Nat.succ) rest f.toShared
      (e, f.session :: rest, sh)

/-! Calls. -/

/-- A CI record with its sessions. -/
structure State extends Shared where
  sessions : List Session
  deriving DecidableEq, Repr

namespace State
variable (st : State)

/-- A session is processed and put back in its place. -/
def store (n : ℕ) (f : Focus) : State := ⟨f.toShared, st.sessions.set n f.session⟩

/-- `if self._service.task_manager: self._refresh_repair_sessions(record)`. -/
def refresh (cfg : Config) (o : ℕ → Outcome) (m : ℕ → Moment) : Option Raised × State :=
  if ¬ cfg.taskManager then (none, st)
  else
    let (e, sessions, sh) := refreshRepairSessions cfg o m st.sessions st.toShared
    (e, ⟨sh, sessions⟩)

def missingPluginSummaryPrefix : String := "Missing UTA test-enforcement plugin/profile"

/-- `text or other or ""`. -/
def summaryOf (r : QualityGateResult) (record : Record) : String :=
  if r.summary = "" then record.summary.getD "" else r.summary

/-- `_is_missing_plugin_or_profile`. -/
def MissingPluginOrProfile (record : Record) : Prop :=
  match record.enforcementResult with
  | none => False
  | some r => r.toolingAvailable = some false ∨
    (r.status = "missing_evidence" ∧
      missingPluginSummaryPrefix.toList <+: (summaryOf r record).toList)

instance (record : Record) : Decidable (MissingPluginOrProfile record) := by
  unfold MissingPluginOrProfile
  split <;> infer_instance

/-- `can_create_fix_session`. -/
def CanCreateFixSession (record : Record) : Prop :=
  record.status = .failed ∧ record.enforcementResult.bind QualityGateResult.repairEligible ≠ some false ∧
    ¬ MissingPluginOrProfile record

instance (record : Record) : Decidable (CanCreateFixSession record) :=
  inferInstanceAs (Decidable (_ ∧ _))

/-- `_repair_fingerprint`. -/
def repairFingerprint (record : Record) (targetIds : List String) : Fingerprint where
  rdcTaskId := record.request.taskId
  gitUrl := record.request.gitUrl
  branch := record.request.branch
  commitId := record.request.commitId
  enforcementStatus := record.enforcementResult.map QualityGateResult.status
  enforcementCommand := record.enforcementResult.map QualityGateResult.command
  failedTargets := targetIds.insertionSort (· ≤ ·)

/-- `_find_session_by_fingerprint`. -/
def findSessionByFingerprint (fingerprint : Fingerprint) : Option ℕ :=
  st.sessions.findIdx? fun s => s.fingerprint = some fingerprint

/-- `_cancel_terminal_failed_live_task`. -/
def cancelTerminalFailedLiveTask (cfg : Config) (s : Session) : State :=
  match s.repoTaskId with
  | none => st
  | some id =>
    if cfg.taskManager ∧ Focus.LiveTask ⟨st.toShared, s⟩ (some id) then
      { st with tasks := st.tasks.set id .cancelled }
    else st

/-- What a request gets: a session, by its place, or a refusal. -/
inductive Answer where
  | session (n : ℕ)
  | unsupported
  | rateLimited
  | raised (e : Raised)
  deriving DecidableEq, Repr

/-- A new session and, unless that is left to a thread, its repair task. -/
def openSession (cfg : Config) (now : ℕ) (c : Creation) (fingerprint : Fingerprint) : Answer × State :=
  let n := st.sessions.length
  let session : Session := { status := .created, fingerprint := some fingerprint }
  let opened : State := { st with sessions := st.sessions ++ [session] }
  let f : Focus := ⟨st.toShared, session⟩
  if ¬ cfg.taskManager ∨ st.record.workspacePath = none then (.session n, opened)
  else if cfg.asyncRepairTaskCreation then
    (.session n, opened.store n f.markRepairTaskCreationStarted.startDeferredRepairTaskCreation)
  else
    match f.createRepairTask cfg now c with
    | (none, f) => (.session n, opened.store n f)
    | (some .value, f) => (.unsupported, ⟨f.toShared, st.sessions⟩)
    | (some .other, f) => (.raised .other, opened.store n f)

/-- The rest of `create_fix_session`, where no session is given back; `invalid` is what
the validation of the repair context raises. -/
def createSession (cfg : Config) (fingerprint : Fingerprint) (now : ℕ) (invalid : Option Raised)
    (c : Creation) : Answer × State :=
  if 0 ≤ cfg.repairRateLimitPerTask ∧ cfg.repairRateLimitPerTask ≤ st.sessions.length then
    (.rateLimited, st)
  else
    match if cfg.taskManager ∧ st.record.workspacePath ≠ none then invalid else none with
    | some .value => (.unsupported, st)
    | some .other => (.raised .other, st)
    | none => st.openSession cfg now c fingerprint

/-- `create_fix_session` after its refresh. -/
def admitRequest (cfg : Config) (targetIds : List String) (now : ℕ) (invalid : Option Raised)
    (c : Creation) : Answer × State :=
  let fingerprint := repairFingerprint st.record targetIds
  match st.findSessionByFingerprint fingerprint with
  | none => st.createSession cfg fingerprint now invalid c
  | some n =>
    match st.sessions[n]? with
    | none => st.createSession cfg fingerprint now invalid c
    | some existing =>
      if existing.status.TerminalFailed then
        (st.cancelTerminalFailedLiveTask cfg existing).createSession cfg fingerprint now invalid c
      else (.session n, st)

/-- `create_fix_session`. -/
def createFixSession (cfg : Config) (targetIds : List String) (o : ℕ → Outcome) (m : ℕ → Moment)
    (now : ℕ) (invalid : Option Raised) (c : Creation) : Answer × State :=
  if ¬ CanCreateFixSession st.record then (.unsupported, st)
  else
    match st.refresh cfg o m with
    | (some e, st) => (.raised e, st)
    | (none, st) => st.admitRequest cfg targetIds now invalid c

/-- `retry_session`, and `materialize_retry_request` for the same session. -/
def retrySession (cfg : Config) (n now : ℕ) (c : Creation) : State :=
  match st.sessions[n]? with
  | none => st
  | some s =>
    st.store n (Focus.materializeRetryRequest
      ⟨st.toShared, { s with status := .retryRequested }⟩ cfg now c).2

/-- `_run_deferred_repair_task_creation`, in the thread of the session, if it has one. -/
def runDeferredRepairTaskCreation (cfg : Config) (n now : ℕ) (c : Creation) : State :=
  match st.sessions[n]? with
  | none => st
  | some s =>
    if ¬ s.creating then st
    else
      let f : Focus := ⟨st.toShared, { s with creating := false }⟩
      if s.repoTaskId ≠ none ∨ s.alreadyGreenAfterRefresh then st.store n f
      else
        match f.markRepairTaskCreationStarted.createRepairTask cfg now c with
        | (none, f) => st.store n f
        | (some _, f) => st.store n (f.setStatus .repairTaskCreateFailed)

end State

/-- What happens to a record: a request, a retry, a refresh, a thread that creates a
repair task, or a change of a repair task. -/
inductive Step where
  | request (targetIds : List String) (outcomes : ℕ → Outcome) (moments : ℕ → Moment) (now : ℕ)
      (invalid : Option Raised) (creation : Creation)
  | retry (n now : ℕ) (creation : Creation)
  | refresh (outcomes : ℕ → Outcome) (moments : ℕ → Moment)
  | create (n now : ℕ) (creation : Creation)
  | task (id : ℕ) (status : RepoStatus)

def State.step (cfg : Config) (st : State) : Step → State
  | .request targetIds o m now invalid c => (st.createFixSession cfg targetIds o m now invalid c).2
  | .retry n now c => st.retrySession cfg n now c
  | .refresh o m => (st.refresh cfg o m).2
  | .create n now c => st.runDeferredRepairTaskCreation cfg n now c
  | .task id status => { st with tasks := st.tasks.set id status }

/-- A record that has no sessions yet. -/
def State.fresh (record : Record) (tasks : List RepoStatus) : State := ⟨⟨record, tasks, []⟩, []⟩

end Uta.Repair
