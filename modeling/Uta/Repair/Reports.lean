/- When the outcome that a refresh has reported last is that of the record, and what
a second refresh does. -/
import Uta.Repair.Sessions

namespace Uta.Repair
open Uta.Lib Uta.Ci Uta.Tasks

/-- What a session reports in its round, and whether it writes `record.status` first. -/
structure Report where
  passed : Bool
  key : String
  decides : Bool
  deriving DecidableEq, Repr

/-- The report on an enforcement result. -/
def judgedReport (result : QualityGateResult) (grant : Option String) : Report :=
  match if result.passed then none else grant with
  | some _ => ⟨true, "passed_with_equivalent_mutants", true⟩
  | none => ⟨result.passed, Focus.repairTerminalCallbackKey result.passed result.summary, true⟩

namespace Focus
variable (f : Focus)

/-- The report of a session whose repair task is completed. -/
def completedReport (cfg : Config) (o : Outcome) (m : Moment) : Option Report :=
  match if cfg.handler then o.taskResult else .ok none with
  | .error _ => none
  | .ok (some result) => some (judgedReport result o.grant)
  | .ok none =>
    if f.session.status.FailedRerun then none
    else if f.session.status = .rerunRunning ∧ ¬ RerunIsStale cfg m.now f.session then none
    else if ¬ cfg.runner then some ⟨false, "rerun_unavailable", false⟩
    else if ¬ m.lockAcquired then none
    else
      match o.rerun with
      | .error _ => none
      | .ok result => some (judgedReport result o.grant)

/-- The report of a session with a repair task. -/
def taskReport (cfg : Config) (o : Outcome) (m : Moment) (task : RepoStatus) : Option Report :=
  if f.session.status.Passed then none
  else if FailedRepo task then some ⟨false, "repair_failed", false⟩
  else if task ≠ .completed then none
  else (f.revive task).completedReport cfg o m

/-- The session asks for a new repair task, and gets it within the refresh. -/
def Recreates (cfg : Config) : Prop :=
  f.session.status = .retryRequested ∧ cfg.taskManager ∧ f.record.workspacePath ≠ none ∧
    ¬ f.LiveTask f.session.repoTaskId ∧ cfg.asyncRepairTaskCreation = false

instance (cfg : Config) : Decidable (f.Recreates cfg) := inferInstanceAs (Decidable (_ ∧ _))

/-- The result of a rerun before the creation that makes it needless. -/
def greenPreflight (cfg : Config) (c : Creation) : Option QualityGateResult :=
  if c.refresh = none ∧ ¬ c.rulesUnavailable ∧ cfg.handler ∧ c.shouldRerun then
    match c.preflight with
    | .ok (some result) => if result.passed then some result else none
    | _ => none
  else none

/-- The session as the refresh finds it, its retry request granted. -/
def found (cfg : Config) (m : Moment) : Option Raised × Focus :=
  (f.ensureDeferredRepairTaskCreation cfg).materializeRetryRequest cfg m.now m.creation

/-- The one report of a session's round. -/
def report? (cfg : Config) (o : Outcome) (m : Moment) : Option Report :=
  if f.Recreates cfg ∧ greenPreflight cfg m.creation ≠ none then some ⟨true, "success", true⟩
  else
    match f.found cfg m with
    | (some _, _) => none
    | (none, f) =>
      match f.task? f.session.repoTaskId with
      | none => none
      | some task => f.taskReport cfg o m task

end Focus

/-! Conditions. -/

/-- The rounds of a refresh, each in the state in which it starts. -/
def Rounds (P : Focus → Outcome → Moment → Prop) (cfg : Config) :
    (ℕ → Outcome) → (ℕ → Moment) → List Session → Shared → Prop
  | _, _, [], _ => True
  | o, m, s :: rest, sh =>
    P ⟨sh, s⟩ (o 0) (m 0) ∧
      ((Focus.refreshSession ⟨sh, s⟩ cfg (o 0) (m 0)).1 = none →
        Rounds P cfg (o ∘ Nat.succ) (m ∘ Nat.succ) rest
          (Focus.refreshSession ⟨sh, s⟩ cfg (o 0) (m 0)).2.toShared)

instance decidableRounds (P : Focus → Outcome → Moment → Prop) [∀ f o m, Decidable (P f o m)]
    (cfg : Config) : ∀ o m l sh, Decidable (Rounds P cfg o m l sh)
  | _, _, [], _ => inferInstanceAs (Decidable True)
  | o, m, s :: rest, sh =>
    have := decidableRounds P cfg (o ∘ Nat.succ) (m ∘ Nat.succ) rest
      (Focus.refreshSession ⟨sh, s⟩ cfg (o 0) (m 0)).2.toShared
    inferInstanceAs (Decidable (_ ∧ (_ → _)))

/-- A report without a verdict is the outcome of the record, and once there was a
report no verdict that goes unreported changes that outcome. -/
def Concords (start : ℕ) (f : Focus) (r : Report) : Prop :=
  if Focus.Due f.session r.key then
    r.decides = true ∨ (r.passed = true ↔ f.record.status = .success)
  else start < f.sent.length → r.decides = true → (r.passed = true ↔ f.record.status = .success)

instance (start : ℕ) (f : Focus) (r : Report) : Decidable (Concords start f r) :=
  inferInstanceAs (Decidable (ite ..))

def RoundConcords (cfg : Config) (start : ℕ) (f : Focus) (o : Outcome) (m : Moment) : Prop :=
  ∀ r ∈ f.report? cfg o m, Concords start f r

instance (cfg : Config) (start : ℕ) (f : Focus) (o : Outcome) (m : Moment) :
    Decidable (RoundConcords cfg start f o m) :=
  inferInstanceAs (Decidable (∀ r ∈ f.report? cfg o m, Concords start f r))

/-- Every round concords, and no operator has released the record. -/
def Concordant (cfg : Config) (st : State) : Step → Prop
  | .refresh o m =>
    cfg.protocol = true → cfg.taskManager = true →
      st.record.callbackOverride = false ∧
        Rounds (RoundConcords cfg st.sent.length) cfg o m st.sessions st.toShared
  | _ => True

instance (cfg : Config) (st : State) (step : Step) : Decidable (Concordant cfg st step) := by
  cases step <;> (unfold Concordant; infer_instance)

def succeeded (s : CiTaskStatus) : Bool := decide (s = .success)

/-- If a refresh has reported something, the outcome it has reported last is that of
the record. -/
def Agrees (cfg : Config) (st : State) : Step → Prop
  | .refresh o m =>
    st.sent.length < (st.refresh cfg o m).2.sent.length →
      (st.refresh cfg o m).2.sent.getLast? = some (succeeded (st.refresh cfg o m).2.record.status)
  | _ => True

instance (cfg : Config) (st : State) (step : Step) : Decidable (Agrees cfg st step) := by
  cases step <;> (unfold Agrees; infer_instance)

/-! The report of a round. -/

section Round
variable {f : Focus} {cfg : Config} {o : Outcome} {m : Moment}

/-- The outcomes sent after a report. -/
def Focus.sentWith (f : Focus) (cfg : Config) (passed : Bool) (key : String) : List Bool :=
  if Focus.Due f.session key ∧ cfg.protocol = true then f.sent ++ [passed || f.record.callbackOverride]
  else f.sent

theorem report_sent (now : ℕ) (passed : Bool) (key : String) :
    (f.reportRepairResultOnce cfg now passed key).sent = f.sentWith cfg passed key := by
  unfold Focus.reportRepairResultOnce Focus.sentWith Focus.reportResult
  by_cases due : Focus.Due f.session key
  · rw [if_pos due]
    cases cfg.protocol <;> simp [due]
  · rw [if_neg due, if_neg fun both => due both.1]

theorem report_record (now : ℕ) (passed : Bool) (key : String) :
    (f.reportRepairResultOnce cfg now passed key).record = f.record := by
  unfold Focus.reportRepairResultOnce Focus.reportResult
  split
  · split <;> rfl
  · rfl

/-- The outcomes sent in a round, and the outcome of the record then, from its report. -/
def Focus.sentBy (f : Focus) (cfg : Config) : Option Report → List Bool
  | none => f.sent
  | some r => f.sentWith cfg r.passed r.key

def Focus.statusBy (f : Focus) : Option Report → CiTaskStatus
  | none => f.record.status
  | some r => if r.decides then (if r.passed then .success else .failed) else f.record.status

/-- A round sends its report if it is due, and changes the outcome of the record if
the report is a verdict. -/
structure Obeys (cfg : Config) (f g : Focus) (r : Option Report) : Prop where
  sent : g.sent = f.sentBy cfg r
  status : g.record.status = f.statusBy r
  callbackOverride : g.record.callbackOverride = f.record.callbackOverride

variable (cfg) in
theorem apply_obeys (now : ℕ) (result : QualityGateResult) (grant : Option String) :
    Obeys cfg f (f.applyRepairEnforcementResult cfg now result grant)
      (some (judgedReport result grant)) := by
  unfold Focus.applyRepairEnforcementResult judgedReport
  cases excused : if result.passed then none else grant with
  | some summary =>
      refine ⟨report_sent .., congrArg Record.status (report_record ..), ?_⟩
      dsimp only
      rw [report_record]
  | none =>
      refine ⟨report_sent .., congrArg Record.status (report_record ..), ?_⟩
      dsimp only
      rw [report_record]

theorem report_repoTaskId (now : ℕ) (passed : Bool) (key : String) :
    (f.reportRepairResultOnce cfg now passed key).session.repoTaskId = f.session.repoTaskId := by
  unfold Focus.reportRepairResultOnce
  split <;> rfl

theorem apply_repoTaskId (now : ℕ) (result : QualityGateResult) (grant : Option String) :
    (f.applyRepairEnforcementResult cfg now result grant).session.repoTaskId = f.session.repoTaskId := by
  unfold Focus.applyRepairEnforcementResult
  split <;> exact report_repoTaskId ..

theorem report_settles (now : ℕ) (passed : Bool) (key : String) :
    ¬ Focus.Due (f.reportRepairResultOnce cfg now passed key).session key := by
  unfold Focus.reportRepairResultOnce
  split
  · exact fun due => due.1 rfl
  next quiet => exact quiet

theorem report_status (now : ℕ) (passed : Bool) (key : String) :
    (f.reportRepairResultOnce cfg now passed key).session.status = f.session.status := by
  unfold Focus.reportRepairResultOnce
  split <;> rfl

variable (cfg) in
/-- A verdict leaves the session passed, or failed and reported. -/
theorem apply_settles (now : ℕ) (result : QualityGateResult) (grant : Option String) :
    (f.applyRepairEnforcementResult cfg now result grant).session.status.Passed ∨
      result.passed = false ∧ grant = none ∧
        (f.applyRepairEnforcementResult cfg now result grant).session.status = .rerunFailed ∧
        ¬ Focus.Due (f.applyRepairEnforcementResult cfg now result grant).session
          (Focus.repairTerminalCallbackKey false result.summary) := by
  unfold Focus.applyRepairEnforcementResult
  cases passed : result.passed with
  | true =>
      have green : SessionStatus.green.Passed := by decide
      left
      simp only [if_true]
      rwa [report_status]
  | false =>
      cases grant with
      | some summary =>
          have excused : SessionStatus.passedWithEquivalentMutants.Passed := by decide
          left
          simp only [Bool.false_eq_true, if_false]
          rwa [report_status]
      | none =>
          right
          simp only [Bool.false_eq_true, if_false]
          exact ⟨trivial, trivial, report_status .., report_settles _ _ _⟩

/-- A report without a verdict. -/
theorem failure_obeys (now : ℕ) (status : SessionStatus) {summary key : String}
    (keyed : Focus.repairTerminalCallbackKey false summary = key) :
    Obeys cfg f ((f.setStatus status).reportRepairResultOnce cfg now false
      (Focus.repairTerminalCallbackKey false summary)) (some ⟨false, key, false⟩) := by
  rw [keyed]
  exact ⟨report_sent .., congrArg Record.status (report_record ..),
    congrArg Record.callbackOverride (report_record ..)⟩

/-- The fields that decide over a report. -/
structure Alike (f g : Focus) : Prop where
  sent : g.sent = f.sent
  status : g.record.status = f.record.status
  callbackOverride : g.record.callbackOverride = f.record.callbackOverride
  key : g.session.terminalCallbackReportedKey = f.session.terminalCallbackReportedKey
  at_ : g.session.terminalCallbackReportedAt = f.session.terminalCallbackReportedAt

theorem Alike.due {g : Focus} (alike : Alike f g) (key : String) :
    Focus.Due g.session key ↔ Focus.Due f.session key := by
  unfold Focus.Due
  rw [alike.key, alike.at_]

theorem Alike.obeys {g h : Focus} {r : Option Report} (alike : Alike f g) (obeys : Obeys cfg g h r) :
    Obeys cfg f h r := by
  cases r with
  | none =>
      exact ⟨obeys.sent.trans alike.sent, obeys.status.trans alike.status,
        obeys.callbackOverride.trans alike.callbackOverride⟩
  | some r =>
      refine ⟨obeys.sent.trans ?_, obeys.status.trans ?_,
        obeys.callbackOverride.trans alike.callbackOverride⟩
      swap
      · unfold Focus.statusBy
        rw [alike.status]
      unfold Focus.sentBy Focus.sentWith
      rw [alike.sent, alike.callbackOverride]
      exact if_congr (and_congr_left fun _ => alike.due r.key) rfl rfl

theorem Alike.refl (f : Focus) : Alike f f := ⟨rfl, rfl, rfl, rfl, rfl⟩

theorem Alike.trans {g h : Focus} (first : Alike f g) (second : Alike g h) : Alike f h :=
  ⟨second.sent.trans first.sent, second.status.trans first.status,
    second.callbackOverride.trans first.callbackOverride, second.key.trans first.key,
    second.at_.trans first.at_⟩

theorem Alike.silent {g : Focus} (alike : Alike f g) : Obeys cfg f g none :=
  ⟨alike.sent, alike.status, alike.callbackOverride⟩

theorem revive_alike (task : RepoStatus) : Alike f (f.revive task) := by
  unfold Focus.revive
  split <;> exact ⟨rfl, rfl, rfl, rfl, rfl⟩

theorem judgeCompleted_obeys :
    Obeys cfg f (f.judgeCompleted cfg o m).2 (f.completedReport cfg o m) := by
  unfold Focus.judgeCompleted Focus.completedReport
  generalize (if cfg.handler then o.taskResult else Except.ok none) = answer
  rcases answer with e | _ | result
  · exact ⟨rfl, rfl, rfl⟩
  · dsimp only
    split
    · exact ⟨rfl, rfl, rfl⟩
    · split
      · exact ⟨rfl, rfl, rfl⟩
      · split
        · exact failure_obeys _ _ (by decide)
        · split
          · exact ⟨rfl, rfl, rfl⟩
          · cases o.rerun with
            | error e => exact ⟨rfl, rfl, rfl⟩
            | ok result =>
                dsimp only
                refine Alike.obeys ?_ (apply_obeys ..)
                exact ⟨rfl, rfl, rfl, rfl, rfl⟩
  · exact apply_obeys ..

theorem revive_passed (task : RepoStatus) :
    (f.revive task).session.status.Passed ↔ f.session.status.Passed := by
  unfold Focus.revive
  split
  next given =>
    rw [given.1]
    simp only [Focus.setStatus]
    split <;> decide
  next => exact Iff.rfl

theorem followRepairTask_obeys (task : RepoStatus) :
    Obeys cfg f (f.followRepairTask cfg o m task).2 (f.taskReport cfg o m task) := by
  have alike := revive_alike (f := f) task
  unfold Focus.followRepairTask Focus.taskReport
  dsimp only
  simp only [revive_passed]
  split
  · exact alike.silent
  · split
    · exact alike.obeys (failure_obeys _ _ (by decide))
    · split
      · exact alike.silent
      · exact alike.obeys judgeCompleted_obeys

theorem attachRepairTask_alike (c : Creation) : Alike f (f.attachRepairTask c).2 := by
  unfold Focus.attachRepairTask
  dsimp only
  split
  · exact ⟨rfl, rfl, rfl, rfl, rfl⟩
  · split
    · exact ⟨rfl, rfl, rfl, rfl, rfl⟩
    · split <;> exact ⟨rfl, rfl, rfl, rfl, rfl⟩

theorem prepareRepairTask_alike (c : Creation) : Alike f (f.prepareRepairTask c).2 := by
  unfold Focus.prepareRepairTask
  split
  · exact .refl f
  · exact attachRepairTask_alike c

variable (cfg) in
/-- A creation reports only that no repair is needed. -/
theorem createRepairTask_obeys (now : ℕ) (c : Creation) :
    match Focus.greenPreflight cfg c with
    | some _ => (f.createRepairTask cfg now c).1 = none ∧
        (f.createRepairTask cfg now c).2.session.repoTaskId = f.session.repoTaskId ∧
        Obeys cfg f (f.createRepairTask cfg now c).2 (some ⟨true, "success", true⟩)
    | none => Alike f (f.createRepairTask cfg now c).2 := by
  unfold Focus.greenPreflight Focus.createRepairTask
  cases refreshed : c.refresh with
  | some e => exact .refl f
  | none =>
      by_cases rules : c.rulesUnavailable
      · simp only [rules, not_true_eq_false, false_and, and_false, if_false, if_true]
        exact ⟨rfl, rfl, rfl, rfl, rfl⟩
      · by_cases handler : cfg.handler
        · by_cases rerun : c.shouldRerun
          · simp only [rules, handler, rerun, Bool.false_eq_true, not_false_eq_true, not_true_eq_false,
              and_self, if_true, if_false]
            rcases c.preflight with e | _ | result
            · exact ⟨rfl, rfl, rfl, rfl, rfl⟩
            · exact ⟨rfl, rfl, rfl, rfl, rfl⟩
            · dsimp only
              by_cases passed : result.passed = true
              · simp only [if_pos passed]
                have obeys := apply_obeys cfg (f := { f with
                  session := { f.session with status := .rerunRunning, rerunStartedAt := some now } })
                  now result none
                have report : judgedReport result none = ⟨true, "success", true⟩ := by
                  unfold judgedReport Focus.repairTerminalCallbackKey
                  rw [passed]
                  rfl
                rw [report] at obeys
                exact ⟨trivial, apply_repoTaskId .., obeys.sent, obeys.status, obeys.callbackOverride⟩
              · simp only [if_neg passed]
                refine Alike.trans ?_ (prepareRepairTask_alike c)
                exact ⟨rfl, rfl, rfl, rfl, rfl⟩
          · simp only [rules, handler, rerun]
            exact prepareRepairTask_alike c
        · simp only [rules, handler]
          exact .refl f

theorem ensure_alike : Alike f (f.ensureDeferredRepairTaskCreation cfg) := by
  unfold Focus.ensureDeferredRepairTaskCreation
  split
  · exact ⟨rfl, rfl, rfl, rfl, rfl⟩
  · exact .refl f

variable (f cfg) in
/-- The deferred creation is seen to without a change of what decides over the rest. -/
theorem ensure_same : (f.ensureDeferredRepairTaskCreation cfg).session.status = f.session.status ∧
    (f.ensureDeferredRepairTaskCreation cfg).session.repoTaskId = f.session.repoTaskId ∧
    (f.ensureDeferredRepairTaskCreation cfg).toShared = f.toShared := by
  unfold Focus.ensureDeferredRepairTaskCreation
  split <;> exact ⟨rfl, rfl, rfl⟩

/-- The refresh finds a session that is not live as it is. -/
theorem found_of_dead (dead : ¬ f.session.Live) : f.found cfg m = (none, f) := by
  have idle : f.ensureDeferredRepairTaskCreation cfg = f := by
    unfold Focus.ensureDeferredRepairTaskCreation
    refine if_neg fun ⟨_, _, _, creating⟩ => dead ?_
    unfold Session.Live
    rw [creating]
    decide
  unfold Focus.found Focus.materializeRetryRequest
  rw [idle]
  refine if_pos fun asked => dead ?_
  unfold Session.Live
  rw [asked]
  decide

theorem refreshSession_detached {g : Focus} (found : f.found cfg m = (none, g))
    (detached : g.session.repoTaskId = none) : f.refreshSession cfg o m = (none, g) := by
  unfold Focus.found at found
  unfold Focus.refreshSession
  rw [found]
  dsimp only
  rw [detached]

theorem refreshSession_attached {g : Focus} {id : ℕ} {task : RepoStatus}
    (found : f.found cfg m = (none, g)) (attached : g.session.repoTaskId = some id)
    (present : g.tasks[id]? = some task) : f.refreshSession cfg o m = g.followRepairTask cfg o m task := by
  unfold Focus.found at found
  unfold Focus.refreshSession
  rw [found]
  dsimp only
  rw [attached]
  dsimp only
  rw [present]

theorem refreshSession_lost {g : Focus} {id : ℕ} (found : f.found cfg m = (none, g))
    (attached : g.session.repoTaskId = some id) (absent : g.tasks[id]? = none) :
    f.refreshSession cfg o m = (some .other, g) := by
  unfold Focus.found at found
  unfold Focus.refreshSession
  rw [found]
  dsimp only
  rw [attached]
  dsimp only
  rw [absent]

theorem recreates_ensure : (f.ensureDeferredRepairTaskCreation cfg).Recreates cfg ↔ f.Recreates cfg := by
  obtain ⟨status, repoTaskId, shared⟩ := ensure_same f cfg
  unfold Focus.Recreates Focus.LiveTask Focus.task?
  rw [status, repoTaskId, shared]

variable (cfg) in
/-- A retry request that is granted reports only that no repair is needed. -/
theorem materializeRetryRequest_obeys (now : ℕ) (c : Creation) :
    if f.Recreates cfg ∧ Focus.greenPreflight cfg c ≠ none then
      (f.materializeRetryRequest cfg now c).1 = none ∧
        (f.materializeRetryRequest cfg now c).2.session.repoTaskId = none ∧
        Obeys cfg f (f.materializeRetryRequest cfg now c).2 (some ⟨true, "success", true⟩)
    else Alike f (f.materializeRetryRequest cfg now c).2 := by
  by_cases recreates : f.Recreates cfg
  · obtain ⟨asked, manager, workspace, dead, inline_⟩ := recreates
    have archived : Alike f f.archiveRepairTask := ⟨rfl, rfl, rfl, rfl, rfl⟩
    have same : f.materializeRetryRequest cfg now c = f.archiveRepairTask.createRepairTask cfg now c := by
      unfold Focus.materializeRetryRequest
      simp only [asked, manager, workspace, dead, inline_, ne_eq, not_true_eq_false, or_self,
        if_false, Bool.false_eq_true]
    have created := createRepairTask_obeys cfg (f := f.archiveRepairTask) now c
    rw [same]
    cases green : Focus.greenPreflight cfg c with
    | none =>
        rw [green] at created
        rw [if_neg fun both => both.2 rfl]
        exact archived.trans created
    | some result =>
        rw [green] at created
        rw [if_pos ⟨⟨asked, manager, workspace, dead, inline_⟩, nofun⟩]
        exact ⟨created.1, created.2.1, archived.obeys created.2.2⟩
  · rw [if_neg fun both => recreates both.1]
    unfold Focus.materializeRetryRequest
    split
    · exact .refl f
    next asked =>
      split
      · exact .refl f
      next equipped =>
        split
        · exact ⟨rfl, rfl, rfl, rfl, rfl⟩
        next dead =>
          dsimp only
          split
          · exact ⟨rfl, rfl, rfl, rfl, rfl⟩
          next inline_ =>
            obtain ⟨manager, workspace⟩ := not_or.mp equipped
            exact absurd ⟨not_not.mp asked, not_not.mp manager, workspace, dead,
              Bool.not_eq_true _ ▸ inline_⟩ recreates

/-- A round does what its report tells. -/
theorem refreshSession_obeys : Obeys cfg f (f.refreshSession cfg o m).2 (f.report? cfg o m) := by
  have granted := materializeRetryRequest_obeys cfg
    (f := f.ensureDeferredRepairTaskCreation cfg) m.now m.creation
  simp only [recreates_ensure] at granted
  unfold Focus.refreshSession Focus.report? Focus.found
  split at granted
  next green =>
    rw [if_pos green]
    obtain ⟨finished, detached, obeys⟩ := granted
    have alike : Alike f (f.ensureDeferredRepairTaskCreation cfg) := ensure_alike
    refine alike.obeys ?_
    generalize (f.ensureDeferredRepairTaskCreation cfg).materializeRetryRequest cfg m.now m.creation = g
      at finished detached obeys ⊢
    obtain ⟨e, g⟩ := g
    obtain rfl : e = none := finished
    dsimp only at detached ⊢
    rw [detached]
    exact obeys
  next other =>
    rw [if_neg other]
    have alike : Alike f _ := ensure_alike.trans granted
    generalize (f.ensureDeferredRepairTaskCreation cfg).materializeRetryRequest cfg m.now m.creation = g
      at alike ⊢
    obtain ⟨_ | e, g⟩ := g
    · dsimp only
      unfold Focus.task?
      cases g.session.repoTaskId with
      | none => exact alike.silent
      | some id =>
          dsimp only [Option.bind]
          cases g.tasks[id]? with
          | none => exact alike.silent
          | some task => exact alike.obeys (followRepairTask_obeys task)
    · exact alike.silent

end Round

/-! Refreshes. -/

/-- Nothing was reported since `start`, or the last report is the outcome of the record. -/
def Told (start : ℕ) (sh : Shared) : Prop :=
  start < sh.sent.length → sh.sent.getLast? = some (succeeded sh.record.status)

theorem succeeded_eq {passed : Bool} {s : CiTaskStatus} (agrees : passed = true ↔ s = .success) :
    succeeded s = passed := by
  rw [succeeded, Bool.eq_iff_iff, decide_eq_true_iff]
  exact agrees.symm

theorem told_round {cfg : Config} {start : ℕ} {f : Focus} {o : Outcome} {m : Moment}
    (protocol : cfg.protocol = true) (free : f.record.callbackOverride = false)
    (told : Told start f.toShared) (concords : RoundConcords cfg start f o m) :
    Told start (f.refreshSession cfg o m).2.toShared := by
  have obeys : Obeys cfg f (f.refreshSession cfg o m).2 (f.report? cfg o m) := refreshSession_obeys
  unfold Told
  rw [obeys.sent, obeys.status]
  cases report : f.report? cfg o m with
  | none => exact told
  | some r =>
      have concord : Concords start f r := concords r report
      unfold Concords at concord
      simp only [Focus.sentBy, Focus.statusBy, Focus.sentWith, free, Bool.or_false]
      by_cases due : Focus.Due f.session r.key
      · rw [if_pos due] at concord
        rw [if_pos ⟨due, protocol⟩, List.getLast?_concat]
        intro _
        congr 1
        cases decides : r.decides with
        | true => cases r.passed <;> rfl
        | false =>
            have agrees := concord.resolve_left (by rw [decides]; exact Bool.false_ne_true)
            exact (succeeded_eq agrees).symm
      · rw [if_neg due] at concord
        rw [if_neg fun both => due both.1]
        intro spoken
        rw [told spoken]
        congr 1
        cases decides : r.decides with
        | false => rfl
        | true =>
            rw [succeeded_eq (concord spoken decides)]
            cases r.passed <;> rfl

theorem quiet_round {cfg : Config} {f : Focus} {o : Outcome} {m : Moment}
    (protocol : cfg.protocol = false) : (f.refreshSession cfg o m).2.sent = f.sent := by
  have obeys : Obeys cfg f (f.refreshSession cfg o m).2 (f.report? cfg o m) := refreshSession_obeys
  rw [obeys.sent]
  cases f.report? cfg o m with
  | none => rfl
  | some r => exact if_neg fun both => by simp [protocol] at both

theorem told_rounds {cfg : Config} {start : ℕ} (protocol : cfg.protocol = true) (l : List Session)
    (o : ℕ → Outcome) (m : ℕ → Moment) (sh : Shared) (free : sh.record.callbackOverride = false)
    (told : Told start sh) (concords : Rounds (RoundConcords cfg start) cfg o m l sh) :
    Told start (refreshRepairSessions cfg o m l sh).2.2 := by
  induction l generalizing o m sh with
  | nil => exact told
  | cons s rest ih =>
      have obeys : Obeys cfg ⟨sh, s⟩ _ _ := refreshSession_obeys (o := o 0) (m := m 0)
      have first := told_round (f := ⟨sh, s⟩) protocol free told concords.1
      have kept := obeys.callbackOverride.trans free
      have later := concords.2
      unfold refreshRepairSessions
      generalize Focus.refreshSession ⟨sh, s⟩ cfg (o 0) (m 0) = round at first kept later ⊢
      obtain ⟨_ | e, f⟩ := round
      · exact ih _ _ _ kept first (later rfl)
      · exact first

theorem quiet_rounds {cfg : Config} (protocol : cfg.protocol = false) (l : List Session)
    (o : ℕ → Outcome) (m : ℕ → Moment) (sh : Shared) :
    (refreshRepairSessions cfg o m l sh).2.2.sent = sh.sent := by
  induction l generalizing o m sh with
  | nil => rfl
  | cons s rest ih =>
      have first := quiet_round (f := ⟨sh, s⟩) (o := o 0) (m := m 0) protocol
      unfold refreshRepairSessions
      generalize Focus.refreshSession ⟨sh, s⟩ cfg (o 0) (m 0) = round at first ⊢
      obtain ⟨_ | e, f⟩ := round
      · exact (ih _ _ _).trans first
      · exact first

theorem refresh_of_manager {cfg : Config} {st : State} {o : ℕ → Outcome} {m : ℕ → Moment}
    (manager : cfg.taskManager = true) :
    st.refresh cfg o m =
      ((refreshRepairSessions cfg o m st.sessions st.toShared).1,
        ⟨(refreshRepairSessions cfg o m st.sessions st.toShared).2.2,
          (refreshRepairSessions cfg o m st.sessions st.toShared).2.1⟩) := by
  rw [State.refresh, if_neg (not_not_intro manager)]

/-- A concordant refresh reports last what the record says. -/
theorem refresh_agrees {cfg : Config} {st : State} {step : Step} (concordant : Concordant cfg st step) :
    Agrees cfg st step := by
  cases step with
  | refresh o m =>
      unfold Agrees
      dsimp only
      by_cases manager : cfg.taskManager = true
      · rw [refresh_of_manager manager]
        cases protocol : cfg.protocol with
        | true =>
            obtain ⟨free, concords⟩ := concordant protocol manager
            exact told_rounds protocol st.sessions o m st.toShared free
              (fun spoken => absurd spoken (lt_irrefl _)) concords
        | false =>
            intro spoken
            have quiet := quiet_rounds protocol st.sessions o m st.toShared
            exact absurd (congrArg List.length quiet) (Nat.ne_of_gt spoken)
      · rw [State.refresh, if_pos manager]
        exact fun spoken => absurd spoken (lt_irrefl _)
  | _ => trivial

end Uta.Repair
