/- When the failures counted towards quarantine are those of the runs that failed. -/
import Uta.Tasks.Closing

namespace Uta.Tasks
open Uta.Lib

/-! Runs. -/

/-- A run of the task begins: it is claimed, its worker is started, or its worker
says that it runs. -/
def BeginsRun (taskId : ℕ) (c : Call) (w : World) (s : Stmt) : Prop :=
  match s with
  | .acquireNextTask .. => s.write w = .stored taskId .running
  | .startWorker _ slot => slot.taskId = taskId
  | .updateRepoTask .. =>
    (match c with | .markRunning .. => True | _ => False) ∧ s.write w = .stored taskId .running
  | _ => False

instance (taskId : ℕ) (c : Call) (w : World) (s : Stmt) : Decidable (BeginsRun taskId c w s) := by
  have marks : Decidable (match c with | .markRunning .. => True | _ => False) := by
    apply Call.casesOn (motive := fun c => Decidable (match c with
      | .markRunning .. => True
      | _ => False)) c <;> intros <;> infer_instance
  apply Stmt.casesOn (motive := fun s => Decidable (BeginsRun taskId c w s)) s <;> intros <;>
    unfold BeginsRun <;> infer_instance

/-- `mark_failed` or `sync_results` reports that the task has failed. -/
def ReportsFailure (taskId : ℕ) (w : World) : Stmt → Prop
  | .finishTask t args =>
    t = taskId ∧ "task_failed" ∈ args.summaryEventTypes ∧ w.statusOf taskId ≠ none
  | .addEvent e => e.taskId = taskId ∧ e.eventType = "task_failed"
  | _ => False

instance (taskId : ℕ) (w : World) (s : Stmt) : Decidable (ReportsFailure taskId w s) := by
  apply Stmt.casesOn (motive := fun s => Decidable (ReportsFailure taskId w s)) s <;> intros <;>
    unfold ReportsFailure <;> infer_instance

/-- `finish_task_with_terminal_event` finds the task closed with the status that
it stores, and appends nothing. -/
def Repeats (taskId : ℕ) (w : World) : Stmt → Prop
  | .finishTask _ args => w.statusOf taskId = some args.status ∧ w.terminals taskId ≠ []
  | _ => False

instance (taskId : ℕ) (w : World) (s : Stmt) : Decidable (Repeats taskId w s) := by
  apply Stmt.casesOn (motive := fun s => Decidable (Repeats taskId w s)) s <;> intros <;>
    unfold Repeats <;> infer_instance

/-- The runs of a task that ended in failure, and whether the present one is of them. -/
structure Ledger where
  failedRuns : ℕ := 0
  reported : Bool := false

def Ledger.after (l : Ledger) (taskId : ℕ) (c : Call) (w : World) (s : Stmt) : Ledger :=
  if BeginsRun taskId c w s then { l with reported := false }
  else if ReportsFailure taskId w s then
    { failedRuns := if l.reported then l.failedRuns else l.failedRuns + 1, reported := true }
  else l

structure Audited where
  sys : TaskSystem
  ledger : Ledger := {}

def auditTurn (settings : Settings) (taskId : ℕ) (a : Audited) (turn : Turn Call) : Audited where
  sys := taskTurn settings a.sys turn
  ledger :=
    match a.sys.executes turn with
    | some (c, s) => a.ledger.after taskId c a.sys.store s
    | none => a.ledger

namespace Audited
variable (taskId : ℕ)

/-- The failures counted are the failed runs. -/
def Counted (a : Audited) : Prop := a.sys.store.countTaskFailures taskId = a.ledger.failedRuns

/-- The task is POISONED only after `threshold` failed runs. -/
def Quarantined (threshold : ℕ) (a : Audited) : Prop :=
  a.sys.store.statusOf taskId = some .poisoned → threshold ≤ a.ledger.failedRuns

instance (a : Audited) : Decidable (a.Counted taskId) := inferInstanceAs (Decidable (_ = _))

instance (threshold : ℕ) (a : Audited) : Decidable (a.Quarantined taskId threshold) :=
  inferInstanceAs (Decidable (_ → _))

/-- The first report of a run is appended to the events, and a later one is taken
for a repetition. -/
def CountedOnce (a : Audited) (turn : Turn Call) : Prop :=
  match a.sys.executes turn with
  | some (_, s) => ReportsFailure taskId a.sys.store s →
      (Repeats taskId a.sys.store s ↔ a.ledger.reported = true)
  | none => True

instance (a : Audited) (turn : Turn Call) : Decidable (a.CountedOnce taskId turn) := by
  unfold CountedOnce
  rcases a.sys.executes turn with _ | ⟨c, s⟩ <;> infer_instance

/-- `mark_poisoned` is not called on the task. -/
def ByCount (a : Audited) (turn : Turn Call) : Prop :=
  match a.sys.executes turn with
  | some (_, .finishTask t args) =>
      t = taskId → args.status = .poisoned → "task_failed" ∈ args.summaryEventTypes
  | _ => True

instance (a : Audited) (turn : Turn Call) : Decidable (a.ByCount taskId turn) := by
  unfold ByCount
  split <;> infer_instance

end Audited

/-! Statements. -/

section Steps
variable {w : World} {taskId : ℕ}

/-- The failures counted are at least `k`; what a program that counts them, or
finds the task poisoned, learns of it. -/
def learnFailures (taskId threshold : ℕ) (k : ℕ) : (s : Stmt) → s.Answer → ℕ
  | .countTaskFailures t, n => if t = taskId then max k n else k
  | .getRepoTask t, some row => if t = taskId ∧ row.status = .poisoned then max k threshold else k
  | _, _ => k

/-- A statement that poisons the task follows the count. -/
def Backed (taskId threshold : ℕ) (k : ℕ) : Stmt → Prop
  | .finishTask t args =>
    args.summaryEventTypes.count "task_failed" ≤ 1 ∧
    ("task_failed" ∈ args.summaryEventTypes → args.status.Terminal ∧
      (t = taskId → args.status = .poisoned → threshold ≤ k + 1))
  | .updateRepoTask t patch => t = taskId → patch.status = some .poisoned → threshold ≤ k
  | _ => True

theorem le_learnFailures (threshold k : ℕ) (s : Stmt) (a : s.Answer) :
    k ≤ learnFailures taskId threshold k s a := by
  unfold learnFailures
  split
  · split
    · exact le_max_left ..
    · exact le_rfl
  · split
    · exact le_max_left ..
    · exact le_rfl
  · exact le_rfl

/-- Whether an event is counted. -/
def Counts (taskId : ℕ) (e : EventArgs) : Prop := e.taskId = taskId ∧ e.eventType = "task_failed"

instance (taskId : ℕ) (e : EventArgs) : Decidable (Counts taskId e) :=
  inferInstanceAs (Decidable (_ ∧ _))

theorem failures_appends {v : World} {e : EventArgs} (appends : World.Appends w v e) :
    v.countTaskFailures taskId = w.countTaskFailures taskId + if Counts taskId e then 1 else 0 := by
  obtain ⟨now, events⟩ := appends
  unfold World.countTaskFailures
  rw [events, List.filter_append, List.length_append, ← List.countP_eq_length_filter
    (l := [e.row w.nextEventId now]), List.countP_singleton]
  congr 1
  exact if_congr decide_eq_true_iff rfl rfl

theorem failures_addEvents (es : List EventArgs) (w : World) :
    (World.addEvents es w).countTaskFailures taskId =
      w.countTaskFailures taskId + es.countP fun e => Counts taskId e := by
  induction es generalizing w with
  | nil => rfl
  | cons e es ih =>
      rw [World.addEvents, ih, failures_appends (World.appends_addEvent w e), List.countP_cons]
      by_cases counts : Counts taskId e
      · rw [if_pos counts, if_pos (decide_eq_true counts)]
        omega
      · rw [if_neg counts, if_neg fun counted => counts (of_decide_eq_true counted)]
        omega

theorem countP_terminalEvents (t : ℕ) (args : FinishArgs) :
    (World.terminalEvents t args).countP (fun e => Counts taskId e) =
      if t = taskId then args.summaryEventTypes.count "task_failed" else 0 := by
  have closing : ¬ Counts taskId
      { taskId := t, eventType := "task_terminal", message := args.message, stage := some args.stage,
        severity := args.severity, payload := args.payload ++ [("status", .text args.status.text)] } :=
    fun counts => by simp [Counts] at counts
  unfold World.terminalEvents
  rw [List.countP_append, List.countP_singleton, if_neg (by simpa using closing), Nat.add_zero,
    List.countP_map]
  by_cases own : t = taskId
  · rw [if_pos own, List.count]
    refine List.countP_congr fun eventType _ => ?_
    simp [Counts, own]
  · rw [if_neg own, List.countP_eq_zero]
    intro eventType _
    simp [Counts, own]

theorem failures_of_events {v : World} (same : v.events = w.events) :
    v.countTaskFailures taskId = w.countTaskFailures taskId := by
  unfold World.countTaskFailures
  rw [same]

/-- What closing a task adds to the count. -/
theorem finish_failures {threshold k t : ℕ} {args : FinishArgs}
    (backed : Backed taskId threshold k (.finishTask t args)) :
    (w.finishTask t args).2.countTaskFailures taskId = w.countTaskFailures taskId +
      if ReportsFailure taskId w (.finishTask t args) ∧ ¬ Repeats taskId w (.finishTask t args)
        then 1 else 0 := by
  obtain ⟨once, closes⟩ := backed
  rw [finishTask_world]
  by_cases terminal : args.status.Terminal
  · rw [if_neg (not_not.mpr terminal)]
    cases found : w.tasks.find? t with
    | none =>
        have quiet : ¬ ReportsFailure taskId w (.finishTask t args) := by
          rintro ⟨rfl, _, present⟩
          exact present (by rw [World.statusOf, found]; rfl)
        rw [if_neg fun reports => quiet reports.1]
        rfl
    | some prior =>
        by_cases own : t = taskId
        · subst own
          have present : w.statusOf t = some prior.status := by rw [World.statusOf, found]; rfl
          have repeats : Repeats t w (.finishTask t args) ↔
              prior.status = args.status ∧ w.terminals t ≠ [] := by
            simp only [Repeats, present, Option.some.injEq]
          dsimp only
          by_cases again : prior.status = args.status ∧ w.terminals t ≠ []
          · rw [if_pos again, if_neg fun reports => reports.2 (repeats.mpr again)]
            rfl
          · rw [if_neg again, failures_addEvents, countP_terminalEvents, if_pos rfl]
            congr 1
            by_cases listed : "task_failed" ∈ args.summaryEventTypes
            · have reports : ReportsFailure t w (.finishTask t args) :=
                ⟨rfl, listed, by rw [present]; exact Option.some_ne_none _⟩
              rw [if_pos ⟨reports, fun repeated => again (repeats.mp repeated)⟩]
              have some_ := List.count_pos_iff.mpr listed
              omega
            · rw [if_neg fun reports => listed reports.1.2.1, List.count_eq_zero]
              exact listed
        · have quiet : ¬ ReportsFailure taskId w (.finishTask t args) := fun reports => own reports.1
          rw [if_neg fun reports => quiet reports.1]
          dsimp only
          split
          · rfl
          · rw [failures_addEvents, countP_terminalEvents, if_neg own]
            rfl
  · rw [if_pos terminal]
    have quiet : ¬ ReportsFailure taskId w (.finishTask t args) := fun reports =>
      terminal (closes reports.2.1).1
    rw [if_neg fun reports => quiet reports.1]
    rfl

/-- A report adds one failure unless it is taken for a repetition, and nothing else
adds any. -/
theorem exec_failures {threshold k : ℕ} {s : Stmt} (backed : Backed taskId threshold k s) :
    (s.exec w).2.countTaskFailures taskId = w.countTaskFailures taskId +
      if ReportsFailure taskId w s ∧ ¬ Repeats taskId w s then 1 else 0 := by
  by_cases silent : Silent s
  · have quiet : ¬ (ReportsFailure taskId w s ∧ ¬ Repeats taskId w s) := by
      intro reports
      cases s <;> first | exact silent | exact reports.1
    rw [if_neg quiet, failures_of_events (exec_events silent w), Nat.add_zero]
  · cases s with
    | addEvent e =>
        refine (failures_appends (World.appends_addEvent w e)).trans ?_
        congr 1
        exact if_congr ⟨fun counts => ⟨counts, id⟩, And.left⟩ rfl rfl
    | cleanRerun t args =>
        have quiet : ¬ (ReportsFailure taskId w (.cleanRerun t args) ∧
            ¬ Repeats taskId w (.cleanRerun t args)) := fun reports => reports.1
        rw [if_neg quiet, Nat.add_zero]
        rcases cleanRerun_events w t args with same | appends
        · exact failures_of_events same
        · have other : ¬ Counts taskId (rerunEvent t args) := fun counts =>
            absurd counts.2 (by simp [rerunEvent])
          exact (failures_appends appends).trans (by rw [if_neg other, Nat.add_zero])
    | finishTask t args => exact finish_failures backed
    | _ => exact absurd trivial silent

/-- A task is POISONED as before, or by a statement that says so. -/
theorem poisoned_exec {s : Stmt} (poisoned : (s.exec w).2.statusOf taskId = some .poisoned) :
    w.statusOf taskId = some .poisoned ∨ s.write w = .stored taskId .poisoned := by
  by_cases entered : Entered w (s.exec w).2 taskId
  · obtain ⟨status, write, _⟩ := (entered_iff s w taskId).mp entered
    have after := statusOf_stored write taskId
    rw [if_pos rfl, poisoned] at after
    obtain ⟨_, _, same⟩ := Option.map_eq_some_iff.mp after.symm
    exact .inr (same ▸ write)
  · unfold Entered at entered
    rw [poisoned] at entered
    by_contra neither
    exact entered ⟨by decide, fun before => neither (.inl before)⟩

end Steps

/-! Programs. -/

section Programs
variable {taskId needed : ℕ}

instance : Ending (Backed taskId needed) where
  plain := by
    intro s plain _
    cases s <;> trivial
  event := fun _ _ => trivial
  update := fun _ _ opens _ _ same => absurd (by decide) (opens _ same)
  settle := fun _ _ other _ _ same => absurd same other
  finish := by
    intro t args _ unmarked _
    have missing : "task_failed" ∉ args.summaryEventTypes := fun listed =>
      unmarked _ listed (by decide)
    exact ⟨(List.count_eq_zero.mpr missing).le.trans (Nat.zero_le 1), fun listed => absurd listed missing⟩

theorem guarded_ask {s : Stmt} {α : Type} {f : s.Answer → TaskProg α} {k : ℕ}
    (backed : Backed taskId needed k s)
    (rest : ∀ a, (f a).Guarded (Backed taskId needed) (learnFailures taskId needed)
      (learnFailures taskId needed k s a)) :
    (ask s >>= f).Guarded (Backed taskId needed) (learnFailures taskId needed) k :=
  ⟨backed, rest⟩

/-- `mark_failed` counts before it poisons. -/
theorem backed_markFailed {threshold : ℕ} (enough : needed ≤ threshold) (t : ℕ)
    (message stage : String) : (markFailed threshold t message stage).Safe (Backed taskId needed)
      (learnFailures taskId needed) := by
  intro k
  unfold markFailed
  dsimp only
  have closes : ∀ (failures k : ℕ) (text stage : String) (fields : TaskPatch),
      (t = taskId → 0 < threshold → failures ≤ k) →
      (finishTask t
        { status := if 0 < threshold ∧ threshold ≤ failures + 1 then .poisoned else .failed
          message := text, stage, severity := "ERROR", taskFields := fields
          summaryEventTypes := if 0 < threshold ∧ threshold ≤ failures + 1 then
            ["task_failed", "task_poisoned"] else ["task_failed"] }).Guarded
        (Backed taskId needed) (learnFailures taskId needed) k := by
    intro failures k text stage fields counted
    refine guarded_finish ⟨?_, fun _ => ⟨?_, fun own poisoned => ?_⟩⟩
    · dsimp only
      split <;> decide
    · dsimp only
      split <;> decide
    · dsimp only at poisoned
      by_cases poison : 0 < threshold ∧ threshold ≤ failures + 1
      · exact enough.trans (poison.2.trans (Nat.succ_le_succ (counted own poison.1)))
      · rw [if_neg poison] at poisoned
        cases poisoned
  split
  · refine guarded_ask trivial fun failures => ?_
    refine (closes failures _ _ _ _ fun own _ => ?_).bind fun _ => safe_resumePreemptedTasks _
    simp only [learnFailures, if_pos own]
    exact le_max_right ..
  · next disabled =>
    exact (closes 0 k _ _ _ fun _ enabled => absurd enabled disabled).bind fun _ =>
      safe_resumePreemptedTasks _

/-- The task was read as POISONED if that is what a sync stores. -/
theorem syncedStatus_poisoned {task : Option RepoTask} {rows : List ClassTask}
    {finalError : Option String} (poisoned : (syncedStatus task rows finalError).1 = .poisoned) :
    ∃ row, task = some row ∧ row.status = .poisoned := by
  have current : (task.map RepoTask.status).getD .running = .poisoned := by
    unfold syncedStatus at poisoned
    dsimp only at poisoned
    split at poisoned
    · exact poisoned
    · repeat' split at poisoned
      all_goals first | exact poisoned | cases poisoned
  cases task with
  | none => cases current
  | some row => exact ⟨row, rfl, current⟩

theorem backed_syncRepoStatus {t k : ℕ} {task : Option RepoTask} (finalError : Option String)
    (known : ∀ row, task = some row → t = taskId → row.status = .poisoned → needed ≤ k) :
    (syncRepoStatus t task finalError).Guarded (Backed taskId needed)
      (learnFailures taskId needed) k := by
  refine guarded_ask trivial fun rows => ?_
  have stores : t = taskId → (syncedStatus task rows finalError).1 = .poisoned → needed ≤ k := by
    intro own poisoned
    obtain ⟨row, found, status⟩ := syncedStatus_poisoned poisoned
    exact known row found own status
  rcases synced : syncedStatus task rows finalError with ⟨status, detail⟩
  rw [synced] at stores
  refine guarded_ask trivial fun now => ?_
  refine Prog.Guarded.bind ⟨fun own same => ?_, fun answer => ?_⟩ fun _ => ?_
  · exact stores own (Option.some.inj same)
  · cases answer with
    | ok _ => trivial
    | error e => trivial
  · split
    · exact .bind (Prog.safe_perform fun _ => trivial) fun _ => safe_resumePreemptedTasks _
    · exact fun _ => trivial

/-- `sync_results` stores POISONED only if it has read it. -/
theorem backed_syncResults (t : ℕ) (results : List ClassResult) (finalError : Option String) :
    (syncResults t results finalError).Safe (Backed taskId needed)
      (learnFailures taskId needed) := by
  intro k
  refine guarded_ask trivial fun task => ?_
  have known : ∀ row, task = some row → t = taskId → row.status = .poisoned →
      needed ≤ learnFailures taskId needed k (.getRepoTask t) task := by
    rintro row rfl own poisoned
    simp only [learnFailures, if_pos (And.intro own poisoned)]
    exact le_max_right ..
  refine Prog.Guarded.bind_le (le_learnFailures needed) (Prog.safe_forM results
    (fun result _ => safe_ask (s := .createClassTask t result.classFqn 100) trivial) _) fun _ l later => ?_
  refine Prog.Guarded.bind_le (le_learnFailures needed) (Prog.safe_forM results
    (fun result _ => safe_syncClass t result) _) fun _ m latest => ?_
  exact backed_syncRepoStatus finalError fun row found own poisoned =>
    (known row found own poisoned).trans (later.trans latest)

theorem backed_body {settings : Settings} (enough : needed ≤ settings.quarantineThreshold) (c : Call) :
    (c.body settings).Safe (Backed taskId needed) (learnFailures taskId needed) := by
  refine safe_body (backed_markFailed enough) backed_syncResults ?_ fun urgent _ => ?_
  · intro t message k
    exact guarded_finish ⟨by simp, fun listed => absurd listed (by simp)⟩
  · exact safe_preempt (fun _ _ => trivial) urgent

end Programs

/-! Audits. -/

namespace Audited
variable {settings : Settings} {taskId needed : ℕ} {a : Audited}

theorem not_reports_of_begins {c : Call} {w : World} {s : Stmt} (begins : BeginsRun taskId c w s) :
    ¬ ReportsFailure taskId w s := by
  cases s <;> first | exact id | exact begins.elim

/-- Every thread that is about to poison the task has counted its failures. -/
def Informed (taskId needed : ℕ) (a : Audited) : Prop :=
  a.sys.Informed (Backed taskId needed) (learnFailures taskId needed) fun k w => k ≤ w.countTaskFailures taskId

/-- A task that is POISONED has failed often enough. -/
def Warranted (taskId needed : ℕ) (a : Audited) : Prop :=
  a.sys.store.statusOf taskId = some .poisoned → needed ≤ a.sys.store.countTaskFailures taskId

/-- The step of the account: it stays right exactly when the turn counts once. -/
theorem counted_turn_iff (informed : Informed taskId needed a) (counted : a.Counted taskId)
    (turn : Turn Call) :
    (auditTurn settings taskId a turn).Counted taskId ↔ a.CountedOnce taskId turn := by
  unfold Counted at counted
  unfold Counted CountedOnce auditTurn
  dsimp only
  rw [System.turn_store]
  rcases executed : a.sys.executes turn with _ | ⟨c, s⟩
  · exact ⟨fun _ => trivial, fun _ => counted⟩
  · obtain ⟨k, _, backed⟩ := System.executes_informed informed executed
    dsimp only
    rw [exec_failures backed, counted]
    unfold Ledger.after
    by_cases begins : BeginsRun taskId c a.sys.store s
    · rw [if_pos begins, if_neg fun reports => not_reports_of_begins begins reports.1]
      exact ⟨fun _ reports => absurd reports (not_reports_of_begins begins), fun _ => rfl⟩
    · rw [if_neg begins]
      by_cases reports : ReportsFailure taskId a.sys.store s
      · rw [if_pos reports]
        by_cases repeats : Repeats taskId a.sys.store s <;> cases a.ledger.reported <;>
          simp [reports, repeats]
      · rw [if_neg reports, if_neg fun both => reports both.1]
        exact ⟨fun _ both => absurd both reports, fun _ => rfl⟩

theorem learnt {k : ℕ} {w : World} {s : Stmt}
    (warranted : w.statusOf taskId = some .poisoned → needed ≤ w.countTaskFailures taskId)
    (known : k ≤ w.countTaskFailures taskId) :
    learnFailures taskId needed k s (s.exec w).1 ≤ w.countTaskFailures taskId := by
  cases s with
  | countTaskFailures t =>
      change (if t = taskId then max k (w.countTaskFailures t) else k) ≤ _
      split
      · next own => exact max_le known (own ▸ le_rfl)
      · exact known
  | getRepoTask t =>
      change learnFailures taskId needed k (.getRepoTask t) (w.tasks.find? t) ≤ _
      cases found : w.tasks.find? t with
      | none => exact known
      | some row =>
          change (if t = taskId ∧ row.status = .poisoned then max k needed else k) ≤ _
          split
          · next poisoned =>
            refine max_le known (warranted ?_)
            rw [World.statusOf, ← poisoned.1, found]
            exact congrArg some poisoned.2
          · exact known
  | _ => exact known

theorem informed_turn (enough : needed ≤ settings.quarantineThreshold)
    (informed : Informed taskId needed a) (warranted : Warranted taskId needed a) (turn : Turn Call) : Informed taskId needed (auditTurn settings taskId a turn) := by
  refine System.turn_informed 
    (R := fun k (w : World) => k ≤ w.countTaskFailures taskId) (backed_body enough) ⟨0, fun _ => Nat.zero_le _⟩ ?_ ?_ informed turn
  · intro k l s _ backed known
    rw [exec_failures backed]
    exact known.trans (Nat.le_add_right _ _)
  · intro k s known backed
    rw [exec_failures backed]
    exact (learnt warranted known).trans (Nat.le_add_right _ _)

/-- A statement that poisons the task leaves as many failures as it takes. -/
theorem poisons {k : ℕ} {w : World} {s : Stmt} (backed : Backed taskId needed k s)
    (known : k ≤ w.countTaskFailures taskId)
    (warranted : w.statusOf taskId = some .poisoned → needed ≤ w.countTaskFailures taskId)
    (write : s.write w = .stored taskId .poisoned) (present : w.statusOf taskId ≠ none)
    (byCount : ∀ t args, s = .finishTask t args → t = taskId → args.status = .poisoned →
      "task_failed" ∈ args.summaryEventTypes) :
    needed ≤ (s.exec w).2.countTaskFailures taskId := by
  rw [exec_failures backed]
  cases s with
  | updateRepoTask t patch =>
      simp only [Stmt.write] at write
      split at write
      · cases write
      · next stored =>
        split at write
        · obtain ⟨rfl, rfl⟩ := Write.stored.inj write
          exact (backed rfl stored).trans (known.trans (Nat.le_add_right _ _))
        · cases write
  | finishTask t args =>
      simp only [Stmt.write] at write
      split at write
      · obtain ⟨rfl, status⟩ := Write.stored.inj write
        have listed := byCount t args rfl rfl status
        have enough := (backed.2 listed).2 rfl status
        by_cases repeats : Repeats t w (.finishTask t args)
        · exact (warranted (status ▸ repeats.1)).trans (Nat.le_add_right _ _)
        · rw [if_pos ⟨⟨rfl, listed, present⟩, repeats⟩]
          exact enough.trans (Nat.succ_le_succ known)
      · cases write
  | acquireNextTask runnerId args =>
      simp only [Stmt.write] at write
      split at write <;> cases write
  | cleanRerun t args =>
      simp only [Stmt.write] at write
      split at write <;> cases write
  | _ => cases write

/-- The task is poisoned by a statement that has counted. -/
theorem warranted_turn (informed : Informed taskId needed a) (warranted : Warranted taskId needed a)
    (turn : Turn Call) (byCount : a.ByCount taskId turn) :
    Warranted taskId needed (auditTurn settings taskId a turn) := by
  unfold Warranted auditTurn
  dsimp only
  rw [System.turn_store]
  unfold ByCount at byCount
  rcases executed : a.sys.executes turn with _ | ⟨c, s⟩
  · exact warranted
  · obtain ⟨k, known, backed⟩ := System.executes_informed informed executed
    rw [executed] at byCount
    dsimp only
    intro poisoned
    have grown := exec_failures (w := a.sys.store) backed
    rcases poisoned_exec poisoned with before | write
    · rw [grown]
      exact (warranted before).trans (Nat.le_add_right _ _)
    · have present : a.sys.store.statusOf taskId ≠ none := by
        intro absent
        rw [statusOf_stored write, if_pos rfl, absent] at poisoned
        cases poisoned
      refine poisons backed known warranted write present fun t args same own status => ?_
      subst same
      exact byCount own status

end Audited

open Audited

/-- No task, no run. -/
def audited (runnerIds : List String) : Audited := ⟨initialSystem runnerIds, {}⟩

/-- Two runs that only the daemon reports. -/
def crashedTurns : List (Turn Call) :=
  Turn.inOrder 16 [
    .create "/srv/repo" 100 none ["demo.App"], .acquire "daemon" {} [] [], .markRunning 1 "startup" none,
    .reap "daemon" [(1, 1)], .unblock 1, .acquire "daemon" {} [] [], .markRunning 1 "startup" none,
    .reap "daemon" [(1, 1)]]

/-- A task is claimed, its worker finds an unsafe diff, says so and exits, and the
daemon reaps it. -/
def unsafeTurns : List (Turn Call) :=
  Turn.inOrder 16 [
    .create "/srv/repo" 100 none ["demo.App"], .acquire "daemon" {} [] [],
    .markRunning 1 "startup" none, .markFailed 1 "Unsafe LLM-authored paths: pom.xml" "unsafe_diff",
    .reap "daemon" [(1, 1)]]

end Uta.Tasks
