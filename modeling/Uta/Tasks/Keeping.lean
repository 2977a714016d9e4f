/- What the statements of a program keep: sound engines, the tasks told to make way,
and the statuses of all tasks but some. -/
import Uta.Tasks.Closing

namespace Uta.Tasks
open Uta.Lib

/-! What statements keep. -/

/-- A task whose engine is legacy is new or closed. -/
def RepoTask.Durable (r : RepoTask) : Prop :=
  r.engineBlocker ≠ none → r.status = .created ∨ r.status.Terminal

def Durable (w : World) : Prop := ∀ r ∈ w.tasks.rows, r.Durable

/-- The events by which tasks were told to make way. -/
def World.preemptions (w : World) : List TaskEvent :=
  w.events.filter fun e => e.eventType = "task_preempted"

def World.Preempted (w : World) (taskId urgentTaskId : ℕ) : Prop :=
  ∃ e ∈ w.preemptions, e.repoTaskId = taskId ∧ preemptedBy e = urgentTaskId

instance (w : World) (taskId urgentTaskId : ℕ) : Decidable (w.Preempted taskId urgentTaskId) :=
  inferInstanceAs (Decidable (∃ e ∈ w.preemptions, _))

/-- A statement that tells no task to make way. -/
def Unpreempting : Stmt → Prop
  | .addEvent event => event.eventType ≠ "task_preempted"
  | .finishTask _ args => "task_preempted" ∉ args.summaryEventTypes
  | _ => True

section Steps
variable {w v u : World} {taskId : ℕ}

theorem durable_modify {f : RepoTask → RepoTask}
    (stored : v.tasks.rows = w.tasks.rows.map fun r => if r.id = taskId then f r else r)
    (durable : Durable w) (one : ∀ r ∈ w.tasks.rows, r.id = taskId → (f r).Durable) : Durable v := by
  intro r member
  rw [stored] at member
  obtain ⟨prior, old, rfl⟩ := List.mem_map.mp member
  split
  next here => exact one prior old here
  next => exact durable prior old

theorem durable_of_tasks (same : v.tasks = w.tasks) (durable : Durable w) : Durable v := by
  unfold Durable
  rw [same]
  exact durable

theorem durable_closed {s : RepoStatus} (terminal : s.Terminal) {patch : TaskPatch}
    (stores : patch.status = some s) (durable : Durable w) : Durable (w.updateRepoTask taskId patch) := by
  refine durable_modify rfl durable fun r _ _ _ => .inr ?_
  simp only [TaskPatch.apply, stores, Option.getD_some]
  exact terminal

theorem firstEligible_durable {allow : Bool} {rows : List RepoTask} {row : RepoTask}
    (chosen : w.firstEligible allow rows = .ok (some row)) : row.engineBlocker = none := by
  induction rows with
  | nil => cases chosen
  | cons r rest ih =>
      unfold World.firstEligible at chosen
      cases blocker : r.engineBlocker with
      | some reason =>
          rw [requireDurableGenerationTask, blocker] at chosen
          cases chosen
      | none =>
          rw [requireDurableGenerationTask, blocker] at chosen
          dsimp only at chosen
          split at chosen
          · exact ih chosen
          · cases chosen
            exact blocker

theorem rerunRefusal_durable {args : RerunArgs} (eligible : w.rerunRefusal taskId args = none) :
    ∀ row ∈ w.tasks.find? taskId, row.engineBlocker = none := by
  intro row found
  cases blocker : row.engineBlocker with
  | none => rfl
  | some reason =>
      simp only [World.rerunRefusal, Option.mem_def.mp found, requireDurableGenerationTask,
        blocker] at eligible
      split at eligible
      · cases eligible
      · split at eligible <;> cases eligible

/-- Only a task whose engine is not legacy is put to work. -/
theorem exec_durable (s : Stmt) (durable : Durable w) : Durable (s.exec w).2 := by
  cases s with
  | createRepoTask repoPath priority engineBlocker =>
      intro r member
      rcases List.mem_append.mp member with old | new
      · exact durable r old
      · rw [List.mem_singleton.mp new]
        exact fun _ => .inl rfl
  | updateRepoTask target patch =>
      simp only [Stmt.exec]
      split
      next status row stores found =>
        split
        next terminal => exact durable_closed terminal stores durable
        next =>
          split
          · exact durable
          next allowed =>
            refine durable_modify rfl durable fun r member here legacy => absurd ?_ legacy
            obtain rfl := Option.some.inj (found.symm.trans (here ▸ Table.find?_mem member))
            cases blocker : row.engineBlocker with
            | none => exact blocker
            | some reason =>
                rw [requireDurableGenerationTask, blocker] at allowed
                cases allowed
      next neither =>
        refine durable_modify rfl durable fun r member here legacy => ?_
        have silent : patch.status = none := by
          cases stores : patch.status with
          | none => rfl
          | some status =>
              exact absurd (here ▸ Table.find?_mem member) (neither status r stores)
        simp only [TaskPatch.apply, silent, Option.getD_none]
        exact durable r member legacy
  | finishTask target args =>
      change Durable (w.finishTask target args).2
      rw [finishTask_world]
      by_cases terminal : args.status.Terminal
      · rw [if_neg (not_not_intro terminal)]
        have closed : Durable (w.updateRepoTask target (World.finishPatch args w.now)) :=
          durable_closed terminal rfl durable
        split
        · exact durable
        · split
          · exact closed
          · exact durable_of_tasks (World.addEvents_tasks _ _) closed
      · rw [if_pos terminal]
        exact durable
  | acquireNextTask runnerId args =>
      simp only [Stmt.exec]
      split
      · exact durable
      · exact durable
      next row chosen =>
        refine durable_modify rfl durable fun r member here legacy => absurd ?_ legacy
        have listed := (mem_queue (firstEligible_mem chosen)).1
        have blocker : row.engineBlocker = none := firstEligible_durable chosen
        obtain rfl := w.tasks.eq_of_key member listed here
        exact blocker
  | cleanRerun target args =>
      simp only [Stmt.exec, World.cleanRerun]
      split
      · exact durable
      next eligible =>
        let requeued := (w.listClassTasks target).foldl (fun w c => w.updateClassTask c.id
          (if World.requeueStatuses args c.status then World.rerunClassPatch else {})) w
        have same : requeued.tasks = w.tasks := World.requeueClasses_tasks _ _ w
        have before : Durable requeued := durable_of_tasks same durable
        refine durable_modify (w := requeued) rfl before fun r member here legacy => absurd ?_ legacy
        rw [same] at member
        exact rerunRefusal_durable eligible r (here ▸ Table.find?_mem member)
  | upsertHeartbeat runnerId target status message =>
      exact durable_of_tasks (World.upsertHeartbeat_tasks w _) durable
  | createClassTask target classFqn priority =>
      exact durable_of_tasks (World.createClassTask_tasks w target classFqn priority) durable
  | _ => exact durable

theorem preemptions_of_events (same : v.events = w.events) : v.preemptions = w.preemptions := by
  unfold World.preemptions
  rw [same]

theorem preemptions_appends {e : EventArgs} (appends : World.Appends w v e)
    (other : e.eventType ≠ "task_preempted") : v.preemptions = w.preemptions := by
  obtain ⟨now, events⟩ := appends
  unfold World.preemptions
  rw [events, List.filter_append]
  refine (congrArg _ (List.filter_cons_of_neg ?_)).trans (List.append_nil _)
  exact fun preempted => other (of_decide_eq_true preempted)

theorem preemptions_addEvents (es : List EventArgs) (others : ∀ e ∈ es, e.eventType ≠ "task_preempted")
    (w : World) : (World.addEvents es w).preemptions = w.preemptions := by
  induction es generalizing w with
  | nil => rfl
  | cons e es ih =>
      refine (ih (fun d member => others d (List.mem_cons_of_mem e member)) _).trans ?_
      exact preemptions_appends (World.appends_addEvent w e) (others e List.mem_cons_self)

theorem exec_preemptions {s : Stmt} (quiet : Unpreempting s) (w : World) :
    (s.exec w).2.preemptions = w.preemptions := by
  by_cases silent : Silent s
  · exact preemptions_of_events (exec_events silent w)
  · cases s with
    | addEvent e => exact preemptions_appends (World.appends_addEvent w e) quiet
    | cleanRerun target args =>
        rcases cleanRerun_events w target args with same | appends
        · exact preemptions_of_events same
        · exact preemptions_appends appends (by simp [rerunEvent])
    | finishTask target args =>
        change (w.finishTask target args).2.preemptions = _
        rw [finishTask_world]
        split
        · rfl
        · split
          · rfl
          · split
            · rfl
            · refine preemptions_addEvents _ (fun e member => ?_) _
              unfold World.terminalEvents at member
              rcases List.mem_append.mp member with summary | last
              · obtain ⟨eventType, listed, rfl⟩ := List.mem_map.mp summary
                rintro rfl
                exact quiet listed
              · rw [List.mem_singleton.mp last]
                simp
    | _ => exact absurd trivial silent

end Steps

/-! Programs that keep to some tasks. -/

/-- A statement that tells no task to make way, and stores a status only in the tasks
of `S`. -/
def Keeps (S : ℕ → Prop) (s : Stmt) : Prop :=
  Unpreempting s ∧ ∀ w, s.write w = .nothing ∨ ∃ taskId status, S taskId ∧ s.write w = .stored taskId status

/-- No task is told to make way, and only those of `S` change their status. -/
structure Within (S : ℕ → Prop) (w v : World) : Prop where
  statuses : ∀ taskId, ¬ S taskId → v.statusOf taskId = w.statusOf taskId
  preemptions : v.preemptions = w.preemptions

abbrev Nowhere : ℕ → Prop := fun _ => False

section Within
variable {S : ℕ → Prop} {α : Type}

theorem exec_within {s : Stmt} (keeps : Keeps S s) (w : World) : Within S w (s.exec w).2 := by
  refine ⟨fun taskId outside => ?_, exec_preemptions keeps.1 w⟩
  rcases keeps.2 w with silent | ⟨target, status, inside, stores⟩
  · exact statusOf_nothing silent taskId
  · rw [statusOf_stored stores, if_neg]
    rintro rfl
    exact outside inside

theorem Within.preempted {w v : World} (within : Within S w v) {taskId urgentTaskId : ℕ} :
    v.Preempted taskId urgentTaskId ↔ w.Preempted taskId urgentTaskId := by
  unfold World.Preempted
  rw [within.preemptions]

theorem outcome_within {p : TaskProg α} (only : p.Only (Keeps S)) (w : World) :
    Within S w (p.outcome Stmt.exec w).2 := by
  refine Prog.outcome_relates _ (fun _ => ⟨fun _ _ => rfl, rfl⟩) ?_ (fun s => exec_within) only w
  intro a b c first second
  exact ⟨fun taskId outside => (second.statuses taskId outside).trans (first.statuses taskId outside),
    second.preemptions.trans first.preemptions⟩

theorem outcome_durable (p : TaskProg α) {w : World} (durable : Durable w) :
    Durable (p.outcome Stmt.exec w).2 :=
  Prog.outcome_keeps _ (fun s _ => exec_durable s) p durable

theorem keeps_update {taskId : ℕ} (inside : S taskId) (patch : TaskPatch) :
    Keeps S (.updateRepoTask taskId patch) := by
  refine ⟨trivial, fun w => ?_⟩
  simp only [Stmt.write]
  split
  · exact .inl rfl
  next status _ =>
    split
    · exact .inr ⟨taskId, status, inside, rfl⟩
    · exact .inl rfl

theorem keeps_finish {taskId : ℕ} (inside : S taskId) {args : FinishArgs}
    (quiet : "task_preempted" ∉ args.summaryEventTypes) : Keeps S (.finishTask taskId args) := by
  refine ⟨quiet, fun w => ?_⟩
  simp only [Stmt.write]
  split
  · exact .inr ⟨taskId, args.status, inside, rfl⟩
  · exact .inl rfl

theorem only_update (taskId : ℕ) (patch : TaskPatch) :
    (updateRepoTask taskId patch).Only (Keeps (· = taskId)) := by
  refine ⟨keeps_update (S := (· = taskId)) rfl patch, fun answer => ?_⟩
  cases answer with
  | ok _ => trivial
  | error e => trivial

theorem only_finish (taskId : ℕ) {args : FinishArgs}
    (quiet : "task_preempted" ∉ args.summaryEventTypes) :
    (finishTask taskId args).Only (Keeps (· = taskId)) := by
  refine ⟨keeps_finish (S := (· = taskId)) rfl quiet, fun answer => ?_⟩
  cases answer with
  | ok _ => trivial
  | error e => trivial

/-- A statement that stores no status and adds no event. -/
theorem calm_ask {s : Stmt} (quiet : Unpreempting s) (silent : ∀ w, s.write w = .nothing) :
    (ask s).Calm (Keeps S) :=
  Prog.calm_perform ⟨quiet, fun w => .inl (silent w)⟩

theorem only_ask {s : Stmt} (quiet : Unpreempting s) (silent : ∀ w, s.write w = .nothing) :
    (ask s).Only (Keeps S) :=
  (calm_ask quiet silent).only

theorem calm_event {e : EventArgs} (other : e.eventType ≠ "task_preempted") :
    (addEvent e).Calm (Keeps S) :=
  calm_ask other fun _ => rfl

theorem calm_requeueClasses (taskId : ℕ) (detail : Option String) (statuses : List ClassStatus) :
    (requeueClasses taskId detail statuses).Calm (Keeps S) := by
  refine .bind (calm_ask trivial fun _ => rfl) fun rows => Prog.calm_forM _ fun row _ => ?_
  split
  · exact calm_ask trivial fun _ => rfl
  · trivial

theorem calm_syncClass (taskId : ℕ) (result : ClassResult) :
    (syncClass taskId result).Calm (Keeps S) := by
  refine .bind (calm_ask trivial fun _ => rfl) fun found => ?_
  cases found with
  | none => trivial
  | some row =>
      refine .bind (calm_ask trivial fun _ => rfl) fun _ => ?_
      exact .bind (calm_ask trivial fun _ => rfl) fun _ => calm_event (by simp)

/-- What a calm program leaves in a durable database. -/
theorem calm_outcome {p : TaskProg α} (calm : p.Calm (Keeps S)) {w : World} (durable : Durable w) :
    ∃ a v, p.outcome Stmt.exec w = (.ok a, v) ∧ Durable v ∧ Within S w v := by
  obtain ⟨a, returns⟩ := calm.returns Stmt.exec w
  exact ⟨a, _, returns, outcome_durable p durable, outcome_within calm.only w⟩

/-- A task at work, or halted, is not legacy. -/
theorem engine_of_open {w : World} {taskId : ℕ} {row : RepoTask} (durable : Durable w)
    (found : w.tasks.find? taskId = some row) (begun : row.status ≠ .created)
    (open_ : ¬ row.status.Terminal) : row.engineBlocker = none := by
  by_contra legacy
  rcases durable row (Table.find?_some.mp found).1 legacy with created | closed
  · exact begun created
  · exact open_ closed

/-- The update that puts another open status in the row of a task at work succeeds. -/
theorem update_outcome {w : World} {taskId : ℕ} {old status : RepoStatus} (patch : TaskPatch)
    (durable : Durable w) (present : w.statusOf taskId = some old) (begun : old ≠ .created)
    (open_ : ¬ old.Terminal) (stores : patch.status = some status) :
    ∃ v, (updateRepoTask taskId patch).outcome Stmt.exec w = (.ok (), v) ∧ Durable v ∧
      v.preemptions = w.preemptions ∧
      ∀ other, v.statusOf other = if other = taskId then some status else w.statusOf other := by
  obtain ⟨row, found, rfl⟩ := Option.map_eq_some_iff.mp present
  have engine := engine_of_open durable found begun open_
  have write : (Stmt.updateRepoTask taskId patch).write w = .stored taskId status := by
    simp only [Stmt.write, stores]
    refine if_pos (.inr fun r same => ?_)
    rw [← Option.some.inj (found.symm.trans same)]
    exact engine
  have answer : ((Stmt.updateRepoTask taskId patch).exec w).1 = .ok () := by
    simp only [Stmt.exec, stores, found, requireDurableGenerationTask, engine]
    split <;> rfl
  refine ⟨((Stmt.updateRepoTask taskId patch).exec w).2, ?_, exec_durable _ durable,
    exec_preemptions (s := .updateRepoTask taskId patch) trivial w, fun other => ?_⟩
  · simp only [updateRepoTask, Prog.outcome]
    rw [answer]
    rfl
  · rw [statusOf_stored write]
    by_cases here : other = taskId
    · rw [if_pos here, if_pos here, here, present]
      rfl
    · rw [if_neg here, if_neg here]
end Within

/-! Programs that close no task. -/

/-- A statement that stores no terminal status. -/
def Opens (s : Stmt) : Prop := ∀ w taskId status, s.write w = .stored taskId status → ¬ status.Terminal

/-- No task has entered a terminal status. -/
def Unclosing (w v : World) : Prop :=
  ∀ taskId s, s.Terminal → v.statusOf taskId = some s → w.statusOf taskId = some s

theorem Unclosing.not_entered {w v : World} (unclosing : Unclosing w v) (taskId : ℕ) :
    ¬ Entered w v taskId := by
  unfold Entered
  cases after : v.statusOf taskId with
  | none => exact id
  | some s => exact fun entered => entered.2 (unclosing taskId s entered.1 after)

theorem unclosing_of_not_entered {w v : World} (open_ : ∀ taskId, ¬ Entered w v taskId) :
    Unclosing w v := by
  intro taskId status terminal after
  by_contra before
  apply open_ taskId
  unfold Entered
  rw [after]
  exact ⟨terminal, before⟩

theorem exec_unclosing {s : Stmt} (opens : Opens s) (w : World) : Unclosing w (s.exec w).2 := by
  refine unclosing_of_not_entered fun taskId entered => ?_
  obtain ⟨stored, write, closed, _⟩ := (entered_iff s w taskId).mp entered
  exact opens w taskId stored write closed

theorem outcome_unclosing {p : TaskProg Unit} (only : p.Only Opens) (w : World) :
    Unclosing w (p.outcome Stmt.exec w).2 := by
  refine Prog.outcome_relates _ (fun _ _ _ _ => id) ?_ (fun s => exec_unclosing) only w
  intro a b c first second taskId s terminal after
  exact first taskId s terminal (second taskId s terminal after)

instance : Routine fun (_ : Unit) s => Opens s where
  plain := by
    intro s plain _ w taskId status write
    cases s with
    | acquireNextTask runnerId args =>
        simp only [Stmt.write] at write
        split at write
        · obtain ⟨_, rfl⟩ := Write.stored.inj write
          decide
        · cases write
    | cleanRerun target args =>
        simp only [Stmt.write] at write
        split at write
        · obtain ⟨_, rfl⟩ := Write.stored.inj write
          decide
        · cases write
    | updateRepoTask => exact plain.elim
    | finishTask => exact plain.elim
    | _ => cases write
  event := fun _ _ _ _ _ write => nomatch write
  update := by
    intro taskId patch opens _ w target status write
    simp only [Stmt.write] at write
    split at write
    · cases write
    next stored stores =>
      split at write
      · obtain ⟨_, rfl⟩ := Write.stored.inj write
        exact opens stored stores
      · cases write

theorem opens_call (settings : Settings) {c : Call} (open_ : ¬ c.Closing) :
    (c.body settings).Only Opens := by
  refine Prog.only_of_safe (safe_open (fun urgentTaskId _ => safe_preempt ?_ urgentTaskId) open_)
  exact fun _ _ _ _ _ write => nomatch write
end Uta.Tasks
