/- When each entry of a task into a terminal status closes its event stream. -/
import Uta.Tasks.Terminal
import Uta.Tasks.Programs

namespace Uta.Tasks
open Uta.Lib

/-- The terminal events of a task. -/
def World.terminals (w : World) (taskId : ℕ) : List TaskEvent :=
  w.events.filter fun e => e.repoTaskId = taskId ∧ e.eventType = "task_terminal"

/-- The task has entered a terminal status. -/
def Entered (w v : World) (taskId : ℕ) : Prop :=
  match v.statusOf taskId with
  | some s => s.Terminal ∧ w.statusOf taskId ≠ some s
  | none => False

instance (w v : World) (taskId : ℕ) : Decidable (Entered w v taskId) := by
  unfold Entered
  split <;> infer_instance

/-- One terminal event of the task is appended if it has entered a terminal status,
as the last of its events, and else none. -/
def ClosesTask (w v : World) (taskId : ℕ) : Prop :=
  if Entered w v taskId then
    ∃ e, v.terminals taskId = w.terminals taskId ++ [e] ∧
      ∀ d ∈ v.events, d.repoTaskId = taskId → d = e ∨ d.id < e.id
  else v.terminals taskId = w.terminals taskId

/-- The turn closes the stream of every task that enters a terminal status in it. -/
def Closes (settings : Settings) (sys : TaskSystem) (turn : Turn Call) : Prop :=
  ∀ taskId, ClosesTask sys.store (taskTurn settings sys turn).store taskId

/-- An UPDATE stores a terminal status only in a row that has it already. -/
def Announced (_ : Call) (s : Stmt) (w : World) : Prop :=
  match s with
  | .updateRepoTask taskId patch =>
    ∀ status ∈ patch.status, status.Terminal → ∀ row ∈ w.tasks.find? taskId, row.status = status
  | _ => True

instance (c : Call) (s : Stmt) (w : World) : Decidable (Announced c s w) := by
  apply Stmt.casesOn (motive := fun s => Decidable (Announced c s w)) s <;> intros <;>
    unfold Announced <;> infer_instance

/-- A statement that adds a terminal event only to close a task. -/
def Mute : Stmt → Prop
  | .addEvent event => event.eventType ≠ "task_terminal"
  | .finishTask _ args => "task_terminal" ∉ args.summaryEventTypes
  | _ => True

/-! Events. -/

/-- The ids of the events grow. -/
def World.Ordered (w : World) : Prop := (w.events.map TaskEvent.id).Pairwise (· < ·)

namespace World
variable {w v : World} {taskId : ℕ}

/-- The id of the next event. -/
def nextEventId (w : World) : ℕ := (w.events.getLast?.map TaskEvent.id).getD 0 + 1

theorem lt_nextEventId (ordered : w.Ordered) {d : TaskEvent} (member : d ∈ w.events) :
    d.id < w.nextEventId := by
  unfold nextEventId
  rcases List.eq_nil_or_concat w.events with none_ | ⟨earlier, last, split⟩
  · rw [none_] at member
    cases member
  · rw [List.concat_eq_append] at split
    unfold Ordered at ordered
    rw [split, List.map_append] at ordered
    rw [split] at member ⊢
    rw [List.getLast?_append, List.getLast?_singleton]
    rcases List.mem_append.mp member with before | here
    · have below := (List.pairwise_append.mp ordered).2.2 d.id (List.mem_map_of_mem before) last.id
        (List.mem_map_of_mem List.mem_cons_self)
      exact Nat.lt_succ_of_lt below
    · rw [List.mem_singleton.mp here]
      exact Nat.lt_succ_self _

/-- One event is appended. -/
def Appends (w v : World) (e : EventArgs) : Prop :=
  ∃ now, v.events = w.events ++ [e.row w.nextEventId now]

theorem appends_addEvent (w : World) (e : EventArgs) : Appends w (w.addEvent e.row) e := ⟨_, rfl⟩

theorem Appends.ordered {e : EventArgs} (appends : Appends w v e) (ordered : w.Ordered) : v.Ordered := by
  obtain ⟨now, events⟩ := appends
  unfold Ordered
  rw [events, List.map_append, List.pairwise_append]
  refine ⟨ordered, List.pairwise_singleton _ _, ?_⟩
  intro n old m new
  obtain ⟨d, member, rfl⟩ := List.mem_map.mp old
  rw [List.mem_singleton.mp new]
  exact lt_nextEventId ordered member

theorem Appends.silent {e : EventArgs} (appends : Appends w v e)
    (silent : ¬ (e.taskId = taskId ∧ e.eventType = "task_terminal")) :
    v.terminals taskId = w.terminals taskId := by
  obtain ⟨now, events⟩ := appends
  unfold terminals
  rw [events, List.filter_append]
  refine (congrArg _ (List.filter_cons_of_neg ?_)).trans (List.append_nil _)
  exact fun terminal => silent (of_decide_eq_true terminal)

/-- A terminal event is the last of its task. -/
theorem Appends.terminal {e : EventArgs} (appends : Appends w v e) (ordered : w.Ordered)
    (terminal : e.taskId = taskId ∧ e.eventType = "task_terminal") :
    ∃ last, v.terminals taskId = w.terminals taskId ++ [last] ∧
      ∀ d ∈ v.events, d.repoTaskId = taskId → d = last ∨ d.id < last.id := by
  obtain ⟨now, events⟩ := appends
  refine ⟨e.row w.nextEventId now, ?_, ?_⟩
  · unfold terminals
    rw [events, List.filter_append]
    exact congrArg _ (List.filter_cons_of_pos (decide_eq_true terminal))
  · intro d member _
    rw [events] at member
    rcases List.mem_append.mp member with old | new
    · exact .inr (lt_nextEventId ordered old)
    · exact .inl (List.mem_singleton.mp new)

theorem ordered_addEvents (es : List EventArgs) (ordered : w.Ordered) : (addEvents es w).Ordered := by
  induction es generalizing w with
  | nil => exact ordered
  | cons e es ih => exact ih ((appends_addEvent w e).ordered ordered)

theorem terminals_of_events (same : v.events = w.events) : v.terminals taskId = w.terminals taskId := by
  unfold terminals
  rw [same]

theorem terminals_addEvents (es : List EventArgs) (silent : ∀ e ∈ es, e.eventType ≠ "task_terminal")
    (w : World) (taskId : ℕ) : (addEvents es w).terminals taskId = w.terminals taskId := by
  induction es generalizing w with
  | nil => rfl
  | cons e es ih =>
      refine (ih (fun d member => silent d (List.mem_cons_of_mem e member)) _).trans ?_
      exact (appends_addEvent w e).silent fun terminal => silent e List.mem_cons_self terminal.2

theorem addEvents_append (es : List EventArgs) (e : EventArgs) (w : World) :
    addEvents (es ++ [e]) w = (addEvents es w).addEvent e.row := by
  induction es generalizing w with
  | nil => rfl
  | cons d es ih => exact ih (w.addEvent d.row)

theorem requeueClasses_events (rows : List ClassTask) (patch : ClassTask → ClassPatch) (w : World) :
    (rows.foldl (fun w c => w.updateClassTask c.id (patch c)) w).events = w.events := by
  induction rows generalizing w with
  | nil => rfl
  | cons c rows ih => exact ih (w.updateClassTask c.id (patch c))

end World
/-! Statements. -/

section Steps
variable {w : World} {taskId : ℕ}

/-- The statements that leave the events as they are. -/
def Silent : Stmt → Prop
  | .addEvent _ | .finishTask .. | .cleanRerun .. => False
  | _ => True

theorem exec_events {s : Stmt} (silent : Silent s) (w : World) : (s.exec w).2.events = w.events := by
  cases s with
  | addEvent e => exact silent.elim
  | finishTask taskId args => exact silent.elim
  | cleanRerun taskId args => exact silent.elim
  | updateRepoTask taskId patch =>
      simp only [Stmt.exec]
      split
      · split
        · rfl
        · split <;> rfl
      · rfl
  | acquireNextTask runnerId args =>
      simp only [Stmt.exec]
      split <;> rfl
  | createClassTask taskId classFqn priority =>
      simp only [Stmt.exec, World.createClassTask]
      split <;> rfl
  | upsertHeartbeat runnerId taskId status message =>
      simp only [Stmt.exec, World.upsertHeartbeat]
      split <;> rfl
  | _ => rfl

/-- The event of a clean rerun. -/
def rerunEvent (taskId : ℕ) (args : RerunArgs) : EventArgs where
  taskId := taskId
  eventType := "generation_cycle_clean_rerun_requested"
  message := "Clean generation rerun requested"
  stage := some "queued"
  severity := "WARNING"
  payload := [("reason", .text (String.ofList (PyText.strip args.reason.toList)))]

theorem cleanRerun_events (w : World) (taskId : ℕ) (args : RerunArgs) :
    (w.cleanRerun taskId args).2.events = w.events ∨
      World.Appends w (w.cleanRerun taskId args).2 (rerunEvent taskId args) := by
  unfold World.cleanRerun
  split
  · exact .inl rfl
  · right
    let requeued := (w.listClassTasks taskId).foldl (fun w c =>
      w.updateClassTask c.id
        (if World.requeueStatuses args c.status then World.rerunClassPatch else {})) w
    have same : requeued.events = w.events := World.requeueClasses_events _ _ w
    refine ⟨requeued.now, ?_⟩
    unfold World.nextEventId
    rw [← same]
    rfl

/-- What closing a task leaves. -/
theorem finishTask_world (w : World) (taskId : ℕ) (args : FinishArgs) :
    (w.finishTask taskId args).2 =
      if ¬ args.status.Terminal then w
      else
        match w.tasks.find? taskId with
        | none => w
        | some prior =>
          if prior.status = args.status ∧ w.terminals taskId ≠ [] then
            w.updateRepoTask taskId (World.finishPatch args w.now)
          else World.addEvents (World.terminalEvents taskId args)
            (w.updateRepoTask taskId (World.finishPatch args w.now)) := by
  have last : w.lastTerminal taskId = none ↔ w.terminals taskId = [] := by
    unfold World.lastTerminal World.terminals
    rw [Option.map_eq_none_iff, List.getLast?_eq_none_iff]
  unfold World.finishTask
  split
  · rfl
  · cases w.tasks.find? taskId with
    | none => rfl
    | some prior =>
        dsimp only
        by_cases same : prior.status = args.status
        · rw [if_pos same]
          cases found : w.lastTerminal taskId with
          | none => rw [if_neg (fun both => both.2 (last.mp found))]
          | some terminal =>
              have some_ : w.terminals taskId ≠ [] := by
                intro none_
                rw [last.mpr none_] at found
                cases found
              rw [if_pos ⟨same, some_⟩]
        · rw [if_neg same, if_neg (fun both => same both.1)]

theorem exec_ordered (s : Stmt) (ordered : w.Ordered) : (s.exec w).2.Ordered := by
  by_cases silent : Silent s
  · unfold World.Ordered
    rw [exec_events silent]
    exact ordered
  · cases s with
    | addEvent e => exact (World.appends_addEvent w e).ordered ordered
    | cleanRerun taskId args =>
        rcases cleanRerun_events w taskId args with same | appends
        · unfold World.Ordered
          exact same ▸ ordered
        · exact appends.ordered ordered
    | finishTask taskId args =>
        change (w.finishTask taskId args).2.Ordered
        rw [finishTask_world]
        split
        · exact ordered
        · split
          · exact ordered
          · split
            · exact ordered
            · exact World.ordered_addEvents _ ordered
    | _ => exact absurd trivial silent

/-! Entries. -/

theorem not_entered_of_same {v : World} (same : v.statusOf taskId = w.statusOf taskId) :
    ¬ Entered w v taskId := by
  unfold Entered
  rw [same]
  cases w.statusOf taskId with
  | none => exact id
  | some s => exact fun entered => entered.2 rfl

/-- A new task is created. -/
theorem statusOf_opened_absent {s : Stmt} {opened : ℕ} {repoPath : String}
    (write : s.write w = .opened opened repoPath) (absent : w.statusOf taskId = none) :
    (s.exec w).2.statusOf taskId = none ∨ (s.exec w).2.statusOf taskId = some .created := by
  rw [statusOf_board] at absent
  rw [statusOf_board, exec_board, write]
  simp only [Write.on]
  by_cases fresh : opened ∉ w.board.rows.map Entry.id
  · rw [dif_pos fresh, Table.find?_insert]
    split
    · exact .inr rfl
    · exact .inl absent
  · rw [dif_neg fresh]
    exact .inl absent

/-- Only the status that a statement stores may be entered. -/
theorem entered_iff (s : Stmt) (w : World) (taskId : ℕ) :
    Entered w (s.exec w).2 taskId ↔
      ∃ status, s.write w = .stored taskId status ∧ status.Terminal ∧
        ∃ row ∈ w.tasks.find? taskId, row.status ≠ status := by
  have current : ∀ row, w.tasks.find? taskId = some row → w.statusOf taskId = some row.status := by
    intro row found
    rw [World.statusOf, found]
    rfl
  constructor
  · intro entered
    rcases write : s.write w with _ | ⟨opened, repoPath⟩ | ⟨stored, status⟩
    · exact absurd entered (not_entered_of_same (statusOf_nothing write taskId))
    · unfold Entered at entered
      cases before : w.statusOf taskId with
      | some old =>
          rw [statusOf_opened write before] at entered
          exact absurd before entered.2
      | none =>
          have open_ : ¬ RepoStatus.created.Terminal := by decide
          rcases statusOf_opened_absent write before with after | after <;> rw [after] at entered
          · exact entered.elim
          · exact absurd entered.1 open_
    · by_cases same : stored = taskId
      · subst same
        unfold Entered at entered
        rw [statusOf_stored write, if_pos rfl] at entered
        cases found : w.tasks.find? stored with
        | none =>
            rw [World.statusOf, found] at entered
            exact entered.elim
        | some row =>
            rw [current row found] at entered
            exact ⟨status, rfl, entered.1, row, rfl, fun old => entered.2 (congrArg some old)⟩
      · refine absurd entered (not_entered_of_same ?_)
        rw [statusOf_stored write, if_neg (Ne.symm same)]
  · rintro ⟨status, write, terminal, row, found, other⟩
    unfold Entered
    rw [statusOf_stored write, if_pos rfl, current row found]
    exact ⟨terminal, fun same => other (Option.some.inj same)⟩

/-! The law. -/

theorem closesTask_of_not_entered {v : World} (open_ : ¬ Entered w v taskId) :
    ClosesTask w v taskId ↔ v.terminals taskId = w.terminals taskId := by
  unfold ClosesTask
  rw [if_neg open_]

theorem not_closesTask {v : World} (entered : Entered w v taskId) (silent : v.events = w.events) :
    ¬ ClosesTask w v taskId := by
  unfold ClosesTask
  rw [if_pos entered]
  rintro ⟨e, appended, _⟩
  rw [World.terminals_of_events silent] at appended
  have length := congrArg List.length appended
  rw [List.length_append, List.length_singleton] at length
  omega

/-- The events are ordered, and a task in a terminal status has a terminal event. -/
structure Streamed (w : World) : Prop where
  ordered : w.Ordered
  closed : ∀ taskId s, w.statusOf taskId = some s → s.Terminal → w.terminals taskId ≠ []

theorem Streamed.step {s : Stmt} (streamed : Streamed w)
    (closes : ∀ taskId, ClosesTask w (s.exec w).2 taskId) : Streamed (s.exec w).2 := by
  refine ⟨exec_ordered s streamed.ordered, fun taskId status after terminal => ?_⟩
  have law := closes taskId
  by_cases entered : Entered w (s.exec w).2 taskId
  · unfold ClosesTask at law
    rw [if_pos entered] at law
    obtain ⟨e, appended, _⟩ := law
    rw [appended]
    exact List.append_ne_nil_of_right_ne_nil _ (List.cons_ne_nil e [])
  · rw [(closesTask_of_not_entered entered).mp law]
    refine streamed.closed taskId status ?_ terminal
    by_contra different
    apply entered
    unfold Entered
    rw [after]
    exact ⟨terminal, different⟩

theorem terminalEvents_split (target : ℕ) {args : FinishArgs}
    (mute : "task_terminal" ∉ args.summaryEventTypes) :
    ∃ summaries e, World.terminalEvents target args = summaries ++ [e] ∧
      (e.taskId = target ∧ e.eventType = "task_terminal") ∧
      ∀ d ∈ summaries, d.eventType ≠ "task_terminal" := by
  refine ⟨_, _, rfl, ⟨rfl, rfl⟩, ?_⟩
  intro d member
  obtain ⟨eventType, listed, rfl⟩ := List.mem_map.mp member
  rintro rfl
  exact mute listed

/-- The events that close a task end with its only new terminal event. -/
theorem addEvents_terminal {v : World} (ordered : v.Ordered) (target : ℕ) {args : FinishArgs}
    (mute : "task_terminal" ∉ args.summaryEventTypes) :
    let closed := World.addEvents (World.terminalEvents target args) v
    (∃ e, closed.terminals target = v.terminals target ++ [e] ∧
      ∀ d ∈ closed.events, d.repoTaskId = target → d = e ∨ d.id < e.id) ∧
    ∀ other, target ≠ other → closed.terminals other = v.terminals other := by
  obtain ⟨summaries, e, split, terminal, silent⟩ := terminalEvents_split target mute
  dsimp only
  rw [split, World.addEvents_append]
  have appends := World.appends_addEvent (World.addEvents summaries v) e
  constructor
  · obtain ⟨last, appended, latest⟩ :=
      appends.terminal (World.ordered_addEvents summaries ordered) terminal
    rw [World.terminals_addEvents summaries silent] at appended
    exact ⟨last, appended, latest⟩
  · intro other different
    refine (appends.silent fun here => different (terminal.1.symm.trans here.1)).trans ?_
    exact World.terminals_addEvents summaries silent v other

/-- Closing a task is lawful. -/
theorem finishTask_closes (streamed : Streamed w) (target : ℕ) {args : FinishArgs}
    (mute : "task_terminal" ∉ args.summaryEventTypes) (taskId : ℕ) :
    ClosesTask w ((Stmt.finishTask target args).exec w).2 taskId := by
  have world := finishTask_world w target args
  have entry := entered_iff (.finishTask target args) w taskId
  change Entered w (w.finishTask target args).2 taskId ↔ _ at entry
  change ClosesTask w (w.finishTask target args).2 taskId
  by_cases terminal : args.status.Terminal
  swap
  · rw [if_pos terminal] at world
    rw [world]
    exact (closesTask_of_not_entered (not_entered_of_same rfl)).mpr rfl
  rw [if_neg (not_not_intro terminal)] at world
  simp only [Stmt.write, if_pos terminal, Write.stored.injEq] at entry
  cases found : w.tasks.find? target with
  | none =>
      rw [found] at world
      rw [world]
      exact (closesTask_of_not_entered (not_entered_of_same rfl)).mpr rfl
  | some prior =>
      rw [found] at world
      dsimp only at world
      by_cases same : prior.status = args.status
      · have current : w.statusOf target = some args.status := by
          rw [World.statusOf, found, ← same]
          rfl
        rw [if_pos ⟨same, streamed.closed target args.status current terminal⟩] at world
        refine (closesTask_of_not_entered ?_).mpr ?_
        · rw [entry]
          rintro ⟨status, ⟨rfl, rfl⟩, _, row, present, other⟩
          obtain rfl := Option.some.inj (found.symm.trans present)
          exact other same
        · rw [world]
          exact World.terminals_of_events rfl
      · rw [if_neg (fun both => same both.1)] at world
        have updated : (w.updateRepoTask target (World.finishPatch args w.now)).Ordered := streamed.ordered
        obtain ⟨closes, elsewhere⟩ := addEvents_terminal updated target mute
        rw [← world] at closes elsewhere
        by_cases here : target = taskId
        · subst here
          unfold ClosesTask
          rw [if_pos (entry.mpr ⟨args.status, ⟨rfl, rfl⟩, terminal, prior, found, same⟩)]
          exact closes
        · refine (closesTask_of_not_entered ?_).mpr (elsewhere taskId here)
          rw [entry]
          rintro ⟨status, ⟨own, _⟩, _⟩
          exact here own

/-- A statement that adds no event is lawful if no task enters a terminal status. -/
theorem closes_silent_iff {s : Stmt} (silent : Silent s) :
    (∀ taskId, ClosesTask w (s.exec w).2 taskId) ↔ ∀ taskId, ¬ Entered w (s.exec w).2 taskId := by
  have events := exec_events silent w
  constructor
  · exact fun closes taskId entered => not_closesTask entered events (closes taskId)
  · intro open_ taskId
    exact (closesTask_of_not_entered (open_ taskId)).mpr (World.terminals_of_events events)

theorem update_closes_iff (c : Call) (w : World) (target : ℕ) (patch : TaskPatch) :
    (∀ taskId, ClosesTask w ((Stmt.updateRepoTask target patch).exec w).2 taskId) ↔
      Announced c (.updateRepoTask target patch) w := by
  have silent : Silent (.updateRepoTask target patch) := trivial
  rw [closes_silent_iff silent]
  simp only [entered_iff, Announced, Stmt.write]
  constructor
  · rintro open_ status stores terminal row found
    by_contra other
    refine open_ target ⟨status, ?_, terminal, row, found, other⟩
    rw [Option.mem_def.mp stores]
    dsimp only
    rw [if_pos (.inl terminal)]
  · rintro announced taskId ⟨status, write, terminal, row, found, other⟩
    split at write
    · cases write
    · next stores =>
      split at write
      · obtain ⟨rfl, rfl⟩ := Write.stored.inj write
        exact other (announced _ stores terminal row found)
      · cases write

/-- A statement is lawful exactly when it is announced. -/
theorem closes_exec_iff {s : Stmt} (c : Call) (streamed : Streamed w) (mute : Mute s) :
    (∀ taskId, ClosesTask w (s.exec w).2 taskId) ↔ Announced c s w := by
  have open_ : ∀ {s : Stmt}, Silent s → (∀ taskId status, s.write w = .stored taskId status →
      ¬ status.Terminal) → ∀ taskId, ClosesTask w (s.exec w).2 taskId := by
    intro s silent stores
    refine (closes_silent_iff silent).mpr fun taskId entered => ?_
    obtain ⟨status, write, terminal, _⟩ := (entered_iff s w taskId).mp entered
    exact stores taskId status write terminal
  cases s with
  | updateRepoTask target patch => exact update_closes_iff c w target patch
  | finishTask target args => exact ⟨fun _ => trivial, fun _ => finishTask_closes streamed target mute⟩
  | addEvent e =>
      refine ⟨fun _ => trivial, fun _ taskId => (closesTask_of_not_entered ?_).mpr ?_⟩
      · exact not_entered_of_same rfl
      · exact (World.appends_addEvent w e).silent fun terminal => mute terminal.2
  | cleanRerun target args =>
      refine ⟨fun _ => trivial, fun _ taskId => (closesTask_of_not_entered ?_).mpr ?_⟩
      · rw [entered_iff]
        rintro ⟨status, write, terminal, _⟩
        simp only [Stmt.write] at write
        split at write
        · obtain ⟨_, rfl⟩ := Write.stored.inj write
          revert terminal
          decide
        · cases write
      · rcases cleanRerun_events w target args with same | appends
        · exact World.terminals_of_events same
        · have other : "generation_cycle_clean_rerun_requested" ≠ "task_terminal" := by decide
          exact appends.silent fun terminal => other terminal.2
  | acquireNextTask runnerId args =>
      refine ⟨fun _ => trivial, fun _ => open_ trivial ?_⟩
      intro taskId status write
      simp only [Stmt.write] at write
      split at write
      · obtain ⟨_, rfl⟩ := Write.stored.inj write
        decide
      · cases write
  | createRepoTask repoPath priority engineBlocker =>
      refine ⟨fun _ => trivial, fun _ => open_ trivial fun _ _ write => ?_⟩
      cases write
  | _ =>
      refine ⟨fun _ => trivial, fun _ => open_ trivial fun _ _ write => ?_⟩
      cases write

end Steps
/-! Programs. -/

/-- The statements of a failure add no terminal event of their own. -/
instance : Failing fun (_ : Unit) s => Mute s where
  plain := by
    intro s plain _
    cases s <;> trivial
  event := fun other _ terminal => other (by rw [terminal]; decide)
  update := fun _ _ _ _ => trivial
  settle := fun _ _ _ _ => trivial
  finish := fun _ _ _ unmarked _ terminal => unmarked _ terminal (by decide)
  failed := fun failed _ => by simp [Mute, failed]
  store := fun _ _ _ => trivial
  close := fun _ _ types _ => by
    rcases types with types | types <;> simp [Mute, types]

/-- Terminal events are only added to close a task. -/
theorem mute_body (settings : Settings) (c : Call) : (c.body settings).Only Mute := by
  refine Prog.only_of_safe (safe_body (safe_markFailed _) safe_syncResults ?_ fun urgent _ => ?_)
  · intro taskId message k
    exact guarded_finish (by simp [Mute])
  · exact safe_preempt (fun preempted _ => by simp [Mute, preempted]) urgent

/-! Runs. -/

/-- The database is streamed, and no call adds a terminal event of its own. -/
def Streaming (sys : TaskSystem) : Prop := Streamed sys.store ∧ System.Only Mute sys

theorem turn_closes_iff (settings : Settings) (sys : TaskSystem) (turn : Turn Call)
    (streaming : Streaming sys) :
    Closes settings sys turn ↔ System.Allowed Announced sys turn := by
  unfold Closes taskTurn System.Allowed
  rw [System.turn_store]
  rcases executed : sys.executes turn with _ | ⟨c, s⟩
  · refine ⟨fun _ => trivial, fun _ taskId => ?_⟩
    exact (closesTask_of_not_entered (not_entered_of_same rfl)).mpr rfl
  · exact closes_exec_iff c streaming.1 (System.executes_only streaming.2 executed)

theorem streaming_turn (settings : Settings) (sys : TaskSystem) (turn : Turn Call)
    (streaming : Streaming sys) (closes : Closes settings sys turn) :
    Streaming (taskTurn settings sys turn) := by
  refine ⟨?_, System.turn_only (mute_body settings) sys turn streaming.2⟩
  unfold Closes at closes
  unfold taskTurn at closes ⊢
  rw [System.turn_store] at closes ⊢
  rcases executed : sys.executes turn with _ | ⟨c, s⟩
  · exact streaming.1
  · rw [executed] at closes
    exact streaming.1.step closes

/-- In any interleaving every entry into a terminal status closes the stream of its
task exactly when only `finish_task_with_terminal_event` makes such an entry. -/
theorem closes_iff_announced (settings : Settings) (runnerIds : List String)
    (turns : List (Turn Call)) :
    Meets (taskTurn settings) (Closes settings) (initialSystem runnerIds) turns ↔
      Meets (taskTurn settings) (System.Allowed Announced) (initialSystem runnerIds) turns := by
  refine meets_iff _ (turn_closes_iff settings) (streaming_turn settings) _ turns ⟨⟨?_, ?_⟩, ?_⟩
  · exact List.Pairwise.nil
  · intro taskId s present
    cases present
  · exact fun t member => nomatch member

/-- A task is completed and resumed, and the results of its second run are synced
up to the update of the task. -/
def resumedTurns : List (Turn Call) :=
  Turn.inOrder 12 [
    .create "/srv/repo" 100 none ["demo.App"], .acquire "daemon" {} [] [],
    .markRunning 1 "startup" none, .markCompleted 1 "Task completed", .resume 1 false true,
    .acquire "daemon" {} [] [], .markRunning 1 "startup" none] ++
  .call (.syncResults 1 [⟨"demo.App", .pass, none, none⟩] none) :: List.replicate 8 (.go 7)

/-- The rest of the sync, and the report that the run is complete. -/
def reportTurns : List (Turn Call) :=
  List.replicate 4 (.go 7) ++ .call (.markCompleted 1 "Task completed") :: List.replicate 4 (.go 8)

/-- The second completion has no terminal event, also after the report. -/
theorem resumed_completion_unclosed :
    ¬ Meets (taskTurn ⟨3, 120000000⟩) (Closes ⟨3, 120000000⟩) (initialSystem ["daemon"])
      (resumedTurns ++ .go 7 :: reportTurns) := by
  rw [meets_append]
  rintro ⟨_, closes, _⟩
  have unclosed :
      let sys := run (taskTurn ⟨3, 120000000⟩) (initialSystem ["daemon"]) resumedTurns
      Entered sys.store (taskTurn ⟨3, 120000000⟩ sys (.go 7)).store 1 ∧
        (taskTurn ⟨3, 120000000⟩ sys (.go 7)).store.events = sys.store.events := by
    decide +kernel
  generalize run (taskTurn ⟨3, 120000000⟩) (initialSystem ["daemon"]) resumedTurns = sys
    at closes unclosed
  exact not_closesTask unclosed.1 unclosed.2 (closes 1)

end Uta.Tasks
