/- The board: what of the task rows decides who runs what, and what each
statement writes on it. -/
import Uta.Tasks.Daemon

namespace Uta.Tasks
open Uta.Lib

structure Entry where
  id : ℕ
  repoPath : String
  status : RepoStatus
  deriving DecidableEq, Repr

abbrev Board := Table Entry.id

def RepoTask.entry (r : RepoTask) : Entry := ⟨r.id, r.repoPath, r.status⟩

@[simp] theorem RepoTask.entry_id (r : RepoTask) : r.entry.id = r.id := rfl

def World.board (w : World) : Board where
  rows := w.tasks.rows.map RepoTask.entry
  unique := by
    rw [List.map_map]
    exact w.tasks.unique

def Entry.store (status : RepoStatus) (e : Entry) : Entry := { e with status }

@[simp] theorem Entry.store_id (status : RepoStatus) (e : Entry) : (e.store status).id = e.id := rfl

inductive Write where
  | nothing
  | opened (taskId : ℕ) (repoPath : String)
  | stored (taskId : ℕ) (status : RepoStatus)
  deriving DecidableEq, Repr

def Write.on : Write → Board → Board
  | .nothing, b => b
  | .opened taskId repoPath, b =>
    if fresh : taskId ∉ b.rows.map Entry.id then b.insert ⟨taskId, repoPath, .created⟩ fresh else b
  | .stored taskId status, b => b.modify taskId (Entry.store status) (Entry.store_id status)

/-- The status that a statement stores, where it stores one. -/
def Stmt.write (w : World) : Stmt → Write
  | .createRepoTask repoPath _ _ => .opened w.nextTaskId repoPath
  | .updateRepoTask taskId patch =>
    match patch.status with
    | none => .nothing
    | some s =>
      if s.Terminal ∨ ∀ row ∈ w.tasks.find? taskId, row.engineBlocker = none then .stored taskId s
      else .nothing
  | .finishTask taskId args => if args.status.Terminal then .stored taskId args.status else .nothing
  | .acquireNextTask _ args =>
    match w.firstEligible args.allowSameRepoConcurrency (w.queue args) with
    | .ok (some r) => .stored r.id .running
    | _ => .nothing
  | .cleanRerun taskId args =>
    match w.rerunRefusal taskId args with
    | none => .stored taskId .queued
    | some _ => .nothing
  | _ => .nothing

section
-- The equations are made here, once, for the lemmas that follow.
attribute [local simp] Stmt.write
end

/-! Updates. -/

namespace World

theorem board_of_tasks {w v : World} (same : v.tasks = w.tasks) : v.board = w.board := by
  apply Table.ext_rows
  simp only [board, same]

theorem find?_board (w : World) (taskId : ℕ) :
    w.board.find? taskId = (w.tasks.find? taskId).map RepoTask.entry := by
  unfold Table.find? board
  rw [List.find?_map]
  rfl

theorem updateTask_board {w : World} {taskId : ℕ} {f : RepoTask → RepoTask}
    {same : ∀ r, (f r).id = r.id} {g : Entry → Entry} {kept : ∀ e, (g e).id = e.id}
    (stored : ∀ r, (f r).entry = g r.entry) :
    (w.updateTask taskId f same).board = w.board.modify taskId g kept := by
  apply Table.ext_rows
  simp only [board, updateTask, Table.modify_rows, List.map_map]
  apply List.map_congr_left
  intro r _
  change (if r.id = taskId then f r else r).entry = if r.id = taskId then g r.entry else r.entry
  by_cases hit : r.id = taskId
  · rw [if_pos hit, if_pos hit]
    exact stored r
  · rw [if_neg hit, if_neg hit]

theorem updateTask_board_same {w : World} {taskId : ℕ} {f : RepoTask → RepoTask}
    {same : ∀ r, (f r).id = r.id} (kept : ∀ r, (f r).entry = r.entry) :
    (w.updateTask taskId f same).board = w.board := by
  have board : (w.updateTask taskId f same).board = w.board.modify taskId id fun _ => rfl :=
    updateTask_board kept
  rw [board]
  exact Table.modify_id _ _ _ _ fun _ _ => rfl

theorem updateRepoTask_board_some (w : World) (taskId : ℕ) {patch : TaskPatch} {s : RepoStatus}
    (stored : patch.status = some s) :
    (w.updateRepoTask taskId patch).board =
      w.board.modify taskId (Entry.store s) fun _ => rfl := by
  apply updateTask_board
  intro r
  simp only [TaskPatch.apply, RepoTask.entry, Entry.store, stored, Option.getD_some]

theorem updateRepoTask_board_none {w : World} {taskId : ℕ} {patch : TaskPatch}
    (silent : patch.status = none) : (w.updateRepoTask taskId patch).board = w.board := by
  apply updateTask_board_same
  intro r
  simp only [TaskPatch.apply, RepoTask.entry, silent, Option.getD_none]

@[simp] theorem addEvents_tasks (es : List EventArgs) (w : World) :
    (addEvents es w).tasks = w.tasks := by
  induction es generalizing w with
  | nil => rfl
  | cons e es ih => exact ih (w.addEvent e.row)

theorem requeueClasses_tasks (rows : List ClassTask) (patch : ClassTask → ClassPatch) (w : World) :
    (rows.foldl (fun w c => w.updateClassTask c.id (patch c)) w).tasks = w.tasks := by
  induction rows generalizing w with
  | nil => rfl
  | cons c rows ih => exact ih (w.updateClassTask c.id (patch c))

theorem upsertHeartbeat_tasks (w : World) (h : Heartbeat) : (w.upsertHeartbeat h).tasks = w.tasks := by
  unfold upsertHeartbeat
  split <;> rfl

theorem createClassTask_tasks (w : World) (taskId : ℕ) (classFqn : String) (priority : Int) :
    (w.createClassTask taskId classFqn priority).tasks = w.tasks := by
  unfold createClassTask
  split <;> rfl

end World

/-! Statements. -/

section Exec
variable (w : World)

theorem create_board (repoPath : String) (priority : Int) (engineBlocker : Option String) :
    (w.createRepoTask repoPath priority engineBlocker).board =
      (Write.opened w.nextTaskId repoPath).on w.board := by
  have fresh : w.nextTaskId ∉ w.board.rows.map Entry.id := by
    have ids : w.board.rows.map Entry.id = w.tasks.rows.map RepoTask.id := by
      unfold World.board
      rw [List.map_map]
      rfl
    rw [ids]
    exact World.foldr_max_fresh _
  simp only [Write.on, dif_pos fresh]
  apply Table.ext_rows
  exact List.map_append

theorem update_board (taskId : ℕ) (patch : TaskPatch) :
    ((Stmt.updateRepoTask taskId patch).exec w).2.board =
      ((Stmt.updateRepoTask taskId patch).write w).on w.board := by
  simp only [Stmt.exec, Stmt.write]
  rcases stored : patch.status with _ | s
  · exact World.updateRepoTask_board_none stored
  · have board := World.updateRepoTask_board_some w taskId stored
    rcases found : w.tasks.find? taskId with _ | row
    · simp only [Option.not_mem_none, false_imp_iff, implies_true, or_true, if_true]
      exact board
    · simp only [Option.mem_def, Option.some.injEq, forall_eq']
      by_cases terminal : s.Terminal
      · rw [if_pos terminal, if_pos (.inl terminal)]
        exact board
      · rw [if_neg terminal]
        rcases blocker : row.engineBlocker with _ | reason
        · rw [if_pos (.inr rfl), requireDurableGenerationTask, blocker]
          exact board
        · rw [if_neg (by simp [terminal]), requireDurableGenerationTask, blocker]
          rfl

theorem finish_board (taskId : ℕ) (args : FinishArgs) :
    ((Stmt.finishTask taskId args).exec w).2.board =
      ((Stmt.finishTask taskId args).write w).on w.board := by
  simp only [Stmt.exec, World.finishTask, Stmt.write]
  by_cases terminal : args.status.Terminal
  · rw [if_neg (not_not.mpr terminal), if_pos terminal]
    have stored : (World.finishPatch args w.now).status = some args.status := rfl
    have board := World.updateRepoTask_board_some w taskId stored
    rcases found : w.tasks.find? taskId with _ | prior
    · have absent : w.board.find? taskId = none := by rw [World.find?_board, found]; rfl
      have untouched : w.board.modify taskId (Entry.store args.status) (fun _ => rfl) = w.board := by
        apply Table.modify_id
        intro e present
        rw [absent] at present
        cases present
      exact untouched.symm
    · simp only []
      split
      · exact board
      · exact (World.board_of_tasks (World.addEvents_tasks _ _)).trans board
  · rw [if_pos terminal, if_neg terminal]
    rfl

theorem acquire_board (runnerId : String) (args : AcquireArgs) :
    ((Stmt.acquireNextTask runnerId args).exec w).2.board =
      ((Stmt.acquireNextTask runnerId args).write w).on w.board := by
  simp only [Stmt.exec, Stmt.write]
  rcases w.firstEligible args.allowSameRepoConcurrency (w.queue args) with e | _ | r
  · rfl
  · rfl
  · have board : (w.updateTask r.id (World.acquiredRow w.now) fun _ => rfl).board =
        w.board.modify r.id (Entry.store .running) fun _ => rfl :=
      World.updateTask_board fun _ => rfl
    exact board

theorem cleanRerun_board (taskId : ℕ) (args : RerunArgs) :
    ((Stmt.cleanRerun taskId args).exec w).2.board =
      ((Stmt.cleanRerun taskId args).write w).on w.board := by
  simp only [Stmt.exec, World.cleanRerun, Stmt.write]
  rcases w.rerunRefusal taskId args with _ | e
  · have board : ∀ v : World, v.tasks = w.tasks →
        (v.updateTask taskId (fun r => (World.rerunTaskPatch r).apply w.now r) fun _ => rfl).board =
          w.board.modify taskId (Entry.store .queued) fun _ => rfl := by
      intro v same
      rw [← World.board_of_tasks same]
      exact World.updateTask_board fun _ => rfl
    exact board _ (World.requeueClasses_tasks _ _ w)
  · rfl

/-- A statement does to the board what its write does. -/
theorem exec_board (s : Stmt) : (s.exec w).2.board = (s.write w).on w.board := by
  cases s with
  | createRepoTask repoPath priority engineBlocker => exact create_board w repoPath priority engineBlocker
  | updateRepoTask taskId patch => exact update_board w taskId patch
  | finishTask taskId args => exact finish_board w taskId args
  | acquireNextTask runnerId args => exact acquire_board w runnerId args
  | cleanRerun taskId args => exact cleanRerun_board w taskId args
  | upsertHeartbeat runnerId taskId status message =>
      exact World.board_of_tasks (World.upsertHeartbeat_tasks w _)
  | createClassTask taskId classFqn priority =>
      exact World.board_of_tasks (World.createClassTask_tasks w taskId classFqn priority)
  | _ => exact World.board_of_tasks rfl

end Exec

/-! The queue. -/

theorem firstEligible_free {w : World} {rows : List RepoTask} {row : RepoTask}
    (chosen : w.firstEligible false rows = .ok (some row)) : ¬ w.ActiveSibling row.repoPath row.id := by
  induction rows with
  | nil => cases chosen
  | cons r rest ih =>
      unfold World.firstEligible at chosen
      split at chosen
      · cases chosen
      · split at chosen
        · exact ih chosen
        next free =>
          cases chosen
          exact fun busy => free ⟨rfl, busy⟩

theorem firstEligible_mem {w : World} {allow : Bool} {rows : List RepoTask} {row : RepoTask}
    (chosen : w.firstEligible allow rows = .ok (some row)) : row ∈ rows := by
  induction rows with
  | nil => cases chosen
  | cons r rest ih =>
      unfold World.firstEligible at chosen
      split at chosen
      · cases chosen
      · split at chosen
        · exact List.mem_cons_of_mem _ (ih chosen)
        · cases chosen
          exact List.mem_cons_self

theorem mem_queue {w : World} {args : AcquireArgs} {row : RepoTask} (queued : row ∈ w.queue args) :
    row ∈ w.tasks.rows ∧ World.Acquirable args row.status ∧ row.id ∉ args.excludeTaskIds := by
  have member := List.mem_of_mem_take queued
  rw [List.mem_insertionSort, List.mem_filter] at member
  exact ⟨member.1, of_decide_eq_true member.2⟩

/-- The board's entry of a row the queue holds. -/
theorem find?_board_of_mem {w : World} {row : RepoTask} (member : row ∈ w.tasks.rows) :
    w.board.find? row.id = some row.entry := by
  rw [World.find?_board, Table.find?_mem member]
  rfl

end Uta.Tasks
