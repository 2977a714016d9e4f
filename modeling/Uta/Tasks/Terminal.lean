/- How long a terminal status lasts: exactly when no statement of another call
writes over it. -/
import Uta.Tasks.Board

namespace Uta.Tasks
open Uta.Lib

/-- The calls by which an operator takes a task up again. -/
def Call.Reopens (taskId : ℕ) : Call → Prop
  | .start t => t = taskId
  | .resume t _ _ => t = taskId
  | .unblock t => t = taskId
  | .cleanRerun t _ => t = taskId
  | _ => False

instance (taskId : ℕ) (c : Call) : Decidable (c.Reopens taskId) := by
  cases c <;> unfold Call.Reopens <;> infer_instance

def World.statusOf (w : World) (taskId : ℕ) : Option RepoStatus :=
  (w.tasks.find? taskId).map RepoTask.status

/-- The task has this status, and it is a terminal one. -/
def Closed (x : ℕ × RepoStatus) (w : World) : Prop := x.2.Terminal ∧ w.statusOf x.1 = some x.2

instance (x : ℕ × RepoStatus) (w : World) : Decidable (Closed x w) :=
  inferInstanceAs (Decidable (_ ∧ _))

/-- The turn executes a statement of a call that takes the task up again. -/
def Reopening (x : ℕ × RepoStatus) (sys : TaskSystem) (turn : Turn Call) : Prop :=
  match sys.executes turn with
  | some (c, _) => c.Reopens x.1
  | none => False

instance (x : ℕ × RepoStatus) (sys : TaskSystem) (turn : Turn Call) :
    Decidable (Reopening x sys turn) := by
  unfold Reopening
  rcases sys.executes turn with _ | ⟨c, _⟩ <;> infer_instance

/-- A terminal status lasts until the task is taken up again. -/
def TerminalStays (settings : Settings) (sys : TaskSystem) (turns : List (Turn Call)) : Prop :=
  StaysUntil (taskTurn settings) (fun x sys => Closed x sys.store) Reopening sys turns

/-- A statement that stores a status comes from a call that takes the task up
again, or finds the task open, or closed with that very status. -/
def Timely (c : Call) (s : Stmt) (w : World) : Prop :=
  match s.write w with
  | .stored taskId status =>
    c.Reopens taskId ∨ ∀ row ∈ w.tasks.find? taskId, row.status.Terminal → row.status = status
  | _ => True

instance (c : Call) (s : Stmt) (w : World) : Decidable (Timely c s w) := by
  unfold Timely
  rcases s.write w <;> infer_instance

/-! Statements. -/

theorem statusOf_board (w : World) (taskId : ℕ) :
    w.statusOf taskId = (w.board.find? taskId).map Entry.status := by
  rw [World.find?_board, Option.map_map]
  rfl

theorem statusOf_stored {w : World} {s : Stmt} {taskId : ℕ} {status : RepoStatus}
    (stores : s.write w = .stored taskId status) (other : ℕ) :
    (s.exec w).2.statusOf other =
      if other = taskId then (w.statusOf other).map fun _ => status else w.statusOf other := by
  rw [statusOf_board, exec_board, stores, statusOf_board]
  simp only [Write.on]
  rw [Table.find?_modify]
  by_cases same : other = taskId
  · rw [if_pos same, if_pos same, same, Option.map_map, Option.map_map]
    rfl
  · rw [if_neg same, if_neg same]

theorem statusOf_nothing {w : World} {s : Stmt} (silent : s.write w = .nothing) (other : ℕ) :
    (s.exec w).2.statusOf other = w.statusOf other := by
  rw [statusOf_board, exec_board, silent, statusOf_board]
  rfl

theorem statusOf_opened {w : World} {s : Stmt} {taskId other : ℕ} {repoPath : String}
    {status : RepoStatus} (opens : s.write w = .opened taskId repoPath)
    (present : w.statusOf other = some status) : (s.exec w).2.statusOf other = some status := by
  rw [statusOf_board] at present
  rw [statusOf_board, exec_board, opens]
  simp only [Write.on]
  by_cases fresh : taskId ∉ w.board.rows.map Entry.id
  · rw [dif_pos fresh, Table.find?_insert]
    have different : taskId ≠ other := by
      rintro rfl
      rw [Table.find?_none.mpr fresh] at present
      cases present
    rw [if_neg different]
    exact present
  · rw [dif_neg fresh]
    exact present

/-- A statement leaves the closed tasks of other calls as they are exactly when
it is timely. -/
theorem timely_iff (c : Call) (s : Stmt) (w : World) :
    (∀ x, Closed x w → ¬ c.Reopens x.1 → Closed x (s.exec w).2) ↔ Timely c s w := by
  unfold Timely
  rcases stores : s.write w with _ | ⟨taskId, repoPath⟩ | ⟨taskId, status⟩
  · refine ⟨fun _ => trivial, fun _ x closed _ => ⟨closed.1, ?_⟩⟩
    rw [statusOf_nothing stores]
    exact closed.2
  · exact ⟨fun _ => trivial, fun _ x closed _ => ⟨closed.1, statusOf_opened stores closed.2⟩⟩
  · constructor
    · intro lasts
      apply or_iff_not_imp_left.mpr
      intro foreign row found terminal
      have current : w.statusOf taskId = some row.status := by
        unfold World.statusOf
        rw [found]
        rfl
      have after := (lasts (taskId, row.status) ⟨terminal, current⟩ foreign).2
      rw [statusOf_stored stores, if_pos rfl, current] at after
      exact (Option.some.inj after).symm
    · rintro timely ⟨other, old⟩ ⟨terminal, current⟩ foreign
      refine ⟨terminal, ?_⟩
      dsimp only at current foreign ⊢
      rw [statusOf_stored stores]
      by_cases same : other = taskId
      · subst same
        rw [if_pos rfl, current]
        obtain ⟨row, found, rfl⟩ := Option.map_eq_some_iff.mp current
        rcases timely with reopens | agrees
        · exact absurd reopens foreign
        · rw [Option.map_some, agrees row found terminal]
      · rw [if_neg same]
        exact current

/-! Runs. -/

theorem turn_timely_iff (settings : Settings) (sys : TaskSystem) (turn : Turn Call) :
    (∀ x, Closed x sys.store → ¬ Reopening x sys turn → Closed x (taskTurn settings sys turn).store) ↔
      System.Allowed Timely sys turn := by
  unfold taskTurn Reopening System.Allowed
  rw [System.turn_store]
  rcases sys.executes turn with _ | ⟨c, s⟩
  · exact ⟨fun _ => trivial, fun _ x closed _ => closed⟩
  · exact timely_iff c s sys.store

/-- A worker reports that it has completed a task, after the task was cancelled. -/
def lateCalls : List Call := [
  .create "/srv/repo" 100 none [], .acquire "daemon" {} [] [], .markRunning 1 "startup" none,
  .cancel 1 none, .markCompleted 1 "Task completed"]

end Uta.Tasks
