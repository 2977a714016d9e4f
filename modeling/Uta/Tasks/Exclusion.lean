/- When at most one task of each checkout is active: exactly when every statement
that makes a task active checks what the acquisition of a task checks. -/
import Uta.Tasks.Board
import Uta.Lib.Exclusive

namespace Uta.Tasks
open Uta.Lib

/-- At most one task of each checkout is RUNNING or STOP_REQUESTED. -/
def World.Exclusive (w : World) : Prop :=
  w.tasks.Exclusive RepoTask.repoPath fun r => r.status.Active

instance (w : World) : Decidable w.Exclusive :=
  inferInstanceAs (Decidable (∀ r ∈ w.tasks.rows, ∀ s ∈ w.tasks.rows, _))

/-- A statement that makes a task active finds no active sibling. An acquisition
sees to that by itself, unless the checkouts may be shared. -/
def Unshared (_ : Call) (s : Stmt) (w : World) : Prop :=
  match s with
  | .updateRepoTask taskId patch =>
    (∃ s ∈ patch.status, s.Active) →
      ∀ row ∈ w.tasks.find? taskId, row.engineBlocker = none → ¬ w.ActiveSibling row.repoPath taskId
  | .acquireNextTask _ args =>
    args.allowSameRepoConcurrency = true →
      ∀ row, w.firstEligible true (w.queue args) = .ok (some row) →
        ¬ w.ActiveSibling row.repoPath row.id
  | _ => True

theorem not_active_of_terminal {s : RepoStatus} (terminal : s.Terminal) : ¬ s.Active := by
  revert terminal
  cases s <;> decide

/-! The board. -/

/-- At most one entry of each checkout is active. -/
def Board.Exclusive (b : Board) : Prop := Table.Exclusive Entry.repoPath (fun e => e.status.Active) b

/-- Another entry of the checkout is active. -/
def Board.Contended (b : Board) (e : Entry) : Prop :=
  Table.Contended Entry.repoPath (fun e => e.status.Active) b e

theorem exclusive_board (w : World) : w.board.Exclusive ↔ w.Exclusive := by
  constructor
  · intro alone r hr s hs shared activeR activeS
    have same : r.entry = s.entry :=
      alone _ (List.mem_map_of_mem hr) _ (List.mem_map_of_mem hs) shared activeR activeS
    exact w.tasks.eq_of_key hr hs (congrArg Entry.id same)
  · intro alone e he d hd shared activeE activeD
    obtain ⟨r, hr, rfl⟩ := List.mem_map.mp he
    obtain ⟨s, hs, rfl⟩ := List.mem_map.mp hd
    rw [alone r hr s hs shared activeE activeD]

theorem contended_board (w : World) (r : RepoTask) :
    w.board.Contended r.entry ↔ w.ActiveSibling r.repoPath r.id := by
  constructor
  · rintro ⟨e, he, shared, active, other⟩
    obtain ⟨s, hs, rfl⟩ := List.mem_map.mp he
    exact ⟨s, hs, shared, active, other⟩
  · rintro ⟨s, hs, shared, active, other⟩
    exact ⟨s.entry, List.mem_map_of_mem hs, shared, active, other⟩

/-- A write that makes a task active finds its checkout free. -/
def Write.Free (b : Board) : Write → Prop
  | .stored taskId s => s.Active → ∀ e ∈ b.find? taskId, ¬ b.Contended e
  | _ => True

theorem exclusive_on_iff {b : Board} (alone : b.Exclusive) (write : Write) :
    (write.on b).Exclusive ↔ write.Free b := by
  cases write with
  | nothing => exact ⟨fun _ => trivial, fun _ => alone⟩
  | opened taskId repoPath =>
      refine ⟨fun _ => trivial, fun _ => ?_⟩
      simp only [Write.on]
      by_cases fresh : taskId ∉ b.rows.map Entry.id
      · rw [dif_pos fresh]
        exact Table.exclusive_insert_idle alone (by simp only [RepoStatus.Active]; decide)
      · rw [dif_neg fresh]
        exact alone
  | stored taskId s =>
      by_cases active : s.Active
      · have stored : ((Write.stored taskId s).on b).Exclusive ↔
            ∀ e ∈ b.find? taskId, ¬ b.Contended e :=
          Table.exclusive_modify_iff (f := Entry.store s) (fun _ => rfl) alone (fun _ => rfl) fun _ => active
        exact ⟨fun after _ => stored.mp after, fun free => stored.mpr (free active)⟩
      · refine ⟨fun _ stored => absurd stored active, fun _ => ?_⟩
        exact Table.exclusive_modify_idle (f := Entry.store s) (fun _ => rfl) alone fun _ => active

/-! Statements. -/

theorem unshared_update (c : Call) (w : World) (taskId : ℕ) (patch : TaskPatch) :
    ((Stmt.updateRepoTask taskId patch).write w).Free w.board ↔
      Unshared c (.updateRepoTask taskId patch) w := by
  simp only [Stmt.write, Unshared]
  rcases patch.status with _ | s
  · refine ⟨fun _ stores => ?_, fun _ => trivial⟩
    obtain ⟨_, member, _⟩ := stores
    cases member
  · dsimp only
    have entry : ∀ e, e ∈ w.board.find? taskId ↔ ∃ row ∈ w.tasks.find? taskId, row.entry = e := by
      intro e
      rw [World.find?_board, Option.mem_map]
    constructor
    · rintro free ⟨_, ⟨⟩, active⟩ row found durable busy
      have stores : s.Terminal ∨ ∀ row ∈ w.tasks.find? taskId, row.engineBlocker = none :=
        .inr fun other member => Option.mem_unique member found ▸ durable
      rw [if_pos stores] at free
      have same : row.id = taskId := (Table.find?_some.mp found).2
      refine free active row.entry ((entry _).mpr ⟨row, found, rfl⟩) ((contended_board w row).mpr ?_)
      rw [same]
      exact busy
    · intro free
      by_cases stores : s.Terminal ∨ ∀ row ∈ w.tasks.find? taskId, row.engineBlocker = none
      · rw [if_pos stores]
        intro active e found contended
        obtain ⟨row, present, rfl⟩ := (entry e).mp found
        have same : row.id = taskId := (Table.find?_some.mp present).2
        have busy := (contended_board w row).mp contended
        rw [same] at busy
        rcases stores with terminal | durable
        · exact not_active_of_terminal terminal active
        · exact free ⟨s, rfl, active⟩ row present (durable row present) busy
      · rw [if_neg stores]
        trivial

theorem unshared_acquire (c : Call) (w : World) (runnerId : String) (args : AcquireArgs) :
    ((Stmt.acquireNextTask runnerId args).write w).Free w.board ↔
      Unshared c (.acquireNextTask runnerId args) w := by
  simp only [Stmt.write, Unshared]
  rcases shared : args.allowSameRepoConcurrency
  · refine ⟨fun _ off => absurd off (by decide), fun _ => ?_⟩
    split
    next row chosen =>
      intro _ e found contended
      have member := (mem_queue (firstEligible_mem chosen)).1
      rw [find?_board_of_mem member] at found
      cases found
      exact firstEligible_free chosen ((contended_board w row).mp contended)
    · trivial
  · constructor
    · intro free _ row chosen busy
      rw [chosen] at free
      have member := (mem_queue (firstEligible_mem chosen)).1
      exact free (by decide) row.entry (find?_board_of_mem member) ((contended_board w row).mpr busy)
    · intro free
      split
      next row chosen =>
        intro _ e found contended
        have member := (mem_queue (firstEligible_mem chosen)).1
        rw [find?_board_of_mem member] at found
        cases found
        exact free rfl row chosen ((contended_board w row).mp contended)
      · trivial

theorem unshared_iff_free (c : Call) (s : Stmt) (w : World) :
    (s.write w).Free w.board ↔ Unshared c s w := by
  cases s with
  | updateRepoTask taskId patch => exact unshared_update c w taskId patch
  | acquireNextTask runnerId args => exact unshared_acquire c w runnerId args
  | finishTask taskId args =>
      refine ⟨fun _ => trivial, fun _ => ?_⟩
      simp only [Stmt.write]
      by_cases terminal : args.status.Terminal
      · rw [if_pos terminal]
        exact fun active => absurd active (not_active_of_terminal terminal)
      · rw [if_neg terminal]
        trivial
  | cleanRerun taskId args =>
      refine ⟨fun _ => trivial, fun _ => ?_⟩
      simp only [Stmt.write]
      rcases w.rerunRefusal taskId args with _ | e
      · have idle : ¬ RepoStatus.queued.Active := by decide
        exact fun active => absurd active idle
      · trivial
  | _ => exact ⟨fun _ => trivial, fun _ => trivial⟩

/-- One statement keeps the checkouts exclusive exactly when it is unshared. -/
theorem exclusive_exec_iff (c : Call) (s : Stmt) (w : World) (before : w.Exclusive) :
    (s.exec w).2.Exclusive ↔ Unshared c s w := by
  rw [← exclusive_board, exec_board, exclusive_on_iff ((exclusive_board w).mpr before),
    unshared_iff_free c]

/-! Runs. -/

/-- In any interleaving the checkouts are exclusive in every state reached
exactly when no statement makes a task active beside an active sibling. -/
theorem exclusive_iff_unshared (settings : Settings) (runnerIds : List String)
    (turns : List (Turn Call)) :
    Always (taskTurn settings) (fun sys => sys.store.Exclusive) (initialSystem runnerIds) turns ↔
      Meets (taskTurn settings) (System.Allowed Unshared) (initialSystem runnerIds) turns := by
  apply System.always_iff_allowed exclusive_exec_iff
  intro r member
  cases member

/-- Whether a call may take up a task beside a sibling. -/
def Call.mayShare : Call → Bool
  | .acquire _ options _ _ => options.allowSameRepoConcurrency
  | _ => false

/-- A daemon takes up the second task of a checkout while it backs off before a
retry of the first, and then starts the retry. -/
def retryCalls : List Call := [
  .create "/srv/repo" 100 none [], .create "/srv/repo" 100 none [],
  .acquire "daemon" { maxSlots := 2 } [] [], .markRunning 1 "startup" none,
  .markFailed 1 "HTTP 429 Too Many Requests" "pipeline_failed", .reap "daemon" [(1, 1)],
  .acquire "daemon" { maxSlots := 2 } [] [], .markRunning 2 "startup" none,
  .pass 30000000, .promote "daemon" { maxSlots := 2 } [], .markRunning 1 "startup" none]

/-- Its two tasks end up RUNNING in one checkout. -/
theorem retry_shares_checkout :
    (∀ c ∈ retryCalls, c.mayShare = false) ∧
    ¬ Always (taskTurn ⟨3, 120000000⟩) (fun sys => sys.store.Exclusive) (initialSystem ["daemon"])
      (Turn.inOrder 8 retryCalls) := by
  refine ⟨by decide, ?_⟩
  rw [always_iff_reached]
  intro exclusive
  have final := exclusive (Turn.inOrder 8 retryCalls) [] (List.append_nil _).symm
  revert final
  decide +kernel

end Uta.Tasks
