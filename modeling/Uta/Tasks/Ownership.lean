/- Who runs a task: orphan recovery against the runners that still have it. -/
import Uta.Tasks.Terminal

namespace Uta.Tasks
open Uta.Lib

/-! Owners. -/

section Owners
variable (settings : Settings) (w : World) (taskId : ℕ)

/-- The heartbeat is not one that orphan recovery takes for stale now. -/
def World.Beating (h : Heartbeat) : Prop :=
  ¬ isStaleHeartbeat h (max 1000000 settings.staleAfter) w.clock

/-- The runner is alive, has the task, and has beaten within the timeout. -/
def World.LiveOwner (r : Runner) : Prop :=
  r.alive = true ∧ r.Holds taskId ∧ ∃ h ∈ w.heartbeats.find? r.runnerId, w.Beating settings h

/-- No live runner has the task. -/
def World.Unheld : Prop := ∀ r ∈ w.runners.rows, r.alive = true → ¬ r.Holds taskId

/-- The heartbeat names the task as the one its runner runs. -/
def Heartbeat.Names (h : Heartbeat) : Prop :=
  h.status = .running ∧ h.currentRepoTaskId = some taskId

instance (h : Heartbeat) : Decidable (w.Beating settings h) := inferInstanceAs (Decidable (¬ _))
instance (r : Runner) : Decidable (w.LiveOwner settings taskId r) :=
  inferInstanceAs (Decidable (_ ∧ _))
instance : Decidable (w.Unheld taskId) := inferInstanceAs (Decidable (∀ r ∈ _, _))
instance (h : Heartbeat) : Decidable (h.Names taskId) := inferInstanceAs (Decidable (_ ∧ _))

end Owners

/-- Orphan recovery moves no RUNNING task of a live owner back to the queue. -/
def Spares (settings : Settings) (c : Call) (s : Stmt) (w : World) : Prop :=
  match c with
  | .recover _ _ =>
    ∀ row ∈ w.tasks.rows, row.status = .running → (s.exec w).2.statusOf row.id = some .queued →
      ∀ r ∈ w.runners.rows, ¬ w.LiveOwner settings row.id r
  | _ => True

instance (settings : Settings) (c : Call) (s : Stmt) (w : World) :
    Decidable (Spares settings c s w) := by
  apply Call.casesOn (motive := fun c => Decidable (Spares settings c s w)) c <;> intros <;>
    unfold Spares <;> infer_instance

/-- No task is run by two live workers. -/
def World.Single (w : World) : Prop :=
  ∀ r ∈ w.runners.rows, r.alive = true → ∀ s ∈ w.runners.rows, s.alive = true →
    ∀ slot ∈ r.pool, s.Holds slot.taskId → r.runnerId = s.runnerId

instance (w : World) : Decidable w.Single := inferInstanceAs (Decidable (∀ r ∈ _, _))

/-- What the check of orphan recovery rests on, at the time it requeues a task. -/
structure World.Checked (settings : Settings) (w : World) (taskId : ℕ) : Prop where
  /-- No heartbeat that names the task has come in since the check. -/
  unraced : ∀ h ∈ w.heartbeats.rows, h.Names taskId → ¬ w.Beating settings h
  /-- The one row of a live owner names this task, not another one or none. -/
  named : ∀ r ∈ w.runners.rows, w.LiveOwner settings taskId r →
    ∃ h ∈ w.heartbeats.find? r.runnerId, h.Names taskId
  /-- A live runner that has the task has beaten within the timeout. -/
  prompt : ∀ r ∈ w.runners.rows, r.alive = true → r.Holds taskId → w.LiveOwner settings taskId r

instance (settings : Settings) (w : World) (taskId : ℕ) : Decidable (w.Checked settings taskId) :=
  decidable_of_iff
    ((∀ h ∈ w.heartbeats.rows, h.Names taskId → ¬ w.Beating settings h) ∧
     (∀ r ∈ w.runners.rows, w.LiveOwner settings taskId r →
        ∃ h ∈ w.heartbeats.find? r.runnerId, h.Names taskId) ∧
     (∀ r ∈ w.runners.rows, r.alive = true → r.Holds taskId → w.LiveOwner settings taskId r))
    ⟨fun ⟨unraced, named, prompt⟩ => ⟨unraced, named, prompt⟩,
      fun h => ⟨h.unraced, h.named, h.prompt⟩⟩

/-- The conditions under which ownership is kept. Orphan recovery requeues on a
check that holds; another call that makes a task acquirable finds it unheld; a
retry, or a FAILED task, is not acquired while a live runner has it; and a
worker is started by the only live runner that has the task. -/
def Owning (settings : Settings) (c : Call) (s : Stmt) (w : World) : Prop :=
  match s with
  | .updateRepoTask taskId patch =>
    patch.status = some .created ∨ patch.status = some .queued →
      match c with
      | .recover _ _ => w.Checked settings taskId
      | _ => w.Unheld taskId
  | .cleanRerun taskId _ => w.Unheld taskId
  | .acquireNextTask _ args =>
    match w.firstEligible args.allowSameRepoConcurrency (w.queue args) with
    | .ok (some row) => ∀ r ∈ w.runners.rows, r.alive = true → ∀ slot ∈ r.pool,
        slot.taskId = row.id → row.status ≠ .failed ∧ slot.retryCount = 0
    | _ => True
  | .startWorker runnerId slot => ∀ r ∈ w.runners.rows, r.alive = true →
      if r.runnerId = runnerId then
        slot.retryCount = 0 → ∃ p ∈ r.pool, p.taskId = slot.taskId ∧ p.retryCount = 0
      else ¬ r.Holds slot.taskId
  | _ => True

instance (settings : Settings) (c : Call) (s : Stmt) (w : World) :
    Decidable (Owning settings c s w) := by
  apply Stmt.casesOn (motive := fun s => Decidable (Owning settings c s w)) s
  case updateRepoTask =>
    intro taskId patch
    apply Call.casesOn (motive := fun c => Decidable (Owning settings c (.updateRepoTask taskId patch) w)) c <;>
      intros <;> unfold Owning <;> infer_instance
  case acquireNextTask =>
    intros
    unfold Owning
    dsimp only
    split <;> infer_instance
  all_goals
    intros
    unfold Owning
    infer_instance

/-- Ownership along a run: recovery spares live owners, and no task is ever run
by two live workers. -/
structure Owned (settings : Settings) (sys : TaskSystem) (turns : List (Turn Call)) : Prop where
  spared : Meets (taskTurn settings) (System.Allowed (Spares settings)) sys turns
  single : Always (taskTurn settings) (fun sys => sys.store.Single) sys turns

/-! Recovery. -/

theorem World.Checked.free {settings : Settings} {w : World} {taskId : ℕ}
    (checked : w.Checked settings taskId) (r : Runner) (member : r ∈ w.runners.rows) :
    ¬ w.LiveOwner settings taskId r := by
  intro owner
  obtain ⟨h, row, names⟩ := checked.named r member owner
  obtain ⟨beat, found, beating⟩ := owner.2.2
  rw [Option.mem_unique found row] at beating
  exact checked.unraced h (Table.find?_some.mp row).1 names beating

theorem World.Checked.unheld {settings : Settings} {w : World} {taskId : ℕ}
    (checked : w.Checked settings taskId) : w.Unheld taskId := by
  intro r member alive holds
  exact checked.free r member (checked.prompt r member alive holds)

/-- Where a statement puts a task back in the queue, it writes that status. -/
theorem write_of_queued {w : World} {s : Stmt} {row : RepoTask} (member : row ∈ w.tasks.rows)
    (running : row.status = .running) (queued : (s.exec w).2.statusOf row.id = some .queued) :
    s.write w = .stored row.id .queued := by
  have current : w.statusOf row.id = some .running := by
    unfold World.statusOf
    rw [Table.find?_mem member, Option.map_some, running]
  rcases stores : s.write w with _ | ⟨taskId, repoPath⟩ | ⟨taskId, status⟩
  · rw [statusOf_nothing stores, current] at queued
    cases queued
  · rw [statusOf_opened stores current] at queued
    cases queued
  · rw [statusOf_stored stores, current] at queued
    by_cases same : row.id = taskId
    · rw [if_pos same, Option.map_some, Option.some.injEq] at queued
      rw [same, queued]
    · rw [if_neg same] at queued
      cases queued

/-- A statement under its condition that queues a task finds it unheld, unless it
is orphan recovery on a check that holds. -/
theorem Owning.of_queued {settings : Settings} {c : Call} {s : Stmt} {w : World} {taskId : ℕ}
    {status : RepoStatus} (owning : Owning settings c s w) (stores : s.write w = .stored taskId status)
    (acquirable : status = .created ∨ status = .queued) : w.Unheld taskId := by
  cases s with
  | updateRepoTask t patch =>
      simp only [Stmt.write] at stores
      rcases given : patch.status with _ | st
      · rw [given] at stores
        cases stores
      · rw [given] at stores
        dsimp only at stores
        split at stores
        · cases stores
          have put : patch.status = some .created ∨ patch.status = some .queued := by
            rw [given, Option.some.injEq, Option.some.injEq]
            exact acquirable
          have condition := owning put
          split at condition
          · exact condition.unheld
          · exact condition
        · cases stores
  | cleanRerun t args =>
      simp only [Stmt.write] at stores
      split at stores
      · cases stores
        exact owning
      · cases stores
  | finishTask t args =>
      simp only [Stmt.write] at stores
      split at stores
      next terminal =>
        cases stores
        rcases acquirable with h | h <;> rw [h] at terminal <;> exact absurd terminal (by decide)
      · cases stores
  | acquireNextTask runnerId args =>
      simp only [Stmt.write] at stores
      split at stores
      · cases stores
        rcases acquirable with h | h <;> cases h
      · cases stores
  | _ => cases stores

theorem Owning.spares {settings : Settings} {c : Call} {s : Stmt} {w : World}
    (owning : Owning settings c s w) : Spares settings c s w := by
  unfold Spares
  split
  · intro row member running queued r present owner
    have unheld := owning.of_queued (write_of_queued member running queued) (.inr rfl)
    exact unheld r present owner.1 owner.2.1
  · trivial

/-! Workers. -/

/-- A live runner has the task, and is at this try of it. -/
def World.Works (w : World) (runnerId : String) (taskId retryCount : ℕ) : Prop :=
  ∃ r ∈ w.runners.rows, r.runnerId = runnerId ∧ r.alive = true ∧
    ∃ slot ∈ r.pool, slot.taskId = taskId ∧ slot.retryCount = retryCount

/-- The worker that a statement puts in a pool. -/
def Stmt.hires (w : World) : Stmt → Option (String × ℕ × ℕ)
  | .acquireNextTask runnerId args =>
    match w.firstEligible args.allowSameRepoConcurrency (w.queue args) with
    | .ok (some row) => some (runnerId, row.id, 0)
    | _ => none
  | .startWorker runnerId slot => some (runnerId, slot.taskId, slot.retryCount)
  | _ => none

theorem World.Unheld.works {w : World} {runnerId : String} {taskId retryCount : ℕ}
    (unheld : w.Unheld taskId) : ¬ w.Works runnerId taskId retryCount := by
  rintro ⟨r, member, _, alive, slot, present, rfl, _⟩
  exact unheld r member alive (List.mem_map_of_mem present)

theorem works_of_runners {w v : World} (same : v.runners = w.runners) {runnerId : String}
    {taskId retryCount : ℕ} (works : v.Works runnerId taskId retryCount) :
    w.Works runnerId taskId retryCount := by
  unfold World.Works at works ⊢
  rw [same] at works
  exact works

/-- An update of a runner that neither revives it nor gives it a task. -/
theorem works_updateRunner {w : World} {updated : String} {f : Runner → Runner}
    {kept : ∀ r, (f r).runnerId = r.runnerId} (alive : ∀ r, (f r).alive = true → r.alive = true)
    (pool : ∀ r, ∀ slot ∈ (f r).pool, ∃ p ∈ r.pool, p.taskId = slot.taskId ∧
      p.retryCount = slot.retryCount)
    {runnerId : String} {taskId retryCount : ℕ}
    (works : (w.updateRunner updated f kept).Works runnerId taskId retryCount) :
    w.Works runnerId taskId retryCount := by
  obtain ⟨r, member, rfl, live, slot, present, rfl, rfl⟩ := works
  have member : r ∈ (w.runners.modify updated f kept).rows := member
  rcases Table.mem_modify.mp member with ⟨before, _⟩ | ⟨old, before, _, rfl⟩
  · exact ⟨r, before, rfl, live, slot, present, rfl, rfl⟩
  · obtain ⟨p, had, task, retry⟩ := pool old slot present
    exact ⟨old, before, (kept old).symm, alive old live, p, had, task, retry⟩

theorem works_put {w : World} {hired : String} {slot : PoolSlot} {runnerId : String}
    {taskId retryCount : ℕ}
    (works : (w.updateRunner hired (Runner.put · slot) fun _ => rfl).Works runnerId taskId retryCount) :
    (hired, slot.taskId, slot.retryCount) = (runnerId, taskId, retryCount) ∨
      w.Works runnerId taskId retryCount := by
  obtain ⟨r, member, rfl, live, p, present, rfl, rfl⟩ := works
  have member : r ∈ (w.runners.modify hired (Runner.put · slot) fun _ => rfl).rows := member
  rcases Table.mem_modify.mp member with ⟨before, _⟩ | ⟨old, before, rfl, rfl⟩
  · exact .inr ⟨r, before, rfl, live, p, present, rfl, rfl⟩
  · rcases List.mem_append.mp present with had | new
    · exact .inr ⟨old, before, rfl, live, p, (List.mem_filter.mp had).1, rfl, rfl⟩
    · rw [List.mem_singleton.mp new]
      exact .inl rfl

theorem addEvents_runners (es : List EventArgs) (w : World) :
    (World.addEvents es w).runners = w.runners := by
  induction es generalizing w with
  | nil => rfl
  | cons e es ih => exact ih (w.addEvent e.row)

theorem requeueClasses_runners (rows : List ClassTask) (patch : ClassTask → ClassPatch) (w : World) :
    (rows.foldl (fun w c => w.updateClassTask c.id (patch c)) w).runners = w.runners := by
  induction rows generalizing w with
  | nil => rfl
  | cons c rows ih => exact ih (w.updateClassTask c.id (patch c))

/-- The statements on the database alone leave the runners as they are. -/
theorem exec_runners (w : World) (s : Stmt) (data : match s with
    | .acquireNextTask .. | .startWorker .. | .dropWorker .. | .addPendingRetry ..
    | .dropPendingRetry .. | .noteBeat .. | .noteIdleBeat .. | .die _ => False
    | _ => True) : (s.exec w).2.runners = w.runners := by
  cases s with
  | updateRepoTask taskId patch =>
      simp only [Stmt.exec]
      split
      · split
        · rfl
        · split <;> rfl
      · rfl
  | createClassTask taskId classFqn priority =>
      simp only [Stmt.exec, World.createClassTask]
      split <;> rfl
  | upsertHeartbeat runnerId taskId status message =>
      simp only [Stmt.exec, World.upsertHeartbeat]
      split <;> rfl
  | finishTask taskId args =>
      simp only [Stmt.exec, World.finishTask]
      split
      · rfl
      · split
        · rfl
        · split
          · rfl
          · exact addEvents_runners _ _
  | cleanRerun taskId args =>
      simp only [Stmt.exec, World.cleanRerun]
      split
      · rfl
      · exact requeueClasses_runners _ _ w
  | acquireNextTask | startWorker | dropWorker | addPendingRetry | dropPendingRetry | noteBeat
  | noteIdleBeat | die => cases data
  | _ => rfl

/-- Whoever works after a statement worked before it, or is put to work by it. -/
theorem works_exec {s : Stmt} {w : World} {runnerId : String} {taskId retryCount : ℕ}
    (works : (s.exec w).2.Works runnerId taskId retryCount) :
    s.hires w = some (runnerId, taskId, retryCount) ∨ w.Works runnerId taskId retryCount := by
  cases s with
  | acquireNextTask hired args =>
      simp only [Stmt.exec, Stmt.hires] at works ⊢
      rcases chosen : w.firstEligible args.allowSameRepoConcurrency (w.queue args) with e | _ | row <;>
        rw [chosen] at works
      · exact .inr works
      · exact .inr works
      · have claimed : ((w.updateTask row.id (World.acquiredRow w.now) fun _ => rfl).updateRunner hired
            (Runner.put · { taskId := row.id }) fun _ => rfl).Works runnerId taskId retryCount := works
        rcases works_put claimed with new | before
        · exact .inl (congrArg some new)
        · exact .inr (works_of_runners rfl before)
  | startWorker hired slot =>
      rcases works_put works with new | before
      · exact .inl (congrArg some new)
      · exact .inr before
  | dropWorker hired dropped =>
      refine .inr (works_updateRunner ?_ ?_ works)
      · exact fun _ live => live
      · intro r slot present
        exact ⟨slot, (List.mem_filter.mp present).1, rfl, rfl⟩
  | noteBeat hired beaten at_ =>
      refine .inr (works_updateRunner ?_ ?_ works)
      · exact fun _ live => live
      · intro r slot present
        obtain ⟨p, had, rfl⟩ := List.mem_map.mp present
        refine ⟨p, had, ?_⟩
        split <;> exact ⟨rfl, rfl⟩
  | addPendingRetry | dropPendingRetry | noteIdleBeat =>
      refine .inr (works_updateRunner ?_ ?_ works)
      · exact fun _ live => live
      · exact fun _ p had => ⟨p, had, rfl, rfl⟩
  | die hired =>
      refine .inr (works_updateRunner ?_ ?_ works)
      · exact fun _ live => absurd live Bool.false_ne_true
      · exact fun _ p had => ⟨p, had, rfl, rfl⟩
  | _ => exact .inr (works_of_runners (exec_runners w _ trivial) works)

/-! The invariant. -/

/-- A task has one live runner at most, and while one is at its first try of the
task no other can acquire it. -/
structure World.Taken (w : World) : Prop where
  single : ∀ i j taskId m n, w.Works i taskId m → w.Works j taskId n → i = j
  closed : ∀ i taskId, w.Works i taskId 0 →
    ∃ status, w.statusOf taskId = some status ∧ status ≠ .created ∧ status ≠ .queued

theorem World.Taken.single_runners {w : World} (taken : w.Taken) : w.Single := by
  intro r hr liveR s hs liveS slot present holds
  obtain ⟨other, had, same⟩ := List.mem_map.mp holds
  exact taken.single r.runnerId s.runnerId slot.taskId slot.retryCount other.retryCount
    ⟨r, hr, rfl, liveR, slot, present, rfl, rfl⟩ ⟨s, hs, rfl, liveS, other, had, same, rfl⟩

theorem taken_fresh (runnerIds : List String) : (World.fresh runnerIds).Taken := by
  have idle : ∀ i taskId n, ¬ (World.fresh runnerIds).Works i taskId n := by
    rintro i taskId n ⟨r, member, _, _, slot, present, _⟩
    obtain ⟨runnerId, _, rfl⟩ := List.mem_map.mp member
    cases present
  constructor
  · intro i j taskId m n works
    exact absurd works (idle i taskId m)
  · intro i taskId works
    exact absurd works (idle i taskId 0)

section Step
variable {settings : Settings} {c : Call} {s : Stmt} {w : World}

/-- A worker is hired for a task that no other live runner has. -/
theorem hires_free (taken : w.Taken) (owning : Owning settings c s w) {i j : String} {taskId m n : ℕ}
    (hires : s.hires w = some (i, taskId, m)) (works : w.Works j taskId n) : i = j := by
  obtain ⟨r, member, rfl, live, slot, present, rfl, rfl⟩ := works
  generalize task : slot.taskId = taskId at hires
  cases s with
  | acquireNextTask hired args =>
      simp only [Stmt.hires, Owning] at hires owning
      rcases chosen : w.firstEligible args.allowSameRepoConcurrency (w.queue args) with e | _ | row <;>
        rw [chosen] at hires owning
      · cases hires
      · cases hires
      · cases hires
        obtain ⟨notFailed, first⟩ := owning r member live slot present task
        obtain ⟨queued, acquirable, _⟩ := mem_queue (firstEligible_mem chosen)
        obtain ⟨status, current, notCreated, notQueued⟩ := taken.closed r.runnerId row.id
          ⟨r, member, rfl, live, slot, present, task, first⟩
        unfold World.statusOf at current
        rw [Table.find?_mem queued, Option.map_some, Option.some.injEq] at current
        rw [← current] at notCreated notQueued
        rcases acquirable with created | waiting | ⟨_, failed⟩
        · exact absurd created notCreated
        · exact absurd waiting notQueued
        · exact absurd failed notFailed
  | startWorker hired worker =>
      cases hires
      have condition := owning r member live
      by_cases same : r.runnerId = i
      · exact same.symm
      · rw [if_neg same] at condition
        exact absurd (task ▸ List.mem_map_of_mem present) condition
  | _ => cases hires

/-- A first try starts on a task that is no longer acquirable. -/
theorem hires_closed (owning : Owning settings c s w) {i : String} {taskId : ℕ}
    (works : (s.exec w).2.Works i taskId 0) (hires : s.hires w = some (i, taskId, 0)) :
    (s.exec w).2.statusOf taskId = some .running ∨ w.Works i taskId 0 := by
  cases s with
  | acquireNextTask hired args =>
      simp only [Stmt.hires] at hires
      rcases chosen : w.firstEligible args.allowSameRepoConcurrency (w.queue args) with e | _ | row <;>
        rw [chosen] at hires
      · cases hires
      · cases hires
      · cases hires
        have stores : (Stmt.acquireNextTask i args).write w = .stored row.id .running := by
          simp only [Stmt.write, chosen]
        have queued := (mem_queue (firstEligible_mem chosen)).1
        left
        rw [statusOf_stored stores, if_pos rfl, World.statusOf, Table.find?_mem queued]
        rfl
  | startWorker hired worker =>
      simp only [Stmt.hires, Option.some.injEq, Prod.mk.injEq] at hires
      obtain ⟨rfl, rfl, first⟩ := hires
      obtain ⟨r, member, named, live, _⟩ := works
      have member : r ∈ (w.runners.modify hired (Runner.put · worker) fun _ => rfl).rows := member
      rcases Table.mem_modify.mp member with ⟨_, other⟩ | ⟨old, before, same, rfl⟩
      · exact absurd named other
      · have condition := owning old before live
        rw [if_pos same] at condition
        obtain ⟨p, had, task, count⟩ := condition first
        exact .inr ⟨old, before, same, live, p, had, task, count⟩
  | _ => cases hires

/-- The task of a first try stays one that is not acquirable. -/
theorem closed_exec (owning : Owning settings c s w) {i : String} {taskId : ℕ} {status : RepoStatus}
    (works : w.Works i taskId 0) (current : w.statusOf taskId = some status)
    (notCreated : status ≠ .created) (notQueued : status ≠ .queued) :
    ∃ status, (s.exec w).2.statusOf taskId = some status ∧ status ≠ .created ∧ status ≠ .queued := by
  rcases stores : s.write w with _ | ⟨opened, repoPath⟩ | ⟨written, stored⟩
  · exact ⟨status, by rw [statusOf_nothing stores, current], notCreated, notQueued⟩
  · exact ⟨status, statusOf_opened stores current, notCreated, notQueued⟩
  · by_cases same : taskId = written
    · subst same
      refine ⟨stored, by rw [statusOf_stored stores, if_pos rfl, current]; rfl, ?_, ?_⟩
      · exact fun created => (owning.of_queued stores (.inl created)).works works
      · exact fun queued => (owning.of_queued stores (.inr queued)).works works
    · exact ⟨status, by rw [statusOf_stored stores, if_neg same, current], notCreated, notQueued⟩

theorem taken_exec (taken : w.Taken) (owning : Owning settings c s w) : (s.exec w).2.Taken := by
  constructor
  · intro i j taskId m n worksI worksJ
    rcases works_exec worksI with hiresI | beforeI
    · rcases works_exec worksJ with hiresJ | beforeJ
      · rw [hiresI, Option.some.injEq, Prod.mk.injEq] at hiresJ
        exact hiresJ.1
      · exact hires_free taken owning hiresI beforeJ
    · rcases works_exec worksJ with hiresJ | beforeJ
      · exact (hires_free taken owning hiresJ beforeI).symm
      · exact taken.single i j taskId m n beforeI beforeJ
  · intro i taskId works
    have before : (s.exec w).2.statusOf taskId = some .running ∨ w.Works i taskId 0 := by
      rcases works_exec works with hires | before
      · exact hires_closed owning works hires
      · exact .inr before
    rcases before with running | before
    · exact ⟨.running, running, RepoStatus.noConfusion, RepoStatus.noConfusion⟩
    · obtain ⟨status, current, notCreated, notQueued⟩ := taken.closed i taskId before
      exact closed_exec owning before current notCreated notQueued

end Step

/-! Runs. -/

/-- A daemon dies with a task, and another one requeues it and takes it up. -/
def takeoverCalls : List Call := [
  .create "/srv/repo" 100 none [], .pass 15000000, .beat "first" {}, .acquire "first" {} [] [],
  .markRunning 1 "startup" none, .recover "second" [], .die "first", .pass 200000000,
  .recover "second" [], .acquire "second" {} [] []]

/-- Orphan recovery of one daemon runs between the acquisition of a task by
another daemon, which beats as idle, and its first beat for the task. -/
def windowTurns : List (Turn Call) :=
  Turn.inOrder 8 [.create "/srv/repo" 100 none [], .pass 15000000, .beat "first" {}] ++
  [.call (.acquire "first" {} [] []), .go 3, .go 3] ++
  .call (.recover "second" []) :: List.replicate 8 (.go 4) ++
  .call (.acquire "second" {} [] []) :: List.replicate 8 (.go 5) ++ List.replicate 8 (.go 3)

end Uta.Tasks
