/- What each operation leaves of the class rows and of their batches. -/
import Uta.Generation.BatchLaws
import Uta.Generation.Rerun

namespace Uta.Generation
open Uta.Lib Uta.Tasks

/-! Statements. -/

theorem addEvents_classes (es : List EventArgs) (w : World) :
    (World.addEvents es w).classes = w.classes := by
  induction es generalizing w with
  | nil => rfl
  | cons e es ih => exact ih (w.addEvent e.row)

theorem finishTask_classes (w : World) (taskId : ℕ) (args : FinishArgs) :
    (w.finishTask taskId args).2.classes = w.classes := by
  unfold World.finishTask
  split
  · rfl
  · split
    · rfl
    · dsimp only
      split
      · rfl
      · exact addEvents_classes _ _

/-- A statement that writes class rows. -/
def WritesClasses : Stmt → Prop
  | .createClassTask .. => True
  | .updateClassTask .. => True
  | .cleanRerun .. => True
  | _ => False

/-- The other statements leave the class rows alone. -/
theorem exec_classes {s : Stmt} (other : ¬ WritesClasses s) (w : World) :
    ((s.exec w).2).classes = w.classes := by
  cases s with
  | createClassTask t fqn p => exact absurd trivial other
  | updateClassTask id patch => exact absurd trivial other
  | cleanRerun t args => exact absurd trivial other
  | finishTask t args => exact finishTask_classes w t args
  | updateRepoTask t patch =>
      simp only [Stmt.exec]
      split
      · split
        · rfl
        · split <;> rfl
      · rfl
  | acquireNextTask runnerId args =>
      simp only [Stmt.exec]
      split <;> rfl
  | upsertHeartbeat runnerId t status message =>
      simp only [Stmt.exec, World.upsertHeartbeat]
      split <;> rfl
  | _ => rfl

/-! Batch rows. -/

/-- The batches of a task depend on its class rows and their identities. -/
theorem batchRows_congr {store later : Store} (classes : later.world.classes = store.world.classes)
    (identity : later.identity = store.identity) (taskId : ℕ) :
    later.batchRows taskId = store.batchRows taskId := by
  unfold Store.batchRows World.listClassTasks
  rw [classes]
  apply List.map_congr_left
  intro c _
  unfold Store.batchRow
  rw [identity]

/-- The write of a class row that keeps the columns its batch is made of. -/
theorem batchRows_update {store later : Store} {classId : ℕ} {patch : ClassPatch}
    (world : later.world = store.world.updateClassTask classId patch)
    (identity : later.identity = store.identity) (kept : patch.priority = none) (taskId : ℕ) :
    later.batchRows taskId = store.batchRows taskId := by
  unfold Store.batchRows
  rw [world, listClassTasks_update store.world kept, List.map_map]
  apply List.map_congr_left
  intro c _
  unfold Store.batchRow
  rw [identity, Function.comp_apply]
  split <;> rfl

theorem mem_listClassTasks {w : World} {taskId : ℕ} {c : ClassTask} :
    c ∈ w.listClassTasks taskId ↔ c ∈ w.classes.rows ∧ c.repoTaskId = taskId := by
  rw [(listClassTasks_perm w taskId).mem_iff, List.mem_filter, decide_eq_true_eq]

/-- No row belongs to two tasks. -/
theorem batchRows_apart {store : Store} {taskId other : ℕ} (ne : taskId ≠ other) {r s : BatchRow}
    (own : r ∈ store.batchRows taskId) (theirs : s ∈ store.batchRows other) : r.id ≠ s.id := by
  obtain ⟨c, mine, rfl⟩ := List.mem_map.mp own
  obtain ⟨d, yours, rfl⟩ := List.mem_map.mp theirs
  obtain ⟨row, task⟩ := mem_listClassTasks.mp mine
  obtain ⟨row', task'⟩ := mem_listClassTasks.mp yours
  intro same
  have one : c = d := store.world.classes.eq_of_key row row' same
  exact ne (task.symm.trans (one ▸ task'))

/-! Inserted rows. -/

theorem textOr_coalesced (old : Option String) (fqn : String) :
    textOr (some (textOr old fqn)) fqn = textOr old fqn := by
  rcases old with _ | s
  · rw [textOr, textOr]
    split <;> rfl
  · unfold textOr
    dsimp only
    by_cases empty : s = ""
    · rw [if_pos empty]
      split <;> rfl
    · rw [if_neg empty, if_neg empty]

/-- The row of a class that is there already stays as it is. -/
theorem create_existing {store : Store} {t : ℕ} {fqn : String} {p : ℤ} {c : ClassTask}
    (found : store.world.findClassTask t fqn = some c) (taskId : ℕ) :
    (store.createClassTask t fqn p).batchRows taskId = store.batchRows taskId := by
  have row := List.mem_of_find?_eq_some found
  have name : c.classFqn = fqn := by
    have both := List.find?_some found
    simp only [Bool.decide_and, Bool.and_eq_true, decide_eq_true_eq] at both
    exact both.2
  unfold Store.createClassTask
  rw [found]
  apply List.map_congr_left
  intro d member
  unfold Store.batchRow
  dsimp only
  by_cases same : d.id = c.id
  · have one : d = c := store.world.classes.eq_of_key (mem_listClassTasks.mp member).1 row same
    subst one
    rw [Function.update_self, name, textOr_coalesced]
  · rw [Function.update_of_ne same]

theorem createClassTask_rows {w : World} {t : ℕ} {fqn : String} {p : ℤ}
    (absent : w.findClassTask t fqn = none) : ∃ c : ClassTask, c.id = w.nextClassId ∧
      c.repoTaskId = t ∧ c.classFqn = fqn ∧
      (w.createClassTask t fqn p).classes.rows = w.classes.rows ++ [c] := by
  unfold World.createClassTask
  rw [absent]
  exact ⟨_, rfl, rfl, rfl, rfl⟩

theorem nextClassId_fresh {w : World} {c : ClassTask} (row : c ∈ w.classes.rows) :
    c.id ≠ w.nextClassId := by
  intro same
  have member : c.id ∈ w.classes.rows.map ClassTask.id := List.mem_map_of_mem row
  rw [same] at member
  exact World.foldr_max_fresh _ member

/-- A new row of another task. -/
theorem create_elsewhere {store : Store} {t taskId : ℕ} (ne : t ≠ taskId) (fqn : String) (p : ℤ) :
    (store.createClassTask t fqn p).batchRows taskId = store.batchRows taskId := by
  rcases found : store.world.findClassTask t fqn with _ | c
  · obtain ⟨c, id, task, -, rows⟩ := createClassTask_rows (p := p) found
    unfold Store.createClassTask
    rw [found]
    dsimp only
    split
    · unfold Store.batchRows World.listClassTasks
      dsimp only
      rw [rows, List.filter_append, List.filter_singleton, task]
      rw [show decide (t = taskId) = false from decide_eq_false ne, cond_false, List.append_nil]
      apply List.map_congr_left
      intro d member
      have old := (List.mem_filter.mp ((List.mem_insertionSort _).mp member)).1
      unfold Store.batchRow
      dsimp only
      rw [Function.update_of_ne (nextClassId_fresh old)]
    · rfl
  · exact create_existing found taskId

/-- A new row of the task itself. -/
theorem create_new {store : Store} {taskId : ℕ} {fqn : String} (p : ℤ)
    (absent : store.world.findClassTask taskId fqn = none) (room : store.world.nextClassId < rowLimit) :
    ((store.createClassTask taskId fqn p).batchRows taskId).length =
      (store.batchRows taskId).length + 1 := by
  obtain ⟨c, id, task, -, rows⟩ := createClassTask_rows (p := p) absent
  unfold Store.createClassTask
  rw [absent]
  dsimp only
  rw [if_pos room]
  unfold Store.batchRows World.listClassTasks
  dsimp only
  rw [rows, List.filter_append, List.filter_singleton, task, decide_eq_true rfl, cond_true]
  simp only [List.length_map, List.length_insertionSort, List.length_append, List.length_singleton]

/-! Other tasks. -/

theorem after_raise {σ ε α : Type} (e : ε) (s : σ) : Act.after (.raise e : Act σ ε α) s = s := rfl

/-- Ensuring batches leaves the database alone, or returns them. -/
theorem ensure_after (sha : Sha256) (args : EnsureArgs) (store : Store) :
    Act.after (ensureStableGenerationBatches sha args) store = store ∨
      ∃ batches, ensureStableGenerationBatches sha args store =
        (.ok batches, Act.after (ensureStableGenerationBatches sha args) store) := by
  unfold ensureStableGenerationBatches
  dsimp only
  split
  · exact .inl (after_raise _ _)
  · split
    · exact .inl (after_raise _ _)
    · rcases Act.transaction_after _ store with same | ⟨batches, ok⟩
      · exact .inl same
      · exact .inr ⟨batches, Act.transaction_ok.mpr ok⟩

theorem ensure_elsewhere (sha : Sha256) {args : EnsureArgs} {taskId : ℕ} (ne : args.taskId ≠ taskId)
    (store : Store) : (Act.after (ensureStableGenerationBatches sha args) store).batchRows taskId =
      store.batchRows taskId := by
  rcases ensure_after sha args store with same | ⟨batches, ok⟩
  · rw [same]
  · obtain ⟨-, size, -, ⟨-, -, same⟩ | ⟨-, ⟨-, same⟩ | ⟨-, assigned⟩, -⟩⟩ := ensure_ok ok
    · rw [same]
    · rw [same]
    · rw [assigned, Store.batchRows_assignKeys]
      conv_rhs => rw [← List.map_id (store.batchRows taskId)]
      apply List.map_congr_left
      intro r own
      apply Store.keyedBy_other
      rw [← List.map_flatMap, freshUnits_rows sha (by omega)]
      intro theirs
      obtain ⟨s, row, same⟩ := List.mem_map.mp theirs
      exact batchRows_apart ne.symm own row same.symm

end Uta.Generation
