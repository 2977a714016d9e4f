/- The class rows that the program writes: named by their class, one for each
class of a task, with ids that SQLite gives. -/
import Uta.Generation.RerunLaws

namespace Uta.Generation
open Uta.Lib Uta.Tasks

/-- The columns of a class row that never change: its id, its task and its class. -/
def mark (c : ClassTask) : ℕ × ℕ × String := (c.id, c.repoTaskId, c.classFqn)

def Store.marks (store : Store) : List (ℕ × ℕ × String) := store.world.classes.rows.map mark

structure Sound (store : Store) : Prop where
  /-- `create_class_task` is given the class as the target, or no target. -/
  named : ∀ m ∈ store.marks, (store.identity m.1).targetId ∈ [none, some "", some m.2.2]
  /-- UNIQUE(repo_task_id, class_fqn). -/
  distinct : (store.marks.map Prod.snd).Nodup
  bounded : ∀ m ∈ store.marks, m.1 < rowLimit

/-- A database as the program leaves it. -/
def Database : Type := { store : Store // Sound store }

variable {store later : Store}

theorem Sound.of_marks (sound : Sound store) (marks : later.marks = store.marks)
    (targets : ∀ id, (later.identity id).targetId = (store.identity id).targetId) : Sound later := by
  constructor
  · intro m member
    rw [targets]
    exact sound.named m (marks ▸ member)
  · rw [marks]
    exact sound.distinct
  · rw [marks]
    exact sound.bounded

/-! Updates. -/

theorem marks_update (w : World) (classId : ℕ) (patch : ClassPatch) :
    (w.updateClassTask classId patch).classes.rows.map mark = w.classes.rows.map mark := by
  change (w.classes.rows.map _).map mark = _
  rw [List.map_map]
  apply List.map_congr_left
  intro c _
  rw [Function.comp_apply]
  split <;> rfl

theorem targetId_update (identity : ℕ → ClassIdentity) (classId : ℕ) (key : Option String) (id : ℕ) :
    (Function.update identity classId { identity classId with batchKey := key } id).targetId =
      (identity id).targetId := by
  by_cases same : id = classId
  · subst same
    rw [Function.update_self]
  · rw [Function.update_of_ne same]

/-- What keeps the marks and the targets at every step keeps them to the end. -/
theorem fold_keeps {α : Type} {f : Store → α → Store}
    (kept : ∀ s a, (f s a).marks = s.marks ∧ ∀ id, ((f s a).identity id).targetId = (s.identity id).targetId)
    (l : List α) (s : Store) : (l.foldl f s).marks = s.marks ∧
      ∀ id, ((l.foldl f s).identity id).targetId = (s.identity id).targetId := by
  induction l generalizing s with
  | nil => exact ⟨rfl, fun _ => rfl⟩
  | cons a l ih =>
      obtain ⟨marks, targets⟩ := ih (f s a)
      exact ⟨marks.trans (kept s a).1, fun id => (targets id).trans ((kept s a).2 id)⟩

theorem assignKeys_keeps (run : String) (units : List (String × List BatchRow)) (store : Store) :
    (store.assignKeys run units).marks = store.marks ∧
      ∀ id, ((store.assignKeys run units).identity id).targetId = (store.identity id).targetId := by
  apply fold_keeps
  intro s u
  apply fold_keeps
  intro s r
  exact ⟨marks_update .., fun id => targetId_update ..⟩

theorem replaceKeys_keeps (args : RerunArgs) (run : String) (byClass : List (ℕ × String))
    (rows : List ClassTask) (store : Store) :
    (rows.foldl (Store.replaceKey args run byClass) store).marks = store.marks ∧
      ∀ id, ((rows.foldl (Store.replaceKey args run byClass) store).identity id).targetId =
        (store.identity id).targetId := by
  apply fold_keeps
  intro s c
  exact ⟨marks_update .., fun id => targetId_update ..⟩

/-! Steps. -/

theorem coalesced_named {old : Option String} {fqn : String} (named : old ∈ [none, some "", some fqn]) :
    some (textOr old fqn) ∈ [none, some "", some fqn] := by
  simp only [List.mem_cons, List.not_mem_nil, or_false] at named
  rcases named with rfl | rfl | rfl
  · simp [textOr]
  · simp [textOr]
  · simp [textOr]

theorem sound_create (sound : Sound store) (t : ℕ) (fqn : String) (p : ℤ) :
    Sound (store.createClassTask t fqn p) := by
  rcases found : store.world.findClassTask t fqn with _ | c
  · unfold Store.createClassTask
    rw [found]
    dsimp only
    split
    · rename_i room
      obtain ⟨c, id, task, name, rows⟩ := createClassTask_rows (p := p) found
      have absent : (t, fqn) ∉ store.marks.map Prod.snd := by
        intro member
        obtain ⟨m, mark_, same⟩ := List.mem_map.mp member
        obtain ⟨d, row, rfl⟩ := List.mem_map.mp mark_
        have missing := List.find?_eq_none.mp found d row
        obtain ⟨task', name'⟩ := Prod.mk.inj same
        exact missing (decide_eq_true ⟨task', name'⟩)
      constructor
      · intro m member
        unfold Store.marks at member
        rw [rows, List.map_append, List.mem_append] at member
        rcases member with old | new
        · obtain ⟨d, row, rfl⟩ := List.mem_map.mp old
          dsimp only [mark]
          rw [Function.update_of_ne (nextClassId_fresh row)]
          exact sound.named _ (List.mem_map_of_mem row)
        · rw [List.map_singleton, List.mem_singleton] at new
          subst new
          simp [mark, id, name]
      · unfold Store.marks
        rw [rows, List.map_append, List.map_append]
        apply List.Nodup.append sound.distinct (List.nodup_singleton _)
        simp only [mark, task, name, List.disjoint_singleton]
        exact absent
      · intro m member
        unfold Store.marks at member
        rw [rows, List.map_append, List.mem_append] at member
        rcases member with old | new
        · exact sound.bounded m old
        · rw [List.map_singleton, List.mem_singleton] at new
          subst new
          simp only [mark, id]
          exact room
    · exact sound
  · have row := List.mem_of_find?_eq_some found
    have name : c.classFqn = fqn := by
      have both := List.find?_some found
      simp only [Bool.decide_and, Bool.and_eq_true, decide_eq_true_eq] at both
      exact both.2
    unfold Store.createClassTask
    rw [found]
    refine ⟨?_, sound.distinct, sound.bounded⟩
    intro m member
    have named := sound.named m member
    by_cases same : m.1 = c.id
    · obtain ⟨d, other, rfl⟩ := List.mem_map.mp member
      have one : d = c := store.world.classes.eq_of_key other row same
      subst one
      dsimp only [mark] at named ⊢
      rw [Function.update_self, ← name]
      exact coalesced_named named
    · dsimp only
      rw [Function.update_of_ne same]
      exact named

theorem sound_perform (sound : Sound store) (s : Stmt) (plain : Plain s) : Sound (store.perform s) := by
  cases s with
  | createClassTask t fqn p => exact sound_create sound t fqn p
  | updateClassTask classId patch => exact sound.of_marks (marks_update ..) fun _ => rfl
  | cleanRerun t args => exact absurd plain id
  | _ =>
      apply sound.of_marks
      · unfold Store.marks
        refine congrArg (fun classes : Table ClassTask.id => classes.rows.map mark) ?_
        refine exec_classes ?_ store.world
        exact fun writes => writes
      · intro id
        rfl

/-- Every operation of the program leaves a sound database. -/
theorem sound_step (sha : Sha256) (pyInt : Json → Option ℤ) (sound : Sound store) (op : Op) :
    Sound (step sha pyInt store op) := by
  cases op with
  | stmt s plain => exact sound_perform sound s plain
  | refreshRepoCounts t => exact sound.of_marks rfl fun _ => rfl
  | ensure args =>
      change Sound (Act.after (ensureStableGenerationBatches sha args) store)
      rcases ensure_after sha args store with same | ⟨batches, ok⟩
      · rw [same]
        exact sound
      · obtain ⟨-, -, -, ⟨-, -, same⟩ | ⟨-, ⟨-, same⟩ | ⟨-, assigned⟩, -⟩⟩ := ensure_ok ok
        · rw [same]
          exact sound
        · rw [same]
          exact sound
        · rw [assigned]
          obtain ⟨marks, targets⟩ := assignKeys_keeps _ _ store
          exact sound.of_marks marks targets
  | cleanRerun t request =>
      change Sound (Act.after (cleanRerunGeneration sha pyInt t request) store)
      rcases Act.transaction_after (rerunChecked sha pyInt t request) store with same | ⟨run, ok⟩
      · rw [cleanRerunGeneration, same]
        exact sound
      · obtain ⟨-, eligible⟩ := cleanRerun_ok.mp (Act.transaction_ok.mpr ok)
        obtain ⟨prior, size, -, -, -, -, result⟩ := rerunEligible_ok.mp eligible
        rw [cleanRerunGeneration, result]
        obtain ⟨marks, targets⟩ := replaceKeys_keeps request.args request.drawn.text
          (partsOf sha t store size).1 (store.world.listClassTasks t) store
        exact sound.of_marks marks targets

/-- One operation on a database. -/
def Database.step (sha : Sha256) (pyInt : Json → Option ℤ) (db : Database) (op : Op) : Database :=
  ⟨Generation.step sha pyInt db.1 op, sound_step sha pyInt db.2 op⟩

/-! What is sound of a task's rows. -/

/-- The target of a row is its class. -/
theorem Sound.target (sound : Sound store) {c : ClassTask} (row : c ∈ store.world.classes.rows) :
    (store.batchRow c).target = c.classFqn := by
  have named := sound.named (mark c) (List.mem_map_of_mem row)
  simp only [mark, List.mem_cons, List.not_mem_nil, or_false] at named
  unfold Store.batchRow
  dsimp only
  rcases named with none_ | empty | own
  · rw [none_, textOr]
  · rw [empty, textOr, if_pos rfl]
  · rw [own, textOr]
    split
    · rename_i blank
      exact blank.symm ▸ rfl
    · rfl

/-- No two classes of a task have one target. -/
theorem Sound.targets_nodup (sound : Sound store) (taskId : ℕ) :
    ((store.batchRows taskId).map BatchRow.target).Nodup := by
  have own : (store.batchRows taskId).map BatchRow.target =
      (store.world.listClassTasks taskId).map ClassTask.classFqn := by
    rw [Store.batchRows, List.map_map]
    apply List.map_congr_left
    intro c member
    exact sound.target (mem_listClassTasks.mp member).1
  have pairs : ((store.world.listClassTasks taskId).map fun c => (mark c).2).Nodup := by
    rw [((listClassTasks_perm store.world taskId).map _).nodup_iff]
    refine List.Nodup.sublist (List.filter_sublist.map _) ?_
    have distinct := sound.distinct
    unfold Store.marks at distinct
    rw [List.map_map] at distinct
    exact distinct
  rw [own]
  apply List.pairwise_map.mpr
  refine ((List.pairwise_map.mp pairs).imp_of_mem ?_)
  intro c d mine yours ne same
  apply ne
  have task := (mem_listClassTasks.mp mine).2.trans (mem_listClassTasks.mp yours).2.symm
  exact Prod.ext task same

/-- A task has no more rows than there are ids. -/
theorem Sound.length_le (sound : Sound store) (taskId : ℕ) :
    (store.batchRows taskId).length ≤ 2 ^ 63 := by
  have nodup := Store.batchRows_nodup store taskId
  have below : (store.batchRows taskId).map BatchRow.id ⊆ List.range rowLimit := by
    intro id member
    rw [Store.batchRows_ids] at member
    obtain ⟨c, row, rfl⟩ := List.mem_map.mp member
    rw [List.mem_range]
    exact sound.bounded (mark c) (List.mem_map_of_mem (mem_listClassTasks.mp row).1)
  have count := (List.subperm_of_subset nodup below).length_le
  rw [List.length_map, List.length_range] at count
  exact count

end Uta.Generation
