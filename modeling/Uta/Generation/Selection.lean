/- Which batch the outer loop takes next: when the statuses it calls terminal are
those that the cycle leaves alone. -/
import Uta.Generation.Stability
import Mathlib.Data.List.Find

namespace Uta.Generation
open Uta.Lib Uta.Tasks

/-! The statuses that a stage leaves alone. -/

/-- What `record_stage` writes of a class row; nothing where its status is terminal. -/
def stagePatch (stage : String) (detail : Option String) (row : ClassTask) : Option ClassPatch :=
  if row.status.Terminal then none
  else some
    { status := some .running
      stage := some (some stage)
      currentStage := some (some stage)
      currentDetail := some detail }

/-- The loop of `record_stage`: the ids of the rows that it writes. -/
def stageClasses (taskId : ℕ) (stage : String) (detail : Option String) :
    List String → List ℕ → TaskProg (List ℕ)
  | [], updated => pure updated
  | classFqn :: rest, updated => do
    match ← findClassTask taskId classFqn with
    | none => stageClasses taskId stage detail rest updated
    | some row =>
      match stagePatch stage detail row with
      | none => stageClasses taskId stage detail rest updated
      | some patch => do
        updateClassTask row.id patch
        stageClasses taskId stage detail rest (updated ++ [row.id])

def recordStage (taskId : ℕ) (stage : String) (detail : Option String) (classFqns : List String) :
    TaskProg Unit := do
  updateRepoTask taskId { currentStage := some (some stage), currentDetail := some detail }
  let updated ← stageClasses taskId stage detail classFqns.eraseDups []
  addEvent { taskId, classTaskId := match updated with | [classId] => some classId | _ => none,
             eventType := "stage_started", message := textOr detail stage, stage := some stage }

/-- No stage that the cycle records changes a class of this status. -/
def Finished (s : ClassStatus) : Prop :=
  ∀ (stage : String) (detail : Option String) (row : ClassTask), row.status = s →
    stagePatch stage detail row = none

theorem finished_iff (s : ClassStatus) : Finished s ↔ s.Terminal := by
  constructor
  · intro finished
    by_contra going
    have left := finished "" none
      { id := 0, repoTaskId := 0, classFqn := "", priority := 0, status := s, updatedAt := 0 } rfl
    rw [stagePatch, if_neg going] at left
    cases left
  · rintro terminal stage detail row rfl
    exact if_pos terminal

instance (s : ClassStatus) : Decidable (Finished s) := decidable_of_iff _ (finished_iff s).symm

/-- The statuses that the selection calls terminal, as far as rows have them. -/
def Accepted (s : ClassStatus) : Prop := s = .pass ∨ s = .fail ∨ s = .mutationFail

instance (s : ClassStatus) : Decidable (Accepted s) := inferInstanceAs (Decidable (_ ∨ _))

theorem accepted_iff (s : ClassStatus) : s.text ∈ terminalClassStatuses ↔ Accepted s := by
  cases s <;> decide

theorem finished_of_accepted {s : ClassStatus} (accepted : Accepted s) : Finished s := by
  rw [finished_iff]
  rcases accepted with rfl | rfl | rfl <;> decide

/-! The first that is not accepted. -/

/-- The first element that is not accepted is the first that is not finished,
whenever there is one, exactly when all before that one are accepted. -/
theorem find?_exact {α : Type} {accepted finished : α → Prop} [DecidablePred accepted]
    [DecidablePred finished] (l : List α) (weaker : ∀ x ∈ l, accepted x → finished x) :
    ((l.find? (fun x => ¬ accepted x) = none ↔ ∀ x ∈ l, finished x) ∧
      ∀ x, l.find? (fun x => ¬ accepted x) = some x → ¬ finished x) ↔
    ∀ x ∈ l.takeWhile (fun x => finished x), accepted x := by
  induction l with
  | nil => simp
  | cons a l ih =>
      have rest := ih fun x member => weaker x (List.mem_cons_of_mem _ member)
      by_cases own : accepted a
      · have done := weaker a List.mem_cons_self own
        rw [List.find?_cons_of_neg (by simpa using own), List.takeWhile_cons_of_pos (by simpa using done),
          List.forall_mem_cons, List.forall_mem_cons]
        simp only [done, own, true_and]
        exact rest
      · rw [List.find?_cons_of_pos (by simpa using own)]
        by_cases done : finished a
        · rw [List.takeWhile_cons_of_pos (by simpa using done)]
          constructor
          · intro h
            exact absurd done (h.2 a rfl)
          · intro h
            exact absurd (h a List.mem_cons_self) own
        · rw [List.takeWhile_cons_of_neg (by simpa using done)]
          constructor
          · intro _ x member
            cases member
          · intro _
            refine ⟨⟨fun h => (nomatch h), fun all => absurd (all a List.mem_cons_self) done⟩, ?_⟩
            intro x found
            obtain rfl : a = x := Option.some.inj found
            exact done

/-! Selection. -/

/-- All rows of the classes of a batch have a status of this kind. -/
def BatchAll (P : ClassStatus → Prop) (rows : List ClassTask) (b : StableGenerationBatch) : Prop :=
  ∀ c ∈ rows, c.id ∈ b.classTaskIds → P c.status

instance (P : ClassStatus → Prop) [DecidablePred P] (rows : List ClassTask)
    (b : StableGenerationBatch) : Decidable (BatchAll P rows b) :=
  inferInstanceAs (Decidable (∀ c ∈ rows, _))

theorem classDone_iff {rows : List ClassTask} (unique : (rows.map ClassTask.id).Nodup) {c : ClassTask}
    (row : c ∈ rows) : ClassDone rows c.id ↔ Accepted c.status := by
  unfold ClassDone
  rw [find?_own unique row, ← accepted_iff]
  simp

/-- A batch is passed over exactly when all its classes are accepted. -/
theorem passed_over_iff {rows : List ClassTask} (unique : (rows.map ClassTask.id).Nodup)
    {b : StableGenerationBatch} (present : ∀ id ∈ b.classTaskIds, id ∈ rows.map ClassTask.id) :
    (∃ classId ∈ b.classTaskIds, ¬ ClassDone rows classId) ↔ ¬ BatchAll Accepted rows b := by
  unfold BatchAll
  push Not
  constructor
  · rintro ⟨classId, member, undone⟩
    obtain ⟨c, row, rfl⟩ := List.mem_map.mp (present classId member)
    exact ⟨c, row, member, fun accepted => undone ((classDone_iff unique row).mpr accepted)⟩
  · rintro ⟨c, row, member, open_⟩
    exact ⟨c.id, member, fun done => open_ ((classDone_iff unique row).mp done)⟩

theorem dedup_same {l : List ℕ} {t : ℕ} (same : ∀ n ∈ l, n = t) : l.dedup = if l = [] then [] else [t] := by
  induction l with
  | nil => rfl
  | cons n l ih =>
      rw [if_neg (List.cons_ne_nil _ _), same n List.mem_cons_self]
      have rest := ih fun m member => same m (List.mem_cons_of_mem _ member)
      cases l with
      | nil => rfl
      | cons m l =>
          have again : t ∈ m :: l := by
            rw [same m (List.mem_cons_of_mem _ List.mem_cons_self)]
            exact List.mem_cons_self
          rw [List.dedup_cons_of_mem again, rest, if_neg (List.cons_ne_nil _ _)]

theorem firstNonTerminal_eq {taskId : ℕ} {w : World} {batches : List StableGenerationBatch}
    (tasks : ∀ b ∈ batches, b.repoTaskId = taskId)
    (present : ∀ b ∈ batches, ∀ id ∈ b.classTaskIds, id ∈ (w.listClassTasks taskId).map ClassTask.id) :
    firstNonTerminalBatch w batches =
      .ok (batches.find? fun b => ¬ BatchAll Accepted (w.listClassTasks taskId) b) := by
  have one := dedup_same (l := batches.map StableGenerationBatch.repoTaskId) (t := taskId) (by
    intro n member
    obtain ⟨b, own, rfl⟩ := List.mem_map.mp member
    exact tasks b own)
  unfold firstNonTerminalBatch
  rw [one]
  cases batches with
  | nil => rfl
  | cons b rest =>
      rw [if_neg (by simp)]
      dsimp only
      congr 1
      apply List.find?_congr
      intro c own
      rw [decide_eq_decide]
      exact passed_over_iff (listClassTasks_nodup w taskId) (present c own)

/-- Where batches have been ensured, whatever has become of the statuses of their
classes: no batch is selected exactly when every class is finished, and a batch
that is selected has a class that is not, exactly when the batches before the
first with an unfinished class are accepted in all their classes. -/
theorem selection_exact_iff (sha : Sha256) {args : EnsureArgs} {store after : Store}
    {batches : List StableGenerationBatch}
    (ensured : ensureStableGenerationBatches sha args store = (.ok batches, after)) (w : World)
    (rows : (w.listClassTasks args.taskId).map ClassTask.id =
      (after.world.listClassTasks args.taskId).map ClassTask.id) :
    ((firstNonTerminalBatch w batches = .ok none ↔
        ∀ c ∈ w.listClassTasks args.taskId, Finished c.status) ∧
      ∀ b, firstNonTerminalBatch w batches = .ok (some b) →
        ¬ BatchAll Finished (w.listClassTasks args.taskId) b) ↔
    ∀ b ∈ batches.takeWhile (fun b => BatchAll Finished (w.listClassTasks args.taskId) b),
      BatchAll Accepted (w.listClassTasks args.taskId) b := by
  have settled := settled_of_ensure ensured
  have ids : batches.flatMap StableGenerationBatch.classTaskIds =
      (w.listClassTasks args.taskId).map ClassTask.id := by
    rw [rows, ← settled.ids, Store.batchRows_ids]
  have tasks : ∀ b ∈ batches, b.repoTaskId = args.taskId := by
    rcases settled.read with ⟨-, rfl⟩ | ⟨-, -, read⟩
    · intro b member
      cases member
    · exact fun b member => reconstruct_task read member
  have present : ∀ b ∈ batches, ∀ id ∈ b.classTaskIds,
      id ∈ (w.listClassTasks args.taskId).map ClassTask.id := by
    intro b member id own
    rw [← ids]
    exact List.mem_flatMap.mpr ⟨b, member, own⟩
  have all : (∀ c ∈ w.listClassTasks args.taskId, Finished c.status) ↔
      ∀ b ∈ batches, BatchAll Finished (w.listClassTasks args.taskId) b := by
    constructor
    · intro every b _ c row _
      exact every c row
    · intro every c row
      have somewhere : c.id ∈ batches.flatMap StableGenerationBatch.classTaskIds := by
        rw [ids]
        exact List.mem_map_of_mem row
      obtain ⟨b, member, own⟩ := List.mem_flatMap.mp somewhere
      exact every b member c row own
  rw [firstNonTerminal_eq tasks present, all, Except.ok.injEq]
  simp only [Except.ok.injEq]
  apply find?_exact
  intro b _ accepted c row own
  exact finished_of_accepted (accepted c row own)

/-- The sample with some classes in another status. -/
def sampleWith (statuses : List (ℕ × ClassStatus)) : World :=
  statuses.foldl (fun w s => w.updateClassTask s.1 { status := some s.2 }) sampleAfter.world

/-- Two classes have passed, and the batch of the third is next. -/
theorem passed_batch_left :
    let w := sampleWith [(1, .pass), (2, .mutationFail)]
    (firstNonTerminalBatch w sampleBatches = .ok none ↔ ∀ c ∈ w.listClassTasks 1, Finished c.status) ∧
      ∀ b, firstNonTerminalBatch w sampleBatches = .ok (some b) →
        ¬ BatchAll Finished (w.listClassTasks 1) b := by
  have ids : ((sampleWith [(1, .pass), (2, .mutationFail)]).listClassTasks 1).map ClassTask.id =
      (sampleAfter.world.listClassTasks 1).map ClassTask.id := by decide +kernel
  apply (selection_exact_iff sampleSha sample_ensured _ ids).mpr
  decide +kernel

/-- No class of the task is open, and the first batch is selected again. -/
theorem pushFailed_selected :
    let w := sampleWith [(1, .pushFailed), (2, .pushFailed), (3, .pushFailed)]
    (∀ c ∈ w.listClassTasks 1, Finished c.status) ∧
      firstNonTerminalBatch w sampleBatches = .ok sampleBatches.head? := by
  decide +kernel

end Uta.Generation
