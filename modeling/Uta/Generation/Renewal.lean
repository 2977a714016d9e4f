/- A clean rerun leaves a task whose batches are the partition it computed, or
leaves the database as it was. -/
import Uta.Generation.Soundness

namespace Uta.Generation
open Uta.Lib Uta.Tasks
open Uta.Lib.Blocks (chunks)
open Uta.Enforce (jsonLoads)

/-! Eligibility. -/

/-- A row without a key, or with one that names a run and a unit. -/
def ReadableKey (r : BatchRow) : Prop :=
  ∀ key ∈ r.batchKey, PyText.strip key.toList ≠ [] →
    ∃ run unit, splitKey key = some (run, unit) ∧ validIdentifier run = true ∧ validIdentifier unit = true

/-- The ids that `uuid4` gives have not been given before. -/
structure FreshIds (store : Store) (request : RerunRequest) : Prop where
  distinct : Function.Injective request.recordIds
  records : ∀ t ∈ store.supersessions, ∀ n, t.id ≠ request.recordIds n
  run : ∀ t ∈ store.supersessions, t.newRunId ≠ request.drawn.text

/-- What a clean rerun asks for. -/
structure Eligible (pyInt : Json → Option ℤ) (store : Store) (taskId : ℕ) (request : RerunRequest) :
    Prop where
  reason : PyText.strip request.args.reason.toList ≠ []
  confirmed : request.args.confirmTaskId = taskId
  task : ∃ task, store.world.tasks.find? taskId = some task ∧ task.engineBlocker = none ∧
    (task.status = .stopped ∨ task.status.Terminal)
  unleased : ∀ h ∈ store.world.heartbeats.rows,
    ¬ (h.status = .running ∧ h.currentRepoTaskId = some taskId)
  rows : store.world.listClassTasks taskId ≠ []
  keys : ∀ r ∈ store.batchRows taskId, ReadableKey r
  size : ∀ v ∈ configuredSize (jsonLoads (store.account taskId).configSnapshotJson.toList),
    intOf pyInt v ≠ none
  ids : FreshIds store request

theorem rerunRefusal_none {w : World} {taskId : ℕ} {args : RerunArgs}
    (reason : PyText.strip args.reason.toList ≠ []) (confirmed : args.confirmTaskId = taskId)
    (task : ∃ task, w.tasks.find? taskId = some task ∧ task.engineBlocker = none ∧
      (task.status = .stopped ∨ task.status.Terminal))
    (unleased : ∀ h ∈ w.heartbeats.rows, ¬ (h.status = .running ∧ h.currentRepoTaskId = some taskId))
    (rows : w.listClassTasks taskId ≠ []) : w.rerunRefusal taskId args = none := by
  obtain ⟨row, found, engine, status⟩ := task
  have durable : requireDurableGenerationTask row "be clean-rerun" = .ok () := by
    unfold requireDurableGenerationTask
    rw [engine]
  have lease : w.heartbeats.rows.find? (fun h => h.status = .running ∧
      h.currentRepoTaskId = some taskId) = none := by
    apply List.find?_eq_none.mpr
    intro h member
    rw [decide_eq_true_eq]
    exact unleased h member
  have stopped : ¬ (row.status ≠ .stopped ∧ ¬ row.status.Terminal) := by
    rintro ⟨running, going⟩
    rcases status with same | terminal
    · exact running same
    · exact going terminal
  unfold World.rerunRefusal
  rw [if_neg reason, if_neg (not_not_intro confirmed), found]
  dsimp only
  rw [durable]
  dsimp only
  rw [if_neg stopped, lease]
  exact if_neg rows

theorem rows_of_rerunRefusal {w : World} {taskId : ℕ} {args : RerunArgs}
    (accepted : w.rerunRefusal taskId args = none) : w.listClassTasks taskId ≠ [] := by
  intro none_
  unfold World.rerunRefusal at accepted
  rw [if_pos none_] at accepted
  split at accepted
  · cases accepted
  · split at accepted
    · cases accepted
    · split at accepted
      · cases accepted
      · split at accepted
        · cases accepted
        · split at accepted
          · cases accepted
          · split at accepted <;> cases accepted

/-! Old identities. -/

def PriorIdentities.classIds (prior : PriorIdentities) : List ℕ :=
  prior.known.flatMap PriorRun.classIds ++ prior.missing

theorem priorIdentities_ok {rows : List BatchRow} (readable : ∀ r ∈ rows, ReadableKey r)
    (prior : PriorIdentities) : ∃ final, priorIdentitiesFrom prior rows = .ok final := by
  induction rows generalizing prior with
  | nil => exact ⟨prior, rfl⟩
  | cons row rows ih =>
      have rest := ih fun r member => readable r (List.mem_cons_of_mem _ member)
      have own := readable row List.mem_cons_self
      unfold priorIdentitiesFrom
      rcases row.batchKey.eq_none_or_eq_some with none_ | ⟨key, keyed⟩
      · rw [none_]
        exact rest _
      · rw [keyed]
        dsimp only
        by_cases blank : PyText.strip key.toList = []
        · rw [if_pos blank]
          exact rest _
        · obtain ⟨run, unit, split, validRun, validUnit⟩ := own key keyed blank
          rw [if_neg blank, split]
          dsimp only
          rw [if_pos ⟨validRun, validUnit⟩]
          exact rest _

theorem note_runId (unit : String) (id : ℕ) (g : PriorRun) : (g.note unit id).runId = g.runId := rfl

theorem noteKnown_nodup {run unit : String} {id : ℕ} {known : List PriorRun}
    (nodup : (known.map PriorRun.runId).Nodup) :
    ((noteKnown run unit id known).map PriorRun.runId).Nodup := by
  unfold noteKnown
  split
  · rw [List.map_map]
    have same : known.map (PriorRun.runId ∘ fun g => if g.runId = run then g.note unit id else g) =
        known.map PriorRun.runId := by
      apply List.map_congr_left
      intro g _
      rw [Function.comp_apply]
      split <;> rfl
    rw [same]
    exact nodup
  · rename_i fresh
    rw [List.map_append, List.map_singleton, note_runId]
    exact List.Nodup.append nodup (List.nodup_singleton _) (by simpa using fresh)

theorem note_classIds {run unit : String} {id : ℕ} {known : List PriorRun}
    (nodup : (known.map PriorRun.runId).Nodup) (member : run ∈ known.map PriorRun.runId) :
    ((known.map fun g => if g.runId = run then g.note unit id else g).flatMap PriorRun.classIds).Perm
      (known.flatMap PriorRun.classIds ++ [id]) := by
  induction known with
  | nil => cases member
  | cons g known ih =>
      obtain ⟨fresh, rest⟩ := List.nodup_cons.mp nodup
      rw [List.map_cons, List.flatMap_cons, List.flatMap_cons]
      by_cases same : g.runId = run
      · have others : known.map (fun g => if g.runId = run then g.note unit id else g) = known := by
          conv_rhs => rw [← List.map_id known]
          apply List.map_congr_left
          intro h later
          apply if_neg
          rintro again
          exact fresh (same.trans again.symm ▸ List.mem_map_of_mem later)
        rw [if_pos same, others]
        change (g.classIds ++ [id] ++ _).Perm _
        rw [List.append_assoc, List.append_assoc]
        exact List.Perm.append_left _ List.perm_append_comm
      · have later : run ∈ known.map PriorRun.runId := by
          rcases List.mem_cons.mp member with head | tail
          · exact absurd head.symm same
          · exact tail
        rw [if_neg same, List.append_assoc]
        exact List.Perm.append_left _ (ih rest later)

theorem noteKnown_classIds {run unit : String} {id : ℕ} {known : List PriorRun}
    (nodup : (known.map PriorRun.runId).Nodup) :
    ((noteKnown run unit id known).flatMap PriorRun.classIds).Perm
      (known.flatMap PriorRun.classIds ++ [id]) := by
  unfold noteKnown
  split
  · rename_i member
    exact note_classIds nodup member
  · rw [List.flatMap_append]
    exact List.Perm.refl _

/-- Every row is in one old run, or among those without one. -/
theorem priorIdentities_classIds {rows : List BatchRow} {prior final : PriorIdentities}
    (nodup : (prior.known.map PriorRun.runId).Nodup)
    (read : priorIdentitiesFrom prior rows = .ok final) :
    (final.known.map PriorRun.runId).Nodup ∧
      final.classIds.Perm (prior.classIds ++ rows.map BatchRow.id) := by
  induction rows generalizing prior with
  | nil =>
      obtain rfl : prior = final := Except.ok.inj read
      exact ⟨nodup, by simp⟩
  | cons row rows ih =>
      have bare : priorIdentitiesFrom { prior with missing := prior.missing ++ [row.id] } rows =
          .ok final → (final.known.map PriorRun.runId).Nodup ∧
            final.classIds.Perm (prior.classIds ++ (row :: rows).map BatchRow.id) := by
        intro rest
        obtain ⟨labels, all⟩ := @ih { prior with missing := prior.missing ++ [row.id] } nodup rest
        refine ⟨labels, all.trans ?_⟩
        simp [PriorIdentities.classIds]
      unfold priorIdentitiesFrom at read
      split at read
      · exact bare read
      · split at read
        · exact bare read
        · split at read
          · cases read
          · split at read
            · obtain ⟨labels, all⟩ := ih (noteKnown_nodup nodup) read
              refine ⟨labels, all.trans ?_⟩
              unfold PriorIdentities.classIds
              rw [List.map_cons, List.append_assoc, List.append_assoc]
              refine ((noteKnown_classIds nodup).append_right _).trans ?_
              rw [List.append_assoc]
              apply List.Perm.append_left
              rw [List.singleton_append]
              exact List.perm_middle.symm
            · cases read

/-! Records. -/

theorem unclashing_of {present records : List Supersession}
    (apart : ∀ s ∈ records, ∀ t ∈ present, ¬ s.Clashes t)
    (pairs : records.Pairwise fun t s => ¬ s.Clashes t) : Unclashing present records := by
  induction records generalizing present with
  | nil => exact trivial
  | cons s records ih =>
      obtain ⟨later, rest⟩ := List.pairwise_cons.mp pairs
      refine ⟨apart s List.mem_cons_self, ih ?_ rest⟩
      intro r member t there
      rcases List.mem_append.mp there with old | new
      · exact apart r (List.mem_cons_of_mem _ member) t old
      · rw [List.mem_singleton.mp new]
        exact later r member

section Records
variable {store : Store} {taskId : ℕ} {request : RerunRequest} {byClass : List (ℕ × String)} {now : Time}
  {prior : PriorIdentities}

theorem mem_supersessions {s : Supersession} (member : s ∈ supersessionsOf taskId request byClass now prior) :
    (∃ n, s.id = request.recordIds n) ∧ s.newRunId = request.drawn.text := by
  rcases List.mem_append.mp member with known | missing
  · obtain ⟨⟨g, n⟩, _, rfl⟩ := List.mem_map.mp known
    exact ⟨⟨n, rfl⟩, rfl⟩
  · split at missing
    · cases missing
    · rw [List.mem_singleton.mp missing]
      exact ⟨⟨_, rfl⟩, rfl⟩

theorem records_unclashing (ids : FreshIds store request)
    (labels : (prior.known.map PriorRun.runId).Nodup) :
    Unclashing store.supersessions (supersessionsOf taskId request byClass now prior) := by
  apply unclashing_of
  · rintro s member t there (same | ⟨-, -, -, same⟩)
    · obtain ⟨⟨n, id⟩, -⟩ := mem_supersessions member
      exact ids.records t there n (same.trans id)
    · exact ids.run t there (same.trans (mem_supersessions member).2)
  · have indices : prior.known.zipIdx.Pairwise fun a b => a.2 ≠ b.2 := by
      apply List.pairwise_map.mp
      rw [List.zipIdx_map_snd]
      exact List.nodup_range'
    have runs : prior.known.zipIdx.Pairwise fun a b => a.1.runId ≠ b.1.runId := by
      have labels' := labels
      rw [← List.zipIdx_map_fst 0 prior.known, List.map_map] at labels'
      exact List.pairwise_map.mp labels'
    unfold supersessionsOf
    refine List.pairwise_append.mpr ⟨?_, ?_, ?_⟩
    · apply List.pairwise_map.mpr
      refine (indices.and runs).imp ?_
      rintro a b ⟨index, run⟩ (same | ⟨-, -, same, -⟩)
      · exact index (ids.distinct same)
      · exact run (Option.some.inj same)
    · split
      · exact List.Pairwise.nil
      · exact List.pairwise_singleton ..
    · intro s known t missing
      obtain ⟨⟨g, n⟩, own, rfl⟩ := List.mem_map.mp known
      have below := (List.mem_zipIdx own).2.1
      split at missing
      · cases missing
      · rw [List.mem_singleton.mp missing]
        rintro (same | ⟨old, -⟩)
        · have index : n = prior.known.length := ids.distinct same
          omega
        · exact old rfl

theorem records_classIds : (supersessionsOf taskId request byClass now prior).flatMap
    Supersession.affectedClassIds = prior.classIds := by
  have known : prior.known.zipIdx.flatMap (fun p => p.1.classIds) =
      prior.known.flatMap PriorRun.classIds := by
    conv_rhs => rw [← List.zipIdx_map_fst 0 prior.known, List.flatMap_map]
  unfold supersessionsOf PriorIdentities.classIds
  rw [List.flatMap_append, List.flatMap_map]
  refine congrArg₂ (fun a b : List ℕ => a ++ b) known ?_
  split
  · rename_i none_
    rw [none_]
    rfl
  · simp [supersession]

end Records

/-! The partition. -/

theorem lookup_of_mem {l : List (ℕ × String)} (nodup : (l.map Prod.fst).Nodup) {k : ℕ} {v : String}
    (member : (k, v) ∈ l) : l.lookup k = some v := by
  induction l with
  | nil => cases member
  | cons e l ih =>
      obtain ⟨fresh, rest⟩ := List.nodup_cons.mp nodup
      rcases List.mem_cons.mp member with rfl | later
      · exact List.lookup_cons_self
      · have other : (k == e.1) = false := by
          rw [beq_eq_false_iff_ne]
          rintro rfl
          exact fresh (List.mem_map.mpr ⟨_, later, rfl⟩)
        rw [List.lookup_cons, other]
        exact ih rest later

section Partition
variable (sha : Sha256) (size : ℕ) (rows : List BatchRow)

theorem partition_byClass : (partitionRows sha rows size).1 =
    (freshUnits sha size rows).flatMap fun u => u.2.map fun r => (r.id, u.1) := by
  unfold partitionRows freshUnits
  dsimp only
  rw [List.flatMap_map, List.flatMap_map]
  simp only [List.map_map]
  rfl

/-- The units of the rerun are those that the batches are ensured with. -/
theorem partition_units : (partitionRows sha rows size).2 =
    (freshUnits sha size rows).map Prod.fst := by
  unfold partitionRows freshUnits
  dsimp only
  rw [List.map_map, List.map_map]
  rfl

variable {sha size rows}

theorem unitOf_partition (positive : 0 < size) (nodup : (rows.map BatchRow.id).Nodup)
    {u : String × List BatchRow} (unit : u ∈ freshUnits sha size rows) {r : BatchRow} (row : r ∈ u.2) :
    unitOf (partitionRows sha rows size).1 r.id = u.1 := by
  have ids : ((partitionRows sha rows size).1.map Prod.fst) = rows.map BatchRow.id := by
    conv_rhs => rw [← freshUnits_rows sha positive rows]
    rw [partition_byClass, List.map_flatMap, List.map_flatMap]
    simp only [List.map_map]
    rfl
  have listed : (r.id, u.1) ∈ (partitionRows sha rows size).1 := by
    rw [partition_byClass]
    exact List.mem_flatMap.mpr ⟨u, unit, List.mem_map_of_mem row⟩
  rw [unitOf, lookup_of_mem (ids ▸ nodup) listed]
  rfl

theorem map_renewed (positive : 0 < size) (nodup : (rows.map BatchRow.id).Nodup) (run : String) :
    rows.map (renewed run (partitionRows sha rows size).1) =
      (Store.keyedUnits run (freshUnits sha size rows)).flatMap Prod.snd := by
  conv_lhs => rw [← freshUnits_rows sha positive rows]
  rw [List.map_flatMap, Store.keyedUnits, List.flatMap_map]
  apply List.flatMap_congr
  intro u unit
  apply List.map_congr_left
  intro r row
  rw [freshUnits_rows sha positive rows, renewed, unitOf_partition positive nodup unit row]

end Partition

/-! Counts. -/

/-- Rows that are written one after the other, each by its own patch. -/
theorem update_each (patch : ClassTask → ClassPatch) {rows : List ClassTask}
    (nodup : (rows.map ClassTask.id).Nodup) (w : World) :
    (rows.foldl (fun w c => w.updateClassTask c.id (patch c)) w).classes.rows =
      w.classes.rows.map fun d =>
        ((rows.find? fun c => c.id = d.id).map fun c => (patch c).apply w.now d).getD d := by
  induction rows generalizing w with
  | nil => exact (List.map_id' _).symm
  | cons c rows ih =>
      obtain ⟨fresh, rest⟩ := List.nodup_cons.mp nodup
      rw [List.foldl_cons, ih rest]
      change ((w.classes.rows.map fun d => if d.id = c.id then (patch c).apply w.now d else d).map _) = _
      rw [List.map_map]
      apply List.map_congr_left
      intro d _
      rw [Function.comp_apply]
      by_cases own : d.id = c.id
      · have gone : rows.find? (fun e => e.id = ((patch c).apply w.now d).id) = none := by
          apply List.find?_eq_none.mpr
          intro e member
          rw [decide_eq_true_eq]
          intro same
          exact fresh (List.mem_map.mpr ⟨e, member, same.trans own⟩)
        rw [if_pos own, gone, List.find?_cons_of_pos (by simpa using own.symm)]
        rfl
      · rw [if_neg own, List.find?_cons_of_neg (by simpa using fun same => own same.symm)]
        rfl

theorem update_own {w : World} {taskId : ℕ} {patch : ClassTask → ClassPatch}
    (kept : ∀ c, (patch c).priority = none) :
    ((w.listClassTasks taskId).foldl (fun w c => w.updateClassTask c.id (patch c)) w).listClassTasks
      taskId = (w.listClassTasks taskId).map fun d => (patch d).apply w.now d := by
  have nodup := listClassTasks_nodup w taskId
  have field : ∀ {α : Type} (g : ClassTask → α), (∀ c d, g ((patch c).apply w.now d) = g d) → ∀ d,
      g ((((w.listClassTasks taskId).find? fun c => c.id = d.id).map fun c =>
        (patch c).apply w.now d).getD d) = g d := by
    intro α g same d
    cases (w.listClassTasks taskId).find? fun c => c.id = d.id with
    | none => rfl
    | some c => exact same c d
  rw [listClassTasks_map (update_each patch nodup w)]
  · apply List.map_congr_left
    intro d member
    rw [find?_own nodup member]
    rfl
  · exact field ClassTask.id fun _ _ => rfl
  · exact field ClassTask.repoTaskId fun _ _ => rfl
  · apply field ClassTask.priority
    intro c d
    simp only [ClassPatch.apply, kept c, Option.getD_none]

/-- The statuses that the rerun counts are those that it leaves. -/
theorem rerun_statuses (sha : Sha256) (taskId : ℕ) (request : RerunRequest) (store : Store)
    (prior : PriorIdentities) (size : ℕ) :
    ((rerunStore sha taskId request store prior size).world.listClassTasks taskId).map ClassTask.status =
      replacedStatuses request.args (store.world.listClassTasks taskId) := by
  have world := replaceKeys_world request.args request.drawn.text (partsOf sha taskId store size).1
    (store.world.listClassTasks taskId) store
  have classes : (rerunStore sha taskId request store prior size).world.classes =
      ((store.world.listClassTasks taskId).foldl (Store.replaceKey request.args request.drawn.text
        (partsOf sha taskId store size).1) store).world.classes := rfl
  unfold World.listClassTasks
  rw [classes, world]
  change (World.listClassTasks _ taskId).map ClassTask.status = _
  rw [update_own, List.map_map]
  · apply List.map_congr_left
    intro c _
    rw [Function.comp_apply]
    split <;> rfl
  · intro c
    split <;> rfl

theorem count_statuses (store : Store) (taskId : ℕ) (p : ClassStatus → Bool) :
    ((store.classRows taskId).filter fun c => p c.status).length =
      (((store.world.listClassTasks taskId).map ClassTask.status).filter p).length := by
  rw [List.filter_map, List.length_map]
  exact ((listClassTasks_perm store.world taskId).symm.filter _).length_eq

theorem completed_iff (s : ClassStatus) :
    s.text ∈ ["PASS", "FAIL", "MUTATION_FAIL", "BUDGET_EXCEEDED", "PROVIDER_ERROR",
      "PROVIDER_RATE_LIMITED", "PUSH_FAILED", "UNSAFE_DIFF", "LLM_STALLED", "CANCELLED"] ↔ s.Terminal := by
  cases s <;> decide

theorem passed_iff (s : ClassStatus) : s.text = "PASS" ↔ s = .pass := by
  cases s <;> decide

theorem failed_iff (s : ClassStatus) :
    s.text ∉ ["PASS", "CREATED", "PENDING", "QUEUED", "RUNNING", "STOPPED", "GENERATED"] ↔
      s ∉ [.pass, .created, .pending, .queued, .running, .stopped, .generated] := by
  cases s <;> decide

/-- The two lists of statuses agree: the SQL of the aggregate and the sets of the rerun. -/
theorem aggregate_counts (store : Store) (taskId : ℕ) :
    let statuses := (store.world.listClassTasks taskId).map ClassTask.status
    store.aggregateRepoTask taskId =
      { classCount := statuses.length
        completedClasses := (statuses.filter fun s => s.Terminal).length
        passedClasses := (statuses.filter fun s => s = .pass).length
        failedClasses := (statuses.filter fun s =>
          s ∉ [.pass, .created, .pending, .queued, .running, .stopped, .generated]).length } := by
  have total : (store.classRows taskId).length =
      ((store.world.listClassTasks taskId).map ClassTask.status).length := by
    rw [List.length_map]
    exact (listClassTasks_perm store.world taskId).symm.length_eq
  dsimp only
  rw [← count_statuses, ← count_statuses, ← count_statuses, ← total]
  unfold Store.aggregateRepoTask
  simp only [completed_iff, passed_iff, failed_iff]

/-! The rerun. -/

/-- What a clean rerun leaves: the batches are there, they are the units it
computed, every class is in one of them and in one record, and the counters are
those of the aggregate. -/
structure Renewed (sha : Sha256) (store : Store) (taskId : ℕ) (request : RerunRequest) (size : ℕ)
    (batches : List StableGenerationBatch) (after : Store) : Prop where
  ensured : ∀ args : EnsureArgs, args.taskId = taskId →
    args.orderedTargetIds = (store.batchRows taskId).map BatchRow.target → 1 ≤ args.batchSize →
    (∀ run ∈ args.workflowRunId, run = request.drawn.text) →
    ensureStableGenerationBatches sha args after = (.ok batches, after)
  pieces : batches.map StableGenerationBatch.classTaskIds =
    chunks size ((store.batchRows taskId).map BatchRow.id)
  units : batches.map StableGenerationBatch.unitId = (partsOf sha taskId store size).2
  members : ∀ b ∈ batches, b.workflowRunId = request.drawn.text ∧
    ∀ id ∈ b.classTaskIds, unitOf (partsOf sha taskId store size).1 id = b.unitId
  once : (batches.flatMap StableGenerationBatch.classTaskIds).Nodup
  every : ∀ c ∈ after.world.listClassTasks taskId,
    c.id ∈ batches.flatMap StableGenerationBatch.classTaskIds
  superseded : ∃ records, after.supersessions = store.supersessions ++ records ∧
    (∀ s ∈ records, s.repoTaskId = taskId ∧ s.newRunId = request.drawn.text) ∧
    (records.flatMap Supersession.affectedClassIds).Perm
      ((store.world.listClassTasks taskId).map ClassTask.id)
  completed : (after.account taskId).completedClasses =
    (after.aggregateRepoTask taskId).completedClasses
  passed : (after.account taskId).passedClasses = (after.aggregateRepoTask taskId).passedClasses
  failed : (after.account taskId).failedClasses = (after.aggregateRepoTask taskId).failedClasses
  total : (after.account taskId).totalClasses = (store.account taskId).totalClasses ∧
    (after.aggregateRepoTask taskId).classCount = (store.aggregateRepoTask taskId).classCount

section Main
variable {sha : Sha256} {pyInt : Json → Option ℤ} {taskId : ℕ} {request : RerunRequest} {store : Store}
  {prior : PriorIdentities} {size : ℕ}

theorem size_positive (sized : sizeOf pyInt taskId request store prior = .ok size) : 0 < size := by
  unfold sizeOf rerunBatchSize at sized
  split at sized
  · split at sized
    · have value := Except.ok.inj sized
      omega
    · cases sized
  · split at sized
    · have value := Except.ok.inj sized
      omega
    · have value := Except.ok.inj sized
      omega

theorem rerun_batchRows (positive : 0 < size) :
    (rerunStore sha taskId request store prior size).batchRows taskId =
      (Store.keyedUnits request.drawn.text (freshUnits sha size (store.batchRows taskId))).flatMap
        Prod.snd := by
  have written := batchRows_rekeyed request.args request.drawn.text (partsOf sha taskId store size).1
    store taskId taskId
  rw [if_pos rfl, partsOf, map_renewed positive (Store.batchRows_nodup store taskId)] at written
  rw [← written]
  exact batchRows_congr rfl rfl taskId

theorem rerun_total (after : Store) (same : (after.world.listClassTasks taskId).map ClassTask.status =
      replacedStatuses request.args (store.world.listClassTasks taskId)) :
    (after.aggregateRepoTask taskId).classCount = (store.aggregateRepoTask taskId).classCount := by
  rw [aggregate_counts, aggregate_counts, same]
  simp [replacedStatuses]

/-- The rows keep their ids and targets, and get a key. -/
theorem rerun_views (positive : 0 < size) :
    let after := rerunStore sha taskId request store prior size
    (after.batchRows taskId).map BatchRow.id = (store.batchRows taskId).map BatchRow.id ∧
      (after.batchRows taskId).map BatchRow.target = (store.batchRows taskId).map BatchRow.target ∧
      ∀ r ∈ after.batchRows taskId, r.Keyed := by
  have units := freshUnits_rows sha positive (store.batchRows taskId)
  dsimp only
  rw [rerun_batchRows positive, Store.keyedUnits, List.flatMap_map]
  refine ⟨?_, ?_, ?_⟩
  · conv_rhs => rw [← units]
    rw [List.map_flatMap, List.map_flatMap]
    simp [Store.withKey, Function.comp_def]
  · conv_rhs => rw [← units]
    rw [List.map_flatMap, List.map_flatMap]
    simp [Store.withKey, Function.comp_def]
  · intro r member
    obtain ⟨u, _, row⟩ := List.mem_flatMap.mp member
    obtain ⟨s, _, rfl⟩ := List.mem_map.mp row
    refine ⟨Option.some_ne_none _, ?_⟩
    exact fun same => keyOf_ne_empty _ _ (Option.some.inj same)

theorem fresh_pieces : (freshUnits sha size (store.batchRows taskId)).map (fun u => u.2.map BatchRow.id) =
    chunks size ((store.batchRows taskId).map BatchRow.id) := by
  rw [Blocks.chunks_map, freshUnits, List.map_map]
  conv_rhs => rw [← List.zipIdx_map_fst 1 (chunks size (store.batchRows taskId)), List.map_map]
  rfl

theorem rerun_ensured (sound : Sound store) (some_ : store.world.listClassTasks taskId ≠ [])
    (positive : 0 < size) {args : EnsureArgs} (task : args.taskId = taskId)
    (order : args.orderedTargetIds = (store.batchRows taskId).map BatchRow.target)
    (asked : 1 ≤ args.batchSize) (run : ∀ run ∈ args.workflowRunId, run = request.drawn.text) :
    ensureStableGenerationBatches sha args (rerunStore sha taskId request store prior size) =
      (.ok ((freshUnits sha size (store.batchRows taskId)).map (batchOf taskId request.drawn.text)),
        rerunStore sha taskId request store prior size) := by
  subst task
  have inhabited : store.batchRows args.taskId ≠ [] := fun none_ => some_ (List.map_eq_nil_iff.mp none_)
  obtain ⟨ids, targets, keyed⟩ := @rerun_views sha args.taskId request store prior size positive
  apply ensure_reread
  · rw [order]
    exact sound.targets_nodup args.taskId
  · exact asked
  · exact targets.trans order.symm
  · intro none_
    rw [none_] at ids
    exact inhabited (List.map_eq_nil_iff.mp ids.symm)
  · exact keyed
  · rw [rerun_batchRows positive]
    exact reconstruct_fresh positive inhabited (sound.length_le args.taskId) (valid_uuid _) args.taskId
  · intro r given b first
    obtain ⟨u, _, rfl⟩ := List.mem_map.mp (List.mem_of_mem_head? first)
    exact (run r given).symm

theorem queueTask_counts (store : Store) (taskId : ℕ) (statuses : List ClassStatus) :
    let account := (store.queueTask taskId statuses).account taskId
    account.totalClasses = (store.account taskId).totalClasses ∧
      account.completedClasses = (statuses.filter fun s => s.Terminal).length ∧
      account.passedClasses = (statuses.filter fun s => s = .pass).length ∧
      account.failedClasses = (statuses.filter fun s =>
        s ∉ [.pass, .created, .pending, .queued, .running, .stopped, .generated]).length := by
  unfold Store.queueTask
  dsimp only
  rw [Function.update_self]
  exact ⟨rfl, rfl, rfl, rfl⟩

theorem rerun_counts : let after := rerunStore sha taskId request store prior size
    (after.account taskId).completedClasses = (after.aggregateRepoTask taskId).completedClasses ∧
    (after.account taskId).passedClasses = (after.aggregateRepoTask taskId).passedClasses ∧
    (after.account taskId).failedClasses = (after.aggregateRepoTask taskId).failedClasses := by
  have statuses := rerun_statuses sha taskId request store prior size
  have counts := queueTask_counts (replaced sha taskId request store prior size) taskId
    (replacedStatuses request.args (store.world.listClassTasks taskId))
  dsimp only
  rw [aggregate_counts, statuses]
  exact counts.2

theorem rerun_renewed (sound : Sound store) (some_ : store.world.listClassTasks taskId ≠ [])
    (read : priorIdentities (store.batchRows taskId) = .ok prior) (positive : 0 < size) :
    Renewed sha store taskId request size
      ((freshUnits sha size (store.batchRows taskId)).map (batchOf taskId request.drawn.text))
      (rerunStore sha taskId request store prior size) := by
  have nodup := Store.batchRows_nodup store taskId
  have units := freshUnits_rows sha positive (store.batchRows taskId)
  have kept := replaceKeys_rest request.args request.drawn.text (partsOf sha taskId store size).1
    (store.world.listClassTasks taskId) store
  have statuses := rerun_statuses sha taskId request store prior size
  have ids : ((freshUnits sha size (store.batchRows taskId)).map (batchOf taskId
      request.drawn.text)).flatMap StableGenerationBatch.classTaskIds =
      (store.batchRows taskId).map BatchRow.id := by
    conv_rhs => rw [← units]
    rw [List.flatMap_map, List.map_flatMap]
    rfl
  obtain ⟨completed, passed, failed⟩ := @rerun_counts sha taskId request store prior size
  constructor
  · intro args task order asked run
    exact rerun_ensured sound some_ positive task order asked run
  · rw [← @fresh_pieces sha, List.map_map]
    rfl
  · rw [partsOf, partition_units, List.map_map]
    rfl
  · intro b member
    obtain ⟨u, unit, rfl⟩ := List.mem_map.mp member
    refine ⟨rfl, ?_⟩
    intro id own
    obtain ⟨r, row, rfl⟩ := List.mem_map.mp own
    exact unitOf_partition positive nodup unit row
  · rw [ids]
    exact nodup
  · intro c row
    rw [ids, ← (@rerun_views sha taskId request store prior size positive).1, Store.batchRows_ids]
    exact List.mem_map_of_mem row
  · refine ⟨recordsOf sha taskId request store prior size, ?_, ?_, ?_⟩
    · exact congrArg (· ++ recordsOf sha taskId request store prior size) kept.2.1
    · intro s member
      rcases List.mem_append.mp member with known | missing
      · obtain ⟨⟨g, n⟩, _, rfl⟩ := List.mem_map.mp known
        exact ⟨rfl, rfl⟩
      · split at missing
        · cases missing
        · rw [List.mem_singleton.mp missing]
          exact ⟨rfl, rfl⟩
    · rw [recordsOf, records_classIds, ← Store.batchRows_ids]
      exact (@priorIdentities_classIds _ {} prior List.nodup_nil read).2
  · exact completed
  · exact passed
  · exact failed
  · refine ⟨?_, rerun_total _ statuses⟩
    have counts := queueTask_counts (replaced sha taskId request store prior size) taskId
      (replacedStatuses request.args (store.world.listClassTasks taskId))
    exact counts.1.trans (congrArg (fun account => (account taskId).totalClasses) kept.1)

theorem rerun_of_eligible (eligible : Eligible pyInt store taskId request) :
    ∃ prior size, priorIdentities (store.batchRows taskId) = .ok prior ∧
      sizeOf pyInt taskId request store prior = .ok size ∧
      cleanRerunGeneration sha pyInt taskId request store =
        (.ok request.drawn.text, rerunStore sha taskId request store prior size) := by
  obtain ⟨prior, read⟩ := priorIdentities_ok eligible.keys {}
  have sized : ∃ size, sizeOf pyInt taskId request store prior = .ok size := by
    unfold sizeOf rerunBatchSize
    rcases value : configuredSize (jsonLoads (store.account taskId).configSnapshotJson.toList) with _ | v
    · dsimp only
      split
      · exact ⟨_, rfl⟩
      · exact ⟨_, rfl⟩
    · dsimp only
      rcases number : intOf pyInt v with _ | n
      · exact absurd number (eligible.size v value)
      · exact ⟨_, rfl⟩
  obtain ⟨size, sized⟩ := sized
  have labels := (@priorIdentities_classIds _ {} prior List.nodup_nil read).1
  refine ⟨prior, size, read, sized, cleanRerun_ok.mpr ⟨?_, rerunEligible_ok.mpr ?_⟩⟩
  · exact rerunRefusal_none eligible.reason eligible.confirmed eligible.task eligible.unleased
      eligible.rows
  · exact ⟨prior, size, read, sized, records_unclashing eligible.ids labels, rfl, rfl⟩

end Main

end Uta.Generation
