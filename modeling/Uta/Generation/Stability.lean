/- How long batches stay as they were first persisted: exactly while no row is
added to the task and no priority moves one. -/
import Uta.Generation.RerunLaws
import Uta.Lib.Run
import Mathlib.Data.Bool.AllAny

namespace Uta.Generation
open Uta.Lib Uta.Tasks

/-- The original order of the targets. -/
def orderOf (batches : List StableGenerationBatch) : List String :=
  batches.flatMap StableGenerationBatch.targetIds

/-- The batches come back as they are, for the whole original order and, through
the adapter, for every part of it. -/
structure Stable (sha : Sha256) (taskId : ℕ) (first : List StableGenerationBatch) (store : Store) :
    Prop where
  whole : ∀ args : EnsureArgs, args.taskId = taskId → args.orderedTargetIds = orderOf first →
    1 ≤ args.batchSize → RunAgrees args first →
    ensureStableGenerationBatches sha args store = (.ok first, store)
  part : ∀ args : EnsureArgs, args.taskId = taskId → args.orderedTargetIds ≠ [] →
    args.orderedTargetIds.Sublist (orderOf first) → 1 ≤ args.batchSize → RunAgrees args first →
    ensureStableBatches sha args store = (.ok first, store)

/-- No row of the task is added, and none is moved by a new priority. -/
def KeepsRows (taskId : ℕ) (store : Store) : Op → Prop
  | .stmt (.createClassTask t fqn _) _ => t = taskId →
      store.world.findClassTask t fqn ≠ none ∨ rowLimit ≤ store.world.nextClassId
  | .stmt (.updateClassTask classId patch) _ => patch.priority ≠ none →
      ((store.world.updateClassTask classId patch).listClassTasks taskId).map ClassTask.id =
        (store.world.listClassTasks taskId).map ClassTask.id
  | _ => True

instance (taskId : ℕ) (store : Store) (op : Op) : Decidable (KeepsRows taskId store op) := by
  unfold KeepsRows
  split <;> infer_instance

def Op.Reruns (taskId : ℕ) : Op → Prop
  | .cleanRerun t _ => t = taskId
  | _ => False

/-! Settled rows. -/

/-- The rows of the task are all in the batches. -/
structure Settled (taskId : ℕ) (first : List StableGenerationBatch) (store : Store) : Prop where
  nodup : ((store.batchRows taskId).map BatchRow.target).Nodup
  read : (store.batchRows taskId = [] ∧ first = []) ∨
    (store.batchRows taskId ≠ [] ∧ (∀ r ∈ store.batchRows taskId, r.Keyed) ∧
      reconstruct taskId (store.batchRows taskId) = .ok first)

section Settling
variable {sha : Sha256} {pyInt : Json → Option ℤ} {taskId : ℕ} {first : List StableGenerationBatch}
  {store after : Store}

theorem Settled.of_rows (settled : Settled taskId first store)
    (same : after.batchRows taskId = store.batchRows taskId) : Settled taskId first after := by
  constructor
  · rw [same]
    exact settled.nodup
  · rw [same]
    exact settled.read

theorem Settled.order (settled : Settled taskId first store) :
    (store.batchRows taskId).map BatchRow.target = orderOf first := by
  rcases settled.read with ⟨none_, rfl⟩ | ⟨-, -, read⟩
  · rw [none_]
    rfl
  · exact (reconstruct_targets read).symm

theorem Settled.ids (settled : Settled taskId first store) :
    (store.batchRows taskId).map BatchRow.id = first.flatMap StableGenerationBatch.classTaskIds := by
  rcases settled.read with ⟨none_, rfl⟩ | ⟨-, -, read⟩
  · rw [none_]
    rfl
  · exact (reconstruct_ids read).symm

theorem withKey_keyed (run unit : String) (r : BatchRow) :
    (Store.withKey (keyOf run unit) r).Keyed := by
  constructor
  · exact Option.some_ne_none _
  · exact fun same => keyOf_ne_empty run unit (Option.some.inj same)

/-- Every row gets a key in a fresh assignment. -/
theorem keyedBy_fresh {size : ℕ} (positive : 0 < size) (run : String) {r : BatchRow}
    (own : r ∈ store.batchRows taskId) :
    ∃ unit, Store.keyedBy run (freshUnits sha size (store.batchRows taskId)) r =
      Store.withKey (keyOf run unit) r := by
  have once := Store.batchRows_nodup store taskId
  have rows := freshUnits_rows sha positive (store.batchRows taskId)
  rw [← rows, List.map_flatMap] at once
  rw [← rows] at own
  obtain ⟨u, unit, row⟩ := List.mem_flatMap.mp own
  exact ⟨u.1, Store.keyedBy_own once unit row⟩

/-- What is returned once is settled. -/
theorem settled_of_ensure {args : EnsureArgs}
    (ok : ensureStableGenerationBatches sha args store = (.ok first, after)) :
    Settled args.taskId first after := by
  obtain ⟨nodup, size, order, ⟨none_, rfl, rfl⟩ | ⟨some_, written, read, -⟩⟩ := ensure_ok ok
  · exact ⟨order ▸ nodup, .inl ⟨none_, rfl⟩⟩
  rcases written with ⟨keyed, rfl⟩ | ⟨-, assigned⟩
  · exact ⟨order ▸ nodup, .inr ⟨some_, keyed, read⟩⟩
  have rows := Store.batchRows_assignKeys (textOr args.workflowRunId args.drawn.text)
    (freshUnits sha args.batchSize.toNat (store.batchRows args.taskId)) store args.taskId
  rw [← assigned] at rows
  have own := fun r => @keyedBy_fresh sha args.taskId store args.batchSize.toNat (by omega)
    (textOr args.workflowRunId args.drawn.text) r
  refine ⟨?_, .inr ⟨?_, ?_, read⟩⟩
  · have targets : (after.batchRows args.taskId).map BatchRow.target =
        (store.batchRows args.taskId).map BatchRow.target := by
      rw [rows, List.map_map]
      apply List.map_congr_left
      intro r member
      obtain ⟨unit, key⟩ := own r member
      rw [Function.comp_apply, key]
      rfl
    rw [targets, order]
    exact nodup
  · rw [rows]
    exact fun none_ => some_ (List.map_eq_nil_iff.mp none_)
  · intro r member
    rw [rows] at member
    obtain ⟨s, row, rfl⟩ := List.mem_map.mp member
    obtain ⟨unit, key⟩ := own s row
    rw [key]
    exact withKey_keyed _ unit s

/-- Where the rows are settled, nothing is written for them again. -/
theorem ensure_settled (settled : Settled taskId first store) {args : EnsureArgs}
    (task : args.taskId = taskId) :
    Act.after (ensureStableGenerationBatches sha args) store = store := by
  rcases ensure_after sha args store with same | ⟨batches, ok⟩
  · exact same
  · subst task
    obtain ⟨-, -, -, ⟨-, -, same⟩ | ⟨some_, ⟨-, same⟩ | ⟨bare, -⟩, -⟩⟩ := ensure_ok ok
    · exact same
    · exact same
    · exfalso
      obtain ⟨r, member⟩ := List.exists_mem_of_ne_nil _ some_
      rcases settled.read with ⟨none_, -⟩ | ⟨-, keyed, -⟩
      · exact some_ none_
      · exact bare r member (keyed r member)

theorem whole_of_settled (settled : Settled taskId first store) {args : EnsureArgs}
    (task : args.taskId = taskId) (order : args.orderedTargetIds = orderOf first)
    (size : 1 ≤ args.batchSize) (agrees : RunAgrees args first) :
    ensureStableGenerationBatches sha args store = (.ok first, store) := by
  subst task
  have targets := settled.order.trans order.symm
  have nodup : args.orderedTargetIds.Nodup := targets ▸ settled.nodup
  rcases settled.read with ⟨none_, rfl⟩ | ⟨some_, keyed, read⟩
  · exact ensure_none nodup size targets none_
  · exact ensure_reread nodup size targets some_ keyed read agrees

/-- A part of a list, in its order, picked out of it again. -/
theorem filter_sublist {α : Type} [DecidableEq α] {part l : List α} (nodup : l.Nodup)
    (sublist : part.Sublist l) : l.filter (· ∈ part) = part := by
  induction sublist with
  | slnil => rfl
  | cons a sub ih =>
      obtain ⟨fresh, rest⟩ := List.nodup_cons.mp nodup
      rw [List.filter_cons_of_neg (by simpa using fun member => fresh (sub.subset member))]
      exact ih rest
  | @cons_cons part l a sub ih =>
      obtain ⟨fresh, rest⟩ := List.nodup_cons.mp nodup
      rw [List.filter_cons_of_pos (by simp)]
      congr 1
      refine Eq.trans (List.filter_congr ?_) (ih rest)
      intro b member
      have other : b ≠ a := by
        rintro rfl
        exact fresh member
      simp [other]

theorem part_of_settled (settled : Settled taskId first store) {args : EnsureArgs}
    (task : args.taskId = taskId) (some_ : args.orderedTargetIds ≠ [])
    (part : args.orderedTargetIds.Sublist (orderOf first)) (size : 1 ≤ args.batchSize)
    (agrees : RunAgrees args first) : ensureStableBatches sha args store = (.ok first, store) := by
  have order := settled.order
  have nodup : (orderOf first).Nodup := order ▸ settled.nodup
  unfold ensureStableBatches
  rw [Act.bind_run]
  dsimp only [Act.read_run]
  rw [task, order, if_pos ⟨some_, filter_sublist nodup part⟩]
  exact whole_of_settled settled rfl rfl size agrees

/-- An id that a call may draw. -/
def someUuid : UuidHex where
  text := String.ofList (List.replicate 32 '0')
  shape := ⟨by decide, List.all_iff_forall_prop.mp (by decide)⟩

theorem stable_iff_settled : Stable sha taskId first store ↔ Settled taskId first store := by
  constructor
  · intro stable
    have asked := stable.whole ⟨taskId, orderOf first, 1, none, someUuid⟩ rfl rfl (Int.le_refl 1)
      fun run none_ => (nomatch none_)
    exact settled_of_ensure asked
  · intro settled
    constructor
    · intro args task order size agrees
      exact whole_of_settled settled task order size agrees
    · intro args task some_ part size agrees
      exact part_of_settled settled task some_ part size agrees

/-! Steps. -/

/-- Rows in one order are the same rows. -/
theorem eq_of_ids {l m : List ClassTask} (nodup : (l.map ClassTask.id).Nodup) (perm : l.Perm m)
    (ids : l.map ClassTask.id = m.map ClassTask.id) : l = m := by
  have one : ∀ c ∈ l, ∀ d ∈ m, c.id = d.id → c = d := fun c own d theirs =>
    List.inj_on_of_nodup_map nodup own (perm.mem_iff.mpr theirs)
  clear nodup perm
  induction l generalizing m with
  | nil => exact (List.map_eq_nil_iff.mp ids.symm).symm
  | cons c l ih =>
      cases m with
      | nil => cases ids
      | cons d m =>
          obtain ⟨head, tail⟩ := List.cons.inj ids
          rw [one c List.mem_cons_self d List.mem_cons_self head]
          congr 1
          exact ih tail fun e own f theirs =>
            one e (List.mem_cons_of_mem _ own) f (List.mem_cons_of_mem _ theirs)

/-- A write that leaves the order of the ids leaves the batch rows. -/
theorem batchRows_reordered {classId : ℕ} {patch : ClassPatch}
    (world : after.world = store.world.updateClassTask classId patch)
    (identity : after.identity = store.identity)
    (order : ((store.world.updateClassTask classId patch).listClassTasks taskId).map ClassTask.id =
      (store.world.listClassTasks taskId).map ClassTask.id) :
    after.batchRows taskId = store.batchRows taskId := by
  let f : ClassTask → ClassTask := fun c => if c.id = classId then patch.apply store.world.now c else c
  have field : ∀ {α : Type} (g : ClassTask → α), (∀ c, g (patch.apply store.world.now c) = g c) →
      ∀ c, g (f c) = g c := by
    intro α g same c
    dsimp only [f]
    split
    · exact same c
    · rfl
  have ids := field ClassTask.id fun _ => rfl
  have kept : ∀ c, store.batchRow (f c) = store.batchRow c := field store.batchRow fun _ => rfl
  have perm : ((store.world.listClassTasks taskId).map f).Perm
      ((store.world.updateClassTask classId patch).listClassTasks taskId) := by
    refine ((listClassTasks_perm store.world taskId).map f).trans (List.Perm.trans ?_
      (listClassTasks_perm _ taskId).symm)
    change List.Perm _ ((store.world.classes.rows.map f).filter _)
    rw [List.filter_map]
    have tasks : ((fun c : ClassTask => decide (c.repoTaskId = taskId)) ∘ f) =
        fun c => decide (c.repoTaskId = taskId) := by
      funext c
      rw [Function.comp_apply, field ClassTask.repoTaskId fun _ => rfl]
    rw [tasks]
  have listed : (store.world.listClassTasks taskId).map f =
      (store.world.updateClassTask classId patch).listClassTasks taskId := by
    have back : ((store.world.listClassTasks taskId).map f).map ClassTask.id =
        (store.world.listClassTasks taskId).map ClassTask.id := by
      rw [List.map_map]
      apply List.map_congr_left
      intro c _
      exact ids c
    apply eq_of_ids
    · rw [back]
      exact listClassTasks_nodup ..
    · exact perm
    · rw [back, order]
  unfold Store.batchRows
  rw [world, ← listed, List.map_map]
  apply List.map_congr_left
  intro c _
  change after.batchRow (f c) = _
  rw [← kept c]
  unfold Store.batchRow
  rw [identity]

/-- A statement that writes no class row. -/
theorem perform_other {s : Stmt} (other : ¬ WritesClasses s) (taskId : ℕ) :
    (store.perform s).batchRows taskId = store.batchRows taskId := by
  have unfolded : store.perform s = { store with world := (s.exec store.world).2 } := by
    cases s <;> first | rfl | exact absurd trivial other
  rw [unfolded]
  apply batchRows_congr
  · exact exec_classes other store.world
  · rfl

/-- What keeps the rows keeps what the batches are made of. -/
theorem step_rows (settled : Settled taskId first store) {op : Op} (other : ¬ op.Reruns taskId)
    (keeps : KeepsRows taskId store op) :
    (step sha pyInt store op).batchRows taskId = store.batchRows taskId := by
  cases op with
  | refreshRepoCounts t => exact batchRows_congr rfl rfl taskId
  | cleanRerun t request => exact cleanRerun_elsewhere other
  | ensure args =>
      by_cases task : args.taskId = taskId
      · exact congrArg (Store.batchRows · taskId) (ensure_settled settled task)
      · exact ensure_elsewhere sha task store
  | stmt s plain =>
      change (store.perform s).batchRows taskId = _
      cases s with
      | createClassTask t fqn p =>
          by_cases task : t = taskId
          · rcases found : store.world.findClassTask t fqn with _ | c
            · rcases keeps task with there | full
              · exact absurd found there
              · have unfolded : store.perform (.createClassTask t fqn p) = store := by
                  change store.createClassTask t fqn p = store
                  unfold Store.createClassTask
                  rw [found]
                  exact if_neg (Nat.not_lt.mpr full)
                rw [unfolded]
            · exact create_existing found taskId
          · exact create_elsewhere task fqn p
      | updateClassTask classId patch =>
          by_cases silent : patch.priority = none
          · exact @batchRows_update store (store.perform (.updateClassTask classId patch)) _ _ rfl rfl
              silent taskId
          · exact @batchRows_reordered taskId store (store.perform (.updateClassTask classId patch)) _ _ rfl
              rfl (keeps silent)
      | cleanRerun t args => exact absurd plain id
      | _ =>
          refine perform_other ?_ taskId
          exact fun writes => writes

/-- What does not keep the rows changes their ids. -/
theorem step_moves {op : Op} (moves : ¬ KeepsRows taskId store op) :
    ((step sha pyInt store op).batchRows taskId).map BatchRow.id ≠
      (store.batchRows taskId).map BatchRow.id := by
  cases op with
  | refreshRepoCounts t => exact absurd trivial moves
  | cleanRerun t request => exact absurd trivial moves
  | ensure args => exact absurd trivial moves
  | stmt s plain =>
      change ((store.perform s).batchRows taskId).map BatchRow.id ≠ _
      cases s with
      | createClassTask t fqn p =>
          have added : t = taskId ∧ ¬ (store.world.findClassTask t fqn ≠ none ∨
              rowLimit ≤ store.world.nextClassId) := Classical.not_imp.mp moves
          obtain ⟨rfl, new⟩ := added
          rw [not_or, not_not, Nat.not_le] at new
          intro same
          have lengths := congrArg List.length same
          rw [List.length_map, List.length_map] at lengths
          have grown : ((store.perform (.createClassTask t fqn p)).batchRows t).length =
              (store.batchRows t).length + 1 := create_new p new.1 new.2
          omega
      | updateClassTask classId patch =>
          obtain ⟨-, moved⟩ := Classical.not_imp.mp moves
          rw [Store.batchRows_ids, Store.batchRows_ids]
          exact moved
      | cleanRerun t args => exact absurd plain id
      | _ => exact absurd trivial moves

theorem stable_step (op : Op) (other : ¬ op.Reruns taskId) (stable : Stable sha taskId first store) :
    Stable sha taskId first (step sha pyInt store op) ↔ KeepsRows taskId store op := by
  have settled := stable_iff_settled.mp stable
  rw [stable_iff_settled]
  constructor
  · intro later
    by_contra moves
    exact step_moves moves (later.ids.trans settled.ids.symm)
  · intro keeps
    exact settled.of_rows (step_rows settled other keeps)

end Settling

/-- From the first time the batches of a task are returned, they are returned
the same, and nothing is raised, in every state of a run without a clean rerun of
the task exactly when every step of it keeps the rows. -/
theorem batches_stable_iff (sha : Sha256) (pyInt : Json → Option ℤ) {args : EnsureArgs}
    {store after : Store} {first : List StableGenerationBatch}
    (ensured : ensureStableGenerationBatches sha args store = (.ok first, after))
    (ops : List { op : Op // ¬ op.Reruns args.taskId }) :
    Always (fun s op => step sha pyInt s op.1) (Stable sha args.taskId first) after ops ↔
      Meets (fun s op => step sha pyInt s op.1) (fun s op => KeepsRows args.taskId s op.1) after ops := by
  apply always_iff_meets
  · intro s op stable
    exact stable_step op.1 op.2 stable
  · exact stable_iff_settled.mpr (settled_of_ensure ensured)

/-! A class that is moved. -/

/-- The digests of two units. -/
def sampleSha : Sha256 where
  hexdigest text :=
    if text = "C" then "6b23c0d5f35d1b11f9b683f0b0a617355deb11277d91ae091d399c655b87940d"
    else "76fe3925c7167317f2df68454339f5ec3650e4062178b4f2be219b105a507907"
  shape text := by
    split <;> exact ⟨by decide, List.all_iff_forall_prop.mp (by decide)⟩

/-- A task with the classes `A`, `B` and `C`. -/
def sampleStore : Store :=
  [Stmt.createRepoTask "/repo" 100 none, .createClassTask 1 "A" 100, .createClassTask 1 "B" 100,
    .createClassTask 1 "C" 100].foldl Store.perform { world := World.fresh [] }

def sampleArgs : EnsureArgs := ⟨1, ["A", "B", "C"], 2, none, someUuid⟩

def sampleBatches : List StableGenerationBatch :=
  [⟨1, someUuid.text, unitId sampleSha 1 ["A", "B"], ["A", "B"], [1, 2]⟩,
    ⟨1, someUuid.text, unitId sampleSha 2 ["C"], ["C"], [3]⟩]

/-- The write of `reprioritize_class`. -/
def reprioritizeClass (classId : ℕ) (priority : ℤ) : Op :=
  .stmt (.updateClassTask classId { priority := some priority }) trivial

theorem sample_ensured : ensureStableGenerationBatches sampleSha sampleArgs sampleStore =
    (.ok sampleBatches, Act.after (ensureStableGenerationBatches sampleSha sampleArgs) sampleStore) := by
  have result : (ensureStableGenerationBatches sampleSha sampleArgs sampleStore).1 =
      .ok sampleBatches := by decide +kernel
  exact Prod.ext result (by dsimp only [Act.after])

/-- The store in which the batches of the sample are persisted. -/
def sampleAfter : Store := Act.after (ensureStableGenerationBatches sampleSha sampleArgs) sampleStore

/-- A class that finishes leaves the batches as they were. -/
theorem finished_class_stable :
    Always (fun s (op : { op : Op // ¬ op.Reruns 1 }) => step sampleSha (fun _ => none) s op.1)
      (Stable sampleSha 1 sampleBatches) sampleAfter
      [⟨.stmt (.updateClassTask 1 { status := some .pass }) trivial, fun h => h⟩] := by
  apply (batches_stable_iff sampleSha (fun _ => none) sample_ensured _).mpr
  exact ⟨fun moved => absurd rfl moved, trivial⟩

/-- Moving the first class behind the others tears its batch apart: the call that
gave the batches raises. -/
theorem reprioritized_unstable :
    ¬ Always (fun s (op : { op : Op // ¬ op.Reruns 1 }) => step sampleSha (fun _ => none) s op.1)
      (Stable sampleSha 1 sampleBatches) sampleAfter [⟨reprioritizeClass 1 200, fun h => h⟩] := by
  intro always
  have whole := always.2.whole sampleArgs rfl (by decide +kernel) (by decide) fun run h => (nomatch h)
  have raised : (ensureStableGenerationBatches sampleSha sampleArgs
      (step sampleSha (fun _ => none) sampleAfter (reprioritizeClass 1 200))).1 =
        .error .notFullList := by decide +kernel
  rw [whole] at raised
  cases raised

end Uta.Generation
