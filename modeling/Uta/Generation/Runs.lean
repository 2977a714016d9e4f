/- Which tasks use a workflow run, and what each operation makes of that. -/
import Uta.Generation.Renewal
import Uta.Generation.Stability

namespace Uta.Generation
open Uta.Lib Uta.Tasks

/-! Use. -/

/-- A class row of the task has this batch. -/
def Store.Current (store : Store) (taskId : ℕ) (run unit : String) : Prop :=
  ∃ r ∈ store.batchRows taskId, ∃ key ∈ r.batchKey, splitKey key = some (run, unit)

instance (store : Store) (taskId : ℕ) (run unit : String) : Decidable (store.Current taskId run unit) :=
  inferInstanceAs (Decidable (∃ r ∈ store.batchRows taskId, ∃ key ∈ r.batchKey, _))

/-- A clean rerun of the task has replaced this run. -/
def Store.Superseded (store : Store) (taskId : ℕ) (run : String) : Prop :=
  ∃ s ∈ store.supersessions, s.repoTaskId = taskId ∧ s.oldRunId = some run

def Store.Uses (store : Store) (taskId : ℕ) (run : String) : Prop :=
  (∃ unit, store.Current taskId run unit) ∨ store.Superseded taskId run

/-- The runs that the database names. -/
def Store.runs (store : Store) : List String :=
  (store.world.classes.rows.filterMap fun c =>
    ((store.identity c.id).batchKey.bind splitKey).map Prod.fst) ++
  store.supersessions.filterMap Supersession.oldRunId

/-- The task whose rows an operation gives a new run, and the run. -/
def Op.draws (store : Store) : Op → Option (ℕ × String)
  | .ensure args =>
    if ∃ r ∈ store.batchRows args.taskId, r.Keyed then none
    else some (args.taskId, textOr args.workflowRunId args.drawn.text)
  | .cleanRerun taskId request => some (taskId, request.drawn.text)
  | _ => none

/-- The new run of the operation is one that the database does not name. -/
def Op.Fresh (store : Store) (op : Op) : Prop := ∀ x ∈ op.draws store, x.2 ∉ store.runs

instance (store : Store) (op : Op) : Decidable (op.Fresh store) :=
  inferInstanceAs (Decidable (∀ x ∈ op.draws store, _))

/-- No run is used by two tasks, and none that was replaced is current. -/
structure Traced (store : Store) : Prop where
  apart : ∀ {t t' run}, store.Uses t run → store.Uses t' run → t = t'
  replaced : ∀ {t t' run unit}, store.Superseded t run → ¬ store.Current t' run unit

theorem mem_batchRows {store : Store} {taskId : ℕ} {r : BatchRow} : r ∈ store.batchRows taskId ↔
    ∃ c ∈ store.world.classes.rows, c.repoTaskId = taskId ∧ store.batchRow c = r := by
  unfold Store.batchRows
  rw [List.mem_map]
  constructor
  · rintro ⟨c, member, rfl⟩
    obtain ⟨row, task⟩ := mem_listClassTasks.mp member
    exact ⟨c, row, task, rfl⟩
  · rintro ⟨c, row, task, rfl⟩
    exact ⟨c, mem_listClassTasks.mpr ⟨row, task⟩, rfl⟩

/-- The batch of a task is that of one of its class rows. -/
theorem current_iff {store : Store} {taskId : ℕ} {run unit : String} : store.Current taskId run unit ↔
    ∃ c ∈ store.world.classes.rows, c.repoTaskId = taskId ∧
      ∃ key ∈ (store.identity c.id).batchKey, splitKey key = some (run, unit) := by
  constructor
  · rintro ⟨r, row, keyed⟩
    obtain ⟨c, member, task, rfl⟩ := mem_batchRows.mp row
    exact ⟨c, member, task, keyed⟩
  · rintro ⟨c, member, task, keyed⟩
    exact ⟨store.batchRow c, mem_batchRows.mpr ⟨c, member, task, rfl⟩, keyed⟩

theorem mem_runs_of_uses {store : Store} {taskId : ℕ} {run : String} (uses : store.Uses taskId run) :
    run ∈ store.runs := by
  unfold Store.runs
  rw [List.mem_append, List.mem_filterMap, List.mem_filterMap]
  rcases uses with ⟨unit, current⟩ | ⟨s, member, -, old⟩
  · obtain ⟨c, member, -, key, keyed, split⟩ := current_iff.mp current
    rw [Option.mem_def] at keyed
    refine .inl ⟨c, member, ?_⟩
    rw [keyed, Option.bind_some, split]
    rfl
  · exact .inr ⟨s, member, old⟩

/-! Keys. -/

theorem splitKey_empty : splitKey "" = none := by decide

/-- A key is split where it was joined. -/
theorem splitKey_run {run unit r u : String} (split : splitKey (keyOf run unit) = some (r, u)) :
    r = run := by
  have chars : (keyOf run unit).toList = run.toList ++ '/' :: unit.toList := by
    rw [keyOf, String.toList_append, String.toList_append, List.append_assoc]
    rfl
  unfold splitKey at split
  rw [chars] at split
  by_cases slash : '/' ∈ run.toList
  · obtain ⟨p, q, apart, free⟩ := List.eq_append_cons_of_mem slash
    have more : '/' ∈ q ++ '/' :: unit.toList := List.mem_append_right _ List.mem_cons_self
    obtain ⟨p', q', apart', free'⟩ := List.eq_append_cons_of_mem more
    rw [apart, List.append_assoc, List.cons_append, List.splitOn_append_cons_self_of_not_mem free, apart',
      List.splitOn_append_cons_self_of_not_mem free'] at split
    rcases rest : q'.splitOn '/' with _ | ⟨part, parts⟩
    · exact absurd rest (List.splitOn_ne_nil _ _)
    · rw [rest] at split
      cases split
  · rw [List.splitOn_append_cons_self_of_not_mem slash] at split
    rcases rest : unit.toList.splitOn '/' with _ | ⟨part, _ | ⟨part', parts⟩⟩ <;> rw [rest] at split
    · cases split
    · have same := (Prod.mk.inj (Option.some.inj split)).1
      rw [← same, String.ofList_toList]
    · cases split

theorem mem_dropWhile_of_not {α : Type} {p : α → Bool} {a : α} {l : List α} (member : a ∈ l)
    (other : ¬ p a = true) : a ∈ l.dropWhile p := by
  rw [← List.takeWhile_append_dropWhile (p := p) (l := l)] at member
  rcases List.mem_append.mp member with taken | dropped
  · exact absurd (List.mem_takeWhile_imp taken) other
  · exact dropped

/-- A key with a run and a unit is not blank. -/
theorem not_blank {key run unit : String} (split : splitKey key = some (run, unit)) :
    PyText.strip key.toList ≠ [] := by
  intro blank
  have none_ : '/' ∉ key.toList := by
    intro member
    have solid : ¬ PyText.isSpace '/' = true := by decide
    have kept : '/' ∈ PyText.strip key.toList := by
      unfold PyText.strip
      rw [List.mem_reverse]
      apply mem_dropWhile_of_not _ solid
      rw [List.mem_reverse]
      exact mem_dropWhile_of_not member solid
    rw [blank] at kept
    cases kept
  unfold splitKey at split
  rw [List.splitOn_eq_singleton none_] at split
  cases split

/-! What an operation makes of the runs. -/

/-- The runs are the same. -/
structure Retains (store after : Store) : Prop where
  current : ∀ t run unit, after.Current t run unit ↔ store.Current t run unit
  superseded : ∀ t run, after.Superseded t run ↔ store.Superseded t run

/-- The rows of one task have a new run, and the runs they had are replaced. -/
structure Renews (store after : Store) (taskId : ℕ) (new : String) : Prop where
  own : ∀ run unit, after.Current taskId run unit → run = new
  others : ∀ t, t ≠ taskId → ∀ run unit, after.Current t run unit ↔ store.Current t run unit
  kept : ∀ t run, store.Superseded t run → after.Superseded t run
  replaced : ∀ run unit, store.Current taskId run unit → after.Superseded taskId run
  only : ∀ t run, after.Superseded t run →
    store.Superseded t run ∨ (t = taskId ∧ ∃ unit, store.Current taskId run unit)

section Use
variable {store after : Store} {taskId t : ℕ} {run new unit : String}

theorem Retains.uses (retains : Retains store after) : after.Uses t run ↔ store.Uses t run := by
  unfold Store.Uses
  simp only [retains.current, retains.superseded]

theorem Renews.uses (renews : Renews store after taskId new) (uses : store.Uses t run) :
    after.Uses t run := by
  rcases uses with ⟨unit, current⟩ | superseded
  · by_cases same : t = taskId
    · subst same
      exact .inr (renews.replaced run unit current)
    · exact .inl ⟨unit, (renews.others t same run unit).mpr current⟩
  · exact .inr (renews.kept t run superseded)

theorem Renews.used (renews : Renews store after taskId new) (uses : after.Uses t run) :
    store.Uses t run ∨ (t = taskId ∧ run = new) := by
  rcases uses with ⟨unit, current⟩ | superseded
  · by_cases same : t = taskId
    · subst same
      exact .inr ⟨rfl, renews.own run unit current⟩
    · exact .inl (.inl ⟨unit, (renews.others t same run unit).mp current⟩)
  · rcases renews.only t run superseded with old | ⟨same, current⟩
    · exact .inl (.inr old)
    · subst same
      exact .inl (.inl current)

theorem Traced.retained (traced : Traced store) (retains : Retains store after) : Traced after where
  apart := fun one other => traced.apart (retains.uses.mp one) (retains.uses.mp other)
  replaced := fun old current => traced.replaced ((retains.superseded ..).mp old)
    ((retains.current ..).mp current)

/-- A run that the database does not name can be given to any task. -/
theorem Traced.renewed (traced : Traced store) (renews : Renews store after taskId new)
    (fresh : new ∉ store.runs) : Traced after where
  apart := by
    intro t t' run one other
    rcases renews.used one with old | ⟨rfl, rfl⟩ <;> rcases renews.used other with old' | ⟨rfl, same⟩
    · exact traced.apart old old'
    · exact absurd (mem_runs_of_uses old) (same ▸ fresh)
    · exact absurd (mem_runs_of_uses old') fresh
    · rfl
  replaced := by
    intro t t' run unit superseded current
    have named : run ∈ store.runs := by
      rcases renews.only t run superseded with old | ⟨-, unit, old⟩
      · exact mem_runs_of_uses (.inr old)
      · exact mem_runs_of_uses (.inl ⟨unit, old⟩)
    by_cases same : t' = taskId
    · subst same
      exact fresh (renews.own run unit current ▸ named)
    · have before := (renews.others t' same run unit).mp current
      rcases renews.only t run superseded with old | ⟨rfl, unit', old⟩
      · exact traced.replaced old before
      · exact same (traced.apart (.inl ⟨unit, before⟩) (.inl ⟨unit', old⟩))

end Use

/-! Statements. -/

section Statements
variable {store after : Store} {taskId : ℕ}

/-- Class rows keep their tasks and keys. -/
theorem Retains.of_rows (rows : ∀ t, after.batchRows t = store.batchRows t)
    (supersessions : after.supersessions = store.supersessions) : Retains store after where
  current := fun t run unit => by
    unfold Store.Current
    rw [rows t]
  superseded := fun t run => by
    unfold Store.Superseded
    rw [supersessions]

theorem retains_update (store : Store) (classId : ℕ) (patch : ClassPatch) :
    Retains store (store.perform (.updateClassTask classId patch)) where
  superseded := fun _ _ => Iff.rfl
  current := by
    intro t run unit
    rw [current_iff, current_iff]
    constructor
    · rintro ⟨c, member, task, keyed⟩
      obtain ⟨d, row, rfl⟩ := List.mem_map.mp member
      refine ⟨d, row, ?_⟩
      split at task <;> split at keyed <;> exact ⟨task, keyed⟩
    · rintro ⟨c, member, task, keyed⟩
      refine ⟨_, List.mem_map_of_mem member, ?_⟩
      split <;> exact ⟨task, keyed⟩

/-- A new row has no batch. -/
theorem retains_create (store : Store) (t : ℕ) (fqn : String) (p : ℤ) :
    Retains store (store.createClassTask t fqn p) := by
  have sameRuns : (store.createClassTask t fqn p).supersessions = store.supersessions := by
    unfold Store.createClassTask
    split
    · rfl
    · split <;> rfl
  rcases found : store.world.findClassTask t fqn with _ | c
  · obtain ⟨c, id, -, -, rows⟩ := createClassTask_rows (p := p) found
    by_cases room : store.world.nextClassId < rowLimit
    · have unfolded : store.createClassTask t fqn p =
          { store with
            world := store.world.createClassTask t fqn p
            identity := Function.update store.identity store.world.nextClassId ⟨some fqn, none⟩ } := by
        unfold Store.createClassTask
        rw [found]
        exact if_pos room
      refine ⟨?_, fun t run => by unfold Store.Superseded; rw [sameRuns]⟩
      intro t' run unit
      rw [current_iff, current_iff, unfolded]
      dsimp only
      rw [rows]
      have old : ∀ d ∈ store.world.classes.rows, Function.update store.identity
          store.world.nextClassId ⟨some fqn, none⟩ d.id = store.identity d.id := fun d row =>
        Function.update_of_ne (nextClassId_fresh row) ..
      constructor
      · rintro ⟨d, member, task, keyed⟩
        rcases List.mem_append.mp member with row | added
        · rw [old d row] at keyed
          exact ⟨d, row, task, keyed⟩
        · rw [List.mem_singleton.mp added, id, Function.update_self] at keyed
          obtain ⟨key, none_, -⟩ := keyed
          cases none_
      · rintro ⟨d, row, task, keyed⟩
        rw [← old d row] at keyed
        exact ⟨d, List.mem_append_left _ row, task, keyed⟩
    · have unfolded : store.createClassTask t fqn p = store := by
        unfold Store.createClassTask
        rw [found]
        exact if_neg room
      rw [unfolded]
      exact ⟨fun _ _ _ => Iff.rfl, fun _ _ => Iff.rfl⟩
  · exact .of_rows (create_existing found) sameRuns

theorem retains_perform {s : Stmt} (plain : Plain s) : Retains store (store.perform s) := by
  cases s with
  | createClassTask t fqn p => exact retains_create store t fqn p
  | updateClassTask classId patch => exact retains_update store classId patch
  | cleanRerun t args => exact absurd plain id
  | _ =>
      refine .of_rows (perform_other ?_) rfl
      exact fun writes => writes

end Statements

/-! New batches. -/

section New
variable {sha : Sha256} {pyInt : Json → Option ℤ} {store : Store}

/-- A key that an assignment writes has its run. -/
theorem key_of_keyedBy {run key : String} {units : List (String × List BatchRow)} {r : BatchRow}
    (keyed : key ∈ (Store.keyedBy run units r).batchKey) :
    key ∈ r.batchKey ∨ ∃ unit, key = keyOf run unit := by
  unfold Store.keyedBy at keyed
  induction units generalizing r with
  | nil => exact .inl keyed
  | cons u units ih =>
      rw [List.foldl_cons] at keyed
      rcases ih keyed with before | written
      · split at before
        · exact .inr ⟨u.1, (Option.some.inj before).symm⟩
        · exact .inl before
      · exact .inr written

theorem assignKeys_rest (run : String) (units : List (String × List BatchRow)) (store : Store) :
    (store.assignKeys run units).supersessions = store.supersessions := by
  have one : ∀ (key : String) (rows : List BatchRow) (store : Store),
      (rows.foldl (fun store r => store.setKey key r.id) store).supersessions = store.supersessions := by
    intro key rows
    induction rows with
    | nil => exact fun _ => rfl
    | cons r rows ih => exact fun store => ih (store.setKey key r.id)
  unfold Store.assignKeys
  induction units generalizing store with
  | nil => rfl
  | cons u units ih => exact (ih _).trans (one _ u.2 store)

/-- A row whose key is missing or empty has no batch. -/
theorem not_current_of_unkeyed {taskId : ℕ} (unkeyed : ∀ r ∈ store.batchRows taskId, ¬ r.Keyed)
    (run unit : String) : ¬ store.Current taskId run unit := by
  rintro ⟨r, row, key, keyed, split⟩
  rw [Option.mem_def] at keyed
  apply unkeyed r row
  refine ⟨by rw [keyed]; exact Option.some_ne_none _, ?_⟩
  intro empty
  rw [keyed] at empty
  rw [Option.some.inj empty, splitKey_empty] at split
  cases split

theorem ensure_runs (sha : Sha256) (store : Store) (args : EnsureArgs) :
    let after := Act.after (ensureStableGenerationBatches sha args) store
    Retains store after ∨ ∃ new, (Op.ensure args).draws store = some (args.taskId, new) ∧
      Renews store after args.taskId new := by
  have same : Retains store store := ⟨fun _ _ _ => Iff.rfl, fun _ _ => Iff.rfl⟩
  dsimp only
  rcases ensure_after sha args store with kept | ⟨batches, ok⟩
  · rw [kept]
    exact .inl same
  · obtain ⟨-, size, -, ⟨-, -, kept⟩ | ⟨-, ⟨-, kept⟩ | ⟨unkeyed, assigned⟩, -⟩⟩ := ensure_ok ok
    · rw [kept]
      exact .inl same
    · rw [kept]
      exact .inl same
    · have none_ : ¬ ∃ r ∈ store.batchRows args.taskId, r.Keyed := fun ⟨r, row, keyed⟩ =>
        unkeyed r row keyed
      refine .inr ⟨textOr args.workflowRunId args.drawn.text, if_neg none_, ?_⟩
      have supersessions : ∀ t run, (Act.after (ensureStableGenerationBatches sha args) store).Superseded t
          run ↔ store.Superseded t run := fun t run => by
        rw [assigned, Store.Superseded, assignKeys_rest]
        rfl
      refine ⟨?_, ?_, fun t run => (supersessions t run).mpr, ?_, fun t run old =>
        .inl ((supersessions t run).mp old)⟩
      · rintro run unit ⟨r, row, key, keyed, split⟩
        rw [assigned, Store.batchRows_assignKeys] at row
        obtain ⟨d, own, rfl⟩ := List.mem_map.mp row
        rcases key_of_keyedBy keyed with before | ⟨u, rfl⟩
        · exact absurd ⟨d, own, key, before, split⟩ (not_current_of_unkeyed unkeyed run unit)
        · exact splitKey_run split
      · intro t other run unit
        unfold Store.Current
        rw [ensure_elsewhere sha (Ne.symm other)]
      · exact fun run unit current => absurd current (not_current_of_unkeyed unkeyed run unit)

/-- The run that is read back is that of a row. -/
theorem reconstructFrom_run {rows : List BatchRow} {runId : Option String} {run : String}
    {reading final : Blocks.Reading String BatchRow}
    (result : reconstructFrom runId reading rows = .ok (some run, final)) :
    runId = some run ∨ ∃ r ∈ rows, ∃ key ∈ r.batchKey, ∃ unit, splitKey key = some (run, unit) := by
  induction rows generalizing runId reading with
  | nil => exact .inl (Prod.mk.inj (Except.ok.inj result)).1
  | cons row rows ih =>
      rw [reconstructFrom] at result
      split at result
      · cases result
      · rename_i run' unit split
        split at result
        · cases result
        · split at result
          · cases result
          · split at result
            · cases result
            · rcases ih result with same | ⟨r, member, keyed⟩
              · obtain rfl := Option.some.inj same
                refine .inr ⟨row, List.mem_cons_self, ?_⟩
                rcases key : row.batchKey with _ | k
                · rw [key, textOr, splitKey_empty] at split
                  cases split
                · rw [key, textOr] at split
                  split at split
                  · rw [splitKey_empty] at split
                    cases split
                  · exact ⟨k, rfl, unit, split⟩
              · exact .inr ⟨r, List.mem_cons_of_mem _ member, keyed⟩

/-- A task uses the runs of the batches it is given. -/
theorem uses_of_ensured {args : EnsureArgs} {batches : List StableGenerationBatch} {after : Store}
    (ok : ensureStableGenerationBatches sha args store = (.ok batches, after))
    {b : StableGenerationBatch} (member : b ∈ batches) : after.Uses b.repoTaskId b.workflowRunId := by
  obtain ⟨-, -, -, ⟨-, none_, -⟩ | ⟨-, -, read, -⟩⟩ := ensure_ok ok
  · rw [none_] at member
    cases member
  · rw [reconstruct_task read member]
    unfold reconstruct at read
    split at read
    · cases read
    · cases read
    · rename_i run reading found
      rw [← Except.ok.inj read] at member
      obtain ⟨block, -, rfl⟩ := List.mem_map.mp member
      rcases reconstructFrom_run found with none_ | ⟨r, row, key, keyed, unit, split⟩
      · cases none_
      · exact .inl ⟨unit, r, row, key, keyed, split⟩

/-! Clean reruns. -/

theorem mem_noteKnown {run unit r : String} {id : ℕ} {known : List PriorRun} :
    r ∈ (noteKnown run unit id known).map PriorRun.runId ↔
      r ∈ known.map PriorRun.runId ∨ r = run := by
  unfold noteKnown
  split
  · rename_i there
    rw [List.map_map]
    have same : known.map (PriorRun.runId ∘ fun g => if g.runId = run then g.note unit id else g) =
        known.map PriorRun.runId := by
      apply List.map_congr_left
      intro g _
      rw [Function.comp_apply]
      split <;> rfl
    rw [same]
    exact ⟨.inl, fun h => h.elim (fun old => old) fun new => new ▸ there⟩
  · rw [List.map_append, List.mem_append, List.map_singleton, List.mem_singleton, note_runId]

/-- The known runs are those of the keys. -/
theorem priorIdentities_runs {rows : List BatchRow} {prior final : PriorIdentities}
    (read : priorIdentitiesFrom prior rows = .ok final) (run : String) :
    run ∈ final.known.map PriorRun.runId ↔ run ∈ prior.known.map PriorRun.runId ∨
      ∃ r ∈ rows, ∃ key ∈ r.batchKey, ∃ unit, splitKey key = some (run, unit) := by
  induction rows generalizing prior with
  | nil =>
      obtain rfl : prior = final := Except.ok.inj read
      simp
  | cons row rows ih =>
      unfold priorIdentitiesFrom at read
      have head : ∀ {P : Prop}, (¬ ∃ key ∈ row.batchKey, ∃ unit, splitKey key = some (run, unit)) →
          ((P ∨ ∃ r ∈ rows, ∃ key ∈ r.batchKey, ∃ unit, splitKey key = some (run, unit)) ↔
            P ∨ ∃ r ∈ row :: rows, ∃ key ∈ r.batchKey, ∃ unit, splitKey key = some (run, unit)) := by
        intro P bare
        simp only [List.mem_cons, exists_eq_or_imp, iff_false_intro bare, false_or]
      split at read
      · rename_i none_
        rw [ih read]
        exact head (by simp [none_])
      · rename_i key keyed
        split at read
        · rename_i blank
          rw [ih read]
          apply head
          rintro ⟨key', same, unit, split⟩
          rw [keyed] at same
          obtain rfl : key = key' := Option.some.inj same
          exact not_blank split blank
        · split at read
          · cases read
          · rename_i run' unit' parts
            split at read
            · rw [ih read, mem_noteKnown]
              simp only [List.mem_cons, exists_eq_or_imp, keyed, Option.mem_def, Option.some.injEq,
                exists_eq_left', parts, Prod.mk.injEq]
              constructor
              · rintro ((old | rfl) | later)
                · exact .inl old
                · exact .inr (.inl ⟨unit', rfl, rfl⟩)
                · exact .inr (.inr later)
              · rintro (old | ⟨u, rfl, -⟩ | later)
                · exact .inl (.inl old)
                · exact .inl (.inr rfl)
                · exact .inr later
            · cases read

/-- The records of a clean rerun are those of the known runs, and one of no run. -/
theorem records_runs (taskId : ℕ) (request : RerunRequest) (byClass : List (ℕ × String)) (now : Time)
    {prior : PriorIdentities} {t : ℕ} {run : String} :
    (∃ s ∈ supersessionsOf taskId request byClass now prior, s.repoTaskId = t ∧ s.oldRunId = some run) ↔
      taskId = t ∧ run ∈ prior.known.map PriorRun.runId := by
  constructor
  · rintro ⟨s, member, task, old⟩
    rcases List.mem_append.mp member with known | missing
    · obtain ⟨⟨g, n⟩, own, rfl⟩ := List.mem_map.mp known
      obtain rfl : g.runId = run := Option.some.inj old
      exact ⟨task, List.mem_map_of_mem (List.fst_mem_of_mem_zipIdx own)⟩
    · split at missing
      · cases missing
      · rw [List.mem_singleton.mp missing] at old
        cases old
  · rintro ⟨same, known⟩
    obtain ⟨g, own, rfl⟩ := List.mem_map.mp known
    obtain ⟨n, bound, at_⟩ := List.mem_iff_getElem.mp own
    refine ⟨_, List.mem_append_left _ (List.mem_map_of_mem
      (List.mk_mem_zipIdx_iff_getElem?.mpr (List.getElem?_eq_some_iff.mpr ⟨bound, at_⟩))), same, rfl⟩

theorem rerun_runs (sha : Sha256) (pyInt : Json → Option ℤ) (store : Store) (taskId : ℕ)
    (request : RerunRequest) :
    let after := Act.after (cleanRerunGeneration sha pyInt taskId request) store
    Retains store after ∨ Renews store after taskId request.drawn.text := by
  dsimp only
  rcases Act.transaction_after (rerunChecked sha pyInt taskId request) store with same | ⟨run, ok⟩
  · refine .inl ?_
    change Retains store (Act.after (Act.transaction _) store)
    rw [same]
    exact ⟨fun _ _ _ => Iff.rfl, fun _ _ => Iff.rfl⟩
  · obtain ⟨-, eligible⟩ := cleanRerun_ok.mp (Act.transaction_ok.mpr ok)
    obtain ⟨prior, size, read, -, -, -, result⟩ := rerunEligible_ok.mp eligible
    have runs := priorIdentities_runs read
    have superseded : ∀ t run, (Act.after (cleanRerunGeneration sha pyInt taskId request) store).Superseded
        t run ↔ store.Superseded t run ∨ (taskId = t ∧ run ∈ prior.known.map PriorRun.runId) := by
      intro t run
      rw [← records_runs taskId request (partsOf sha taskId store size).1 store.world.now]
      change (∃ s ∈ Store.supersessions _, _) ↔ _
      have added : (Act.after (cleanRerunGeneration sha pyInt taskId request) store).supersessions =
          store.supersessions ++ recordsOf sha taskId request store prior size := by
        refine (congrArg Store.supersessions result).trans ?_
        rw [← (replaceKeys_rest request.args request.drawn.text (partsOf sha taskId store size).1
          (store.world.listClassTasks taskId) store).2.1]
        rfl
      rw [added]
      unfold Store.Superseded recordsOf
      simp only [List.mem_append, or_and_right, exists_or]
    have rows : ∀ t, (Act.after (cleanRerunGeneration sha pyInt taskId request) store).batchRows t =
        if t = taskId then (store.batchRows taskId).map
          (renewed request.drawn.text (partsOf sha taskId store size).1)
        else store.batchRows t := by
      intro t
      rw [← batchRows_rekeyed request.args]
      exact (congrArg (Store.batchRows · t) result).trans (batchRows_congr rfl rfl t)
    refine .inr ⟨?_, ?_, fun t run old => (superseded t run).mpr (.inl old), ?_, ?_⟩
    · rintro run unit ⟨r, row, key, keyed, split⟩
      rw [rows, if_pos rfl] at row
      obtain ⟨d, -, rfl⟩ := List.mem_map.mp row
      obtain rfl := Option.some.inj keyed
      exact splitKey_run split
    · intro t other run unit
      unfold Store.Current
      rw [rows, if_neg other]
    · rintro run unit ⟨r, row, key, keyed, split⟩
      exact (superseded taskId run).mpr (.inr ⟨rfl, (runs run).mpr (.inr ⟨r, row, key, keyed, unit, split⟩)⟩)
    · intro t run old
      rcases (superseded t run).mp old with before | ⟨rfl, known⟩
      · exact .inl before
      · rcases (runs run).mp known with none_ | ⟨r, row, key, keyed, unit, split⟩
        · cases none_
        · exact .inr ⟨rfl, unit, r, row, key, keyed, split⟩

/-- An operation keeps the runs, or gives the rows of one task a new one. -/
theorem step_runs (sha : Sha256) (pyInt : Json → Option ℤ) (store : Store) (op : Op) :
    Retains store (step sha pyInt store op) ∨
    ∃ taskId new, op.draws store = some (taskId, new) ∧
      Renews store (step sha pyInt store op) taskId new := by
  cases op with
  | stmt s plain => exact .inl (retains_perform plain)
  | refreshRepoCounts t => exact .inl (.of_rows (batchRows_congr rfl rfl) rfl)
  | ensure args =>
      rcases ensure_runs sha store args with kept | ⟨new, draws, renews⟩
      · exact .inl kept
      · exact .inr ⟨args.taskId, new, draws, renews⟩
  | cleanRerun t request =>
      rcases rerun_runs sha pyInt store t request with kept | renews
      · exact .inl kept
      · exact .inr ⟨t, request.drawn.text, rfl, renews⟩

/-- A run that was used is used for ever. -/
theorem uses_step (op : Op) {t : ℕ} {run : String} (uses : store.Uses t run) :
    (step sha pyInt store op).Uses t run := by
  rcases step_runs sha pyInt store op with retains | ⟨taskId, new, -, renews⟩
  · exact retains.uses.mpr uses
  · exact renews.uses uses

theorem superseded_step (op : Op) {t : ℕ} {run : String} (old : store.Superseded t run) :
    (step sha pyInt store op).Superseded t run := by
  rcases step_runs sha pyInt store op with retains | ⟨taskId, new, -, renews⟩
  · exact (retains.superseded t run).mpr old
  · exact renews.kept t run old

theorem traced_step (traced : Traced store) {op : Op} (fresh : op.Fresh store) :
    Traced (step sha pyInt store op) := by
  rcases step_runs sha pyInt store op with retains | ⟨taskId, new, draws, renews⟩
  · exact traced.retained retains
  · exact traced.renewed renews (fresh _ draws)

end New
end Uta.Generation
