/- What a clean rerun writes, and when it is refused. -/
import Uta.Generation.Upkeep

namespace Uta.Generation
open Uta.Lib Uta.Tasks
open Uta.Enforce (jsonLoads)

/-! Keys. -/

section Keys
variable (args : RerunArgs) (run : String) (byClass : List (ℕ × String))

/-- The row with the key of its new unit. -/
def renewed (r : BatchRow) : BatchRow := Store.withKey (keyOf run (unitOf byClass r.id)) r

theorem batchRows_replaceKey (store : Store) (c : ClassTask) (taskId : ℕ) :
    (store.replaceKey args run byClass c).batchRows taskId =
      (store.batchRows taskId).map fun r => if r.id = c.id then renewed run byClass r else r := by
  unfold Store.batchRows Store.replaceKey
  have kept : (if World.requeueStatuses args c.status then World.rerunClassPatch else {}).priority =
      none := by split <;> rfl
  rw [listClassTasks_update store.world kept, List.map_map, List.map_map]
  apply List.map_congr_left
  intro d _
  by_cases hit : d.id = c.id
  · rw [Function.comp_apply, Function.comp_apply, if_pos hit]
    unfold Store.batchRow renewed Store.withKey
    rw [if_pos hit]
    simp [ClassPatch.apply, hit]
  · rw [Function.comp_apply, Function.comp_apply, if_neg hit]
    unfold Store.batchRow
    rw [if_neg hit]
    simp [hit]

theorem batchRows_replaceKeys (rows : List ClassTask) (store : Store) (taskId : ℕ) :
    (rows.foldl (Store.replaceKey args run byClass) store).batchRows taskId =
      (store.batchRows taskId).map fun r =>
        if r.id ∈ rows.map ClassTask.id then renewed run byClass r else r := by
  induction rows generalizing store with
  | nil => simp
  | cons c rows ih =>
      rw [List.foldl_cons, ih, batchRows_replaceKey, List.map_map]
      apply List.map_congr_left
      intro r _
      by_cases head : r.id = c.id <;> by_cases tail : r.id ∈ rows.map ClassTask.id <;>
        simp_all [renewed, Store.withKey]

/-- The keys of a task are written in its own rows only. -/
theorem batchRows_rekeyed (store : Store) (taskId other : ℕ) :
    ((store.world.listClassTasks taskId).foldl (Store.replaceKey args run byClass) store).batchRows other =
      if other = taskId then (store.batchRows taskId).map (renewed run byClass)
      else store.batchRows other := by
  rw [batchRows_replaceKeys, ← Store.batchRows_ids]
  split
  · rename_i same
    subst same
    apply List.map_congr_left
    intro r own
    rw [if_pos (List.mem_map_of_mem own)]
  · rename_i ne
    conv_rhs => rw [← List.map_id (store.batchRows other)]
    apply List.map_congr_left
    intro r own
    rw [if_neg, id_eq]
    intro theirs
    obtain ⟨s, row, same⟩ := List.mem_map.mp theirs
    exact batchRows_apart ne own row same.symm

theorem replaceKeys_world (rows : List ClassTask) (store : Store) :
    (rows.foldl (Store.replaceKey args run byClass) store).world =
      rows.foldl (fun w c => w.updateClassTask c.id
        (if World.requeueStatuses args c.status then World.rerunClassPatch else {})) store.world := by
  induction rows generalizing store with
  | nil => rfl
  | cons c rows ih => exact ih (store.replaceKey args run byClass c)

theorem replaceKeys_rest (rows : List ClassTask) (store : Store) :
    let after := rows.foldl (Store.replaceKey args run byClass) store
    after.account = store.account ∧ after.supersessions = store.supersessions ∧
      after.legacyScopes = store.legacyScopes ∧ after.rerunPayloads = store.rerunPayloads := by
  induction rows generalizing store with
  | nil => exact ⟨rfl, rfl, rfl, rfl⟩
  | cons c rows ih => exact ih (store.replaceKey args run byClass c)

end Keys

/-! Records. -/

/-- No record clashes with one that is there when it comes. -/
def Unclashing : List Supersession → List Supersession → Prop
  | _, [] => True
  | present, s :: rest => (∀ t ∈ present, ¬ s.Clashes t) ∧ Unclashing (present ++ [s]) rest

theorem insertSupersessions_ok (records : List Supersession) {store after : Store} {u : Unit} :
    insertSupersessions records store = (.ok u, after) ↔
      Unclashing store.supersessions records ∧
        after = { store with supersessions := store.supersessions ++ records } := by
  induction records generalizing store with
  | nil =>
      rw [insertSupersessions, Act.pure_ok]
      simp [Unclashing, eq_comm]
  | cons s records ih =>
      rw [insertSupersessions, Act.bind_run]
      dsimp only [Act.read_run]
      by_cases clash : ∃ t ∈ store.supersessions, s.Clashes t
      · rw [if_pos clash]
        constructor
        · intro raised
          cases raised
        · rintro ⟨⟨apart, -⟩, -⟩
          obtain ⟨t, member, clashes⟩ := clash
          exact absurd clashes (apart t member)
      · rw [if_neg clash, Act.bind_run]
        dsimp only [Act.write_run]
        rw [ih, Unclashing, List.append_assoc, List.singleton_append]
        have apart : ∀ t ∈ store.supersessions, ¬ s.Clashes t := fun t member clashes =>
          clash ⟨t, member, clashes⟩
        exact ⟨fun ⟨later, same⟩ => ⟨⟨apart, later⟩, same⟩, fun ⟨⟨_, later⟩, same⟩ => ⟨later, same⟩⟩

/-! The rerun. -/

section Clean
variable (sha : Sha256) (pyInt : Json → Option ℤ) (taskId : ℕ) (request : RerunRequest)

/-- The batch size that a clean rerun takes. -/
def sizeOf (store : Store) (prior : PriorIdentities) : Except RerunError ℕ :=
  rerunBatchSize pyInt (jsonLoads (store.account taskId).configSnapshotJson.toList) prior
    request.defaultBatchSize

/-- The units that a clean rerun gives to the classes. -/
def partsOf (store : Store) (size : ℕ) : List (ℕ × String) × List String :=
  partitionRows sha (store.batchRows taskId) size

/-- The records that a clean rerun adds. -/
def recordsOf (store : Store) (prior : PriorIdentities) (size : ℕ) : List Supersession :=
  supersessionsOf taskId request (partsOf sha taskId store size).1 store.world.now prior

/-- The database with the keys and the records of a clean rerun. -/
def replaced (store : Store) (prior : PriorIdentities) (size : ℕ) : Store :=
  let keyed := (store.world.listClassTasks taskId).foldl
    (Store.replaceKey request.args request.drawn.text (partsOf sha taskId store size).1) store
  { keyed with
    supersessions := keyed.supersessions ++ recordsOf sha taskId request store prior size
  }.supersedeLegacyScopes taskId request.drawn.text

/-- The database after a clean rerun. -/
def rerunStore (store : Store) (prior : PriorIdentities) (size : ℕ) : Store :=
  ((replaced sha taskId request store prior size).queueTask taskId
    (replacedStatuses request.args (store.world.listClassTasks taskId))).insertRerunEvent taskId
    { newRunId := request.drawn.text, newUnitIds := (partsOf sha taskId store size).2,
      oldRunIds := prior.known.map PriorRun.runId, oldLegacyScopes := store.priorLegacyScopes taskId,
      missingClassIds := prior.missing, requeuePolicy := request.policy, reason := request.reason,
      requestedBy := request.actor }

variable {sha pyInt taskId request} {store after : Store} {run : String}

theorem rerunEligible_ok : rerunEligible sha pyInt taskId request store = (.ok run, after) ↔
    ∃ prior size, priorIdentities (store.batchRows taskId) = .ok prior ∧
      sizeOf pyInt taskId request store prior = .ok size ∧
      Unclashing store.supersessions (recordsOf sha taskId request store prior size) ∧
      run = request.drawn.text ∧ after = rerunStore sha taskId request store prior size := by
  unfold rerunEligible
  rw [Act.bind_run]
  dsimp only [Act.read_run]
  rw [Act.bind_run, Act.lift_run]
  rcases read : priorIdentities (store.batchRows taskId) with e | prior
  · simp
  dsimp only
  rw [Act.bind_run, Act.lift_run]
  rcases sized : rerunBatchSize pyInt (jsonLoads (store.account taskId).configSnapshotJson.toList) prior
    request.defaultBatchSize with e | size
  · simp [sizeOf, sized]
  dsimp only
  rw [Act.bind_run, Act.write_run]
  dsimp only
  have kept := (replaceKeys_rest request.args request.drawn.text (partsOf sha taskId store size).1
    (store.world.listClassTasks taskId) store).2.1
  constructor
  · intro result
    obtain ⟨u, mid, inserted, rest⟩ := Act.bind_ok.mp result
    obtain ⟨apart, rfl⟩ := (insertSupersessions_ok _).mp inserted
    rw [Act.bind_run, Act.read_run] at rest
    dsimp only at rest
    rw [Act.bind_run, Act.write_run] at rest
    dsimp only at rest
    obtain ⟨rfl, rfl⟩ := Act.pure_ok.mp rest
    refine ⟨prior, size, rfl, sized, ?_, rfl, rfl⟩
    rw [← kept]
    exact apart
  · rintro ⟨prior', size', same, sized', apart, rfl, rfl⟩
    obtain rfl : prior = prior' := Except.ok.inj same
    obtain rfl : size = size' := Except.ok.inj (sized.symm.trans sized')
    rw [← kept] at apart
    apply Act.bind_ok.mpr
    exact ⟨(), _, (insertSupersessions_ok _).mpr ⟨apart, rfl⟩, rfl⟩

theorem cleanRerun_ok : cleanRerunGeneration sha pyInt taskId request store = (.ok run, after) ↔
    store.world.rerunRefusal taskId request.args = none ∧
      rerunEligible sha pyInt taskId request store = (.ok run, after) := by
  rw [cleanRerunGeneration, Act.transaction_ok, rerunChecked, Act.bind_run]
  dsimp only [Act.read_run]
  rcases store.world.rerunRefusal taskId request.args with _ | e
  · exact ⟨fun ok => ⟨rfl, ok⟩, fun ok => ok.2⟩
  · exact ⟨fun raised => (nomatch raised), fun ok => (nomatch ok.1)⟩

/-- A clean rerun of one task leaves the batches of the others alone. -/
theorem cleanRerun_elsewhere {other : ℕ} (ne : taskId ≠ other) :
    (Act.after (cleanRerunGeneration sha pyInt taskId request) store).batchRows other =
      store.batchRows other := by
  rcases Act.transaction_after (rerunChecked sha pyInt taskId request) store with same | ⟨run, ok⟩
  · exact congrArg (Store.batchRows · other) same
  · obtain ⟨-, eligible⟩ := cleanRerun_ok.mp (Act.transaction_ok.mpr ok)
    obtain ⟨prior, size, -, -, -, -, result⟩ := rerunEligible_ok.mp eligible
    have written := batchRows_rekeyed request.args request.drawn.text (partsOf sha taskId store size).1
      store taskId other
    rw [if_neg ne.symm] at written
    rw [← written]
    refine (congrArg (Store.batchRows · other) result).trans ?_
    exact batchRows_congr rfl rfl other

end Clean
end Uta.Generation
