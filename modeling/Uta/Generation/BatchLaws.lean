/- What batches are made of: the identifiers in their keys, the order of the
rows, and the blocks that come back from the keys. -/
import Uta.Generation.Batches
import Mathlib.Data.Bool.AllAny

namespace Uta.Generation
open Uta.Lib Uta.Tasks
open Uta.Lib.Blocks (chunks Reading labelled)

/-! Identifiers. -/

theorem isFollow_of_isLead {c : Char} (lead : isLead c = true) : isFollow c = true := by
  rw [isFollow, lead]
  rfl

theorem not_slash {c : Char} (follow : isFollow c = true) : c ≠ '/' := by
  rintro rfl
  exact absurd follow (by decide)

theorem slash_not_mem {text : String} (valid : validIdentifier text = true) : '/' ∉ text.toList := by
  intro member
  unfold validIdentifier at valid
  rcases chars : text.toList with _ | ⟨c, cs⟩
  · rw [chars] at member
    cases member
  · rw [chars] at valid member
    simp only [Bool.and_eq_true, List.all_eq_true] at valid
    rcases List.mem_cons.mp member with rfl | later
    · exact not_slash (isFollow_of_isLead valid.1.1) rfl
    · exact not_slash (valid.1.2 _ later) rfl

theorem splitKey_keyOf {run unit : String} (validRun : validIdentifier run = true)
    (validUnit : validIdentifier unit = true) : splitKey (keyOf run unit) = some (run, unit) := by
  have chars : (keyOf run unit).toList = run.toList ++ '/' :: unit.toList := by
    rw [keyOf, String.toList_append, String.toList_append, List.append_assoc]
    rfl
  have parts : (keyOf run unit).toList.splitOn '/' = [run.toList, unit.toList] := by
    rw [chars, List.splitOn_append_cons_self_of_not_mem (slash_not_mem validRun),
      List.splitOn_eq_singleton (slash_not_mem validUnit)]
  rw [splitKey, parts]
  simp

theorem keyOf_ne_empty (run unit : String) : keyOf run unit ≠ "" := by
  intro empty
  have chars := congrArg String.toList empty
  rw [keyOf, String.toList_append, String.toList_append] at chars
  simp at chars

theorem isFollow_of_hex {c : Char} (hex : c ∈ "0123456789abcdef".toList) : isLead c = true := by
  have all : ∀ c ∈ "0123456789abcdef".toList, isLead c = true :=
    List.all_iff_forall_prop.mp (by decide)
  exact all c hex

theorem isLead_of_isDigit {c : Char} (digit : c.isDigit = true) : isLead c = true := by
  simp only [Char.isDigit, Bool.and_eq_true, decide_eq_true_eq, ge_iff_le] at digit
  have digits : ('0' ≤ c && c ≤ '9') = true := by
    rw [Bool.and_eq_true, decide_eq_true_eq, decide_eq_true_eq]
    exact digit
  rw [isLead, digits, Bool.or_true]

theorem valid_uuid (u : UuidHex) : validIdentifier u.text = true := by
  obtain ⟨length, hex⟩ := u.shape
  rcases chars : u.text.toList with _ | ⟨c, cs⟩
  · rw [chars] at length
    cases length
  · rw [chars] at length hex
    rw [List.length_cons] at length
    unfold validIdentifier
    rw [chars]
    simp only [Bool.and_eq_true, List.all_eq_true, decide_eq_true_eq]
    refine ⟨⟨isFollow_of_hex (hex c List.mem_cons_self), ?_⟩, by omega⟩
    intro d member
    exact isFollow_of_isLead (isFollow_of_hex (hex d (List.mem_cons_of_mem _ member)))

section Units
variable (sha : Sha256)

def digest12 (targets : List String) : List Char :=
  (sha.hexdigest ("\u0000".intercalate targets)).toList.take 12

theorem length_digest12 (targets : List String) : (digest12 sha targets).length = 12 := by
  rw [digest12, List.length_take, (sha.shape _).1]
  rfl

theorem unitId_chars (index : ℕ) (targets : List String) :
    (unitId sha index targets).toList =
      "unit-".toList ++ List.leftpad 4 '0' (Nat.toDigits 10 index) ++ '-' :: digest12 sha targets := by
  rw [unitId, pad4, digest12]
  simp only [String.toList_append, String.toList_ofList, List.append_assoc]
  rfl

theorem leftpad_digits {index : ℕ} {c : Char}
    (member : c ∈ List.leftpad 4 '0' (Nat.toDigits 10 index)) : c.isDigit = true := by
  rcases List.mem_append.mp member with zero | digit
  · obtain rfl := List.eq_of_mem_replicate zero
    rfl
  · exact Nat.isDigit_of_mem_toDigits (by decide) (by decide) digit

/-- Unit ids are identifiers, as far as rows can be counted. -/
theorem valid_unitId {index : ℕ} (bounded : index < 10 ^ 100) (targets : List String) :
    validIdentifier (unitId sha index targets) = true := by
  have digits : (Nat.toDigits 10 index).length ≤ 100 :=
    (Nat.length_toDigits_le_iff (by decide) (by decide)).mpr bounded
  have follow : ∀ c ∈ "nit-".toList ++ List.leftpad 4 '0' (Nat.toDigits 10 index) ++
      '-' :: digest12 sha targets, isFollow c = true := by
    intro c member
    rcases List.mem_append.mp member with early | late
    · rcases List.mem_append.mp early with word | number
      · have all : ∀ c ∈ "nit-".toList, isFollow c = true := List.all_iff_forall_prop.mp (by decide)
        exact all c word
      · exact isFollow_of_isLead (isLead_of_isDigit (leftpad_digits number))
    · rcases List.mem_cons.mp late with rfl | hex
      · decide
      · exact isFollow_of_isLead (isFollow_of_hex ((sha.shape _).2 c (List.mem_of_mem_take hex)))
  have length : ("nit-".toList ++ List.leftpad 4 '0' (Nat.toDigits 10 index) ++
      '-' :: digest12 sha targets).length ≤ 127 := by
    have word : "nit-".toList.length = 4 := rfl
    rw [List.length_append, List.length_append, List.length_cons, length_digest12, List.length_leftpad,
      word]
    omega
  unfold validIdentifier
  rw [unitId_chars]
  change (isLead 'u' && List.all _ isFollow && decide (List.length _ ≤ 127)) = true
  rw [Bool.and_eq_true, Bool.and_eq_true, List.all_eq_true, decide_eq_true_eq]
  exact ⟨⟨rfl, follow⟩, length⟩

theorem unitId_inj {i j : ℕ} {ts us : List String} (same : unitId sha i ts = unitId sha j us) :
    i = j := by
  have chars := congrArg String.toList same
  rw [unitId_chars, unitId_chars, List.append_assoc, List.append_assoc] at chars
  have tails := List.append_cancel_left chars
  have numbers := (List.append_inj' tails
    (by rw [List.length_cons, List.length_cons, length_digest12, length_digest12])).1
  have value : ∀ n : ℕ, Nat.ofDigitChars 10 (List.leftpad 4 '0' (Nat.toDigits 10 n)) 0 = n := by
    intro n
    rw [List.leftpad, Nat.ofDigitChars_append, Nat.ofDigitChars_replicate_zero, Nat.mul_zero,
      Nat.ofDigitChars_ten_toDigits]
  rw [← value i, numbers, value j]

theorem freshUnits_rows {size : ℕ} (positive : 0 < size) (rows : List BatchRow) :
    (freshUnits sha size rows).flatMap Prod.snd = rows := by
  unfold freshUnits
  rw [List.flatMap_map, List.flatMap_def]
  have members : ((chunks size rows).zipIdx 1).map (fun p => p.1) = chunks size rows := by simp
  exact (congrArg List.flatten members).trans (Blocks.flatten_chunks positive rows)

theorem freshUnits_labels (size : ℕ) (rows : List BatchRow) :
    ((freshUnits sha size rows).map Prod.fst).Nodup := by
  have indices : (((chunks size rows).zipIdx 1).map Prod.snd).Nodup := by
    rw [List.zipIdx_map_snd]
    exact List.nodup_range'
  unfold freshUnits
  rw [List.map_map]
  apply List.pairwise_map.mpr
  exact (List.pairwise_map.mp indices).imp fun ne same => ne (unitId_inj sha same)

theorem freshUnits_inhabited {size : ℕ} (positive : 0 < size) {rows : List BatchRow}
    {u : String × List BatchRow} (member : u ∈ freshUnits sha size rows) : u.2 ≠ [] := by
  obtain ⟨p, source, rfl⟩ := List.mem_map.mp member
  exact Blocks.chunks_ne_nil positive (List.fst_mem_of_mem_zipIdx source)

theorem freshUnits_valid {size : ℕ} (positive : 0 < size) {rows : List BatchRow}
    (bounded : rows.length ≤ 2 ^ 63) {u : String × List BatchRow}
    (member : u ∈ freshUnits sha size rows) : validIdentifier u.1 = true := by
  obtain ⟨p, source, rfl⟩ := List.mem_map.mp member
  apply valid_unitId
  have below := (List.mem_zipIdx source).2.1
  have count := Blocks.length_chunks_le positive rows
  have room : (2 : ℕ) ^ 63 + 1 < 10 ^ 100 := by decide
  omega

end Units

/-! Reading. -/

/-- A key that a valid run and unit make up is taken apart again. -/
theorem reconstructFrom_cons {run unit : String} {row : BatchRow} (key : row.batchKey = some (keyOf run unit))
    (validRun : validIdentifier run = true) (validUnit : validIdentifier unit = true)
    {runId : Option String} (same : ∀ r ∈ runId, r = run) (reading : Reading String BatchRow)
    (rows : List BatchRow) :
    reconstructFrom runId reading (row :: rows) =
      match reading.push unit row with
      | none => .error (.notContiguous unit)
      | some next => reconstructFrom (some run) next rows := by
  have text : textOr row.batchKey "" = keyOf run unit := by
    rw [key, textOr, if_neg (keyOf_ne_empty run unit)]
  have other : ¬ ∃ r ∈ runId, r ≠ run := fun ⟨r, member, ne⟩ => ne (same r member)
  rw [reconstructFrom, text, splitKey_keyOf validRun validUnit]
  dsimp only
  refine (if_neg (not_not_intro ⟨validRun, validUnit⟩)).trans ((if_neg other).trans ?_)
  cases reading.push unit row <;> rfl

theorem reconstructFrom_labelled {run : String} (validRun : validIdentifier run = true)
    {es : List (String × BatchRow)} (keys : ∀ e ∈ es, e.2.batchKey = some (keyOf run e.1))
    (valid : ∀ e ∈ es, validIdentifier e.1 = true) {runId : Option String} (same : ∀ r ∈ runId, r = run)
    {reading final : Reading String BatchRow} (read : reading.pushAll es = some final) :
    ∃ last, (∀ r ∈ last, r = run) ∧ (last = none → runId = none ∧ es = []) ∧
      reconstructFrom runId reading (es.map Prod.snd) = .ok (last, final) := by
  induction es generalizing runId reading with
  | nil =>
      obtain rfl : reading = final := Option.some.inj read
      exact ⟨runId, same, fun h => ⟨h, rfl⟩, rfl⟩
  | cons e es ih =>
      obtain ⟨next, pushed, rest⟩ := Option.bind_eq_some_iff.mp read
      have own : ∀ r ∈ some run, r = run := fun r member => (Option.some.inj member).symm
      obtain ⟨last, run_, started, result⟩ := ih (fun f member => keys f (List.mem_cons_of_mem _ member))
        (fun f member => valid f (List.mem_cons_of_mem _ member)) own rest
      refine ⟨last, run_, fun h => (nomatch (started h).1), ?_⟩
      rw [List.map_cons, reconstructFrom_cons (keys e List.mem_cons_self) validRun
        (valid e List.mem_cons_self) same, pushed]
      exact result

/-- Rows that carry the keys of units are read back as those units. -/
theorem reconstruct_units {taskId : ℕ} {run : String} (validRun : validIdentifier run = true)
    {units : List (String × List BatchRow)} (some_ : units ≠ []) (labels : (units.map Prod.fst).Nodup)
    (inhabited : ∀ u ∈ units, u.2 ≠ []) (valid : ∀ u ∈ units, validIdentifier u.1 = true)
    (keys : ∀ u ∈ units, ∀ r ∈ u.2, r.batchKey = some (keyOf run u.1)) :
    reconstruct taskId (units.flatMap Prod.snd) = .ok (units.map (batchOf taskId run)) := by
  obtain ⟨final, read, blocks⟩ := Blocks.pushAll_labelled labels inhabited
  have rows : (labelled units).map Prod.snd = units.flatMap Prod.snd := by
    unfold labelled
    rw [List.map_flatMap]
    simp
  have member : ∀ e ∈ labelled units, ∃ u ∈ units, e.1 = u.1 ∧ e.2 ∈ u.2 := by
    intro e member
    obtain ⟨u, own, inner⟩ := List.mem_flatMap.mp member
    obtain ⟨r, row, rfl⟩ := List.mem_map.mp inner
    exact ⟨u, own, rfl, row⟩
  have keyed : ∀ e ∈ labelled units, e.2.batchKey = some (keyOf run e.1) := by
    intro e own
    obtain ⟨u, unit, label, row⟩ := member e own
    rw [label]
    exact keys u unit _ row
  have named : ∀ e ∈ labelled units, validIdentifier e.1 = true := by
    intro e own
    obtain ⟨u, unit, label, _⟩ := member e own
    rw [label]
    exact valid u unit
  have unread : ∀ r ∈ (none : Option String), r = run := fun r h => (nomatch h)
  obtain ⟨last, run_, started, result⟩ := reconstructFrom_labelled validRun keyed named unread read
  rw [rows] at result
  cases last with
  | none =>
      have none_ := (started rfl).2
      cases units with
      | nil => exact absurd rfl some_
      | cons u units =>
          rcases first : u.2 with _ | ⟨r, rest⟩
          · exact absurd first (inhabited u List.mem_cons_self)
          · rw [labelled, List.flatMap_cons, first] at none_
            cases none_
  | some r =>
      rw [run_ r rfl] at result
      rw [reconstruct, result]
      dsimp only
      rw [blocks]

/-- Every row that is read belongs to the batch it comes to, in its order. -/
theorem reconstructFrom_some {rows : List BatchRow} {runId last : Option String}
    {reading final : Reading String BatchRow}
    (result : reconstructFrom runId reading rows = .ok (last, final)) :
    ∃ es : List (String × BatchRow), es.map Prod.snd = rows ∧ reading.pushAll es = some final := by
  induction rows generalizing runId reading with
  | nil =>
      obtain ⟨-, rfl⟩ := Prod.mk.inj (Except.ok.inj result)
      exact ⟨[], rfl, rfl⟩
  | cons row rows ih =>
      rw [reconstructFrom] at result
      split at result
      · cases result
      · rename_i run unit _
        split at result
        · cases result
        · split at result
          · cases result
          · split at result
            · cases result
            · rename_i next pushed
              obtain ⟨es, own, read⟩ := ih result
              refine ⟨(unit, row) :: es, by rw [List.map_cons, own], ?_⟩
              rw [Reading.pushAll, pushed]
              exact read

theorem reconstruct_some {taskId : ℕ} {rows : List BatchRow} {batches : List StableGenerationBatch}
    (result : reconstruct taskId rows = .ok batches) :
    ∃ (run : String) (units : List (String × List BatchRow)),
      units.flatMap Prod.snd = rows ∧ batches = units.map (batchOf taskId run) := by
  unfold reconstruct at result
  split at result
  · cases result
  · cases result
  · rename_i run reading read
    obtain ⟨es, own, pushed⟩ := reconstructFrom_some read
    refine ⟨run, reading.blocks, ?_, (Except.ok.inj result).symm⟩
    rw [Blocks.blocks_of_pushAll pushed, own]

/-- The batches hold the rows of the task in their order, each once. -/
theorem reconstruct_ids {taskId : ℕ} {rows : List BatchRow} {batches : List StableGenerationBatch}
    (result : reconstruct taskId rows = .ok batches) :
    batches.flatMap StableGenerationBatch.classTaskIds = rows.map BatchRow.id := by
  obtain ⟨run, units, own, rfl⟩ := reconstruct_some result
  rw [← own, List.flatMap_map, List.map_flatMap]
  rfl

theorem reconstruct_targets {taskId : ℕ} {rows : List BatchRow} {batches : List StableGenerationBatch}
    (result : reconstruct taskId rows = .ok batches) :
    batches.flatMap StableGenerationBatch.targetIds = rows.map BatchRow.target := by
  obtain ⟨run, units, own, rfl⟩ := reconstruct_some result
  rw [← own, List.flatMap_map, List.map_flatMap]
  rfl

theorem reconstruct_task {taskId : ℕ} {rows : List BatchRow} {batches : List StableGenerationBatch}
    (result : reconstruct taskId rows = .ok batches) {b : StableGenerationBatch} (member : b ∈ batches) :
    b.repoTaskId = taskId := by
  obtain ⟨run, units, own, rfl⟩ := reconstruct_some result
  obtain ⟨u, _, rfl⟩ := List.mem_map.mp member
  rfl

/-! Rows. -/

/-- A change of the class rows that keeps what they are ordered by keeps their order. -/
theorem listClassTasks_map {w v : World} {f : ClassTask → ClassTask}
    (rows : v.classes.rows = w.classes.rows.map f) (ids : ∀ c, (f c).id = c.id)
    (tasks : ∀ c, (f c).repoTaskId = c.repoTaskId) (priorities : ∀ c, (f c).priority = c.priority)
    (taskId : ℕ) : v.listClassTasks taskId = (w.listClassTasks taskId).map f := by
  unfold World.listClassTasks
  rw [rows, List.filter_map]
  have filter : ((fun c : ClassTask => decide (c.repoTaskId = taskId)) ∘ f) =
      fun c => decide (c.repoTaskId = taskId) := by
    funext c
    rw [Function.comp_apply, tasks]
  rw [filter]
  symm
  apply List.map_insertionSort
  intro c _ d _
  rw [ids, ids, priorities, priorities]

theorem listClassTasks_update (w : World) {classId : ℕ} {patch : ClassPatch}
    (kept : patch.priority = none) (taskId : ℕ) :
    (w.updateClassTask classId patch).listClassTasks taskId =
      (w.listClassTasks taskId).map fun c => if c.id = classId then patch.apply w.now c else c := by
  have field : ∀ {α : Type} (g : ClassTask → α), (∀ c, g (patch.apply w.now c) = g c) → ∀ c,
      g (if c.id = classId then patch.apply w.now c else c) = g c := by
    intro α g same c
    split
    · exact same c
    · rfl
  apply listClassTasks_map rfl
  · exact field ClassTask.id fun _ => rfl
  · exact field ClassTask.repoTaskId fun _ => rfl
  · apply field ClassTask.priority
    intro c
    rw [ClassPatch.apply, kept]
    rfl

theorem listClassTasks_perm (w : World) (taskId : ℕ) :
    (w.listClassTasks taskId).Perm (w.classes.rows.filter fun c => c.repoTaskId = taskId) :=
  List.perm_insertionSort ..

theorem listClassTasks_nodup (w : World) (taskId : ℕ) :
    ((w.listClassTasks taskId).map ClassTask.id).Nodup := by
  rw [((listClassTasks_perm w taskId).map ClassTask.id).nodup_iff]
  exact List.Nodup.sublist (List.filter_sublist.map _) w.classes.unique

/-- A row is found under its id. -/
theorem find?_own {rows : List ClassTask} (unique : (rows.map ClassTask.id).Nodup) {d : ClassTask}
    (member : d ∈ rows) : rows.find? (fun c => c.id = d.id) = some d := by
  rcases search : rows.find? (fun c => c.id = d.id) with _ | c
  · exact absurd (List.find?_eq_none.mp search d member) (by simp)
  · have same : c.id = d.id := by simpa using List.find?_some search
    rw [search, List.inj_on_of_nodup_map unique (List.mem_of_find?_eq_some search) member same]

namespace Store

theorem batchRows_ids (store : Store) (taskId : ℕ) :
    (store.batchRows taskId).map BatchRow.id = (store.world.listClassTasks taskId).map ClassTask.id := by
  rw [batchRows, List.map_map]
  rfl

theorem batchRows_nodup (store : Store) (taskId : ℕ) :
    ((store.batchRows taskId).map BatchRow.id).Nodup := by
  rw [batchRows_ids]
  exact listClassTasks_nodup store.world taskId

/-- The row with its key written. -/
def withKey (key : String) (r : BatchRow) : BatchRow := { r with batchKey := some key }

theorem batchRows_setKey (key : String) (store : Store) (classId taskId : ℕ) :
    (store.setKey key classId).batchRows taskId =
      (store.batchRows taskId).map fun r => if r.id = classId then withKey key r else r := by
  unfold batchRows setKey
  rw [listClassTasks_update store.world rfl, List.map_map, List.map_map]
  apply List.map_congr_left
  intro c _
  by_cases hit : c.id = classId
  · subst hit
    simp [batchRow, withKey, ClassPatch.apply]
  · simp [batchRow, hit]

/-- What an assignment makes of a row. -/
def keyedBy (run : String) (units : List (String × List BatchRow)) (r : BatchRow) : BatchRow :=
  units.foldl (fun r u => if r.id ∈ u.2.map BatchRow.id then withKey (keyOf run u.1) r else r) r

theorem batchRows_setKeys (key : String) (rows : List BatchRow) (store : Store) (taskId : ℕ) :
    (rows.foldl (fun store r => store.setKey key r.id) store).batchRows taskId =
      (store.batchRows taskId).map fun r =>
        if r.id ∈ rows.map BatchRow.id then withKey key r else r := by
  induction rows generalizing store with
  | nil => simp
  | cons row rows ih =>
      rw [List.foldl_cons, ih, batchRows_setKey, List.map_map]
      apply List.map_congr_left
      intro r _
      by_cases head : r.id = row.id <;> by_cases tail : r.id ∈ rows.map BatchRow.id <;>
        simp_all [withKey]

theorem batchRows_assignKeys (run : String) (units : List (String × List BatchRow)) (store : Store)
    (taskId : ℕ) : (store.assignKeys run units).batchRows taskId =
      (store.batchRows taskId).map (keyedBy run units) := by
  unfold assignKeys
  induction units generalizing store with
  | nil =>
      change _ = List.map (fun r => r) _
      rw [List.map_id']
      rfl
  | cons u units ih =>
      rw [List.foldl_cons, ih, batchRows_setKeys, List.map_map]
      rfl

theorem keyedBy_other {run : String} {units : List (String × List BatchRow)} {r : BatchRow}
    (apart : r.id ∉ units.flatMap fun u => u.2.map BatchRow.id) : keyedBy run units r = r := by
  induction units with
  | nil => rfl
  | cons u units ih =>
      rw [List.flatMap_cons, List.mem_append, not_or] at apart
      change keyedBy run units (if r.id ∈ u.2.map BatchRow.id then _ else r) = r
      rw [if_neg apart.1]
      exact ih apart.2

theorem keyedBy_own {run : String} {units : List (String × List BatchRow)}
    (once : (units.flatMap fun u => u.2.map BatchRow.id).Nodup) {u : String × List BatchRow}
    (unit : u ∈ units) {r : BatchRow} (row : r ∈ u.2) :
    keyedBy run units r = withKey (keyOf run u.1) r := by
  induction units with
  | nil => cases unit
  | cons v units ih =>
      rw [List.flatMap_cons, List.nodup_append] at once
      change keyedBy run units (if r.id ∈ v.2.map BatchRow.id then _ else r) = _
      rcases List.mem_cons.mp unit with rfl | later
      · rw [if_pos (List.mem_map_of_mem row)]
        apply keyedBy_other
        intro again
        exact once.2.2 r.id (List.mem_map_of_mem row) r.id again rfl
      · have elsewhere : r.id ∈ units.flatMap fun u => u.2.map BatchRow.id :=
          List.mem_flatMap.mpr ⟨u, later, List.mem_map_of_mem row⟩
        rw [if_neg fun here => once.2.2 r.id here r.id elsewhere rfl]
        exact ih once.2.1 later

/-- The units with the keys of their rows written. -/
def keyedUnits (run : String) (units : List (String × List BatchRow)) : List (String × List BatchRow) :=
  units.map fun u => (u.1, u.2.map (withKey (keyOf run u.1)))

theorem batchOf_keyed (taskId : ℕ) (run : String) (units : List (String × List BatchRow)) :
    (keyedUnits run units).map (batchOf taskId run) = units.map (batchOf taskId run) := by
  rw [keyedUnits, List.map_map]
  apply List.map_congr_left
  intro u _
  simp [batchOf, withKey, Function.comp_def]

end Store

open Store in
/-- A fresh assignment is read back as its units. -/
theorem reconstruct_fresh {sha : Sha256} {size : ℕ} (positive : 0 < size) {rows : List BatchRow}
    (some_ : rows ≠ []) (bounded : rows.length ≤ 2 ^ 63) {run : String}
    (valid : validIdentifier run = true) (taskId : ℕ) :
    reconstruct taskId ((keyedUnits run (freshUnits sha size rows)).flatMap Prod.snd) =
      .ok ((freshUnits sha size rows).map (batchOf taskId run)) := by
  have source : ∀ u ∈ keyedUnits run (freshUnits sha size rows), ∃ v ∈ freshUnits sha size rows,
      u = (v.1, v.2.map (withKey (keyOf run v.1))) := by
    intro u member
    obtain ⟨v, own, rfl⟩ := List.mem_map.mp member
    exact ⟨v, own, rfl⟩
  rw [reconstruct_units valid]
  · rw [batchOf_keyed]
  · intro none_
    apply some_
    rw [keyedUnits, List.map_eq_nil_iff] at none_
    rw [← freshUnits_rows sha positive rows, none_]
    rfl
  · rw [keyedUnits, List.map_map]
    exact freshUnits_labels sha size rows
  · intro u member
    obtain ⟨v, own, rfl⟩ := source u member
    simpa using freshUnits_inhabited sha positive own
  · intro u member
    obtain ⟨v, own, rfl⟩ := source u member
    exact @freshUnits_valid sha size positive rows bounded v own
  · intro u member r row
    obtain ⟨v, own, rfl⟩ := source u member
    obtain ⟨r, _, rfl⟩ := List.mem_map.mp row
    rfl

/-! Ensuring. -/

variable {sha : Sha256} {args : EnsureArgs} {store after : Store}
  {batches : List StableGenerationBatch}

/-- The run that a caller asks for, if any, is that of the batches. -/
def RunAgrees (args : EnsureArgs) (batches : List StableGenerationBatch) : Prop :=
  ∀ run ∈ args.workflowRunId, ∀ b ∈ batches.head?, b.workflowRunId = run

/-- Batches that are there already are read, and nothing is written. -/
theorem ensure_reread (nodup : args.orderedTargetIds.Nodup) (size : 1 ≤ args.batchSize)
    (order : (store.batchRows args.taskId).map BatchRow.target = args.orderedTargetIds)
    (some_ : store.batchRows args.taskId ≠ []) (keyed : ∀ r ∈ store.batchRows args.taskId, r.Keyed)
    (read : reconstruct args.taskId (store.batchRows args.taskId) = .ok batches)
    (agrees : RunAgrees args batches) :
    ensureStableGenerationBatches sha args store = (.ok batches, store) := by
  have one : ∃ r ∈ store.batchRows args.taskId, r.Keyed := by
    obtain ⟨r, member⟩ := List.exists_mem_of_ne_nil _ some_
    exact ⟨r, member, keyed r member⟩
  have mixed : ¬ ((∃ r ∈ store.batchRows args.taskId, r.Keyed) ∧
      ¬ ∀ r ∈ store.batchRows args.taskId, r.Keyed) := fun h => h.2 keyed
  have other : ¬ ∃ run ∈ args.workflowRunId, ∃ b ∈ batches.head?, b.workflowRunId ≠ run := by
    rintro ⟨run, asked, b, first, ne⟩
    exact ne (agrees run asked b first)
  unfold ensureStableGenerationBatches
  dsimp only
  rw [if_neg (not_not_intro nodup), if_neg (by omega), Act.transaction_ok, Act.bind_run]
  dsimp only [Act.read_run]
  rw [if_neg (not_not_intro order), if_neg some_, if_neg mixed, Act.bind_run, assignFresh, if_pos one]
  simp only [Act.bind_run, Act.pure_run, Act.read_run, Act.lift_run, read]
  rw [if_neg other]
  rfl

theorem ensure_none (nodup : args.orderedTargetIds.Nodup) (size : 1 ≤ args.batchSize)
    (order : (store.batchRows args.taskId).map BatchRow.target = args.orderedTargetIds)
    (none_ : store.batchRows args.taskId = []) :
    ensureStableGenerationBatches sha args store = (.ok [], store) := by
  unfold ensureStableGenerationBatches
  dsimp only
  rw [if_neg (not_not_intro nodup), if_neg (by omega), Act.transaction_ok, Act.bind_run]
  dsimp only [Act.read_run]
  rw [if_neg (not_not_intro order), if_pos none_]
  rfl

/-- What holds where the batches are returned. -/
theorem ensure_ok (result : ensureStableGenerationBatches sha args store = (.ok batches, after)) :
    args.orderedTargetIds.Nodup ∧ 1 ≤ args.batchSize ∧
    (store.batchRows args.taskId).map BatchRow.target = args.orderedTargetIds ∧
    ((store.batchRows args.taskId = [] ∧ batches = [] ∧ after = store) ∨
      (store.batchRows args.taskId ≠ [] ∧
        ((∀ r ∈ store.batchRows args.taskId, r.Keyed) ∧ after = store ∨
          (∀ r ∈ store.batchRows args.taskId, ¬ r.Keyed) ∧
            after = store.assignKeys (textOr args.workflowRunId args.drawn.text)
              (freshUnits sha args.batchSize.toNat (store.batchRows args.taskId))) ∧
        reconstruct args.taskId (after.batchRows args.taskId) = .ok batches ∧
        RunAgrees args batches)) := by
  unfold ensureStableGenerationBatches at result
  dsimp only at result
  split at result
  · cases result
  rename_i nodup
  split at result
  · cases result
  rename_i size
  rw [Act.transaction_ok, Act.bind_run] at result
  dsimp only [Act.read_run] at result
  split at result
  · cases result
  rename_i order
  refine ⟨not_not.mp nodup, by omega, not_not.mp order, ?_⟩
  split at result
  · rename_i none_
    obtain ⟨rfl, rfl⟩ := Act.pure_ok.mp result
    exact .inl ⟨none_, rfl, rfl⟩
  rename_i some_
  split at result
  · cases result
  rename_i mixed
  refine .inr ⟨some_, ?_⟩
  obtain ⟨_, mid, written, rest⟩ := Act.bind_ok.mp result
  simp only [Act.bind_run, Act.read_run, Act.lift_run] at rest
  rcases read : reconstruct args.taskId (mid.batchRows args.taskId) with e | found
  · rw [read] at rest
    cases rest
  · rw [read] at rest
    dsimp only at rest
    split at rest
    · cases rest
    rename_i agrees
    obtain ⟨rfl, rfl⟩ := Act.pure_ok.mp rest
    refine ⟨?_, read, ?_⟩
    · unfold assignFresh at written
      split at written
      · rename_i any
        obtain ⟨-, rfl⟩ := Act.pure_ok.mp written
        have keyed : ∀ r ∈ store.batchRows args.taskId, r.Keyed := by
          by_contra some_bare
          exact mixed ⟨any, some_bare⟩
        exact .inl ⟨keyed, rfl⟩
      · rename_i fresh
        dsimp only at written
        split at written
        · obtain ⟨-, rfl⟩ := Prod.mk.inj written
          exact .inr ⟨fun r member keyed => fresh ⟨r, member, keyed⟩, rfl⟩
        · cases written
    · intro run asked b first
      by_contra ne
      exact agrees ⟨run, asked, b, first, ne⟩

end Uta.Generation
