/- The prerequisite walk decides its chain: it ends on every ledger, and accepts
a row exactly when the graph below it is acyclic and sealed throughout. -/
import Uta.Operations.Adoption

namespace Uta.Operations
open Uta.Lib

/-- What a row may rest on: the graph reachable from it. -/
structure ChainSound (sha256 : String → String) (store : SecureArtifactStore) (L : Ledger)
    (row : OperationRow) : Prop where
  /-- Every list on the way is a list of ids of the ledger. -/
  present : ∀ q, Relation.ReflTransGen (Prerequisite L) row q →
    ∃ ids, q.prerequisiteOperationIds = some ids ∧ ∀ id ∈ ids, L.operations.find? id ≠ none
  acyclic : ∀ q, Relation.ReflTransGen (Prerequisite L) row q →
    ¬ Relation.TransGen (Prerequisite L) q q
  /-- Every reachable operation is completed with a valid artifact, in the
  row's task, run and unit. -/
  complete : ∀ q, Relation.TransGen (Prerequisite L) row q → Sealed sha256 store row q

section Walk
variable {sha256 : String → String} {store : SecureArtifactStore} {L : Ledger}

/-- A walked row is none of the ancestors it is walked under. -/
theorem walked_new {row : Entered L} {seen : List String}
    (walked : validatePrerequisites sha256 store L row seen = .ok ()) :
    row.1.operationId ∉ seen := by
  intro again
  rw [validatePrerequisites, dif_pos again] at walked
  cases walked

/-- Every reached row is walked, and is none of the first ancestors. -/
theorem reached_walked {r q : OperationRow} (reached : Relation.ReflTransGen (Prerequisite L) r q)
    (entered : r ∈ L.operations.rows) (seen : List String)
    (walked : validatePrerequisites sha256 store L ⟨r, entered⟩ seen = .ok ()) :
    ∃ (entered' : q ∈ L.operations.rows) (seen' : List String), seen ⊆ seen' ∧
      validatePrerequisites sha256 store L ⟨q, entered'⟩ seen' = .ok () := by
  induction reached using Relation.ReflTransGen.head_induction_on generalizing seen with
  | refl => exact ⟨entered, seen, fun _ member => member, walked⟩
  | head prerequisite _ ih =>
      obtain ⟨entered', -, walked'⟩ := walked_next walked prerequisite
      obtain ⟨there, seen', grown, below⟩ := ih entered' _ walked'
      exact ⟨there, seen', fun _ member => grown (List.mem_cons_of_mem _ member), below⟩

theorem walked_acyclic {r q : OperationRow} (reached : Relation.ReflTransGen (Prerequisite L) r q)
    (entered : r ∈ L.operations.rows)
    (walked : validatePrerequisites sha256 store L ⟨r, entered⟩ [] = .ok ()) :
    ¬ Relation.TransGen (Prerequisite L) q q := by
  intro cycle
  obtain ⟨entered', seen, _, below⟩ := reached_walked reached entered [] walked
  obtain ⟨b, first, rest⟩ := Relation.TransGen.head'_iff.mp cycle
  obtain ⟨entered'', -, walked'⟩ := walked_next below first
  -- Back at `q`, its own id is among the ancestors.
  obtain ⟨_, seen', grown, again⟩ := reached_walked rest entered'' _ walked'
  exact walked_new again (grown List.mem_cons_self)

theorem crossedField_same {p r : OperationRow} (task : p.repoTaskId = r.repoTaskId)
    (run : p.workflowRunId = r.workflowRunId) (unit : p.unitId = r.unitId) :
    crossedField p r = none := by
  simp [crossedField, task, run, unit]

/-- The checks of one prerequisite pass where it is sealed and no ancestor. -/
theorem prerequisiteRow_sealed {row p : OperationRow} {ancestors : List String} {id : String}
    (found : L.operations.find? id = some p) (sealed_ : Sealed sha256 store row p)
    (new : id ∉ ancestors) : prerequisiteRow sha256 store L row ancestors id =
      .ok ⟨p, (Table.find?_some.mp found).1⟩ := by
  obtain ⟨completed, ⟨e, path, digest, read, _⟩, task, run, unit⟩ := sealed_
  unfold prerequisiteRow
  rw [if_neg new]
  split
  · rename_i absent
    rw [found] at absent
    cases absent
  · rename_i p' found'
    obtain rfl : p = p' := Option.some.inj (found.symm.trans found')
    rw [if_neg (not_not.mpr completed), crossedField_same task run unit]
    simp only [read]
    rfl

/-- What lies below a row's prerequisite lies below the row. -/
theorem ChainSound.next {row p : OperationRow} (sound : ChainSound sha256 store L row)
    (prerequisite : Prerequisite L row p) : ChainSound sha256 store L p where
  present q reached := sound.present q (.head prerequisite reached)
  acyclic q reached := sound.acyclic q (.head prerequisite reached)
  complete q reached := by
    obtain ⟨completed, artifact, task, run, unit⟩ := sound.complete q (.head prerequisite reached)
    obtain ⟨_, _, task', run', unit'⟩ := sound.complete p (.single prerequisite)
    exact ⟨completed, artifact, task.trans task'.symm, run.trans run'.symm, unit.trans unit'.symm⟩

/-- A sound chain is accepted under any ancestors it lies below. -/
theorem sound_walked (row : Entered L) (seen : List String)
    (above : ∀ id ∈ seen, ∃ a ∈ L.operations.rows, a.operationId = id ∧
      Relation.TransGen (Prerequisite L) a row.1)
    (sound : ChainSound sha256 store L row.1) :
    validatePrerequisites sha256 store L row seen = .ok () := by
  -- The ledger's rows with an id: an ancestor of that id is the row itself.
  have apart : ∀ {p : OperationRow}, Relation.ReflTransGen (Prerequisite L) row.1 p →
      p ∈ L.operations.rows → p.operationId ∉ seen := by
    intro p reached entered member
    obtain ⟨a, entered', same, below⟩ := above _ member
    obtain rfl : a = p := L.operations.eq_of_key entered' entered same
    exact sound.acyclic a reached (below.trans_left reached)
  rw [validatePrerequisites, dif_neg (apart .refl row.2)]
  obtain ⟨ids, listed, onLedger⟩ := sound.present row.1 .refl
  refine except_bind_ok.mpr ⟨ids, rowPrerequisites_ok.mpr listed, ?_⟩
  refine except_forM_ok.mpr fun id member => ?_
  obtain ⟨p, found⟩ := Option.ne_none_iff_exists'.mp (onLedger id member)
  obtain ⟨entered, named⟩ := Table.find?_some.mp found
  have prerequisite : Prerequisite L row.1 p := ⟨ids, id, listed, member, found⟩
  have new : id ∉ row.1.operationId :: seen := by
    rw [← named, List.mem_cons, not_or]
    refine ⟨fun own => ?_, apart (.single prerequisite) entered⟩
    obtain rfl : p = row.1 := L.operations.eq_of_key entered row.2 own
    exact sound.acyclic _ .refl (.single prerequisite)
  refine except_bind_ok.mpr ⟨⟨p, entered⟩,
    prerequisiteRow_sealed found (sound.complete p (.single prerequisite)) new, ?_⟩
  refine sound_walked ⟨p, entered⟩ _ (fun id' listed' => ?_) (sound.next prerequisite)
  rcases List.mem_cons.mp listed' with rfl | old
  · exact ⟨row.1, row.2, rfl, .single prerequisite⟩
  · obtain ⟨a, entered', same, below⟩ := above id' old
    exact ⟨a, entered', same, below.tail prerequisite⟩
  termination_by (unseen L seen).length
  decreasing_by exact unseen_lt row.2 (apart .refl row.2)

end Walk

/-- The walk answers on every ledger (it is a total function), and accepts a row
exactly when the chain below it is sound. -/
theorem validatePrerequisites_iff (sha256 : String → String) (store : SecureArtifactStore)
    (L : Ledger) (row : Entered L) :
    validatePrerequisites sha256 store L row [] = .ok () ↔ ChainSound sha256 store L row.1 := by
  constructor
  · intro walked
    exact ⟨fun q reached => reached_present reached row.2 [] walked,
      fun q reached => walked_acyclic reached row.2 walked,
      fun q reached => reached_sealed reached row.2 [] walked⟩
  · intro sound
    exact sound_walked row [] (fun id none_ => absurd none_ List.not_mem_nil) sound

end Uta.Operations
