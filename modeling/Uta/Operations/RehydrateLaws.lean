/- When a restored phase gives the update that its live node gave. -/
import Uta.Operations.Rehydrate
import Uta.Operations.ArtifactLaws

namespace Uta.Operations
open Uta.Lib
open Uta.Enforce (Conversions)

theorem SameValue.refl (v : Option Json) : SameValue v v := rfl

/-- A value and what is left of it in sorted JSON are equal. -/
theorem sameValue_sorted (v : Option Json) : SameValue (v.map Json.sortKeys) v := by
  cases v with
  | none => rfl
  | some v => exact congrArg some (Json.sortKeys_sortKeys v)

theorem sameValue_str {v : Option Json} {text : String} :
    SameValue v (some (.str text)) ↔ v = some (.str text) := by
  constructor
  · intro same
    obtain ⟨w, rfl, sorted⟩ := Option.map_eq_some_iff.mp same
    cases w <;> simp_all [Json.sortKeys]
  · rintro rfl
    rfl

theorem sameValue_int {v : Option Json} {n : ℤ} : SameValue v (some (.int n)) ↔ v = some (.int n) := by
  constructor
  · intro same
    obtain ⟨w, rfl, sorted⟩ := Option.map_eq_some_iff.mp same
    cases w <;> simp_all [Json.sortKeys]
  · rintro rfl
    rfl

/-! The two updates. -/

theorem get?_filter_ne {α : Type} (d : List (String × α)) (key : String) :
    Dict.get? (d.filter fun field => field.1 ≠ key) key = none := by
  induction d with
  | nil => rfl
  | cons p d ih =>
      rw [List.filter_cons]
      split
      · next kept =>
          rw [Dict.get?_cons, ih, if_neg (by simpa using kept), Option.none_or]
      · exact ih

theorem get?_recordResult (row : OperationRow) (step : String) (result : Fields) (key : String) :
    Dict.get? (recordResult row step result) key =
      if key = "operation_id" then some (.str row.operationId)
      else if key = "operation_step" then some (.str step)
      else if key = "execution_ordinal" then some (.int row.executionOrdinal)
      else Dict.get? result key := by
  rw [recordResult, Dict.get?_append]
  simp only [Dict.get?_cons, Dict.get?_nil, Option.none_or, eq_comm (b := key)]
  split_ifs <;> simp_all

theorem get?_restoredResult (result : Fields) (key : String) :
    Dict.get? (restoredResult result) key =
      if key = "phase_outcome" then (Dict.get? result "phase_outcome").or (Dict.get? result "outcome")
      else Dict.get? result key := by
  unfold restoredResult
  split
  · next outcome recorded absent =>
      rw [Dict.get?_append, Dict.get?_cons, Dict.get?_nil, Option.none_or]
      by_cases named : key = "phase_outcome"
      · subst named
        simp [recorded, absent]
      · rw [if_neg named, if_neg (Ne.symm named), Option.none_or]
  · next other =>
      by_cases named : key = "phase_outcome"
      · subst named
        rw [if_pos rfl]
        rcases recorded : Dict.get? result "phase_outcome" with _ | v
        · rcases absent : Dict.get? result "outcome" with _ | v
          · rfl
          · exact absurd absent (other v recorded)
        · rfl
      · rw [if_neg named]

theorem entryOf_withResult {update entry : Fields} {s : CycleState} {phase : String}
    (results : Dict.get? update "phase_results" = some (s.withResult phase entry)) :
    entryOf phase update = entry := by
  unfold entryOf
  rw [results]
  simp [CycleState.withResult, Dict.get?_append, Dict.get?_cons, Json.fields?]

section Updates
variable (s : CycleState) (row : OperationRow) (result : Fields)

theorem get?_generationOperation {key : String} (results : key ≠ "phase_results")
    (current : key ≠ "current_phase") : Dict.get? (generationOperation s row result) key =
      Dict.get? (recordResult row "deterministic" result) key := by
  rw [generationOperation, Dict.get?_append]
  simp [Dict.get?_cons, Ne.symm results, Ne.symm current]

theorem entryOf_generationOperation :
    entryOf row.phase (generationOperation s row result) = recordResult row "deterministic" result := by
  apply entryOf_withResult (s := s)
  rw [generationOperation, Dict.get?_append]
  simp [Dict.get?_cons]

theorem entryOf_generationInterpret (turn : Option Fields) :
    Dict.get? (entryOf row.phase (generationInterpret s row turn result)) "turn_history" = none := by
  have results : Dict.get? (generationInterpret s row turn result) "phase_results" =
      some (s.withResult row.phase ((recordResult row "interpret"
        (projection s row.phase result (.interpret turn))).filter fun field => field.1 ≠ "turn_history")) := by
    rw [generationInterpret, Dict.get?_append]
    simp [Dict.get?_cons]
  rw [entryOf_withResult results]
  exact get?_filter_ne _ _

variable (sha256 : String → String) (phase : String) (d : Decision)
  (envelope : ResultEnvelope StoredIdentity)

/-- What a reconcile node and the rehydrate node after it add, the envelope read. -/
def restoredFields : Fields :=
  reconcileGenerationOperation sha256 phase d ++
    (rehydrate s phase envelope ++ [("current_phase", .str phase)])

theorem get?_restoredFields {key : String}
    (other : key ∉ ["phase_results", "rehydration", "current_phase"]) :
    Dict.get? (restoredFields s sha256 phase d envelope) key =
      (Dict.get? (restoredResult envelope.result) key).or
        (Dict.get? (reconcileGenerationOperation sha256 phase d) key) := by
  simp only [List.mem_cons, List.not_mem_nil, or_false, not_or] at other
  rw [restoredFields, Dict.get?_append, Dict.get?_append, rehydrate, Dict.get?_append]
  simp [Dict.get?_cons, Ne.symm other.1, Ne.symm other.2.1, Ne.symm other.2.2]

theorem entryOf_restoredFields :
    entryOf phase (restoredFields s sha256 phase d envelope) = restoredResult envelope.result := by
  apply entryOf_withResult (s := s)
  rw [restoredFields, Dict.get?_append, Dict.get?_append, rehydrate, Dict.get?_append]
  simp [Dict.get?_cons]

theorem get?_reconcile {key : String} (other : key ∉ ["output_fingerprints_before", "operation_id",
    "operation_step", "operation_input_fingerprint", "logical_attempt", "execution_ordinal",
    "reconciliation", "current_phase"]) :
    Dict.get? (reconcileGenerationOperation sha256 phase d) key = none := by
  simp only [List.mem_cons, List.not_mem_nil, or_false, not_or] at other
  unfold reconcileGenerationOperation Decision.evidence
  simp only [Dict.get?_append]
  split <;> simp [Dict.get?_cons, Ne.symm other.1, Ne.symm other.2.1, Ne.symm other.2.2.1,
    Ne.symm other.2.2.2.1, Ne.symm other.2.2.2.2.1, Ne.symm other.2.2.2.2.2.1,
    Ne.symm other.2.2.2.2.2.2.1, Ne.symm other.2.2.2.2.2.2.2]

end Updates

/-! Recorded executions. -/

/-- An execution whose live node has recorded its result: the backend's result, what the
node started from, and the artifact that was written. -/
structure RecordedStep (sha256 : String → String) where
  row : OperationRow
  state : CycleState
  node : Node
  result : Fields
  resulting : String
  outputs : Fingerprints
  prerequisites : List String
  payload : Fields
  written : (phaseEnvelope row (projection state row.phase result node) resulting outputs
    prerequisites).asDict sha256 = .ok payload

/-- The result already names the operation as its row does. -/
def NamesOperation (row : OperationRow) (result : Fields) : Prop :=
  Dict.get? result "operation_id" = some (.str row.operationId) ∧
    Dict.get? result "operation_step" = some (.str "deterministic") ∧
    Dict.get? result "execution_ordinal" = some (.int row.executionOrdinal)

section Restored
variable {sha256 : String → String} (py : Conversions) (num : Numerals) (x : RecordedStep sha256)

/-- Restoring the execution gives the update of its live node. -/
def RestoresAsLive (d : Decision) : Prop :=
  ∃ update, restoredUpdate sha256 py num x.state x.row.phase d (encodePayload x.payload) = .ok update ∧
    SameUpdate x.row.phase update (liveUpdate x.state x.row x.result x.node)

/-- The result as it is read back. -/
def RecordedStep.stored : ResultEnvelope StoredIdentity :=
  (phaseEnvelope x.row (projection x.state x.row.phase x.result x.node) x.resulting x.outputs
    x.prerequisites).canonical

theorem restoresAsLive_iff (d : Decision) : RestoresAsLive py num x d ↔
    SameUpdate x.row.phase (restoredFields x.state sha256 x.row.phase d x.stored)
      (liveUpdate x.state x.row x.result x.node) := by
  have read : restoredUpdate sha256 py num x.state x.row.phase d (encodePayload x.payload) =
      .ok (restoredFields x.state sha256 x.row.phase d x.stored) := by
    unfold restoredUpdate rehydrateGenerationOperation
    rw [decode_encode x.written]
    rfl
  constructor
  · rintro ⟨update, restored, same⟩
    rw [read] at restored
    rwa [Except.ok.inj restored]
  · intro same
    exact ⟨_, read, same⟩

variable {x}

theorem get?_stored (key : String) : Dict.get? x.stored.result key =
    (Dict.get? (projection x.state x.row.phase x.result x.node) key).map Json.sortKeys :=
  Json.get?_sortKeys _ key

/-- The history is part of what an interpretation records, and its entry is restored with it. -/
theorem interpret_not_same {turn : Option Fields} (node : x.node = .interpret turn) (d : Decision) :
    ¬ SameUpdate x.row.phase (restoredFields x.state sha256 x.row.phase d x.stored)
      (liveUpdate x.state x.row x.result x.node) := by
  intro same
  have entry := same.entry "turn_history"
  rw [entryOf_restoredFields, get?_restoredResult, if_neg (by simp), get?_stored, node, liveUpdate,
    entryOf_generationInterpret, projection, Dict.get?_append] at entry
  simp [SameValue, Dict.get?_cons] at entry

theorem deterministic_same_iff (node : x.node = .deterministic) (d : Decision) :
    SameUpdate x.row.phase (restoredFields x.state sha256 x.row.phase d x.stored)
        (liveUpdate x.state x.row x.result x.node) ↔
      NamesOperation x.row x.result ∧
        (Dict.get? x.result "outcome" ≠ none → Dict.get? x.result "phase_outcome" ≠ none) := by
  have stored : ∀ key, Dict.get? x.stored.result key = (Dict.get? x.result key).map Json.sortKeys := by
    intro key
    rw [get?_stored, node, projection]
  rw [node, liveUpdate]
  constructor
  · intro same
    have entry : ∀ key, key ≠ "phase_outcome" →
        SameValue ((Dict.get? x.result key).map Json.sortKeys)
          (Dict.get? (recordResult x.row "deterministic" x.result) key) := by
      intro key other
      have here := same.entry key
      rwa [entryOf_restoredFields, get?_restoredResult, if_neg other, stored,
        entryOf_generationOperation] at here
    have named := fun key other => (entry key other).symm.trans (sameValue_sorted _)
    simp only [get?_recordResult] at named
    refine ⟨⟨?_, ?_, ?_⟩, fun legacy absent => ?_⟩
    · exact sameValue_str.mp (named "operation_id" (by simp)).symm
    · exact sameValue_str.mp (named "operation_step" (by simp)).symm
    · exact sameValue_int.mp (named "execution_ordinal" (by simp)).symm
    · have outcome := same.outcome
      rw [get?_restoredFields _ _ _ _ _ (by simp), get?_restoredResult, if_pos rfl, stored, stored,
        get?_generationOperation _ _ _ (by simp) (by simp), get?_recordResult, absent] at outcome
      obtain ⟨v, legacy⟩ := Option.ne_none_iff_exists'.mp legacy
      simp [legacy, SameValue] at outcome
  · rintro ⟨⟨id, step, ordinal⟩, outcome⟩
    have value : ∀ key, SameValue (Dict.get? (restoredResult x.stored.result) key)
        (Dict.get? (recordResult x.row "deterministic" x.result) key) := by
      intro key
      rw [get?_restoredResult, stored, stored, stored, get?_recordResult]
      by_cases graph : key = "phase_outcome"
      · subst graph
        rcases recorded : Dict.get? x.result "phase_outcome" with _ | v
        · have absent : Dict.get? x.result "outcome" = none := by
            by_contra legacy
            exact outcome legacy recorded
          simp [absent, SameValue]
        · simpa using sameValue_sorted (some v)
      · rw [if_neg graph]
        by_cases operationId : key = "operation_id"
        · simp [operationId, id, SameValue, Json.sortKeys_sortKeys]
        by_cases operationStep : key = "operation_step"
        · simp [operationStep, step, SameValue, Json.sortKeys_sortKeys]
        by_cases executionOrdinal : key = "execution_ordinal"
        · simp [executionOrdinal, ordinal, SameValue, Json.sortKeys_sortKeys]
        rw [if_neg operationId, if_neg operationStep, if_neg executionOrdinal]
        exact sameValue_sorted _
    have kept : ∀ key, key ∉ ["phase_results", "rehydration", "current_phase"] →
        Dict.get? (reconcileGenerationOperation sha256 x.row.phase d) key = none ∨
          Dict.get? (restoredResult x.stored.result) key ≠ none →
        SameValue (Dict.get? (restoredFields x.state sha256 x.row.phase d x.stored) key)
          (Dict.get? (generationOperation x.state x.row x.result) key) := by
      intro key other settled
      have outer := other
      simp only [List.mem_cons, List.not_mem_nil, or_false, not_or] at outer
      rw [get?_restoredFields _ _ _ _ _ other, get?_generationOperation _ _ _ outer.1 outer.2.2]
      have same := value key
      rcases settled with absent | present
      · rwa [absent, Option.or_none]
      · obtain ⟨v, found⟩ := Option.ne_none_iff_exists'.mp present
        rwa [found, Option.some_or, ← found]
    have present : ∀ key v, key ≠ "phase_outcome" → Dict.get? x.result key = some v →
        Dict.get? (restoredResult x.stored.result) key ≠ none := by
      intro key v other found
      rw [get?_restoredResult, if_neg other, stored, found]
      exact Option.some_ne_none _
    constructor
    case outcome => exact kept _ (by simp) (.inl (get?_reconcile _ _ _ (by simp)))
    case history => exact kept _ (by simp) (.inl (get?_reconcile _ _ _ (by simp)))
    case entry =>
      rw [entryOf_restoredFields, entryOf_generationOperation]
      exact value
    case operationId => exact kept _ (by simp) (.inr (present _ _ (by simp) id))
    case operationStep => exact kept _ (by simp) (.inr (present _ _ (by simp) step))
    case executionOrdinal => exact kept _ (by simp) (.inr (present _ _ (by simp) ordinal))

/-- A restored execution gives the update of its live node exactly when it is a deterministic
one whose result names the operation itself, and its outcome under the key of the graph. -/
theorem rehydrated_same_iff (d : Decision) : RestoresAsLive py num x d ↔
    x.node = .deterministic ∧ NamesOperation x.row x.result ∧
      (Dict.get? x.result "outcome" ≠ none → Dict.get? x.result "phase_outcome" ≠ none) := by
  rw [restoresAsLive_iff]
  have shape : x.node = .deterministic ∨ ∃ turn, x.node = .interpret turn := by
    cases x.node with
    | deterministic => exact .inl rfl
    | interpret turn => exact .inr ⟨turn, rfl⟩
  obtain node | ⟨turn, node⟩ := shape
  · exact (deterministic_same_iff node d).trans (and_iff_right node).symm
  · exact ⟨fun same => absurd same (interpret_not_same node d), fun holds => nomatch node.symm.trans holds.1⟩

end Restored

/-! Two steps of a run. -/

/-- The row of an operation whose ids are the texts that are hashed. -/
def recordedRow (phase step : String) : OperationRow where
  operationId := OperationIdentity.operationId id ⟨"run-1", "unit-1", phase, step, 0, 0, "workspace-a"⟩
  repoTaskId := 7
  workflowRunId := "run-1"
  unitId := "unit-1"
  phase := phase
  operationStep := step
  attempt := 0
  executionOrdinal := 0
  status := .completed
  inputFingerprint := "workspace-a"
  prerequisiteOperationIds := some []
  schemaVersion := 1
  startedAt := ""
  updatedAt := ""

def passed : Fields := [("phase_outcome", .str "passed")]

/-- A first phase that passed. -/
def recordedStep (phase : String) (node : Node)
    (valid : (identityForRow (recordedRow phase node.step)).validate = .ok ()) : RecordedStep id where
  row := recordedRow phase node.step
  state := ⟨[], []⟩
  node := node
  result := passed
  resulting := "workspace-b"
  outputs := []
  prerequisites := []
  payload := (phaseEnvelope (recordedRow phase node.step)
    (projection ⟨[], []⟩ (recordedRow phase node.step).phase passed node) "workspace-b" [] []).payload id
  written := by
    refine except_bind_ok.mpr ⟨(), except_bind_ok.mpr ⟨(), valid, ?_⟩, rfl⟩
    simp [ResultEnvelope.validateFields, phaseEnvelope, refuseIf, envelopeSchemaVersion]
    rfl

/-- An answered turn, and a compilation. -/
def generated : RecordedStep id :=
  recordedStep "generate_tests" (.interpret (some [("status", .str "completed")])) (by decide +kernel)

def compiled : RecordedStep id := recordedStep "compile_tests" .deterministic (by decide +kernel)

def reused (row : OperationRow) : Decision := ⟨.reuseResult, identityForRow row, []⟩

/-- Neither is restored as its live node left it. -/
theorem passed_not_restored :
    ¬ RestoresAsLive plainConversions plainNumerals generated (reused generated.row) ∧
      ¬ RestoresAsLive plainConversions plainNumerals compiled (reused compiled.row) := by
  constructor
  · rw [restoresAsLive_iff]
    exact interpret_not_same rfl _
  · rw [restoresAsLive_iff, deterministic_same_iff rfl]
    exact fun restored => nomatch restored.1.1

end Uta.Operations
