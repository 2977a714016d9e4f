/- Laws of operation artifacts: what is written is read back, an id names one identity, and which
altered payloads are refused. -/
import Uta.Operations.Artifact
import Uta.Operations.Adoption

namespace Uta.Operations
open Uta.Lib
open Uta.Enforce (Conversions strOf dictField loopField truthyField)

/-! Identity texts. -/

theorem append_mark_inj {α : Type} {mark : α} {xs ys rest rest' : List α} (plain : mark ∉ xs)
    (plain' : mark ∉ ys) (same : xs ++ mark :: rest = ys ++ mark :: rest') :
    xs = ys ∧ rest = rest' := by
  induction xs generalizing ys with
  | nil =>
      cases ys with
      | nil => exact ⟨rfl, (List.cons.inj same).2⟩
      | cons y ys => exact absurd (List.mem_cons.mpr (.inl (List.cons.inj same).1)) plain'
  | cons x xs ih =>
      cases ys with
      | nil => exact absurd (List.mem_cons.mpr (.inl (List.cons.inj same).1.symm)) plain
      | cons y ys =>
          obtain ⟨first, others⟩ := List.cons.inj same
          obtain ⟨front, back⟩ := ih (fun inside => plain (List.mem_cons_of_mem _ inside))
            (fun inside => plain' (List.mem_cons_of_mem _ inside)) others
          exact ⟨by rw [first, front], back⟩

/-- Texts that are joined by a mark that only the last may contain are joined in one way. -/
theorem intercalate_inj {α : Type} {mark : α} {parts parts' : List (List α)} {last last' : List α}
    (plain : ∀ part ∈ parts, mark ∉ part) (plain' : ∀ part ∈ parts', mark ∉ part)
    (lengths : parts.length = parts'.length)
    (same : [mark].intercalate (parts ++ [last]) = [mark].intercalate (parts' ++ [last'])) :
    parts = parts' ∧ last = last' := by
  induction parts generalizing parts' with
  | nil =>
      obtain rfl := List.length_eq_zero_iff.mp lengths.symm
      exact ⟨rfl, by simpa using same⟩
  | cons part parts ih =>
      cases parts' with
      | nil => cases lengths
      | cons part' parts' =>
          have joined : ∀ (p : List α) (ps : List (List α)) (l : List α),
              [mark].intercalate ((p :: ps) ++ [l]) = p ++ mark :: [mark].intercalate (ps ++ [l]) := by
            intro p ps l
            cases ps with
            | nil => rfl
            | cons q qs =>
                rw [List.cons_append, List.cons_append, List.intercalate_cons_cons, List.append_assoc,
                  List.singleton_append]
          rw [joined, joined] at same
          obtain ⟨first, rest⟩ := append_mark_inj (plain part List.mem_cons_self)
            (plain' part' List.mem_cons_self) same
          obtain ⟨others, final⟩ := ih (fun q member => plain q (List.mem_cons_of_mem _ member))
            (fun q member => plain' q (List.mem_cons_of_mem _ member))
            (Nat.succ.inj lengths) rest
          exact ⟨by rw [first, others], final⟩

theorem toString_toList (n : ℤ) : (toString n).toList = Json.intText n := by
  unfold Json.intText
  cases n with
  | ofNat m =>
      have text : toString (Int.ofNat m) = Nat.repr m := rfl
      rw [text, Nat.repr, String.toList_ofList]
      simp
  | negSucc m =>
      have text : toString (Int.negSucc m) = "-" ++ Nat.repr (m + 1) := rfl
      rw [text, Nat.repr, String.toList_append, String.toList_ofList, if_pos (Int.negSucc_lt_zero m)]
      simp

theorem toString_injective {n m : ℤ} (same : toString n = toString m) : n = m := by
  have texts := congrArg String.toList same
  rw [toString_toList, toString_toList] at texts
  have tokens := Json.tokenValue_intText n
  rw [texts, Json.tokenValue_intText m] at tokens
  cases tokens
  rfl

theorem toString_plain (n : ℤ) : '\x00' ∉ (toString n).toList := by
  rw [toString_toList]
  intro inside
  have token := (Json.intText_token n).1 _ inside
  revert token
  decide

theorem identifier_plain {text : String} (safe : isIdentifier text = true) :
    '\x00' ∉ text.toList := by
  unfold isIdentifier at safe
  cases chars : text.toList with
  | nil => exact List.not_mem_nil
  | cons c cs =>
      rw [chars] at safe
      simp only [Bool.and_eq_true, List.all_eq_true, Bool.or_eq_true, decide_eq_true_eq] at safe
      obtain ⟨⟨first, _⟩, rest⟩ := safe
      rw [List.mem_cons, not_or]
      refine ⟨?_, fun inside => ?_⟩
      · rintro rfl
        revert first
        decide
      · have own := rest _ inside
        revert own
        decide

/-- The conditions of a valid identity, on one whose numbers are any. -/
structure StoredIdentity.Valid (num : Numerals) (i : StoredIdentity) : Prop where
  run : isIdentifier i.workflowRunId = true
  unit : isIdentifier i.unitId = true
  phase : isIdentifier i.phase = true
  step : i.operationStep ∈ ["turn", "interpret", "deterministic"]
  attempt : isNegative num i.logicalAttempt = some false
  ordinal : isNegative num i.executionOrdinal = some false

section Identities
variable {num : Numerals}

theorem validateIdentifier_ok {value name : String} {u : Unit} :
    validateIdentifier value name = .ok u ↔ isIdentifier value = true := by
  unfold validateIdentifier
  split
  · rename_i safe
    exact ⟨fun _ => safe, fun _ => rfl⟩
  · rename_i unsafe_
    exact ⟨fun bad => (nomatch bad), fun safe => absurd safe unsafe_⟩

theorem validate_stored {i : OperationIdentity} (valid : i.validate = .ok ()) :
    i.stored.Valid num := by
  unfold OperationIdentity.validate at valid
  obtain ⟨_, run, valid⟩ := except_bind_ok.mp valid
  obtain ⟨_, unit, valid⟩ := except_bind_ok.mp valid
  obtain ⟨_, phase, valid⟩ := except_bind_ok.mp valid
  obtain ⟨_, step, valid⟩ := except_bind_ok.mp valid
  obtain ⟨_, numbers, _⟩ := except_bind_ok.mp valid
  have nonneg := refuseIf_ok.mp numbers
  push Not at nonneg
  refine ⟨validateIdentifier_ok.mp run, validateIdentifier_ok.mp unit,
    validateIdentifier_ok.mp phase, not_not.mp (refuseIf_ok.mp step), ?_, ?_⟩
  · exact congrArg some (decide_eq_false (not_lt.mpr nonneg.1))
  · exact congrArg some (decide_eq_false (not_lt.mpr nonneg.2))

theorem numeral_plain {v : Json} : '\x00' ∉ (numeral num v).toList := by
  cases v with
  | int n => exact toString_plain n
  | real x => exact num.plain x
  | bool b =>
      cases b with
      | true => exact (by decide : '\x00' ∉ "True".toList)
      | false => exact (by decide : '\x00' ∉ "False".toList)
  | null | str | arr | obj => exact List.not_mem_nil

theorem numeral_int {v : Json} {n : ℤ} (number : isNegative num v = some false)
    (same : numeral num v = toString n) : v = .int n := by
  cases v with
  | int m => rw [toString_injective same]
  | real x => exact absurd same (num.apart x n)
  | bool b =>
      have token := Json.tokenValue_intText n
      rw [← toString_toList, ← same] at token
      cases b with
      | true =>
          have none_ : Json.tokenValue "True".toList = none := rfl
          exact nomatch none_.symm.trans token
      | false =>
          have none_ : Json.tokenValue "False".toList = none := rfl
          exact nomatch none_.symm.trans token
  | null | str | arr | obj => cases number

theorem step_plain {step : String} (known : step ∈ ["turn", "interpret", "deterministic"]) :
    '\x00' ∉ step.toList := by
  simp only [List.mem_cons, List.not_mem_nil, or_false] at known
  rcases known with rfl | rfl | rfl <;> decide

/-- An identity of the same text as a valid one is the same. -/
theorem digestText_inj {i : StoredIdentity} {j : OperationIdentity} (valid : i.Valid num)
    (valid' : j.stored.Valid num) (same : i.digestText num = j.digestText) : i = j.stored := by
  have texts := congrArg String.toList same
  unfold StoredIdentity.digestText OperationIdentity.digestText at texts
  rw [String.toList_intercalate, String.toList_intercalate] at texts
  have each : ∀ k : StoredIdentity, k.Valid num → ∀ part ∈ ([k.workflowRunId, k.unitId, k.phase,
      k.operationStep, numeral num k.logicalAttempt,
        numeral num k.executionOrdinal].map String.toList), '\x00' ∉ part := by
    intro k sound part member
    simp only [List.map_cons, List.map_nil, List.mem_cons, List.not_mem_nil, or_false] at member
    rcases member with rfl | rfl | rfl | rfl | rfl | rfl
    · exact identifier_plain sound.run
    · exact identifier_plain sound.unit
    · exact identifier_plain sound.phase
    · exact step_plain sound.step
    · exact numeral_plain
    · exact numeral_plain
  obtain ⟨parts, last⟩ := @intercalate_inj Char '\x00' _ _ i.inputFingerprint.toList
    j.inputFingerprint.toList (each i valid) (each j.stored valid') rfl texts
  simp only [List.map_cons, List.map_nil, List.cons.injEq, and_true, String.toList_inj] at parts last
  obtain ⟨run, unit, phase, step, attempt, ordinal⟩ := parts
  cases i
  simp only [OperationIdentity.stored, StoredIdentity.mk.injEq]
  exact ⟨run, unit, phase, step, numeral_int valid.attempt attempt,
    numeral_int valid.ordinal ordinal, last⟩

end Identities

/-! Decoding. -/

section Decoding
variable {sha256 : String → String} {py : Conversions} {num : Numerals}

theorem orMalformed_ok {α : Type} {x : Option α} {a : α} : orMalformed x = .ok a ↔ x = some a := by
  cases x with
  | none => exact ⟨fun bad => (nomatch bad), fun bad => (nomatch bad)⟩
  | some b => exact ⟨fun same => congrArg some (Except.ok.inj same), fun same => congrArg Except.ok
      (Option.some.inj same)⟩

theorem mapError_ok {α : Type} {x : Checked α} {a : α} :
    x.mapError DecodeError.invalid = .ok a ↔ x = .ok a := by
  cases x with
  | error e => exact ⟨fun bad => (nomatch bad), fun bad => (nomatch bad)⟩
  | ok b => simp [Except.mapError]

theorem validateText_ok {v : Json} {name : String} {u : Unit} (h : validateText v name = .ok u) :
    ∃ s, v = .str s ∧ isIdentifier s = true := by
  unfold validateText at h
  split at h
  · split at h
    · exact ⟨_, rfl, ‹_›⟩
    · cases h
  · cases h

theorem validateStep_ok {v : Json} {u : Unit} (h : validateStep v = .ok u) :
    ∃ s, v = .str s ∧ s ∈ ["turn", "interpret", "deterministic"] := by
  unfold validateStep at h
  split at h
  · split at h
    · exact ⟨_, rfl, ‹_›⟩
    · cases h
  · cases h
  · cases h
  · cases h

theorem validateNumber_ok {v : Json} {u : Unit} (h : validateNumber num v = .ok u) :
    isNegative num v = some false := by
  unfold validateNumber at h
  split at h
  · cases h
  · cases h
  · assumption

/-- A validated identity, once its texts are texts, is a valid one. -/
theorem validate_typed {raw : RawIdentity} {u : Unit} {i : StoredIdentity}
    (validated : raw.validate num = .ok u) (typed : raw.typed = some i) : i.Valid num := by
  unfold RawIdentity.validate at validated
  obtain ⟨_, run, validated⟩ := except_bind_ok.mp validated
  obtain ⟨_, unit, validated⟩ := except_bind_ok.mp validated
  obtain ⟨_, phase, validated⟩ := except_bind_ok.mp validated
  obtain ⟨_, step, validated⟩ := except_bind_ok.mp validated
  obtain ⟨_, attempt, validated⟩ := except_bind_ok.mp validated
  obtain ⟨_, ordinal, _⟩ := except_bind_ok.mp validated
  obtain ⟨run, isRun, safeRun⟩ := validateText_ok run
  obtain ⟨unit, isUnit, safeUnit⟩ := validateText_ok unit
  obtain ⟨phase, isPhase, safePhase⟩ := validateText_ok phase
  obtain ⟨step, isStep, known⟩ := validateStep_ok step
  unfold RawIdentity.typed at typed
  rw [isRun, isUnit, isPhase, isStep] at typed
  split at typed
  · cases typed
    simp_all only [Json.str.injEq]
    exact ⟨safeRun, safeUnit, safePhase, known, validateNumber_ok attempt, validateNumber_ok ordinal⟩
  · cases typed

/-- What an accepted payload has shown. -/
theorem fromDict_ok {p : List (String × Json)} {e : ResultEnvelope StoredIdentity}
    (h : fromDict sha256 py num p = .ok e) :
    e.identity.Valid num ∧ storedText p "operation_id" = some (e.identity.operationId num sha256) ∧
      (Dict.get? p "envelope_schema_version").bind (intOf py) = some envelopeSchemaVersion := by
  unfold fromDict at h
  obtain ⟨raw, read, h⟩ := except_bind_ok.mp h
  obtain ⟨_, validated, h⟩ := except_bind_ok.mp h
  obtain ⟨_, fields, h⟩ := except_bind_ok.mp h
  cases typed : raw.identity.typed with
  | none =>
      rw [typed] at h
      cases h
  | some identity =>
      rw [typed] at h
      dsimp only at h
      split at h
      · rename_i named
        cases h
        refine ⟨validate_typed validated typed, named, ?_⟩
        obtain ⟨_, schema, _⟩ := except_bind_ok.mp (mapError_ok.mp fields)
        have version := not_not.mp (refuseIf_ok.mp schema)
        have read := orMalformed_ok.mp read
        unfold readEnvelope at read
        simp only [Option.bind_eq_bind, Option.bind_eq_some_iff, Option.some.injEq] at read
        obtain ⟨_, _, _, _, _, _, _, _, _, _, _, _, found, stored, rfl⟩ := read
        rw [← version]
        exact Option.bind_eq_some_iff.mpr stored
      · cases h

/-! What is written is read back. -/

/-- The fields of a payload, as they are read back. -/
theorem get?_encoded {p : List (String × Json)} {key : String} {v : Json}
    (found : Dict.get? p key = some v) :
    Dict.get? (Dict.sorted (Json.sortFields p)) key = some v.sortKeys := by
  rw [Json.get?_sortKeys, found, Option.map_some]

theorem rawIdentity_fields (i : OperationIdentity) :
    rawIdentity py (Json.obj i.fields).sortKeys = some
      ⟨.str i.workflowRunId, .str i.unitId, .str i.phase, .str i.operationStep, .int i.logicalAttempt,
        .int i.executionOrdinal, .str i.inputFingerprint⟩ := by
  have names : ((Dict.sorted (Json.sortFields i.fields)).any
      fun field => field.1 ∉ identityKeys) = false := by
    rw [List.any_eq_false]
    intro field member
    have listed := (List.perm_insertionSort Dict.byKey _).mem_iff.mp member
    rw [Json.sortFields_eq_map] at listed
    obtain ⟨own, known, rfl⟩ := List.mem_map.mp listed
    simp only [OperationIdentity.fields, List.mem_cons, List.not_mem_nil, or_false] at known
    rcases known with rfl | rfl | rfl | rfl | rfl | rfl | rfl <;> simp [identityKeys]
  unfold rawIdentity
  rw [Json.sortKeys]
  have read : ∀ {key v}, Dict.get? i.fields key = some v →
      Dict.get? (Dict.sorted (Json.sortFields i.fields)) key = some v.sortKeys := get?_encoded
  simp only [dictOf, Option.bind_eq_bind, Option.bind_some, names, @read "workflow_run_id" _ rfl,
    @read "unit_id" _ rfl, @read "phase" _ rfl, @read "operation_step" _ rfl,
    @read "logical_attempt" _ rfl, @read "execution_ordinal" _ rfl, @read "input_fingerprint" _ rfl]
  rfl

theorem dictField_encoded {p : List (String × Json)} {key : String} {outputs : List (String × String)}
    (found : Dict.get? p key = some (.obj (outputs.map fun item => (item.1, .str item.2)))) :
    dictField py (Dict.sorted (Json.sortFields p)) key = some (Dict.sorted outputs) := by
  have sorted : (Json.obj (outputs.map fun item => (item.1, .str item.2))).sortKeys =
      .obj ((Dict.sorted outputs).map fun item => (item.1, .str item.2)) := by
    have texts : Json.sortFields (outputs.map fun item => (item.1, .str item.2)) =
        outputs.map fun item => (item.1, .str item.2) := by
      rw [Json.sortFields_eq_map, List.map_map]
      rfl
    rw [Json.sortKeys, texts, Dict.sorted_map Json.str]
  unfold dictField truthyField
  rw [get?_encoded found, sorted]
  cases Dict.sorted outputs with
  | nil => rfl
  | cons item items =>
      have back : ∀ items : List (String × String),
          (items.map fun item => (item.1, Json.str item.2)).map (fun f => (f.1, strOf py f.2)) =
            items := by
        intro items
        rw [List.map_map]
        exact List.map_id _
      exact congrArg some (back (item :: items))

theorem loopField_encoded {p : List (String × Json)} {key : String} {ids : List String}
    (found : Dict.get? p key = some (.arr (ids.map .str))) :
    (loopField (Dict.sorted (Json.sortFields p)) key).map (List.map (strOf py)) = some ids := by
  have sorted : (Json.arr (ids.map .str)).sortKeys = .arr (ids.map .str) := by
    rw [Json.sortKeys, Json.sortItems_eq_map, List.map_map]
    rfl
  unfold loopField truthyField
  rw [get?_encoded found, sorted]
  cases ids with
  | nil => rfl
  | cons id ids =>
      have back : ∀ ids : List String, (ids.map Json.str).map (strOf py) = ids := by
        intro ids
        rw [List.map_map]
        exact List.map_id _
      exact congrArg some (back (id :: ids))

/-- The identity that a valid envelope wrote is valid again. -/
theorem validate_raw {i : OperationIdentity} (valid : i.validate = .ok ()) :
    RawIdentity.validate num ⟨.str i.workflowRunId, .str i.unitId, .str i.phase,
      .str i.operationStep, .int i.logicalAttempt, .int i.executionOrdinal,
        .str i.inputFingerprint⟩ = .ok () := by
  have sound : i.stored.Valid num := validate_stored valid
  have text : ∀ {s name : String}, isIdentifier s = true → validateText (.str s) name = .ok () :=
    fun safe => if_pos safe
  have number : ∀ {v : Json}, isNegative num v = some false → validateNumber num v = .ok () := by
    intro v nonneg
    rw [validateNumber, nonneg]
    rfl
  have fingerprint : (Json.str i.inputFingerprint).truthy = true := by
    unfold OperationIdentity.validate at valid
    obtain ⟨_, _, valid⟩ := except_bind_ok.mp valid
    obtain ⟨_, _, valid⟩ := except_bind_ok.mp valid
    obtain ⟨_, _, valid⟩ := except_bind_ok.mp valid
    obtain ⟨_, _, valid⟩ := except_bind_ok.mp valid
    obtain ⟨_, _, valid⟩ := except_bind_ok.mp valid
    exact decide_eq_true (refuseIf_ok.mp valid)
  have step : validateStep (.str i.operationStep) = .ok () := if_pos sound.step
  unfold RawIdentity.validate
  refine except_bind_ok.mpr ⟨(), text sound.run, ?_⟩
  refine except_bind_ok.mpr ⟨(), text sound.unit, ?_⟩
  refine except_bind_ok.mpr ⟨(), text sound.phase, ?_⟩
  refine except_bind_ok.mpr ⟨(), step, ?_⟩
  refine except_bind_ok.mpr ⟨(), number sound.attempt, ?_⟩
  refine except_bind_ok.mpr ⟨(), number sound.ordinal, ?_⟩
  exact if_pos fingerprint

/-- Decoding the JSON of a valid envelope gives it back. -/
theorem decode_encode {e : ResultEnvelope OperationIdentity} {p : List (String × Json)}
    (written : e.asDict sha256 = .ok p) :
    decodeArtifact sha256 py num (encodePayload p) = .ok e.canonical := by
  unfold ResultEnvelope.asDict at written
  obtain ⟨_, valid, made⟩ := except_bind_ok.mp written
  cases made
  obtain ⟨_, identity, fields⟩ := except_bind_ok.mp valid
  have read : ∀ {key v}, Dict.get? (e.payload sha256) key = some v →
      Dict.get? (Dict.sorted (Json.sortFields (e.payload sha256))) key = some v.sortKeys :=
    get?_encoded
  let raw : RawIdentity := ⟨.str e.identity.workflowRunId, .str e.identity.unitId,
    .str e.identity.phase, .str e.identity.operationStep, .int e.identity.logicalAttempt,
    .int e.identity.executionOrdinal, .str e.identity.inputFingerprint⟩
  have envelope : readEnvelope py (Dict.sorted (Json.sortFields (e.payload sha256))) =
      some (e.canonical.withIdentity raw) := by
    unfold readEnvelope
    rw [@read "identity" _ rfl, @read "result_kind" _ rfl, @read "result" _ rfl,
      @read "resulting_workspace_fingerprint" _ rfl, @read "envelope_schema_version" _ rfl,
      @dictField_encoded py (e.payload sha256) "output_fingerprints" e.outputFingerprints rfl,
      @loopField_encoded py (e.payload sha256) "prerequisite_operation_ids"
        e.prerequisiteOperationIds rfl]
    simp only [Option.bind_some, rawIdentity_fields]
    rfl
  have again : (e.canonical.withIdentity raw).validateFields = .ok () := by
    have outputs : ∀ test : String × String → Bool,
        (Dict.sorted e.outputFingerprints).any test = e.outputFingerprints.any test :=
      fun test => (List.perm_insertionSort Dict.byKey _).any_eq
    unfold ResultEnvelope.validateFields at fields ⊢
    simp only [ResultEnvelope.withIdentity, ResultEnvelope.canonical, outputs]
    exact fields
  have named : storedText (Dict.sorted (Json.sortFields (e.payload sha256))) "operation_id" =
      some (e.identity.stored.operationId num sha256) := by
    unfold storedText
    rw [@read "operation_id" _ rfl]
    rfl
  unfold decodeArtifact encodePayload
  rw [Json.loads_print, Json.sortKeys]
  dsimp only
  unfold fromDict
  refine except_bind_ok.mpr ⟨_, orMalformed_ok.mpr envelope, ?_⟩
  refine except_bind_ok.mpr ⟨(), validate_raw identity, ?_⟩
  refine except_bind_ok.mpr ⟨(), mapError_ok.mpr again, ?_⟩
  exact if_pos named

end Decoding

/-! What is refused. -/

/-- A written envelope can be read back, and its id, its identity and its schema version are bound by
the decoder, the rest of it by its recorded digest. -/
structure ResultEnvelope.Guarded (sha256 : String → String) (py : Conversions) (num : Numerals)
    (e : ResultEnvelope OperationIdentity) (p : List (String × Json)) : Prop where
  readBack : decodeArtifact sha256 py num (encodePayload p) = .ok e.canonical
  /-- A payload of the same identity under another id is refused. -/
  operationId : ∀ q e', fromDict sha256 py num q = .ok e' → e'.identity = e.identity.stored →
    storedText q "operation_id" = some (e.identity.operationId sha256)
  /-- A payload of another identity under the same id is refused. -/
  identity : ∀ q e', fromDict sha256 py num q = .ok e' →
    storedText q "operation_id" = some (e.identity.operationId sha256) →
      e'.identity = e.identity.stored
  schema : ∀ q e', fromDict sha256 py num q = .ok e' →
    (Dict.get? q "envelope_schema_version").bind (intOf py) =
      some Uta.Operations.envelopeSchemaVersion
  /-- Under the recorded digest nothing else is read, whatever was altered. -/
  stored : ∀ readVerified : String → String → Option String,
    (∀ name digest data, readVerified name digest = some data → sha256 data = digest) →
    ∀ path e', readText sha256 py num readVerified path
      (sha256 (String.ofList (encodePayload p))) = .ok e' → e' = e.canonical

section Guarded
variable {sha256 : String → String} {py : Conversions} {num : Numerals}

/-- Valid identities with one id are one identity. -/
theorem operationId_inj (num : Numerals) (collisionFree : Function.Injective sha256) {i j : OperationIdentity}
    (valid : i.validate = .ok ()) (valid' : j.validate = .ok ())
    (same : i.operationId sha256 = j.operationId sha256) : i = j := by
  have stored := digestText_inj (@validate_stored num i valid) (@validate_stored num j valid')
    (collisionFree same)
  cases i
  cases j
  simpa [OperationIdentity.stored] using stored

theorem written_guarded (collisionFree : Function.Injective sha256)
    {e : ResultEnvelope OperationIdentity} {p : List (String × Json)}
    (written : e.asDict sha256 = .ok p) : e.Guarded sha256 py num p := by
  have back := @decode_encode sha256 py num e p written
  obtain ⟨_, valid, _⟩ := except_bind_ok.mp written
  obtain ⟨_, sound, _⟩ := except_bind_ok.mp valid
  constructor
  case readBack => exact back
  case operationId =>
    intro q e' accepted same
    have named := (fromDict_ok accepted).2.1
    rw [same, stored_operationId] at named
    exact named
  case identity =>
    intro q e' accepted same
    obtain ⟨valid', named, _⟩ := fromDict_ok accepted
    have ids := Option.some.inj (named.symm.trans same)
    exact digestText_inj valid' (validate_stored sound) (collisionFree ids)
  case schema => exact fun q e' accepted => (fromDict_ok accepted).2.2
  case stored =>
    intro readVerified verified path e' read
    unfold readText at read
    obtain ⟨name, _, read⟩ := except_bind_ok.mp read
    cases found : readVerified name (sha256 (String.ofList (encodePayload p))) with
    | none =>
        rw [found] at read
        cases read
    | some data =>
        rw [found] at read
        -- Only the bytes that were written have the recorded digest.
        obtain rfl := collisionFree (verified _ _ _ found)
        dsimp only at read
        rw [String.toList_ofList, back] at read
        exact (Except.ok.inj read).symm

end Guarded

/-- Written artifacts are guarded, and ids name identities. -/
theorem artifacts_guarded {sha256 : String → String} (py : Conversions) (num : Numerals)
    (collisionFree : Function.Injective sha256) :
    (∀ e p, ResultEnvelope.asDict sha256 e = .ok p → e.Guarded sha256 py num p) ∧
      ∀ i j : OperationIdentity, i.validate = .ok () → j.validate = .ok () →
        i.operationId sha256 = j.operationId sha256 → i = j :=
  ⟨fun _ _ written => written_guarded collisionFree written,
    fun _ _ valid valid' same => operationId_inj num collisionFree valid valid' same⟩

/-! A turn's result. -/

/-- Conversions that know texts, integers and objects alone. -/
def plainConversions : Conversions := ⟨fun _ => "", fun _ => none, fun _ => none, fun _ => none⟩

/-- Every float is written as `nan`. -/
def plainNumerals : Numerals where
  negative _ := false
  str _ := "nan"
  apart x n same := by
    have token := Json.tokenValue_intText n
    rw [← toString_toList, ← same] at token
    have none_ : Json.tokenValue "nan".toList = none := rfl
    exact nomatch none_.symm.trans token
  plain x := by decide

def turnIdentity : OperationIdentity :=
  ⟨"run-1", "unit-1", "generate_tests", "turn", 0, 0, "workspace-a"⟩

def turnResult (fingerprint : String) : ResultEnvelope OperationIdentity :=
  ⟨turnIdentity, "turn", [("status", .str "completed")], fingerprint, [("Test.java", "digest")], [], 1⟩

theorem turnResult_guarded :
    (∀ e p, ResultEnvelope.asDict id e = .ok p →
      e.Guarded id plainConversions plainNumerals p) ∧
      ∀ i j : OperationIdentity, i.validate = .ok () → j.validate = .ok () →
        i.operationId id = j.operationId id → i = j :=
  artifacts_guarded plainConversions plainNumerals Function.injective_id

theorem turnResult_written (fingerprint : String) (filled : fingerprint ≠ "") :
    (turnResult fingerprint).asDict id = .ok ((turnResult fingerprint).payload id) := by
  have identity : turnIdentity.validate = .ok () := by decide +kernel
  have fields : (turnResult fingerprint).validateFields = .ok () := by
    simp [ResultEnvelope.validateFields, turnResult, refuseIf, envelopeSchemaVersion, filled]
    rfl
  refine except_bind_ok.mpr ⟨(), except_bind_ok.mpr ⟨(), identity, fields⟩, rfl⟩

/-- The decoder accepts a payload whose workspace fingerprint was altered. -/
theorem altered_fingerprint_accepted : ∃ p q e',
    (turnResult "workspace-b").asDict id = .ok p ∧
    q = p.map (fun field => if field.1 = "resulting_workspace_fingerprint" then
      (field.1, .str "workspace-c") else field) ∧
    decodeArtifact id plainConversions plainNumerals (encodePayload q) = .ok e' ∧
    e'.resultingWorkspaceFingerprint = "workspace-c" := by
  refine ⟨_, (turnResult "workspace-c").payload id, _, turnResult_written "workspace-b" (by decide),
    ?_, decode_encode (turnResult_written "workspace-c" (by decide)), rfl⟩
  simp [ResultEnvelope.payload, turnResult]

end Uta.Operations
