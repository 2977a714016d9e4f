/- Saving a review and reading it back: what `from_dict` makes of the object that
`to_dict` wrote, held in memory or read from the text it was saved as. -/
import Uta.Enforce.Equivalence

namespace Uta.Enforce
open Uta.Lib

/-- The fields of a saved object, as they are read. -/
def reread (fields : List (String × Json)) : List (String × Json) :=
  Dict.sorted (Json.sortFields fields)

theorem jsonLoads_jsonDumps (fields : List (String × Json)) :
    jsonLoads (jsonDumps (.obj fields)) = reread fields := by
  rw [jsonLoads, jsonDumps, Json.loads_print, Option.bind_some, Json.sortKeys, Json.fields?]
  rfl

theorem get?_reread (fields : List (String × Json)) (key : String) :
    Dict.get? (reread fields) key = (Dict.get? fields key).map Json.sortKeys :=
  Json.get?_sortKeys fields key

theorem sortKeys_obj (fields : List (String × Json)) :
    (Json.obj fields).sortKeys = .obj (reread fields) := by
  rw [Json.sortKeys]
  rfl

theorem sortKeys_arr (items : List Json) :
    (Json.arr items).sortKeys = .arr (items.map Json.sortKeys) := by
  rw [Json.sortKeys, Json.sortItems_eq_map]

/-! Fields that hold a value of their own type. -/

section Fields
variable (py : Conversions) {fields : List (String × Json)} {key : String}

theorem truthyField_held {v : Json} (held : Dict.get? fields key = some v) :
    truthyField fields key = some v ∨ truthyField fields key = none ∧ v.truthy = false := by
  rw [truthyField, held, Option.filter_some]
  cases truth : v.truthy with
  | true => exact .inl rfl
  | false => exact .inr ⟨rfl, rfl⟩

theorem textField_held {s : String} (held : Dict.get? fields key = some (.str s)) :
    textField py fields key = s := by
  rcases truthyField_held held with kept | ⟨dropped, falsy⟩
  · rw [textField, kept]
    rfl
  · have empty : s = "" := by simpa [Json.truthy] using falsy
    rw [textField, dropped, empty]
    rfl

theorem intField_held {n : ℤ} (held : Dict.get? fields key = some (.int n)) :
    intField py fields key = some n := by
  rcases truthyField_held held with kept | ⟨dropped, falsy⟩
  · rw [intField, kept]
  · have empty : n = 0 := by simpa [Json.truthy] using falsy
    rw [intField, dropped, empty]

theorem loopField_held {items : List Json} (held : Dict.get? fields key = some (.arr items)) :
    loopField fields key = some items := by
  rcases truthyField_held held with kept | ⟨dropped, falsy⟩
  · rw [loopField, kept]
  · have empty : items = [] := by simpa [Json.truthy] using falsy
    rw [loopField, dropped, empty]

theorem dictField_held {d : List (String × Json)} (held : Dict.get? fields key = some (.obj d)) :
    dictField py fields key = some (d.map fun f => (f.1, strOf py f.2)) := by
  rcases truthyField_held held with kept | ⟨dropped, falsy⟩
  · rw [dictField, kept]
  · have empty : d = [] := by simpa [Json.truthy] using falsy
    rw [dictField, dropped, empty]
    rfl

/-- Equal as numbers: a zero is read as `0.0`, whatever way it was written. -/
def FloatLiteral.Same (a b : FloatLiteral) : Prop :=
  a = b ∨ (Json.real a).truthy = false ∧ (Json.real b).truthy = false

theorem floatField_held {r : FloatLiteral} (held : Dict.get? fields key = some (.real r)) :
    ∃ r', floatField py fields key = some r' ∧ FloatLiteral.Same r' r := by
  rcases truthyField_held held with kept | ⟨dropped, falsy⟩
  · exact ⟨r, by rw [floatField, kept], .inl rfl⟩
  · exact ⟨zero, by rw [floatField, dropped], .inr ⟨by decide, falsy⟩⟩

end Fields

theorem mapM_forall₂ {α β : Type} {f : α → Option β} {items : List α} {values : List β}
    (made : List.Forall₂ (fun a b => f a = some b) items values) : items.mapM f = some values := by
  induction made with
  | nil => rfl
  | cons head _ ih =>
      rw [List.mapM_cons, head, ih]
      rfl

/-- What two objects hold as texts. -/
def SameTexts (d e : List (String × String)) : Prop := ∀ key, Dict.get? d key = Dict.get? e key

/-- An object whose values are the texts of `d`. -/
def HoldsTexts (fields : List (String × Json)) (d : List (String × String)) : Prop :=
  ∀ key, Dict.get? fields key = (Dict.get? d key).map Json.str

theorem HoldsTexts.same (py : Conversions) {fields : List (String × Json)}
    {d : List (String × String)} (holds : HoldsTexts fields d) :
    SameTexts (fields.map fun f => (f.1, strOf py f.2)) d := by
  intro key
  rw [Dict.get?_map, holds key, Option.map_map]
  cases Dict.get? d key <;> rfl

theorem holdsTexts (d : List (String × String)) :
    HoldsTexts (d.map fun e => (e.1, .str e.2)) d := fun _ => Dict.get?_map ..

theorem HoldsTexts.reread {fields : List (String × Json)} {d : List (String × String)}
    (holds : HoldsTexts fields d) : HoldsTexts (reread fields) d := by
  intro key
  rw [get?_reread, holds key, Option.map_map]
  cases Dict.get? d key <;> rfl

/-! Objects that hold a verdict, a mutant, the survivors and a decision. -/

structure MutantVerdict.Held (v : MutantVerdict) (fields : List (String × Json)) : Prop where
  key : Dict.get? fields "key" = some (.str v.key)
  verdict : Dict.get? fields "verdict" = some (.str v.verdict.text)
  region : Dict.get? fields "divergence_region" = some (.str v.divergenceRegion)
  argument : Dict.get? fields "why_indistinguishable" = some (.str v.whyIndistinguishable)
  lines : Dict.get? fields "source_lines" = some (.arr (v.sourceLines.map Json.int))

structure MutantIdentity.Held (m : MutantIdentity) (fields : List (String × Json)) : Prop where
  key : Dict.get? fields "key" = some (.str m.key)
  path : Dict.get? fields "source_path" = some (.str m.sourcePath)
  line : Dict.get? fields "line" = some (.int m.line)
  operator : Dict.get? fields "operator" = some (.str m.operator)
  description : Dict.get? fields "description" = some (.str m.description)
  diff : Dict.get? fields "mutation_diff" = some (.str m.mutationDiff)

/-- An item that is an object holding a value. -/
def Item {α : Type} (held : α → List (String × Json) → Prop) (item : Json) (value : α) : Prop :=
  ∃ fields, item = .obj fields ∧ held value fields

structure ScoringSurvivors.Held (s : ScoringSurvivors) (fields : List (String × Json)) : Prop where
  language : Dict.get? fields "language" = some (.str s.language)
  mutants : ∃ items, Dict.get? fields "mutants" = some (.arr items) ∧
    List.Forall₂ (Item MutantIdentity.Held) items s.mutants
  failures : Dict.get? fields "unreviewed_scoring_failures" =
    some (.int s.unreviewedScoringFailures)
  fingerprints : ∃ texts, Dict.get? fields "source_fingerprints" = some (.obj texts) ∧
    HoldsTexts texts s.sourceFingerprints
  rate : Dict.get? fields "mutation_rate" = some (.real s.mutationRate)
  gate : Dict.get? fields "mutation_gate" = some (.real s.mutationGate)

structure ReviewDecision.Held (d : ReviewDecision) (fields : List (String × Json)) : Prop where
  outcome : Dict.get? fields "outcome" = some (.str d.outcome.text)
  reason : Dict.get? fields "reason" = some (.str d.reason)
  survivors : match d.survivors with
    | none => Dict.get? fields "survivors" = some .null
    | some s => ∃ item, Dict.get? fields "survivors" = some item ∧ Item ScoringSurvivors.Held item s
  verdicts : ∃ items, Dict.get? fields "verdicts" = some (.arr items) ∧
    List.Forall₂ (Item MutantVerdict.Held) items d.verdicts
  digest : Dict.get? fields "verdicts_sha256" = some (.str d.verdictsSha256)
  session : ∃ texts, Dict.get? fields "agent_session_ref" = some (.obj texts) ∧
    HoldsTexts texts d.agentSessionRef
  model : Dict.get? fields "model_id" = some (.str d.modelId)

theorem forall₂_map {α : Type} {held : α → List (String × Json) → Prop}
    (toFields : α → List (String × Json)) (own : ∀ a, held a (toFields a)) (values : List α) :
    List.Forall₂ (Item held) (values.map fun a => .obj (toFields a)) values := by
  induction values with
  | nil => exact .nil
  | cons a values ih => exact .cons ⟨_, rfl, own a⟩ ih

theorem forall₂_reread {α : Type} (held : α → List (String × Json) → Prop)
    (again : ∀ a fields, held a fields → held a (reread fields)) {items : List Json}
    {values : List α} (own : List.Forall₂ (Item held) items values) :
    List.Forall₂ (Item held) (items.map Json.sortKeys) values := by
  induction own with
  | nil => exact .nil
  | cons head _ ih =>
      obtain ⟨fields, rfl, holds⟩ := head
      exact .cons ⟨_, sortKeys_obj fields, again _ _ holds⟩ ih

theorem MutantVerdict.held (v : MutantVerdict) : v.Held v.toFields := ⟨rfl, rfl, rfl, rfl, rfl⟩

theorem MutantIdentity.held (m : MutantIdentity) : m.Held m.toFields :=
  ⟨rfl, rfl, rfl, rfl, rfl, rfl⟩

theorem ScoringSurvivors.held (s : ScoringSurvivors) : s.Held s.toFields where
  language := rfl
  mutants := ⟨_, rfl, forall₂_map MutantIdentity.toFields MutantIdentity.held s.mutants⟩
  failures := rfl
  fingerprints := ⟨_, rfl, holdsTexts s.sourceFingerprints⟩
  rate := rfl
  gate := rfl

theorem ReviewDecision.held (d : ReviewDecision) : d.Held d.toFields where
  outcome := rfl
  reason := rfl
  survivors := by
    have saved : Dict.get? d.toFields "survivors" =
        some ((d.survivors.map fun s => Json.obj s.toFields).getD .null) := rfl
    cases own : d.survivors with
    | none => rw [saved, own]; rfl
    | some s => exact ⟨_, saved, s.toFields, by rw [own]; rfl, s.held⟩
  verdicts := ⟨_, rfl, forall₂_map MutantVerdict.toFields MutantVerdict.held d.verdicts⟩
  digest := rfl
  session := ⟨_, rfl, holdsTexts d.agentSessionRef⟩
  model := rfl

section Reread
variable {fields : List (String × Json)}

theorem reread_str {key s : String} (held : Dict.get? fields key = some (.str s)) :
    Dict.get? (reread fields) key = some (.str s) := by
  rw [get?_reread, held]
  rfl

theorem reread_int {key : String} {n : ℤ} (held : Dict.get? fields key = some (.int n)) :
    Dict.get? (reread fields) key = some (.int n) := by
  rw [get?_reread, held]
  rfl

theorem reread_real {key : String} {r : FloatLiteral}
    (held : Dict.get? fields key = some (.real r)) :
    Dict.get? (reread fields) key = some (.real r) := by
  rw [get?_reread, held]
  rfl

theorem reread_arr {key : String} {items : List Json}
    (held : Dict.get? fields key = some (.arr items)) :
    Dict.get? (reread fields) key = some (.arr (items.map Json.sortKeys)) := by
  rw [get?_reread, held, Option.map_some, sortKeys_arr]

theorem reread_obj {key : String} {own : List (String × Json)}
    (held : Dict.get? fields key = some (.obj own)) :
    Dict.get? (reread fields) key = some (.obj (reread own)) := by
  rw [get?_reread, held, Option.map_some, sortKeys_obj]

theorem MutantVerdict.Held.reread {v : MutantVerdict} (held : v.Held fields) :
    v.Held (reread fields) where
  key := reread_str held.key
  verdict := reread_str held.verdict
  region := reread_str held.region
  argument := reread_str held.argument
  lines := by
    have sorted : (v.sourceLines.map Json.int).map Json.sortKeys = v.sourceLines.map Json.int := by
      rw [List.map_map]
      rfl
    rw [reread_arr held.lines, sorted]

theorem MutantIdentity.Held.reread {m : MutantIdentity} (held : m.Held fields) :
    m.Held (reread fields) :=
  ⟨reread_str held.key, reread_str held.path, reread_int held.line, reread_str held.operator,
    reread_str held.description, reread_str held.diff⟩

theorem ScoringSurvivors.Held.reread {s : ScoringSurvivors} (held : s.Held fields) :
    s.Held (reread fields) where
  language := reread_str held.language
  mutants :=
    let ⟨_, own, each⟩ := held.mutants
    ⟨_, reread_arr own, forall₂_reread MutantIdentity.Held (fun _ _ own => own.reread) each⟩
  failures := reread_int held.failures
  fingerprints :=
    let ⟨_, own, texts⟩ := held.fingerprints
    ⟨_, reread_obj own, texts.reread⟩
  rate := reread_real held.rate
  gate := reread_real held.gate

theorem ReviewDecision.Held.reread {d : ReviewDecision} (held : d.Held fields) :
    d.Held (reread fields) where
  outcome := reread_str held.outcome
  reason := reread_str held.reason
  survivors := by
    have saved := held.survivors
    cases own : d.survivors with
    | none =>
        rw [own] at saved
        dsimp only at saved ⊢
        rw [get?_reread, saved]
        rfl
    | some s =>
        rw [own] at saved
        obtain ⟨_, saved, texts, rfl, holds⟩ := saved
        exact ⟨_, reread_obj saved, _, rfl, holds.reread⟩
  verdicts :=
    let ⟨_, own, each⟩ := held.verdicts
    ⟨_, reread_arr own, forall₂_reread MutantVerdict.Held (fun _ _ own => own.reread) each⟩
  digest := reread_str held.digest
  session :=
    let ⟨_, own, texts⟩ := held.session
    ⟨_, reread_obj own, texts.reread⟩
  model := reread_str held.model

end Reread

/-! Reading. -/

/-- A verdict as `_verdict_from` leaves it. -/
structure MutantVerdict.Formed (v : MutantVerdict) : Prop where
  key_stripped : stripText v.key = v.key
  key_filled : v.key ≠ ""
  region_stripped : stripText v.divergenceRegion = v.divergenceRegion
  argument_stripped : stripText v.whyIndistinguishable = v.whyIndistinguishable
  argued : v.verdict = .equivalent → v.divergenceRegion ≠ "" ∧ v.whyIndistinguishable ≠ ""

theorem stripText_stripText (text : String) : stripText (stripText text) = stripText text := by
  rw [stripText, stripText, String.toList_ofList, PyText.strip_strip]

theorem verdictOf_text (verdict : Verdict) : verdictOf verdict.text = some verdict := by
  cases verdict <;> decide

theorem reviewOutcomeOf_text (outcome : ReviewOutcome) : reviewOutcomeOf outcome.text = outcome := by
  cases outcome <;> decide

theorem integersOf_int (lines : List ℤ) : integersOf (lines.map Json.int) = lines := by
  induction lines with
  | nil => rfl
  | cons n lines ih =>
      simp only [integersOf, List.map_cons, List.filterMap_cons] at ih ⊢
      rw [ih]

/-- The survivors, as Python compares them. -/
structure ScoringSurvivors.Same (s t : ScoringSurvivors) : Prop where
  language : s.language = t.language
  mutants : s.mutants = t.mutants
  failures : s.unreviewedScoringFailures = t.unreviewedScoringFailures
  fingerprints : SameTexts s.sourceFingerprints t.sourceFingerprints
  rate : FloatLiteral.Same s.mutationRate t.mutationRate
  gate : FloatLiteral.Same s.mutationGate t.mutationGate

/-- The decisions, as Python compares them. -/
structure ReviewDecision.Same (d e : ReviewDecision) : Prop where
  outcome : d.outcome = e.outcome
  reason : d.reason = e.reason
  survivors : Option.Rel ScoringSurvivors.Same d.survivors e.survivors
  verdicts : d.verdicts = e.verdicts
  digest : d.verdictsSha256 = e.verdictsSha256
  session : SameTexts d.agentSessionRef e.agentSessionRef
  model : d.modelId = e.modelId

section Round
variable (py : Conversions) {fields : List (String × Json)}

theorem verdictFrom_held {v : MutantVerdict} (held : v.Held fields) (formed : v.Formed) :
    verdictFrom py (.obj fields) = some (some v) := by
  have argued : ¬ (v.verdict = .equivalent ∧
      (v.divergenceRegion = "" ∨ v.whyIndistinguishable = "")) := by
    rintro ⟨equivalent, empty⟩
    rcases empty with none_ | none_
    · exact (formed.argued equivalent).1 none_
    · exact (formed.argued equivalent).2 none_
  simp only [verdictFrom, Json.fields?, textField_held py held.key, textField_held py held.verdict,
    textField_held py held.region, textField_held py held.argument, loopField_held held.lines,
    verdictOf_text, formed.key_stripped, formed.key_filled, formed.region_stripped,
    formed.argument_stripped, argued, if_false, Option.map_some, integersOf_int]

theorem mutantFromDict_held {m : MutantIdentity} (held : m.Held fields) :
    mutantFromDict py (.obj fields) = some m := by
  simp only [mutantFromDict, Json.fields?, Option.bind_eq_bind, Option.bind_some,
    intField_held py held.line, textField_held py held.key, textField_held py held.path,
    textField_held py held.operator, textField_held py held.description,
    textField_held py held.diff]
  rfl

theorem survivorsFromDict_held {s : ScoringSurvivors} (held : s.Held fields) :
    ∃ s', survivorsFromDict py fields = some s' ∧ s'.Same s := by
  obtain ⟨items, own, each⟩ := held.mutants
  obtain ⟨texts, saved, holds⟩ := held.fingerprints
  obtain ⟨rate, readRate, sameRate⟩ := floatField_held py held.rate
  obtain ⟨gate, readGate, sameGate⟩ := floatField_held py held.gate
  have mutants : items.mapM (mutantFromDict py) = some s.mutants := by
    apply mapM_forall₂
    apply each.imp
    rintro _ m ⟨_, rfl, holds⟩
    exact mutantFromDict_held py holds
  refine ⟨⟨s.language, s.mutants, s.unreviewedScoringFailures, _, rate, gate⟩, ?_,
    ⟨rfl, rfl, rfl, holds.same py, sameRate, sameGate⟩⟩
  simp only [survivorsFromDict, loopField_held own, Option.bind_eq_bind, Option.bind_some, mutants,
    intField_held py held.failures, dictField_held py saved, readRate, readGate,
    textField_held py held.language]
  rfl

/-- A decision is read back from an object that holds it, if its verdicts are such
as the review's answer is read to. -/
theorem decisionFromDict_held {d : ReviewDecision} (held : d.Held fields)
    (formed : ∀ v ∈ d.verdicts, v.Formed) :
    ∃ d', decisionFromDict py fields = some d' ∧ d'.Same d := by
  obtain ⟨items, own, each⟩ := held.verdicts
  obtain ⟨texts, saved, holds⟩ := held.session
  have verdicts : items.mapM (verdictFrom py) = some (d.verdicts.map some) := by
    apply mapM_forall₂
    rw [List.forall₂_map_right_iff]
    apply List.Forall₂.flip
    apply ((List.forall₂_and_left _ _).mpr ⟨formed, each.flip⟩).imp
    rintro v _ ⟨own, _, rfl, holds⟩
    exact verdictFrom_held py holds own
  have survivors := held.survivors
  cases reviewed : d.survivors with
  | none =>
      rw [reviewed] at survivors
      dsimp only at survivors
      refine ⟨⟨d.outcome, d.reason, none, d.verdicts, d.verdictsSha256, _, d.modelId⟩, ?_,
        ⟨rfl, rfl, by rw [reviewed]; exact .none, rfl, rfl, holds.same py, rfl⟩⟩
      simp only [decisionFromDict, survivors, Option.bind_eq_bind, Option.bind_some,
        loopField_held own, verdicts, dictField_held py saved, textField_held py held.outcome,
        reviewOutcomeOf_text, textField_held py held.reason, textField_held py held.digest,
        textField_held py held.model, List.filterMap_map]
      simp
  | some s =>
      rw [reviewed] at survivors
      obtain ⟨_, survivors, _, rfl, inside⟩ := survivors
      obtain ⟨s', read, same⟩ := survivorsFromDict_held py inside
      refine ⟨⟨d.outcome, d.reason, some s', d.verdicts, d.verdictsSha256, _, d.modelId⟩, ?_,
        ⟨rfl, rfl, by rw [reviewed]; exact .some same, rfl, rfl, holds.same py, rfl⟩⟩
      simp only [decisionFromDict, survivors, read, Option.map_some, Option.bind_eq_bind,
        Option.bind_some, loopField_held own, verdicts, dictField_held py saved,
        textField_held py held.outcome, reviewOutcomeOf_text, textField_held py held.reason,
        textField_held py held.digest, textField_held py held.model, List.filterMap_map]
      simp

end Round
end Uta.Enforce
