/- The reading of the review's answer: which answers grant, and which stop the reader. -/
import Uta.Enforce.Grant

namespace Uta.Enforce
open Uta.Lib

/-! Entries. -/

section Entries
variable (py : Conversions)

/-- The key that an entry names. -/
def keyOf (item : Json) : String := stripText (textField py (item.fields?.getD []) "key")

/-- An entry with a key and one of the three verdicts. -/
def WellFormed (item : Json) : Prop :=
  ∃ fields, item.fields? = some fields ∧ keyOf py item ≠ "" ∧
    (verdictOf (textField py fields "verdict")).isSome

/-- A well-formed entry that calls its mutant equivalent, with a region and an argument. -/
def Argued (item : Json) : Prop :=
  ∃ fields, item.fields? = some fields ∧ keyOf py item ≠ "" ∧
    verdictOf (textField py fields "verdict") = some .equivalent ∧
    stripText (textField py fields "divergence_region") ≠ "" ∧
    stripText (textField py fields "why_indistinguishable") ≠ ""

/-- The `source_lines` of an entry are nothing that a loop runs through: a number
other than zero, or `true`. -/
def Unlooped (item : Json) : Prop := ∃ fields, item.fields? = some fields ∧
  loopField fields "source_lines" = none

/-- Entries that are accepted one after another, after entries with the keys `seen`. -/
structure Admitted (expected seen : List String) (items : List Json) : Prop where
  formed : ∀ item ∈ items, WellFormed py item
  looped : ∀ item ∈ items, ¬ Unlooped item
  known : ∀ item ∈ items, keyOf py item ∈ expected
  fresh : ∀ item ∈ items, keyOf py item ∉ seen
  distinct : (items.map (keyOf py)).Nodup

/-- The entries name each expected key once and no other, and argue for each. -/
structure Grants (expected : List String) (items : List Json) : Prop where
  argued : ∀ item ∈ items, Argued py item
  distinct : (items.map (keyOf py)).Nodup
  exact_ : ∀ key, key ∈ items.map (keyOf py) ↔ key ∈ expected

end Entries

section Reading
variable {py : Conversions} {expected : List String}

theorem Argued.wellFormed {item : Json} (argued : Argued py item) : WellFormed py item := by
  obtain ⟨fields, own, key, verdict, _⟩ := argued
  exact ⟨fields, own, key, by rw [verdict]; rfl⟩

variable (py) in
/-- What `_verdict_from` makes of an entry. -/
theorem verdictFrom_cases (item : Json) :
    (verdictFrom py item = none ∧ WellFormed py item ∧ Unlooped item) ∨
    (verdictFrom py item = some none ∧ ¬ WellFormed py item) ∨
    ∃ v, verdictFrom py item = some (some v) ∧ WellFormed py item ∧ ¬ Unlooped item ∧
      v.key = keyOf py item ∧ (v.verdict = .equivalent ↔ Argued py item) := by
  cases own : item.fields? with
  | none =>
      refine .inr (.inl ⟨by rw [verdictFrom, own], ?_⟩)
      rintro ⟨_, found, _⟩
      rw [own] at found
      cases found
  | some fields =>
      have key : keyOf py item = stripText (textField py fields "key") := by
        rw [keyOf, own, Option.getD_some]
      cases named : verdictOf (textField py fields "verdict") with
      | none =>
          refine .inr (.inl ⟨by simp only [verdictFrom, own, named], ?_⟩)
          rintro ⟨_, found, _, valid⟩
          rw [own] at found
          cases found
          rw [named] at valid
          cases valid
      | some verdict =>
          by_cases filled : keyOf py item = ""
          · refine .inr (.inl ⟨?_, ?_⟩)
            · rw [key] at filled
              simp only [verdictFrom, own, named, filled, if_true]
            · rintro ⟨_, _, nonempty, _⟩
              exact nonempty filled
          · have formed : WellFormed py item := ⟨fields, own, filled, by rw [named]; rfl⟩
            have filled' := filled
            rw [key] at filled'
            cases lines : loopField fields "source_lines" with
            | none =>
                refine .inl ⟨?_, formed, fields, own, lines⟩
                simp only [verdictFrom, own, named, filled', if_false, lines, Option.map_none]
            | some looped =>
                obtain ⟨v, made, named', judged⟩ : ∃ v, verdictFrom py item = some (some v) ∧
                    v.key = stripText (textField py fields "key") ∧ v.verdict =
                      if verdict = .equivalent ∧
                          (stripText (textField py fields "divergence_region") = "" ∨
                            stripText (textField py fields "why_indistinguishable") = "") then
                        .uncertain
                      else verdict := by
                  simp only [verdictFrom, own, named, filled', if_false, lines, Option.map_some]
                  exact ⟨_, rfl, rfl, rfl⟩
                refine .inr (.inr ⟨v, made, formed, ?_, named'.trans key.symm, ?_⟩)
                · rintro ⟨_, found, none_⟩
                  rw [own] at found
                  cases found
                  rw [lines] at none_
                  cases none_
                · constructor
                  · intro equivalent
                    rw [judged] at equivalent
                    split at equivalent
                    · cases equivalent
                    · next argued =>
                      rw [equivalent] at named argued
                      simp only [true_and, not_or] at argued
                      exact ⟨fields, own, filled, named, argued⟩
                  · rintro ⟨_, found, _, equivalent, region, argument⟩
                    rw [own] at found
                    cases found
                    rw [named] at equivalent
                    cases equivalent
                    rw [judged]
                    simp [region, argument]

theorem Admitted.nil (seen : List String) : Admitted py expected seen [] :=
  ⟨by simp, by simp, by simp, by simp, by simp⟩

theorem admitted_cons {seen : List String} {item : Json} {items : List Json} :
    Admitted py expected seen (item :: items) ↔
      (WellFormed py item ∧ ¬ Unlooped item ∧ keyOf py item ∈ expected ∧ keyOf py item ∉ seen) ∧
      Admitted py expected (seen ++ [keyOf py item]) items := by
  constructor
  · rintro ⟨formed, looped, known, fresh, distinct⟩
    rw [List.map_cons, List.nodup_cons] at distinct
    rw [List.forall_mem_cons] at formed looped known fresh
    refine ⟨⟨formed.1, looped.1, known.1, fresh.1⟩, formed.2, looped.2, known.2, ?_, distinct.2⟩
    intro other member seen_
    rcases List.mem_append.mp seen_ with earlier | same
    · exact fresh.2 other member earlier
    · apply distinct.1
      rw [← List.mem_singleton.mp same]
      exact List.mem_map_of_mem member
  · rintro ⟨⟨formed, looped, known, fresh⟩, rest⟩
    refine ⟨List.forall_mem_cons.mpr ⟨formed, rest.formed⟩,
      List.forall_mem_cons.mpr ⟨looped, rest.looped⟩, List.forall_mem_cons.mpr ⟨known, rest.known⟩,
      List.forall_mem_cons.mpr ⟨fresh, fun other member seen_ => ?_⟩, ?_⟩
    · exact rest.fresh other member (List.mem_append_left _ seen_)
    · rw [List.map_cons, List.nodup_cons]
      refine ⟨fun again => ?_, rest.distinct⟩
      obtain ⟨other, member, same⟩ := List.mem_map.mp again
      apply rest.fresh other member
      rw [same]
      exact List.mem_append_right _ (List.mem_singleton_self _)

/-- The loop raises at an entry that it reaches. -/
def Stops (py : Conversions) (expected seen : List String) (items : List Json) : Prop :=
  ∃ before item after, items = before ++ item :: after ∧
    Admitted py expected seen before ∧ WellFormed py item ∧ Unlooped item

theorem stops_cons {seen : List String} {item : Json} {items : List Json} :
    Stops py expected seen (item :: items) ↔ (WellFormed py item ∧ Unlooped item) ∨
      (WellFormed py item ∧ ¬ Unlooped item ∧ keyOf py item ∈ expected ∧ keyOf py item ∉ seen) ∧
        Stops py expected (seen ++ [keyOf py item]) items := by
  constructor
  · rintro ⟨before, stop, after, split, admitted, stops⟩
    cases before with
    | nil =>
        cases split
        exact .inl stops
    | cons head before =>
        cases split
        have step := admitted_cons.mp admitted
        exact .inr ⟨step.1, before, stop, after, rfl, step.2, stops⟩
  · rintro (stops | ⟨head, before, stop, after, rfl, admitted, stops⟩)
    · exact ⟨[], item, items, rfl, .nil seen, stops⟩
    · exact ⟨item :: before, stop, after, rfl, admitted_cons.mpr ⟨head, admitted⟩, stops⟩

variable (py expected) in
/-- What the loop makes of the entries: it raises, it refuses, or it has read each of them. -/
theorem readVerdicts_cases (items : List Json) (before : List MutantVerdict) :
    let seen := before.map MutantVerdict.key
    (readVerdicts py expected items before = none ∧ Stops py expected seen items) ∨
    (readVerdicts py expected items before = some none ∧ ¬ Stops py expected seen items ∧
      ¬ Admitted py expected seen items) ∨
    ∃ read, readVerdicts py expected items before = some (some (before ++ read)) ∧
      ¬ Stops py expected seen items ∧ Admitted py expected seen items ∧
      read.map MutantVerdict.key = items.map (keyOf py) ∧
      ((∀ v ∈ read, v.verdict = .equivalent) ↔ ∀ item ∈ items, Argued py item) := by
  induction items generalizing before with
  | nil =>
      refine .inr (.inr ⟨[], by simp [readVerdicts], ?_, .nil _, rfl, by simp⟩)
      rintro ⟨front, _, _, split, _⟩
      cases front <;> cases split
  | cons item items ih =>
      intro seen
      rcases verdictFrom_cases py item with
        ⟨raises, formed, unlooped⟩ | ⟨refuses, malformed⟩ | ⟨v, made, formed, looped, key, argued⟩
      · exact .inl ⟨by rw [readVerdicts, raises, Option.bind_none],
          stops_cons.mpr (.inl ⟨formed, unlooped⟩)⟩
      · refine .inr (.inl ⟨by rw [readVerdicts, refuses, Option.bind_some], fun stops => ?_,
          fun admitted => malformed (admitted_cons.mp admitted).1.1⟩)
        rcases stops_cons.mp stops with ⟨formed, _⟩ | ⟨⟨formed, _⟩, _⟩
        · exact malformed formed
        · exact malformed formed
      · by_cases refused : v.key ∉ expected ∨ v.key ∈ before.map MutantVerdict.key
        · have unfit : ¬ (keyOf py item ∈ expected ∧ keyOf py item ∉ seen) := by
            rintro ⟨known, fresh⟩
            rw [← key] at known fresh
            rcases refused with unknown | again
            · exact unknown known
            · exact fresh again
          refine .inr (.inl ⟨?_, fun stops => ?_, fun admitted => ?_⟩)
          · rw [readVerdicts, made, Option.bind_some]
            exact if_pos refused
          · rcases stops_cons.mp stops with ⟨_, unlooped⟩ | ⟨⟨_, _, fit⟩, _⟩
            · exact looped unlooped
            · exact unfit fit
          · exact unfit (admitted_cons.mp admitted).1.2.2
        · have fit : keyOf py item ∈ expected ∧ keyOf py item ∉ seen := by
            rw [← key]
            simpa only [not_or, not_not] using refused
          have head : WellFormed py item ∧ ¬ Unlooped item ∧ keyOf py item ∈ expected ∧
            keyOf py item ∉ seen := ⟨formed, looped, fit⟩
          have step : readVerdicts py expected (item :: items) before =
              readVerdicts py expected items (before ++ [v]) := by
            rw [readVerdicts, made, Option.bind_some]
            exact if_neg refused
          have next := ih (before ++ [v])
          rw [List.map_append, List.map_singleton, key] at next
          have unstopped : ¬ Stops py expected (seen ++ [keyOf py item]) items →
              ¬ Stops py expected seen (item :: items) := by
            intro rest stops
            rcases stops_cons.mp stops with ⟨_, unlooped⟩ | ⟨_, later⟩
            · exact looped unlooped
            · exact rest later
          rw [step]
          rcases next with ⟨raises, stops⟩ | ⟨refuses, rest, unfit⟩ |
            ⟨read, done, rest, admitted, keys, all⟩
          · exact .inl ⟨raises, stops_cons.mpr (.inr ⟨head, stops⟩)⟩
          · exact .inr (.inl ⟨refuses, unstopped rest,
              fun admitted => unfit (admitted_cons.mp admitted).2⟩)
          · refine .inr (.inr ⟨v :: read, ?_, unstopped rest, admitted_cons.mpr ⟨head, admitted⟩,
              ?_, ?_⟩)
            · rw [done, List.append_assoc, List.singleton_append]
            · rw [List.map_cons, List.map_cons, key, keys]
            · rw [List.forall_mem_cons, List.forall_mem_cons, argued, all]

/-! The answer. -/

/-- The verdicts in the text of an answer. -/
def answered (payload : Option (List Char)) : Option (List Json) :=
  (payload.bind Json.loads).bind verdictItems

/-- The answer is read: it grants if it argues for each expected mutant and no other,
and what is kept of it can be saved and read back. -/
structure ReviewRead (py : Conversions) (payload : Option (List Char)) (expected : List String)
    (parsed : ParsedVerdicts) : Prop where
  read : parseVerdicts py payload expected = some parsed
  grants : parsed.outcome = .allEquivalent ↔
    ∃ items, answered payload = some items ∧ Grants py expected items
  decision : ∀ d : ReviewDecision, d.verdicts = parsed.verdicts →
    ∀ fields ∈ [d.toFields, jsonLoads (jsonDumps (.obj d.toFields))],
      ∃ d', decisionFromDict py fields = some d' ∧ d'.Same d
  survivors : ∀ s : ScoringSurvivors,
    ∀ fields ∈ [s.toFields, jsonLoads (jsonDumps (.obj s.toFields))],
      ∃ s', survivorsFromDict py fields = some s' ∧ s'.Same s

/-- No entry that the loop reaches is well-formed and has `source_lines` that are
a number other than zero, or `true`. -/
def Loops (py : Conversions) (payload : Option (List Char)) (expected : List String) : Prop :=
  ∀ items, answered payload = some items → ¬ Stops py expected [] items

/-- Entries that are refused for no other reason are accepted, or one of them stops the loop. -/
theorem admitted_or_stops {seen : List String} {items : List Json}
    (formed : ∀ item ∈ items, WellFormed py item) (known : ∀ item ∈ items, keyOf py item ∈ expected)
    (fresh : ∀ item ∈ items, keyOf py item ∉ seen) (distinct : (items.map (keyOf py)).Nodup) :
    Admitted py expected seen items ∨ Stops py expected seen items := by
  induction items generalizing seen with
  | nil => exact .inl (.nil seen)
  | cons item items ih =>
      rw [List.forall_mem_cons] at formed known fresh
      rw [List.map_cons, List.nodup_cons] at distinct
      by_cases unlooped : Unlooped item
      · exact .inr (stops_cons.mpr (.inl ⟨formed.1, unlooped⟩))
      · have head : WellFormed py item ∧ ¬ Unlooped item ∧ keyOf py item ∈ expected ∧
            keyOf py item ∉ seen := ⟨formed.1, unlooped, known.1, fresh.1⟩
        have later : ∀ other ∈ items, keyOf py other ∉ seen ++ [keyOf py item] := by
          intro other member again
          rcases List.mem_append.mp again with earlier | same
          · exact fresh.2 other member earlier
          · exact distinct.1 (List.mem_singleton.mp same ▸ List.mem_map_of_mem member)
        rcases ih formed.2 known.2 later distinct.2 with admitted | stops
        · exact .inl (admitted_cons.mpr ⟨head, admitted⟩)
        · exact .inr (stops_cons.mpr (.inr ⟨head, stops⟩))

theorem Grants.admitted {items : List Json} (grants : Grants py expected items)
    (unstopped : ¬ Stops py expected [] items) : Admitted py expected [] items := by
  have formed : ∀ item ∈ items, WellFormed py item := fun item member =>
    (grants.argued item member).wellFormed
  have known : ∀ item ∈ items, keyOf py item ∈ expected := fun item member =>
    (grants.exact_ _).mp (List.mem_map_of_mem member)
  exact (admitted_or_stops formed known (by simp) grants.distinct).resolve_right unstopped

theorem answered_grants {items : List Json} (read : List MutantVerdict)
    (admitted : Admitted py expected [] items)
    (keys : read.map MutantVerdict.key = items.map (keyOf py))
    (all : (∀ v ∈ read, v.verdict = .equivalent) ↔ ∀ item ∈ items, Argued py item) :
    Grants py expected items ↔
      (∀ key ∈ expected, key ∈ read.map MutantVerdict.key) ∧ ∀ v ∈ read, v.verdict = .equivalent := by
  rw [keys, all]
  constructor
  · intro grants
    exact ⟨fun key member => (grants.exact_ key).mpr member, grants.argued⟩
  · rintro ⟨complete, argued⟩
    refine ⟨argued, admitted.distinct, fun key => ⟨fun member => ?_, complete key⟩⟩
    obtain ⟨item, own, rfl⟩ := List.mem_map.mp member
    exact admitted.known item own

variable (py) in
/-- An answer is parsed unless an entry stops the loop, and then it grants as it should. -/
theorem parseVerdicts_grants (payload : Option (List Char)) (expected : List String) :
    (parseVerdicts py payload expected = none ∧ ¬ Loops py payload expected) ∨
    ∃ parsed, parseVerdicts py payload expected = some parsed ∧ Loops py payload expected ∧
      (parsed.outcome = .allEquivalent ↔
        ∃ items, answered payload = some items ∧ Grants py expected items) := by
  cases given : answered payload with
  | none =>
      refine .inr ⟨_, by rw [parseVerdicts, ← answered, given], fun _ found => ?_, ?_⟩
      · rw [given] at found
        cases found
      · simp
  | some items =>
      have only : (∃ own, some items = some own ∧ Grants py expected own) ↔
          Grants py expected items := by simp
      have loops : ¬ Stops py expected [] items → Loops py payload expected := by
        intro unstopped own found
        rw [given] at found
        cases found
        exact unstopped
      unfold parseVerdicts
      rw [← answered, given, only]
      dsimp only
      rcases readVerdicts_cases py expected items [] with
        ⟨raises, stops⟩ | ⟨refuses, unstopped, unfit⟩ | ⟨read, done, unstopped, admitted, keys, all⟩
      · exact .inl ⟨by rw [raises, Option.map_none], fun runs => runs items given stops⟩
      · refine .inr ⟨_, by rw [refuses, Option.map_some], loops unstopped, ?_⟩
        constructor
        · intro accepted
          cases accepted
        · intro grants
          exact absurd (grants.admitted unstopped) unfit
      · refine .inr ⟨_, by rw [done, Option.map_some], loops unstopped, ?_⟩
        rw [answered_grants read admitted keys all, List.nil_append]
        by_cases complete : ∀ key ∈ expected, key ∈ read.map MutantVerdict.key
        · dsimp only
          rw [if_neg (not_not_intro complete)]
          cases doubt : read.any fun v => decide (v.verdict ≠ .equivalent) with
          | true =>
              rw [if_pos rfl]
              refine ⟨fun accepted => (by cases accepted), fun argued => ?_⟩
              obtain ⟨v, member, other⟩ := List.any_eq_true.mp doubt
              exact absurd (argued.2 v member) (of_decide_eq_true other)
          | false =>
              rw [if_neg Bool.false_ne_true]
              exact ⟨fun _ => ⟨complete, by simpa using doubt⟩, fun _ => rfl⟩
        · dsimp only
          rw [if_pos complete]
          exact ⟨fun accepted => (by cases accepted), fun argued => absurd argued.1 complete⟩

/-- The review's answer is read, and what is kept of it saved and read back, exactly
where no entry stops the loop. -/
theorem review_read_iff (py : Conversions) (payload : Option (List Char)) (expected : List String) :
    (∃ parsed, ReviewRead py payload expected parsed) ↔ Loops py payload expected := by
  rcases parseVerdicts_grants py payload expected with
    ⟨raises, stops⟩ | ⟨parsed, made, loops, grants⟩
  · constructor
    · rintro ⟨parsed, read⟩
      exact absurd (raises.symm.trans read.read) nofun
    · exact fun loops => absurd loops stops
  · refine ⟨fun _ => loops, fun _ => ⟨parsed, made, grants, ?_, ?_⟩⟩
    · intro d own fields member
      have formed : ∀ v ∈ d.verdicts, v.Formed := fun v given =>
        ((parseVerdicts_sound made).1 v (own ▸ given)).1
      rcases List.mem_cons.mp member with rfl | saved
      · exact decisionFromDict_held py d.held formed
      · rw [List.mem_singleton.mp saved, jsonLoads_jsonDumps]
        exact decisionFromDict_held py d.held.reread formed
    · intro s fields member
      rcases List.mem_cons.mp member with rfl | saved
      · exact survivorsFromDict_held py s.held
      · rw [List.mem_singleton.mp saved, jsonLoads_jsonDumps]
        exact survivorsFromDict_held py s.held.reread

/-- An answer that argues for its one mutant and gives a line where a list is read. -/
def numberedAnswer : List Char :=
  Json.print true (.arr [.obj [("key", .str "m1"), ("verdict", .str "equivalent"),
    ("divergence_region", .str "a is empty"), ("why_indistinguishable", .str "both are 0"),
    ("source_lines", .int 7)]])

theorem numbered_answer_raises :
    parseVerdicts noConversions (some numberedAnswer) ["m1"] = none ∧
      ¬ ∃ parsed, ReviewRead noConversions (some numberedAnswer) ["m1"] parsed := by
  have raises : parseVerdicts noConversions (some numberedAnswer) ["m1"] = none := by decide +kernel
  refine ⟨raises, fun ⟨parsed, read⟩ => ?_⟩
  exact absurd (raises.symm.trans read.read) nofun

end Reading
end Uta.Enforce
