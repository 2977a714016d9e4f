/- When the saved reviews excuse a failing mutation gate: what a grant rests on. -/
import Uta.Enforce.Saving

namespace Uta.Enforce
open Uta.Lib

structure GrantDecision where
  granted : Bool
  reason : String := ""
  deriving DecidableEq, Repr

/-- The gate result that the reviews are asked to excuse. -/
structure GateFlags where
  testsPassed : Bool
  coveragePassed : Bool
  mutationOnlyFailure : Bool
  deriving DecidableEq, Repr

def sameKeys (a b : List String) : Bool := a.all (decide <| · ∈ b) && b.all (decide <| · ∈ a)

/-- The merge of the reviews' fingerprints, in which a later review wins. -/
def reviewedFingerprints (reviewed : List ScoringSurvivors) : List (String × String) :=
  reviewed.flatMap ScoringSurvivors.sourceFingerprints

def decideGrant (reviews : List ReviewDecision) (fresh : Option ScoringSurvivors)
    (flags : GateFlags) : GrantDecision :=
  let reviewed := reviews.filterMap ReviewDecision.survivors
  if reviews.isEmpty then ⟨false, "no_review"⟩
  else if reviews.any fun r => decide (r.outcome ≠ .allEquivalent) || r.survivors.isNone then
    ⟨false, "review_not_all_equivalent"⟩
  else if !flags.testsPassed then ⟨false, "tests_failed"⟩
  else if !flags.coveragePassed then ⟨false, "coverage_failed"⟩
  else if !flags.mutationOnlyFailure then ⟨false, "not_mutation_only"⟩
  else
    match fresh with
    | none => ⟨false, "survivors_unproven"⟩
    | some fresh =>
      if fresh.unreviewedScoringFailures ≠ 0 ∨
          (reviewed.any fun s => decide (s.unreviewedScoringFailures ≠ 0)) = true then
        ⟨false, "unreviewed_scoring_failures"⟩
      else if !sameKeys fresh.keys (reviewed.flatMap ScoringSurvivors.keys) then
        ⟨false, "survivor_set_changed"⟩
      else if !Dict.same fresh.sourceFingerprints (reviewedFingerprints reviewed) then
        ⟨false, "fingerprint_changed"⟩
      else ⟨true, ""⟩

section Saved
variable (py : Conversions)

/-- A saved decision that was made on survivors is read back as it was. -/
theorem savedReview_toFields {d : ReviewDecision} {s : ScoringSurvivors}
    (made : d.survivors = some s) (formed : ∀ v ∈ d.verdicts, v.Formed) :
    ∃ d' s', savedReview py (jsonDumps (.obj d.toFields)) = some (some d') ∧
      d'.outcome = d.outcome ∧ d'.verdicts = d.verdicts ∧ d'.survivors = some s' ∧
      s'.mutants = s.mutants ∧
      ∀ path, Dict.get? s'.sourceFingerprints path = Dict.get? s.sourceFingerprints path := by
  have held := d.held.reread
  obtain ⟨d', read, same⟩ := decisionFromDict_held py held formed
  have survivors := held.survivors
  rw [made] at survivors
  obtain ⟨_, found, _, rfl, _⟩ := survivors
  have own := same.survivors
  rw [made] at own
  cases kept : d'.survivors with
  | none => rw [kept] at own; cases own
  | some s' =>
      rw [kept] at own
      cases own with
      | some again =>
          refine ⟨d', s', ?_, same.outcome, same.verdicts, kept, again.mutants, again.fingerprints⟩
          rw [savedReview, jsonLoads_jsonDumps, found]
          simp only [read, Option.map_some]

end Saved

theorem formed_of_verdictFrom {py : Conversions} {item : Json} {v : MutantVerdict}
    (made : verdictFrom py item = some (some v)) : v.Formed := by
  unfold verdictFrom at made
  split at made
  · cases made
  · next fields _ =>
    split at made
    · cases made
    · next verdict _ =>
      dsimp only at made
      split at made
      · cases made
      · next filled =>
        obtain ⟨lines, _, same⟩ := Option.map_eq_some_iff.mp made
        cases same
        refine ⟨stripText_stripText _, filled, stripText_stripText _, stripText_stripText _, ?_⟩
        intro equivalent
        dsimp only at equivalent ⊢
        split at equivalent
        · cases equivalent
        · next argued =>
          simpa [equivalent] using argued

/-! Parsing. -/

section Parse
variable {py : Conversions} {expected : List String}

theorem readVerdicts_sound : ∀ (items : List Json) (before after : List MutantVerdict),
    readVerdicts py expected items before = some (some after) →
    (∀ v ∈ before, v.Formed ∧ v.key ∈ expected) → ∀ v ∈ after, v.Formed ∧ v.key ∈ expected := by
  intro items
  induction items with
  | nil =>
      intro before after read sound
      cases read
      exact sound
  | cons item items ih =>
      intro before after read sound
      obtain ⟨made, verdict, read⟩ := Option.bind_eq_some_iff.mp read
      cases made with
      | none => cases read
      | some v =>
          dsimp only at read
          split at read
          · cases read
          · next fresh =>
            apply ih _ _ read
            intro w member
            rcases List.mem_append.mp member with earlier | new
            · exact sound w earlier
            · rw [List.mem_singleton.mp new]
              exact ⟨formed_of_verdictFrom verdict, by
                by_contra unexpected
                exact fresh (.inl unexpected)⟩

theorem parseVerdicts_sound {payload : Option (List Char)} {parsed : ParsedVerdicts}
    (made : parseVerdicts py payload expected = some parsed) :
    (∀ v ∈ parsed.verdicts, v.Formed ∧ v.key ∈ expected) ∧
    (parsed.outcome = .allEquivalent →
      (∀ key ∈ expected, ∃ v ∈ parsed.verdicts, v.key = key) ∧
      ∀ v ∈ parsed.verdicts, v.verdict = .equivalent) := by
  unfold parseVerdicts at made
  split at made
  · cases made
    exact ⟨by simp, fun h => by cases h⟩
  · next items _ =>
    obtain ⟨read, found, same⟩ := Option.map_eq_some_iff.mp made
    cases read with
    | none =>
        cases same
        exact ⟨by simp, fun h => by cases h⟩
    | some verdicts =>
        have sound := readVerdicts_sound items [] verdicts found (by simp)
        dsimp only at same
        split at same
        · cases same
          exact ⟨sound, fun h => by cases h⟩
        · next complete =>
          split at same
          · cases same
            exact ⟨sound, fun h => by cases h⟩
          · next equivalent =>
            cases same
            refine ⟨sound, fun _ => ⟨?_, ?_⟩⟩
            · intro key member
              simpa [eq_comm] using not_not.mp complete key member
            · simpa using equivalent

end Parse

/-! Grants. -/

/-- A review as a grant meets it: made from the answer of a turn, saved, and read
back. -/
def Reached (py : Conversions) (review : ReviewDecision) : Prop :=
  ∃ survivors payload digest sessionRef modelId decision,
    reviewFromTurn py survivors payload digest sessionRef modelId = some decision ∧
    savedReview py (jsonDumps (.obj decision.toFields)) = some (some review)

/-- An accepted review calls each of its survivors equivalent, with an argument
over a region, and says nothing of others. -/
theorem reached_argued {py : Conversions} {review : ReviewDecision} (reached : Reached py review)
    (accepted : review.outcome = .allEquivalent) :
    ∃ s, review.survivors = some s ∧
      (∀ key ∈ s.keys, ∃ v ∈ review.verdicts, v.key = key ∧ v.verdict = .equivalent ∧
        v.divergenceRegion ≠ "" ∧ v.whyIndistinguishable ≠ "") ∧
      ∀ v ∈ review.verdicts, v.key ∈ s.keys := by
  obtain ⟨survivors, payload, digest, sessionRef, modelId, decision, turn, saved⟩ := reached
  obtain ⟨parsed, made, same⟩ := Option.map_eq_some_iff.mp turn
  have sound := parseVerdicts_sound made
  have own : decision.survivors = some survivors := by rw [← same]
  have decided : decision.verdicts = parsed.verdicts := by rw [← same]
  obtain ⟨d', s', read, outcome, verdicts, held, mutants, _⟩ :=
    savedReview_toFields py own fun v member => (sound.1 v (decided ▸ member)).1
  rw [saved] at read
  cases read
  rw [decided] at verdicts
  have keys : s'.keys = survivors.keys := by rw [ScoringSurvivors.keys, mutants]; rfl
  have parsedOutcome : parsed.outcome = .allEquivalent := by
    by_contra rejected
    rw [accepted, ← same] at outcome
    simp [rejected] at outcome
  refine ⟨s', held, fun key member => ?_, fun v member => ?_⟩
  · rw [keys] at member
    obtain ⟨v, given, rfl⟩ := (sound.2 parsedOutcome).1 key member
    have equivalent := (sound.2 parsedOutcome).2 v given
    exact ⟨v, verdicts ▸ given, rfl, equivalent, (sound.1 v given).1.argued equivalent⟩
  · rw [verdicts] at member
    exact keys ▸ (sound.1 v member).2

/-- What a grant checks. -/
theorem granted_cases {reviews : List ReviewDecision} {fresh : Option ScoringSurvivors}
    {flags : GateFlags} (granted : (decideGrant reviews fresh flags).granted = true) :
    (∀ r ∈ reviews, r.outcome = .allEquivalent) ∧ ∃ survivors, fresh = some survivors ∧
      sameKeys survivors.keys
        ((reviews.filterMap ReviewDecision.survivors).flatMap ScoringSurvivors.keys) = true ∧
      Dict.same survivors.sourceFingerprints
        (reviewedFingerprints (reviews.filterMap ReviewDecision.survivors)) = true := by
  unfold decideGrant at granted
  dsimp only at granted
  split at granted
  · cases granted
  split at granted
  · cases granted
  next accepted =>
  split at granted
  · cases granted
  split at granted
  · cases granted
  split at granted
  · cases granted
  split at granted
  · cases granted
  next survivors =>
  split at granted
  · cases granted
  split at granted
  · cases granted
  next keys =>
  split at granted
  · cases granted
  next fingerprints =>
  refine ⟨fun r member => ?_, survivors, rfl, by simpa using keys, by simpa using fingerprints⟩
  simp only [List.any_eq_true, not_exists, not_and, Bool.or_eq_true, not_or] at accepted
  simpa using (accepted r member).1

section Merge
variable {reviewed : List ScoringSurvivors} {path digest : String}

theorem mem_of_reviewedFingerprints
    (held : Dict.get? (reviewedFingerprints reviewed) path = some digest) :
    ∃ s ∈ reviewed, Dict.get? s.sourceFingerprints path = some digest := by
  induction reviewed with
  | nil => cases held
  | cons s reviewed ih =>
      rw [reviewedFingerprints, List.flatMap_cons, Dict.get?_append] at held
      rcases Option.or_eq_some_iff.mp held with later | ⟨_, own⟩
      · obtain ⟨t, member, found⟩ := ih later
        exact ⟨t, by simp [member], found⟩
      · exact ⟨s, by simp, own⟩

theorem reviewedFingerprints_isSome {s : ScoringSurvivors} (member : s ∈ reviewed)
    (held : Dict.get? s.sourceFingerprints path = some digest) :
    (Dict.get? (reviewedFingerprints reviewed) path).isSome = true := by
  induction reviewed with
  | nil => cases member
  | cons t reviewed ih =>
      rw [reviewedFingerprints, List.flatMap_cons, Dict.get?_append, Option.isSome_or]
      rcases List.mem_cons.mp member with rfl | later
      · simp [held]
      · have found := ih later
        rw [reviewedFingerprints] at found
        simp [found]

end Merge

/-- What a grant is for: every fresh survivor was argued equivalent, nothing else
was reviewed, and what was reviewed is the current source. -/
structure Justified (reviews : List ReviewDecision) (fresh : ScoringSurvivors) : Prop where
  argued : ∀ m ∈ fresh.mutants, ∃ r ∈ reviews, ∃ v ∈ r.verdicts, v.key = m.key ∧
    v.verdict = .equivalent ∧ v.divergenceRegion ≠ "" ∧ v.whyIndistinguishable ≠ ""
  covered : ∀ r ∈ reviews, (∀ s ∈ r.survivors, ∀ key ∈ s.keys, key ∈ fresh.keys) ∧
    ∀ v ∈ r.verdicts, v.key ∈ fresh.keys
  current : ∀ r ∈ reviews, ∀ s ∈ r.survivors, ∀ path digest,
    Dict.get? s.sourceFingerprints path = some digest →
      Dict.get? fresh.sourceFingerprints path = some digest

/-- No two reviews were made on different contents of one file. -/
def Agreeing (reviews : List ReviewDecision) : Prop :=
  ∀ r ∈ reviews, ∀ r' ∈ reviews, ∀ s ∈ r.survivors, ∀ s' ∈ r'.survivors, ∀ path digest digest',
    Dict.get? s.sourceFingerprints path = some digest →
      Dict.get? s'.sourceFingerprints path = some digest' → digest = digest'

/-- A grant is justified exactly when no two of its reviews disagree on a file. -/
theorem grant_justified_iff (py : Conversions) (reviews : List ReviewDecision)
    (fresh : Option ScoringSurvivors) (flags : GateFlags)
    (reached : ∀ r ∈ reviews, Reached py r)
    (granted : (decideGrant reviews fresh flags).granted = true) :
    ∃ survivors, fresh = some survivors ∧ (Justified reviews survivors ↔ Agreeing reviews) := by
  obtain ⟨accepted, survivors, rfl, keys, fingerprints⟩ := granted_cases granted
  simp only [sameKeys, Bool.and_eq_true, List.all_eq_true, decide_eq_true_eq, List.mem_flatMap,
    List.mem_filterMap] at keys
  have merged := (Dict.same_iff _ _).mp fingerprints
  refine ⟨survivors, rfl, ?_, ?_⟩
  · intro justified r member r' member' s own s' own' path digest digest' held held'
    have here := justified.current r member s own path digest held
    have there := justified.current r' member' s' own' path digest' held'
    exact Option.some.inj (here.symm.trans there)
  · intro agreeing
    constructor
    · intro m member
      obtain ⟨s, ⟨r, rMember, own⟩, key⟩ := keys.1 m.key (List.mem_map.mpr ⟨m, member, rfl⟩)
      obtain ⟨s', own', argued, _⟩ := reached_argued (reached r rMember) (accepted r rMember)
      cases own.symm.trans own'
      obtain ⟨v, verdict, rest⟩ := argued m.key key
      exact ⟨r, rMember, v, verdict, rest⟩
    · intro r member
      obtain ⟨s, own, _, only⟩ := reached_argued (reached r member) (accepted r member)
      have fresh : ∀ key ∈ s.keys, key ∈ survivors.keys := fun key reviewed =>
        keys.2 key ⟨s, ⟨r, member, own⟩, reviewed⟩
      refine ⟨fun s' own' => ?_, fun v verdict => fresh _ (only v verdict)⟩
      cases own.symm.trans own'
      exact fresh
    · intro r member s own path digest held
      have reviewed : s ∈ reviews.filterMap ReviewDecision.survivors :=
        List.mem_filterMap.mpr ⟨r, member, own⟩
      obtain ⟨digest', found⟩ := Option.isSome_iff_exists.mp
        (reviewedFingerprints_isSome reviewed held)
      obtain ⟨s', from_, held'⟩ := mem_of_reviewedFingerprints found
      obtain ⟨r', member', own'⟩ := List.mem_filterMap.mp from_
      rw [merged path, found, agreeing r member r' member' s own s' own' path digest digest' held held']

/-! Two reviews of one file. -/

/-- Conversions that are not met. -/
def noConversions : Conversions := ⟨fun _ => "", fun _ => none, fun _ => none, fun _ => none⟩

def survivorsAt (keys : List String) (digest : String) : ScoringSurvivors where
  language := "python"
  mutants := keys.map fun key => ⟨key, "a.py", 3, "or_to_and", "", ""⟩
  unreviewedScoringFailures := 0
  sourceFingerprints := [("a.py", digest)]
  mutationRate := zero
  mutationGate := zero

def answerFor (key : String) : List Char :=
  Json.print true (.obj [("verdicts", .arr [.obj [("key", .str key), ("verdict", .str "equivalent"),
    ("divergence_region", .str "a is empty"),
    ("why_indistinguishable", .str "both are 0")]])])

def reviewAt (key digest : String) : ReviewDecision where
  outcome := .allEquivalent
  reason := ""
  survivors := some (survivorsAt [key] digest)
  verdicts := [⟨key, .equivalent, "a is empty", "both are 0", []⟩]

theorem reviewAt_reached : ∀ r ∈ [reviewAt "m1" "old", reviewAt "m2" "new"],
    Reached noConversions r := by
  have turns : ∀ at_ ∈ [("m1", "old"), ("m2", "new")],
      reviewFromTurn noConversions (survivorsAt [at_.1] at_.2) (some (answerFor at_.1)) "" [] "" =
        some (reviewAt at_.1 at_.2) ∧
      savedReview noConversions (jsonDumps (.obj (reviewAt at_.1 at_.2).toFields)) =
        some (some (reviewAt at_.1 at_.2)) := by decide +kernel
  intro r member
  simp only [List.mem_cons, List.not_mem_nil, or_false] at member
  rcases member with rfl | rfl
  · exact ⟨_, _, _, _, _, _, turns ("m1", "old") (by simp)⟩
  · exact ⟨_, _, _, _, _, _, turns ("m2", "new") (by simp)⟩

def passingFlags : GateFlags := ⟨true, true, true⟩

/-- The first review was made on another content of the file. -/
theorem staleReview_granted :
    (∀ r ∈ [reviewAt "m1" "old", reviewAt "m2" "new"], Reached noConversions r) ∧
      (decideGrant [reviewAt "m1" "old", reviewAt "m2" "new"] (some (survivorsAt ["m1", "m2"] "new"))
        passingFlags).granted = true ∧
      ¬ Justified [reviewAt "m1" "old", reviewAt "m2" "new"] (survivorsAt ["m1", "m2"] "new") := by
  refine ⟨reviewAt_reached, by decide, fun justified => ?_⟩
  have current := justified.current _ (List.mem_cons_self ..) _ rfl "a.py" "old" (by decide)
  revert current
  decide

theorem currentReview_justified : ∃ survivors, some (survivorsAt ["m2"] "new") = some survivors ∧
    (Justified [reviewAt "m2" "new"] survivors ↔ Agreeing [reviewAt "m2" "new"]) := by
  refine grant_justified_iff noConversions _ _ passingFlags ?_ (by decide)
  intro r member
  exact reviewAt_reached r (List.mem_cons_of_mem _ member)

end Uta.Enforce
