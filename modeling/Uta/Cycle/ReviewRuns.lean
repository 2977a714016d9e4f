/- Runs of a review, from its preparation to its decision, with whatever the turn does between. -/
import Uta.Cycle.Review

namespace Uta.Cycle.Review
open Uta.Lib Uta.Enforce

/-! What happens to the workspace. -/

/-- Whatever the turn, or something else, does. -/
inductive Event (C : Type) where
  | edit (content : C)
  | change (change : Stamped.Change String Node)

section

variable {C T : Type}

def Workspace.meet (w : Workspace C) : Event C → Workspace C
  | .edit content => { w with content }
  | .change change => { w with files := w.files.change change }

/-- What a path holds was put there after it was removed. -/
theorem since_run {moment : ℕ} {path : String} {w : Workspace C}
    (since : w.files.Since moment path) (events : List (Event C)) :
    (run Workspace.meet w events).files.Since moment path := by
  have preserved : ∀ (w : Workspace C) (event : Event C), w.files.Since moment path →
      (w.meet event).files.Since moment path := by
    intro w event since
    cases event with
    | edit content => exact since
    | change change => exact Stamped.since_change since change
  exact run_invariant Workspace.meet preserved w events since

theorem since_renderPrompt {path : String} {w removed : Workspace C}
    (rendered : renderPrompt w path = some removed) :
    removed.files.Since w.files.moment path := by
  rw [renderPrompt] at rendered
  split at rendered
  · cases rendered
  · cases rendered
    exact Stamped.since_remove w.files path

/-! Fingerprints. -/

theorem split_line {a b c d : List Char} (first : '\n' ∉ a) (second : '\n' ∉ c)
    (same : a ++ '\n' :: b = c ++ '\n' :: d) : a = c ∧ b = d := by
  have front : ∀ {x y : List Char}, '\n' ∉ x → (x ++ '\n' :: y).takeWhile (· ≠ '\n') = x := by
    intro x y absent
    have whole : ∀ z ∈ x, decide (z ≠ '\n') = true := by
      intro z member
      exact decide_eq_true fun equal => absent (equal ▸ member)
    rw [List.takeWhile_append_of_pos whole, List.takeWhile_cons_of_neg (by decide),
      List.append_nil]
  have heads : a = c := by rw [← front first, same, front second]
  subst heads
  exact ⟨rfl, (List.cons.inj (List.append_cancel_left same)).2⟩

theorem gitOutput_answered (stdout : List Char) :
    gitOutput stdout (.exited 0) = PyText.strip stdout := rfl

theorem gitOutput_unanswered (stdout : List Char) {e : Ending} (failed : e ≠ .exited 0) :
    gitOutput stdout e = [] := by
  cases e with
  | exited returncode =>
      have other : returncode ≠ 0 := by
        rintro rfl
        exact failed rfl
      rw [gitOutput, if_pos other]
  | timedOut => rfl
  | osError => rfl

variable (git : Git C T)

theorem headText_single (c : C) (e : Endings) : '\n' ∉ headText git c e := by
  rw [headText]
  by_cases answered : e.head = .exited 0
  · rw [answered, gitOutput_answered]
    exact git.single c
  · rw [gitOutput_unanswered _ answered]
    exact List.not_mem_nil

/-- Two fingerprints are one where the answers are. -/
theorem fingerprint_eq_iff (hash : Hashing) {c c' : C} {e e' : Endings} {tree : String}
    (made : trackedTreeFingerprint hash git c e = some tree) :
    trackedTreeFingerprint hash git c' e' = some tree ↔
      headText git c e = headText git c' e' ∧ diffText git c e = diffText git c' e' := by
  rw [trackedTreeFingerprint] at made ⊢
  split at made
  · cases made
  · next filled =>
    cases made
    constructor
    · intro same
      split at same
      · cases same
      · have texts := hash.injective (Option.some_inj.mp same)
        obtain ⟨heads, diffs⟩ :=
          split_line (headText_single git c' e') (headText_single git c e) texts
        exact ⟨heads.symm, diffs.symm⟩
    · rintro ⟨heads, diffs⟩
      rw [← heads, ← diffs, if_neg filled]

theorem fingerprint_filled (hash : Hashing) {c : C} {e : Endings} {tree : String}
    (made : trackedTreeFingerprint hash git c e = some tree) : tree ≠ "" ∧ e.head = .exited 0 := by
  rw [trackedTreeFingerprint] at made
  split at made
  · cases made
  · next filled =>
    cases made
    refine ⟨hash.filled _, ?_⟩
    by_contra failed
    exact filled (by rw [headText, gitOutput_unanswered _ failed]; rfl)

end

/-! Attempts. -/

def preparedEvidence (state : CycleState) (projection : Projection) (survivors : ScoringSurvivors)
    (tree : String) : Evidence :=
  { projection.evidence with
    survivors := some survivors.toFields
    verdictsPath := verdictsFile state.unitId
    tree }

/-- A stalled phase fails, or its survivors and its tree are kept for a review. -/
theorem prepareReview_cases (settings : Settings) (phase : String) (state : CycleState)
    {projection : Projection} (reader : Option (CycleState → Option ScoringSurvivors))
    (fingerprint : Option String) (stalled : projection.phaseOutcome = "failed") :
    (prepareReview settings phase state projection reader fingerprint).phaseOutcome = "failed" ∨
    ∃ survivors tree,
      (reader.bind fun read => read (withResult phase state projection)) = some survivors ∧
      fingerprint = some tree ∧
      (prepareReview settings phase state projection reader fingerprint).evidence =
        preparedEvidence state projection survivors tree := by
  rw [prepareReview]
  split
  · exact .inl stalled
  · simp only
    split
    · exact .inl stalled
    · next eligible =>
      cases fingerprint with
      | none => exact .inl stalled
      | some tree =>
          cases given : reader.bind fun read => read (withResult phase state projection) with
          | none =>
              have unproven : ineligibility none settings.reviewMax = "survivors_unproven" := rfl
              rw [given, unproven] at eligible
              exact absurd (by decide) eligible
          | some survivors => exact .inr ⟨survivors, tree, rfl, rfl, rfl⟩

/-- A review that was prepared, asked for and answered. -/
structure Attempt {C T : Type} (hash : Hashing) (git : Git C T) where
  settings : Settings
  phase : String
  state : CycleState
  projection : Projection
  scoringSurvivors : Option (CycleState → Option ScoringSurvivors)
  /-- The workspace when the review is prepared. -/
  start : Workspace C
  prepared : Endings
  /-- Until the prompt. -/
  earlier : List (Event C)
  /-- The workspace after the prompt is rendered. -/
  asked : Workspace C
  /-- From the prompt on, the turn among it. -/
  later : List (Event C)
  turn : Option Turn
  answerState : CycleState
  interpreted : Endings
  stalled : projection.phaseOutcome = "failed"
  routed : (prepareReview settings phase state projection scoringSurvivors
    (trackedTreeFingerprint hash git start.content prepared)).phaseOutcome = reviewOutcome
  carried : reviewEvidence answerState = some (prepareReview settings phase state projection
    scoringSurvivors (trackedTreeFingerprint hash git start.content prepared)).evidence
  rendered : renderPrompt (run Workspace.meet start earlier) (prepareReview settings phase state
    projection scoringSurvivors
    (trackedTreeFingerprint hash git start.content prepared)).evidence.verdictsPath = some asked

namespace Attempt

variable {C T : Type} {hash : Hashing} {git : Git C T} (py : Conversions) (r : Attempt hash git)

def evidence : Evidence :=
  (prepareReview r.settings r.phase r.state r.projection r.scoringSurvivors
    (trackedTreeFingerprint hash git r.start.content r.prepared)).evidence

/-- The workspace when the review is interpreted. -/
def finish : Workspace C := run Workspace.meet r.asked r.later

/-- The moment of the removal. -/
def removal : ℕ := (run Workspace.meet r.start r.earlier).files.moment

/-- What is recorded; `none` is an exception. -/
def decision : Option ReviewDecision :=
  (interpret py hash git r.answerState r.turn r.finish r.interpreted).bind fun projection =>
    projection.evidence.review

/-- The mutants that the review is about. -/
def keys : List String :=
  ((r.scoringSurvivors.bind fun reader => reader (withResult r.phase r.state r.projection)).map
    ScoringSurvivors.keys).getD []

def Unchanged : Prop := git.tracked r.start.content = git.tracked r.finish.content

def Completed : Prop := statedStatus r.turn r.answerState = "completed"

/-- What is read was put at its path after the path was emptied. -/
def Fresh : Prop := ∃ held ∈ r.finish.files.held r.evidence.verdictsPath, r.removal ≤ held.2

/-- Git states the name of HEAD and the difference, both times. -/
def GitStates : Prop :=
  r.prepared = ⟨.exited 0, .exited 0⟩ ∧ r.interpreted = ⟨.exited 0, .exited 0⟩

/-- The answers of git are the same texts, an answer that it does not give being an empty one. -/
def Agree : Prop :=
  headText git r.start.content r.prepared = headText git r.finish.content r.interpreted ∧
    diffText git r.start.content r.prepared = diffText git r.finish.content r.interpreted

/-- The answers differ, or a status is stated that is not `completed`. -/
def Refused : Prop :=
  ¬ r.Agree ∨
    (statedStatus r.turn r.answerState ≠ "" ∧ statedStatus r.turn r.answerState ≠ "completed")

/-- The text of the verdicts. -/
def text : Option (List Char) := readVerdictsFile r.finish r.evidence.verdictsPath

/-- The verdicts argue for each mutant and no other. -/
def Granting : Prop := ∃ items, answered r.text = some items ∧ Grants py r.keys items

/-- No entry of the verdicts stops the reader. -/
def Readable : Prop := Loops py r.text r.keys

/-- What is recorded is what the review may conclude. -/
structure Right : Prop where
  accepted : ∀ d, r.decision py = some d → d.outcome = .allEquivalent →
    r.Unchanged ∧ r.Completed ∧ r.Fresh
  unstated : ¬ r.GitStates → ∃ d, r.decision py = some d ∧ d.outcome = .rejected

variable {py r}

/-- What was prepared. -/
theorem evidence_eq : ∃ survivors tree,
    (r.scoringSurvivors.bind fun reader => reader (withResult r.phase r.state r.projection)) =
      some survivors ∧
    trackedTreeFingerprint hash git r.start.content r.prepared = some tree ∧
    r.evidence = preparedEvidence r.state r.projection survivors tree := by
  rcases prepareReview_cases r.settings r.phase r.state r.scoringSurvivors
      (trackedTreeFingerprint hash git r.start.content r.prepared) r.stalled with
    failed | ⟨survivors, tree, given, made, own⟩
  · have routed := r.routed
    rw [failed] at routed
    exact absurd routed (by decide)
  · exact ⟨survivors, tree, given, made, own⟩

variable (py r)

/-- The request that is read is the one that was prepared. -/
theorem request_eq : ∃ request, reviewRequest py r.answerState = some (some request) ∧
    request.verdictsPath = r.evidence.verdictsPath ∧ request.survivors.keys = r.keys ∧
    trackedTreeFingerprint hash git r.start.content r.prepared = some request.tree := by
  obtain ⟨survivors, tree, given, made, own⟩ := r.evidence_eq
  obtain ⟨read, same⟩ : ∃ s', survivorsFromDict py survivors.toFields = some s' ∧
      s'.Same survivors := survivorsFromDict_held py survivors.held
  obtain ⟨found, same⟩ := same
  refine ⟨⟨read, r.evidence.verdictsPath, tree⟩, ?_, rfl, ?_, made⟩
  · have carried : reviewEvidence r.answerState = some r.evidence := r.carried
    rw [reviewRequest, carried, own]
    simp only [requestOf, preparedEvidence, Option.getD_some, found, Option.map_some]
  · change ScoringSurvivors.keys read = r.keys
    rw [keys, given, Option.map_some, Option.getD_some, ScoringSurvivors.keys, same.mutants]
    rfl

/-- What is decided: a refusal, an exception in the reader of the verdicts, or what they say. -/
theorem decision_cases :
    (r.Refused ∧ ∃ d, r.decision py = some d ∧ d.outcome = .rejected) ∨
    (¬ r.Refused ∧ ¬ r.Readable py ∧ r.decision py = none) ∨
    (¬ r.Refused ∧ r.Readable py ∧ ∃ d, r.decision py = some d ∧
      (d.outcome = .allEquivalent ↔ r.Granting py) ∧
      (d.outcome = .rejected ↔ ¬ r.Granting py)) := by
  obtain ⟨request, read, path, keys, made⟩ := r.request_eq py
  have decided : r.decision py =
      decide_ py hash git request r.turn r.answerState r.finish r.interpreted := by
    rw [decision, interpret, read, Option.bind_some]
    simp only
    generalize decide_ py hash git request r.turn r.answerState r.finish r.interpreted = answer
    cases answer <;> rfl
  have same : trackedTreeFingerprint hash git r.finish.content r.interpreted =
      some request.tree ↔ r.Agree := fingerprint_eq_iff git hash made
  have filled := (fingerprint_filled git hash made).1
  rw [decided, decide_]
  simp only [filled, false_or]
  by_cases agree : r.Agree
  · rw [if_neg (not_not_intro (same.mpr agree))]
    by_cases stated : statedStatus r.turn r.answerState ≠ "" ∧
        statedStatus r.turn r.answerState ≠ "completed"
    · rw [if_pos stated]
      exact .inl ⟨.inr stated, _, rfl, rfl⟩
    · rw [if_neg stated]
      have passed : ¬ r.Refused := not_or.mpr ⟨not_not_intro agree, stated⟩
      rw [reviewFromTurn, keys, path]
      rcases parseVerdicts_grants py (readVerdictsFile r.finish r.evidence.verdictsPath) r.keys with
        ⟨raises, stops⟩ | ⟨parsed, done, loops, grants⟩
      · exact .inr (.inl ⟨passed, stops, by rw [raises, Option.map_none]⟩)
      · refine .inr (.inr ⟨passed, loops, _, by rw [done, Option.map_some], ?_⟩)
        have granting : parsed.outcome = .allEquivalent ↔ r.Granting py := grants
        rw [← granting]
        cases parsed.outcome <;> simp
  · rw [if_pos fun equal => agree (same.mp equal)]
    exact .inl ⟨.inl agree, _, rfl, rfl⟩

/-- Verdicts that grant were put at their path after it was emptied. -/
theorem fresh_of_granting (granting : r.Granting py) : r.Fresh := by
  obtain ⟨items, read, _⟩ := granting
  have since : r.finish.files.Since r.removal r.evidence.verdictsPath :=
    since_run (since_renderPrompt r.rendered) r.later
  cases held : r.finish.files.held r.evidence.verdictsPath with
  | none =>
      have empty : r.text = none := by rw [text, readVerdictsFile, held]
      rw [empty] at read
      cases read
  | some node => exact ⟨node, held, since.later node held⟩

variable {py r}

/-- Where git states both, the same answers are the same content. -/
theorem unchanged_of_agree (states : r.GitStates) (agree : r.Agree) : r.Unchanged := by
  obtain ⟨before, after⟩ := states
  obtain ⟨heads, diffs⟩ := agree
  rw [before, after] at heads diffs
  exact git.tells _ _ heads diffs

variable (py r)

/-- What is recorded is right exactly where the review is refused before the verdicts are read, or
git states both trees and the turn's completion is stated, or the verdicts do not grant. -/
theorem reviewed_right_iff : r.Right py ↔
    r.Refused ∨ (r.GitStates ∧ r.Completed) ∨ (r.GitStates ∧ ¬ (r.Readable py ∧ r.Granting py)) ∨
      (r.Readable py ∧ ¬ r.Granting py) := by
  rcases r.decision_cases py with ⟨refused, d, decided, rejected⟩ | ⟨passed, stops, raises⟩ |
    ⟨passed, reads, d, decided, accepts, rejects⟩
  · refine ⟨fun _ => .inl refused, fun _ => ⟨fun d' own accepted => ?_, fun _ => ?_⟩⟩
    case refine_2 => exact ⟨d, decided, rejected⟩
    rw [decided, Option.some_inj] at own
    rw [← own, rejected] at accepted
    cases accepted
  · have right : r.Right py ↔ r.GitStates := by
      constructor
      · intro right
        by_contra unstated
        obtain ⟨d, decided, _⟩ := right.unstated unstated
        rw [raises] at decided
        cases decided
      · refine fun states => ⟨fun d decided => ?_, fun unstated => absurd states unstated⟩
        rw [raises] at decided
        cases decided
    rw [right]
    tauto
  · have right : r.Right py ↔ (r.Granting py → r.GitStates ∧ r.Completed) := by
      constructor
      · intro right granting
        refine ⟨?_, (right.accepted d decided (accepts.mpr granting)).2.1⟩
        by_contra unstated
        obtain ⟨d', decided', rejected⟩ := right.unstated unstated
        rw [decided, Option.some_inj] at decided'
        exact rejects.mp (decided' ▸ rejected) granting
      · intro holds
        constructor
        · intro d' own accepted
          rw [decided, Option.some_inj] at own
          have granting := accepts.mp (own ▸ accepted)
          have agree : r.Agree := not_not.mp (not_or.mp passed).1
          exact ⟨unchanged_of_agree (holds granting).1 agree, (holds granting).2,
            r.fresh_of_granting py granting⟩
        · intro unstated
          exact ⟨d, decided, rejects.mpr fun granting => unstated (holds granting).1⟩
    rw [right]
    tauto

end Attempt

/-! A turn that edits a tracked file before a difference that is not stated in time. -/

def textHashing : Hashing where
  hexdigest text := String.ofList ('#' :: text)
  filled text empty := by
    have texts := congrArg String.toList empty
    rw [String.toList_ofList] at texts
    cases texts
  injective a b same := by
    have texts := congrArg String.toList same
    rw [String.toList_ofList, String.toList_ofList] at texts
    exact (List.cons.inj texts).2

/-- A repository with one file, which is edited or not. -/
def oneFile : Git Bool Bool where
  head _ := "a1".toList
  diff edited := if edited then "-x = 1\n+x = 2".toList else []
  tracked := id
  single := by decide
  tells := by decide

def stalledProjection : Projection :=
  { phaseOutcome := "failed", evidence := { failureReason := noProgressReason } }

def repairState : CycleState := { qualityMode := "ci_incremental", unitId := "u1" }

def cleanWorkspace : Workspace Bool := ⟨false, ⟨fun _ => none, 0⟩⟩

def oneSurvivor : Option (CycleState → Option ScoringSurvivors) :=
  some fun _ => some (survivorsAt ["m1"] "sha")

def preparedProjection : Projection :=
  prepareReview ⟨30, 600⟩ "measure_mutation" repairState stalledProjection oneSurvivor
    (trackedTreeFingerprint textHashing oneFile false ⟨.exited 0, .exited 0⟩)

def editedReview : Attempt textHashing oneFile where
  settings := ⟨30, 600⟩
  phase := "measure_mutation"
  state := repairState
  projection := stalledProjection
  scoringSurvivors := oneSurvivor
  start := cleanWorkspace
  prepared := ⟨.exited 0, .exited 0⟩
  earlier := []
  asked :=
    { cleanWorkspace with files := cleanWorkspace.files.change (.remove (verdictsFile "u1")) }
  later := [.edit true, .change (.put (verdictsFile "u1") (.file 150 (answerFor "m1") true))]
  turn := some { status := "completed" }
  answerState := withResult "measure_mutation" repairState preparedProjection
  interpreted := ⟨.exited 0, .timedOut⟩
  stalled := rfl
  routed := rfl
  carried := rfl
  rendered := rfl

theorem editedReview_accepted :
    (editedReview.decision noConversions).map ReviewDecision.outcome = some .allEquivalent ∧
      ¬ editedReview.Unchanged ∧ ¬ editedReview.Right noConversions := by
  have accepted : (editedReview.decision noConversions).map ReviewDecision.outcome =
      some .allEquivalent := by decide +kernel
  have changed : ¬ editedReview.Unchanged := nofun
  refine ⟨accepted, changed, fun right => ?_⟩
  obtain ⟨d, decided, outcome⟩ := Option.map_eq_some_iff.mp accepted
  exact changed (right.accepted d decided outcome).1

end Uta.Cycle.Review
