/- Repair progress over traces: what the state keeps of a trace of measurements,
and when a repair is refused. A trace stands with its latest round first. -/
import Uta.Generation.RepairProgress
import Mathlib.Algebra.Order.Ring.Rat

namespace Uta.Generation
open Uta.Lib.Marks

/-- A measurement, and the counters and the model that stand when it is judged. -/
structure Round (α : Type) where
  attemptsByPhase : Named ℤ := ∅
  maxAttemptsByPhase : Named ℤ := ∅
  mainModel : Option String := none
  phase : String
  result : PhaseResult α

namespace Round
variable {α : Type}

def enter (r : Round α) (state : CycleState α) : CycleState α :=
  { state with
    attemptsByPhase := r.attemptsByPhase
    maxAttemptsByPhase := r.maxAttemptsByPhase
    mainModel := r.mainModel }

def kind (r : Round α) : Option RepairKind := decidedKind r.phase r.result

/-- The history that the round is recorded under. -/
def history (r : Round α) : Option String := r.kind.map fun kind => historyPhase kind r.result.evidence

/-- The phase whose turns the round would spend. -/
def repairPhase (r : Round α) : Option String :=
  r.kind.map fun kind => repairPhaseOf kind r.result.evidence

def attempts (r : Round α) (repairPhase : String) : ℤ :=
  (r.attemptsByPhase.lookup repairPhase).getD 0

def hardCap (r : Round α) (repairPhase : String) : ℤ :=
  (r.maxAttemptsByPhase.lookup repairPhase).getD defaultHardCap

def scores (r : Round α) : Named α := Generation.scores r.result.evidence.scoresByTarget

/-- The scores that the round adds to a history. -/
def adds (r : Round α) (history : String) : Named α := if r.history = some history then r.scores else ∅

/-- A turn of the round's own repair phase was spent before it. -/
def Spent (r : Round α) : Prop := ∃ p ∈ r.repairPhase, 0 < r.attempts p

instance (r : Round α) : Decidable r.Spent := inferInstanceAs (Decidable (∃ p ∈ r.repairPhase, _))

end Round

section Trace
variable {α : Type} [LinearOrder α] (plusEpsilon : α → α)

def Round.projection (r : Round α) (state : CycleState α) : Projection α :=
  applyRepairProgress plusEpsilon r.phase (r.enter state) r.result

def Round.advance (r : Round α) (state : CycleState α) : CycleState α :=
  (r.enter state).project (r.projection plusEpsilon state)

/-- The state that a trace leaves. -/
def stateAfter : List (Round α) → CycleState α
  | [] => {}
  | r :: earlier => r.advance plusEpsilon (stateAfter earlier)

/-! What a trace says, the state apart. -/

/-- The scores measured for a target of a history. -/
def measured (history target : String) (trace : List (Round α)) : List α :=
  trace.filterMap fun r => (r.adds history).lookup target

/-- The round improved on what its history had measured for some target. -/
def improves (history : String) (earlier : List (Round α)) (r : Round α) : Bool :=
  r.scores.entries.any fun e => beats plusEpsilon (measured history e.1 earlier).maximum e.2

/-- The rounds since the last one that improved its history or passed. -/
def sinceReset (history : String) : List (Round α) → List (Round α)
  | [] => []
  | r :: earlier =>
    if r.history = some history ∧
        (r.result.phaseOutcome = "passed" ∨ improves plusEpsilon history earlier r = true) then []
    else r :: sinceReset history earlier

/-- The rounds without an improvement that count: measured, after a repair turn. -/
def stalled (history : String) (trace : List (Round α)) : ℕ :=
  (sinceReset plusEpsilon history trace).countP fun r =>
    r.history = some history ∧ r.scores.entries ≠ [] ∧ r.Spent

/-- The round's request for a repair is granted, and spends a turn of the phase. -/
def Grants (repairPhase : String) (earlier : List (Round α)) (r : Round α) : Prop :=
  r.repairPhase = some repairPhase ∧
    (r.projection plusEpsilon (stateAfter plusEpsilon earlier)).phaseOutcome = "repair"

instance (repairPhase : String) (earlier : List (Round α)) (r : Round α) :
    Decidable (Grants plusEpsilon repairPhase earlier r) :=
  inferInstanceAs (Decidable (_ ∧ _))

def granted (repairPhase : String) : List (Round α) → ℕ
  | [] => 0
  | r :: earlier =>
    granted repairPhase earlier + if Grants plusEpsilon repairPhase earlier r then 1 else 0

/-- Every granted repair increments the counter of its phase, and nothing lowers
it or moves its cap. -/
def Increments (repairPhase : String) (start cap : ℤ) : List (Round α) → Prop
  | [] => True
  | [r] => r.attempts repairPhase = start ∧ r.hardCap repairPhase = cap
  | r :: q :: earlier =>
    q.attempts repairPhase + (if Grants plusEpsilon repairPhase earlier q then 1 else 0) ≤
        r.attempts repairPhase ∧
      r.hardCap repairPhase = cap ∧ Increments repairPhase start cap (q :: earlier)

end Trace

/-! The decision. -/

theorem scores_recorded {α : Type} (marks : Named α) : scores (recorded marks) = marks := by
  apply AList.ext
  change (marks.entries.filterMap (keep _)).filterMap (keep _) = marks.entries
  rw [List.filterMap_filterMap]
  exact List.filterMap_some

section Decision
variable {α : Type} [LinearOrder α] {plusEpsilon : α → α}

theorem judge_best (es : List ((_ : String) × α)) (read : Named α × List String) :
    (es.foldl (judge plusEpsilon) read).1 = es.foldl raise read.1 := by
  induction es generalizing read with
  | nil => rfl
  | cons e es ih => exact ih (judge plusEpsilon read e)

/-- As the names are distinct, every score is held against the best ones before the loop. -/
theorem judge_improved {es : List ((_ : String) × α)} (nodup : es.NodupKeys)
    (read : Named α × List String) :
    (es.foldl (judge plusEpsilon) read).2 =
      read.2 ++ (es.filter fun e => beats plusEpsilon (mark read.1 e.1) e.2).map Sigma.fst := by
  induction es generalizing read with
  | nil => simp
  | cons e es ih =>
      obtain ⟨fresh, rest⟩ := List.nodupKeys_cons.mp nodup
      have same : ∀ f ∈ es, mark (raise read.1 e) f.1 = mark read.1 f.1 := by
        intro f member
        apply mark_raise_ne
        intro own
        apply fresh
        rw [own]
        exact List.mem_keys_of_mem member
      have later : es.filter (fun f => beats plusEpsilon (mark (raise read.1 e) f.1) f.2) =
          es.filter fun f => beats plusEpsilon (mark read.1 f.1) f.2 := by
        apply List.filter_congr
        intro f member
        rw [same f member]
      rw [List.foldl_cons, ih rest (judge plusEpsilon read e), List.filter_cons]
      dsimp only [judge]
      rw [later]
      split
      · rw [List.map_cons, List.append_assoc, List.singleton_append]
      · rfl

variable {kind : String} {reported previous : Named (Reported α)} {attempts hardCap streak : ℤ}

/-- What was read, and the streak, do not depend on the answer. -/
theorem decision_read :
    let decision := decideRepairProgress plusEpsilon kind reported previous attempts hardCap streak
    let read := (scores reported).entries.foldl (judge plusEpsilon) (scores previous, [])
    decision.bestScores = read.1 ∧ decision.improved = read.2 ∧
      decision.noProgressTurns = flatStreak read.2 (scores reported).entries attempts streak := by
  unfold decideRepairProgress
  dsimp only
  split
  · exact ⟨rfl, rfl, rfl⟩
  · split
    · exact ⟨rfl, rfl, rfl⟩
    · exact ⟨rfl, rfl, rfl⟩

theorem decision_refused :
    let decision := decideRepairProgress plusEpsilon kind reported previous attempts hardCap streak
    decision.shouldRepair = false ↔ hardCap ≤ attempts ∨
      decision.improved = [] ∧ (scores reported).entries ≠ [] ∧ 2 ≤ decision.noProgressTurns := by
  obtain ⟨-, improved, turns⟩ := @decision_read α _ plusEpsilon kind reported previous attempts
    hardCap streak
  dsimp only
  rw [improved, turns]
  unfold decideRepairProgress
  dsimp only
  split
  · next reached => simp [reached]
  · next below =>
    split
    · next stuck => exact ⟨fun _ => .inr stuck, fun _ => rfl⟩
    · next moving => exact ⟨fun h => (nomatch h), fun h => absurd (h.resolve_left below) moving⟩

theorem decision_mark (target : String) :
    mark (decideRepairProgress plusEpsilon kind reported previous attempts hardCap streak).bestScores
      target = max (mark (scores previous) target) (mark (scores reported) target) := by
  rw [decision_read.1, judge_best]
  exact mark_foldl_raise _ (scores reported).nodupKeys target

theorem decision_improved :
    (decideRepairProgress plusEpsilon kind reported previous attempts hardCap streak).improved ≠ [] ↔
      ((scores reported).entries.any fun e => beats plusEpsilon (mark (scores previous) e.1) e.2) =
        true := by
  rw [decision_read.2.1, judge_improved (scores reported).nodupKeys]
  simp [List.filter_eq_nil_iff]

end Decision

/-! One round. -/

section Step
variable {α : Type} {r : Round α} {state : CycleState α} {kind : RepairKind}

theorem history_decided (decided : r.kind = some kind) :
    r.history = some (historyPhase kind r.result.evidence) := by
  rw [Round.history, decided, Option.map_some]

theorem repairPhase_decided (decided : r.kind = some kind) :
    r.repairPhase = some (repairPhaseOf kind r.result.evidence) := by
  rw [Round.repairPhase, decided, Option.map_some]

theorem bestScoresFor_enter (history : String) :
    bestScoresFor (r.enter state) history = bestScoresFor state history := rfl

theorem spent_iff (decided : r.kind = some kind) :
    r.Spent ↔ 0 < r.attempts (repairPhaseOf kind r.result.evidence) := by
  unfold Round.Spent
  rw [repairPhase_decided decided]
  simp

variable [LinearOrder α] {plusEpsilon : α → α}

theorem advance_undecided (undecided : r.kind = none) :
    r.advance plusEpsilon state = r.enter state := by
  unfold Round.advance Round.projection applyRepairProgress
  rw [show decidedKind r.phase r.result = none from undecided]
  rfl

theorem projection_decided (decided : r.kind = some kind) :
    r.projection plusEpsilon state = decidedProjection plusEpsilon kind (r.enter state) r.result := by
  unfold Round.projection applyRepairProgress
  rw [show decidedKind r.phase r.result = some kind from decided]

/-- The best scores of the round's own history are those of its decision, and the
other histories stay. -/
theorem bestScoresFor_decided (decided : r.kind = some kind) (history : String) :
    bestScoresFor (r.advance plusEpsilon state) history =
      if historyPhase kind r.result.evidence = history then
        (decisionOn plusEpsilon kind (r.enter state) r.result).bestScores
      else bestScoresFor state history := by
  unfold Round.advance
  rw [projection_decided decided]
  dsimp only [decidedProjection, CycleState.project, bestScoresFor, mergedBestScores]
  rw [lookup_select]
  split
  · next own =>
    subst own
    rw [AList.lookup_insert]
    exact scores_recorded _
  · next other =>
    rw [AList.lookup_insert_ne (Ne.symm other), lookup_select]
    change scores (((state.bestScoresByPhase.lookup history).bind _).bind _ |>.getD ∅) = _
    cases state.bestScoresByPhase.lookup history with
    | none => rfl
    | some marks => exact scores_recorded (scores marks)

theorem noProgress_decided (decided : r.kind = some kind) (history : String) :
    (r.advance plusEpsilon state).noProgress history =
      if historyPhase kind r.result.evidence = history then
        if r.result.phaseOutcome = "passed" then 0
        else (decisionOn plusEpsilon kind (r.enter state) r.result).noProgressTurns
      else state.noProgress history := by
  unfold Round.advance
  rw [projection_decided decided]
  dsimp only [decidedProjection, CycleState.project, CycleState.noProgress]
  by_cases own : historyPhase kind r.result.evidence = history
  · subst own
    rw [AList.lookup_insert, Option.getD_some, if_pos rfl]
    by_cases refused : r.result.phaseOutcome = "repair" ∧
        (decisionOn plusEpsilon kind (r.enter state) r.result).shouldRepair = false
    · rw [if_pos refused, refused.1]
      rfl
    · rw [if_neg refused]
  · rw [AList.lookup_insert_ne (Ne.symm own), if_neg own]
    rfl

/-- A round adds its scores to its own history. -/
theorem mark_advance (history target : String) :
    mark (bestScoresFor (r.advance plusEpsilon state) history) target =
      max (mark (bestScoresFor state history) target) (mark (r.adds history) target) := by
  cases decided : r.kind with
  | none =>
      have apart : r.history ≠ some history := by
        rw [Round.history, decided]
        exact fun h => (nomatch h)
      rw [advance_undecided decided, Round.adds, if_neg apart]
      exact (max_eq_left bot_le).symm
  | some kind =>
      rw [bestScoresFor_decided decided, Round.adds, history_decided decided]
      by_cases own : historyPhase kind r.result.evidence = history
      · subst own
        rw [if_pos rfl, if_pos rfl, decisionOn, decision_mark, scores_recorded]
        rfl
      · rw [if_neg own, if_neg fun h => own (Option.some.inj h)]
        exact (max_eq_left bot_le).symm

/-- A round leaves the histories of the other keys alone. -/
theorem advance_elsewhere {history : String} (other : r.history ≠ some history) :
    bestScoresFor (r.advance plusEpsilon state) history = bestScoresFor state history ∧
      (r.advance plusEpsilon state).noProgress history = state.noProgress history := by
  cases decided : r.kind with
  | none =>
      rw [advance_undecided decided]
      exact ⟨rfl, rfl⟩
  | some kind =>
      rw [history_decided decided] at other
      have apart : ¬ historyPhase kind r.result.evidence = history :=
        fun same => other (congrArg some same)
      rw [bestScoresFor_decided decided, noProgress_decided decided, if_neg apart, if_neg apart]
      exact ⟨rfl, rfl⟩

end Step

/-! Traces. -/

section Laws
variable {α : Type} [LinearOrder α] {plusEpsilon : α → α}

theorem measured_cons (history target : String) (r : Round α) (earlier : List (Round α)) :
    (measured history target (r :: earlier)).maximum =
      max (measured history target earlier).maximum (mark (r.adds history) target) := by
  unfold measured
  cases held : (r.adds history).lookup target with
  | none =>
      rw [List.filterMap_cons_none (by exact held), mark_none held]
      exact (max_eq_left bot_le).symm
  | some v =>
      rw [List.filterMap_cons_some (by exact held), mark_some held, List.maximum_cons, max_comm]

/-- The best scores are the maxima of what was measured. -/
theorem best_measured (trace : List (Round α)) (history target : String) :
    mark (bestScoresFor (stateAfter plusEpsilon trace) history) target =
      (measured history target trace).maximum := by
  induction trace with
  | nil => rfl
  | cons r earlier ih => rw [stateAfter, mark_advance, ih, measured_cons]

theorem measured_append (history target : String) (later earlier : List (Round α)) :
    (measured history target earlier).maximum ≤ (measured history target (later ++ earlier)).maximum := by
  apply List.maximum_mono
  unfold measured
  rw [List.filterMap_append]
  exact List.subset_append_right _ _

section Round
variable {r : Round α} {kind : RepairKind}

theorem improved_iff (earlier : List (Round α)) :
    (decisionOn plusEpsilon kind (r.enter (stateAfter plusEpsilon earlier)) r.result).improved ≠ [] ↔
      improves plusEpsilon (historyPhase kind r.result.evidence) earlier r = true := by
  rw [decisionOn, decision_improved, scores_recorded, bestScoresFor_enter, improves]
  have same : ∀ e : (_ : String) × α,
      mark (bestScoresFor (stateAfter plusEpsilon earlier) (historyPhase kind r.result.evidence)) e.1 =
        (measured (historyPhase kind r.result.evidence) e.1 earlier).maximum :=
    fun e => best_measured earlier _ e.1
  simp only [same]
  rfl

theorem decision_turns (state : CycleState α) :
    (decisionOn plusEpsilon kind (r.enter state) r.result).noProgressTurns =
      flatStreak (decisionOn plusEpsilon kind (r.enter state) r.result).improved r.scores.entries
        (r.attempts (repairPhaseOf kind r.result.evidence))
        (state.noProgress (historyPhase kind r.result.evidence)) := by
  obtain ⟨-, improved, turns⟩ := @decision_read α _ plusEpsilon kind.value
    r.result.evidence.scoresByTarget
    (recorded (bestScoresFor (r.enter state) (historyPhase kind r.result.evidence)))
    ((r.enter state).attempts (repairPhaseOf kind r.result.evidence))
    ((r.enter state).hardCap (repairPhaseOf kind r.result.evidence))
    ((r.enter state).noProgress (historyPhase kind r.result.evidence))
  rw [decisionOn, improved]
  exact turns

theorem decisionOn_refused (state : CycleState α) :
    (decisionOn plusEpsilon kind (r.enter state) r.result).shouldRepair = false ↔
      r.hardCap (repairPhaseOf kind r.result.evidence) ≤
          r.attempts (repairPhaseOf kind r.result.evidence) ∨
        (decisionOn plusEpsilon kind (r.enter state) r.result).improved = [] ∧ r.scores.entries ≠ [] ∧
          2 ≤ (decisionOn plusEpsilon kind (r.enter state) r.result).noProgressTurns :=
  decision_refused

theorem stalled_other {history : String} (other : r.history ≠ some history)
    (earlier : List (Round α)) :
    stalled plusEpsilon history (r :: earlier) = stalled plusEpsilon history earlier := by
  rw [stalled, sinceReset, if_neg fun h => other h.1, List.countP_cons_of_neg]
  · rfl
  · exact fun h => other (of_decide_eq_true h).1

theorem stalled_own {history : String} (own : r.history = some history) (earlier : List (Round α)) :
    stalled plusEpsilon history (r :: earlier) =
      if r.result.phaseOutcome = "passed" ∨ improves plusEpsilon history earlier r = true then 0
      else stalled plusEpsilon history earlier + if r.scores.entries ≠ [] ∧ r.Spent then 1 else 0 := by
  rw [stalled, sinceReset]
  by_cases reset : r.result.phaseOutcome = "passed" ∨ improves plusEpsilon history earlier r = true
  · rw [if_pos ⟨own, reset⟩, if_pos reset, List.countP_nil]
  · rw [if_neg fun h => reset h.2, if_neg reset, List.countP_cons, stalled]
    simp only [own, true_and, decide_eq_true_eq]

/-- The streak of a round's decision is the count of its history, unless the round passed. -/
theorem decision_stalled (decided : r.kind = some kind) (open_ : r.result.phaseOutcome ≠ "passed")
    {earlier : List (Round α)}
    (counted : (stateAfter plusEpsilon earlier).noProgress (historyPhase kind r.result.evidence) =
      stalled plusEpsilon (historyPhase kind r.result.evidence) earlier) :
    (decisionOn plusEpsilon kind (r.enter (stateAfter plusEpsilon earlier)) r.result).noProgressTurns =
      stalled plusEpsilon (historyPhase kind r.result.evidence) (r :: earlier) := by
  have improved := @improved_iff α _ plusEpsilon r kind earlier
  rw [decision_turns, flatStreak, counted, stalled_own (history_decided decided)]
  by_cases better : improves plusEpsilon (historyPhase kind r.result.evidence) earlier r = true
  · rw [if_pos (improved.mpr better), if_pos (.inr better)]
    rfl
  · have flat : ¬ (r.result.phaseOutcome = "passed" ∨
        improves plusEpsilon (historyPhase kind r.result.evidence) earlier r = true) :=
      fun h => h.elim open_ better
    rw [if_neg fun h => better (improved.mp h), if_neg flat]
    simp only [spent_iff decided]
    split <;> simp

end Round

/-- The counter of a history is its number of stalled rounds. -/
theorem noProgress_stalled (trace : List (Round α)) (history : String) :
    (stateAfter plusEpsilon trace).noProgress history = stalled plusEpsilon history trace := by
  induction trace with
  | nil => rfl
  | cons r earlier ih =>
      by_cases own : r.history = some history
      · obtain ⟨kind, decided, rfl⟩ := Option.map_eq_some_iff.mp own
        rw [stateAfter, noProgress_decided decided, if_pos rfl]
        by_cases passed : r.result.phaseOutcome = "passed"
        · rw [if_pos passed, stalled_own own, if_pos (.inl passed)]
          rfl
        · rw [if_neg passed]
          exact decision_stalled decided passed ih
      · rw [stateAfter, (advance_elsewhere own).2, ih, stalled_other own]

section Requests
variable {r : Round α} {kind : RepairKind}

/-- A requested repair is refused at the cap, or when a measured round without an
improvement is at least the second one that counts; else it is granted. -/
theorem requested_outcome (decided : r.kind = some kind) (requested : r.result.phaseOutcome = "repair")
    (earlier : List (Round α)) :
    (r.projection plusEpsilon (stateAfter plusEpsilon earlier)).phaseOutcome =
      if r.hardCap (repairPhaseOf kind r.result.evidence) ≤
            r.attempts (repairPhaseOf kind r.result.evidence) ∨
          r.scores.entries ≠ [] ∧
            improves plusEpsilon (historyPhase kind r.result.evidence) earlier r = false ∧
            2 ≤ stalled plusEpsilon (historyPhase kind r.result.evidence) (r :: earlier) then "failed"
      else "repair" := by
  have open_ : r.result.phaseOutcome ≠ "passed" := by
    rw [requested]
    decide
  have improved := @improved_iff α _ plusEpsilon r kind earlier
  have counted := @noProgress_stalled α _ plusEpsilon earlier (historyPhase kind r.result.evidence)
  have turns := decision_stalled decided open_ counted
  have refused := @decisionOn_refused α _ plusEpsilon r kind (stateAfter plusEpsilon earlier)
  rw [turns] at refused
  have flat : (decisionOn plusEpsilon kind (r.enter (stateAfter plusEpsilon earlier))
      r.result).improved = [] ↔
        improves plusEpsilon (historyPhase kind r.result.evidence) earlier r = false := by
    rw [← Bool.not_eq_true, ← improved, not_not]
  rw [projection_decided decided]
  dsimp only [decidedProjection]
  rw [requested]
  apply if_congr _ rfl rfl
  rw [refused, flat]
  constructor
  · rintro ⟨-, cap | ⟨unimproved, scored, twice⟩⟩
    · exact .inl cap
    · exact .inr ⟨scored, unimproved, by exact_mod_cast twice⟩
  · rintro (cap | ⟨scored, unimproved, twice⟩)
    · exact ⟨rfl, .inl cap⟩
    · exact ⟨rfl, .inr ⟨unimproved, scored, by exact_mod_cast twice⟩⟩

/-- Only a request below the cap is granted. -/
theorem Grants.below {repairPhase : String} {earlier : List (Round α)}
    (grants : Grants plusEpsilon repairPhase earlier r) :
    r.attempts repairPhase < r.hardCap repairPhase := by
  obtain ⟨own, outcome⟩ := grants
  obtain ⟨kind, decided, rfl⟩ := Option.map_eq_some_iff.mp own
  have requested : r.result.phaseOutcome = "repair" := by
    rw [projection_decided decided] at outcome
    dsimp only [decidedProjection] at outcome
    split at outcome
    · exact absurd outcome (by decide)
    · exact outcome
  rw [requested_outcome decided requested] at outcome
  split at outcome
  · exact absurd outcome (by decide)
  · next free => exact not_le.mp fun cap => free (.inl cap)

end Requests

section Budget
variable {repairPhase : String} {start cap : ℤ} {earlier : List (Round α)}

theorem Increments.capped {r : Round α}
    (increments : Increments plusEpsilon repairPhase start cap (r :: earlier)) :
    r.hardCap repairPhase = cap := by
  cases earlier with
  | nil => exact increments.2
  | cons q earlier => exact increments.2.1

/-- The counter has moved on by the repairs that were granted. -/
theorem Increments.attempts {r : Round α}
    (increments : Increments plusEpsilon repairPhase start cap (r :: earlier)) :
    start + granted plusEpsilon repairPhase earlier ≤ r.attempts repairPhase := by
  induction earlier generalizing r with
  | nil => simp [granted, increments.1]
  | cons q earlier ih =>
      obtain ⟨moved, -, rest⟩ := increments
      have before := ih rest
      rw [granted]
      push_cast
      omega

theorem granted_le {trace : List (Round α)}
    (increments : Increments plusEpsilon repairPhase start cap trace) :
    (granted plusEpsilon repairPhase trace : ℤ) ≤ max 0 (cap - start) := by
  induction trace with
  | nil => exact le_max_left 0 _
  | cons r earlier ih =>
      have counter := increments.attempts
      have reached := increments.capped
      rw [granted]
      by_cases grants : Grants plusEpsilon repairPhase earlier r
      · have below := grants.below
        rw [if_pos grants]
        apply le_max_of_le_right
        push_cast
        omega
      · rw [if_neg grants, add_zero]
        cases earlier with
        | nil => exact le_max_left 0 _
        | cons q earlier => exact ih increments.2.2

end Budget

/-- The histories of a trace of measurements, the repairs refused in it, and the
repairs granted in it. -/
theorem repair_progress (plusEpsilon : α → α) (trace : List (Round α)) :
    (∀ history target, mark (bestScoresFor (stateAfter plusEpsilon trace) history) target =
      (measured history target trace).maximum) ∧
    (∀ later history target,
      mark (bestScoresFor (stateAfter plusEpsilon trace) history) target ≤
        mark (bestScoresFor (stateAfter plusEpsilon (later ++ trace)) history) target) ∧
    (∀ (r : Round α) (kind : RepairKind), r.kind = some kind → r.result.phaseOutcome = "repair" →
      (r.projection plusEpsilon (stateAfter plusEpsilon trace)).phaseOutcome =
        if r.hardCap (repairPhaseOf kind r.result.evidence) ≤
              r.attempts (repairPhaseOf kind r.result.evidence) ∨
            r.scores.entries ≠ [] ∧
              improves plusEpsilon (historyPhase kind r.result.evidence) trace r = false ∧
              2 ≤ stalled plusEpsilon (historyPhase kind r.result.evidence) (r :: trace) then "failed"
        else "repair") ∧
    (∀ (r : Round α) (history : String), r.history ≠ some history →
      bestScoresFor (stateAfter plusEpsilon (r :: trace)) history =
          bestScoresFor (stateAfter plusEpsilon trace) history ∧
        (stateAfter plusEpsilon (r :: trace)).noProgress history =
          (stateAfter plusEpsilon trace).noProgress history) ∧
    (∀ repairPhase start cap, 0 ≤ start → Increments plusEpsilon repairPhase start cap trace →
      (granted plusEpsilon repairPhase trace : ℤ) ≤ max 0 cap) := by
  refine ⟨?_, ?_, ?_, ?_, ?_⟩
  · intro history target
    exact best_measured trace history target
  · intro later history target
    rw [best_measured, best_measured]
    exact measured_append history target later trace
  · intro r kind decided requested
    exact requested_outcome decided requested trace
  · intro r history other
    exact advance_elsewhere other
  · intro repairPhase start cap nonneg increments
    have spent := granted_le increments
    omega

end Laws

/-! Rounds without an improvement that are not counted. -/

section Flat
variable {α : Type} [LinearOrder α] (plusEpsilon : α → α)

/-- For the measured rounds of a history, the latest first: did it not improve? -/
def flats (history : String) : List (Round α) → List Bool
  | [] => []
  | r :: earlier =>
    if r.history = some history ∧ r.scores.entries ≠ [] then
      (!improves plusEpsilon history earlier r) :: flats history earlier
    else flats history earlier

/-- The round is refused exactly at the cap, or when the last two measured rounds
of its history brought no improvement. -/
def RefusedWhenFlat (r : Round α) (kind : RepairKind) (earlier : List (Round α)) : Prop :=
  (r.projection plusEpsilon (stateAfter plusEpsilon earlier)).phaseOutcome = "failed" ↔
    r.hardCap (repairPhaseOf kind r.result.evidence) ≤
        r.attempts (repairPhaseOf kind r.result.evidence) ∨
      (flats plusEpsilon (historyPhase kind r.result.evidence) (r :: earlier)).take 2 = [true, true]

instance (r : Round α) (kind : RepairKind) (earlier : List (Round α)) :
    Decidable (RefusedWhenFlat plusEpsilon r kind earlier) :=
  inferInstanceAs (Decidable (_ ↔ _))

end Flat

def twentiethMore (best : ℚ) : ℚ := best + 1 / 20

/-- A measurement of the coverage of one target, or of none. -/
def coverageRound (attempts : ℤ) (outcome : String) (score : Option ℚ) : Round ℚ :=
  { attemptsByPhase := AList.singleton "fix_coverage" attempts
    phase := "measure_coverage"
    result := ⟨outcome, { scoresByTarget :=
      match score with
      | none => ∅
      | some value => AList.singleton "pkg.Foo" (.number value) }⟩ }

/-- A round that follows no repair is not counted, a passed round starts the count
anew, and a round without a measurement is decided on the cap alone. -/
theorem flat_rounds_granted :
    ¬ RefusedWhenFlat twentiethMore (coverageRound 1 "repair" (some 79)) .coverage
      [coverageRound 0 "repair" (some 78), coverageRound 0 "passed" (some 85)] ∧
    ¬ RefusedWhenFlat twentiethMore (coverageRound 1 "repair" (some 78)) .coverage
      [coverageRound 1 "passed" (some 85), coverageRound 0 "repair" (some 78),
        coverageRound 0 "passed" (some 85)] ∧
    ¬ RefusedWhenFlat twentiethMore (coverageRound 2 "repair" none) .coverage
      [coverageRound 2 "repair" (some 50), coverageRound 1 "repair" (some 50),
        coverageRound 0 "repair" (some 50)] := by
  decide +kernel

/-- A second flat round after a repair is refused, and two repairs were granted before it. -/
theorem second_flat_refused :
    ((coverageRound 2 "repair" (some 50)).projection twentiethMore (stateAfter twentiethMore
      [coverageRound 1 "repair" (some 50), coverageRound 0 "repair" (some 50)])).phaseOutcome =
        "failed" ∧
    (granted twentiethMore "fix_coverage"
      [coverageRound 2 "repair" (some 50), coverageRound 1 "repair" (some 50),
        coverageRound 0 "repair" (some 50)] : ℤ) ≤ max 0 6 := by
  constructor
  · have rule := (repair_progress twentiethMore
      [coverageRound 1 "repair" (some 50), coverageRound 0 "repair" (some 50)]).2.2.1
      (coverageRound 2 "repair" (some 50)) .coverage (by decide +kernel) (by decide +kernel)
    refine rule.trans (if_pos ?_)
    decide +kernel
  · exact (repair_progress twentiethMore
      [coverageRound 2 "repair" (some 50), coverageRound 1 "repair" (some 50),
        coverageRound 0 "repair" (some 50)]).2.2.2.2 "fix_coverage" 0 6 (by decide +kernel)
      ⟨by decide +kernel, by decide +kernel, by decide +kernel, by decide +kernel, by decide +kernel,
        by decide +kernel⟩

end Uta.Generation
