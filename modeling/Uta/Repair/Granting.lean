/- What is left on the record and the session by a grant that raises. -/
import Uta.Enforce.Grant
import Uta.Repair.Reports

namespace Uta.Repair
open Uta.Lib Uta.Ci Uta.Tasks Uta.Enforce

/-- What a session says of the reviews that excused it, by failing unit. -/
structure EquivalenceOverride where
  reviews : List (String × ReviewDecision)
  rawMutationRate : FloatLiteral
  mutationGate : FloatLiteral
  deriving DecidableEq

/-- What a record says of the session that passed its gate. -/
structure GateOverride where
  sessionId : String
  rawMutationRate : FloatLiteral
  mutationGate : FloatLiteral
  mutants : ℕ
  deriving DecidableEq

/-- A session that is judged, with what a grant writes of it. -/
structure Judged extends Focus where
  sessionId : String := "s"
  equivalenceOverride : Option EquivalenceOverride := none
  grantedGate : Option GateOverride := none
  deriving DecidableEq

/-- A class task of the repair task, with the text of its saved review. -/
structure ReviewedRow where
  status : ClassStatus
  targetId : String := ""
  classFqn : String
  review : List Char
  deriving DecidableEq

/-- What a grant goes by: the rows, the flags of the gate's failure, and the fresh survivors. -/
structure Evidence where
  rows : List ReviewedRow
  flags : Option GateFlags
  survivors : Option ScoringSurvivors

/-- The places at which the judgement of a result can raise, in their order. -/
inductive Point where
  | rows | reviews | flags | survivors | deciding
  | equivalenceOverride | gateOverride | sending | reportSaving | keySaving | saving
  deriving DecidableEq, Repr

/-- The places that raise. -/
abbrev Faults := Point → Bool

/-- The failing rows with their reviews, unless one cannot be read; none if a review is missing. -/
def savedReviews (py : Conversions) : List ReviewedRow →
    Option (Option (List (ReviewedRow × ReviewDecision)))
  | [] => some (some [])
  | row :: rows =>
    match savedReview py row.review with
    | none => none
    | some review =>
      match savedReviews py rows with
      | none => none
      | some reviews => some (review.bind fun r => reviews.map ((row, r) :: ·))

/-- `_try_grant_equivalent_mutants` up to its decision: the reviews and the fresh survivors of a
grant. -/
def weighGrant (py : Conversions) (faults : Faults) (e : Evidence) :
    Except Raised (Option (List (ReviewedRow × ReviewDecision) × ScoringSurvivors)) :=
  if faults .rows then .error .other
  else
    let failing := e.rows.filter (decide <| ·.status ≠ .pass)
    match if faults .reviews then none else savedReviews py failing with
    | none => .error .other
    | some none => .ok none
    | some (some reviews) =>
      if failing = [] then .ok none
      else if faults .flags then .error .other
      else
        match e.flags with
        | none => .ok none
        | some flags =>
          if faults .survivors ∨ faults .deciding then .error .other
          else if ¬ (decideGrant (reviews.map Prod.snd) e.survivors flags).granted then .ok none
          else
            match e.survivors with
            | none => .error .other
            | some fresh => .ok (some (reviews, fresh))

/-- `str(target_id or class_fqn or "")`. -/
def ReviewedRow.unitId (row : ReviewedRow) : String :=
  if row.targetId = "" then row.classFqn else row.targetId

def grantSummary (sessionId : String) (fresh : ScoringSurvivors) : String :=
  "Passed with equivalent-mutant override (fix session " ++ sessionId ++ "): raw mutation " ++
    String.ofList fresh.mutationRate.literal ++ "% < gate " ++
    String.ofList fresh.mutationGate.literal ++ "%; " ++ toString fresh.mutants.length ++
    " mutants reviewed equivalent, not killed; the next CI run uses the normal gate."

namespace Judged
variable (f : Judged) (cfg : Config) (now : ℕ) (faults : Faults)

def setStatus (status : SessionStatus) : Judged := { f with toFocus := f.toFocus.setStatus status }

def setGateOverride (gate : Option GateOverride) : Judged :=
  { f with
    grantedGate := gate
    record := { f.record with gateOverride := gate.isSome } }

def setOutcome (status : CiTaskStatus) (summary : String) : Judged :=
  { f with record := { f.record with status, summary := some summary } }

/-- `_report_result`. -/
def reportResult (passed : Bool) : Option Raised × Judged :=
  if ¬ cfg.protocol then (none, f)
  else if faults .sending then (some .other, f)
  else
    (if faults .reportSaving then some .other else none,
      { f with toFocus := f.toFocus.reportResult cfg passed })

/-- `_report_repair_result_once`. -/
def reportRepairResultOnce (passed : Bool) (key : String) : Option Raised × Judged :=
  if ¬ Focus.Due f.session key then (none, f)
  else
    match f.reportResult cfg faults passed with
    | (some e, f) => (some e, f)
    | (none, f) =>
      (if faults .keySaving then some .other else none,
        { f with session := { f.session with
            terminalCallbackReportedKey := key
            terminalCallbackReportedAt := some now } })

/-- A report, and the save after it. -/
def reportAndSave (passed : Bool) (key : String) : Option Raised × Judged :=
  match f.reportRepairResultOnce cfg now faults passed key with
  | (some e, f) => (some e, f)
  | (none, f) => (if faults .saving then some .other else none, f)

/-- The rest of `_try_grant_equivalent_mutants`, once the reviews allow it. -/
def writeGrant (reviews : List (ReviewedRow × ReviewDecision)) (fresh : ScoringSurvivors) :
    Option Raised × Judged :=
  let f := f.setStatus .passedWithEquivalentMutants
  if faults .equivalenceOverride then (some .other, f)
  else
    let f := { f with equivalenceOverride := some {
      reviews := reviews.map fun r => (r.1.unitId, r.2)
      rawMutationRate := fresh.mutationRate
      mutationGate := fresh.mutationGate } }
    if faults .gateOverride then (some .other, f)
    else
      let f := f.setGateOverride (some {
        sessionId := f.sessionId
        rawMutationRate := fresh.mutationRate
        mutationGate := fresh.mutationGate
        mutants := fresh.mutants.length })
      (f.setOutcome .success (grantSummary f.sessionId fresh)).reportAndSave cfg now faults true
        "passed_with_equivalent_mutants"

/-- `_try_grant_equivalent_mutants`. -/
def tryGrantEquivalentMutants (py : Conversions) (e : Evidence) : Except Raised Bool × Judged :=
  match weighGrant py faults e with
  | .error r => (.error r, f)
  | .ok none => (.ok false, f)
  | .ok (some (reviews, fresh)) =>
    match f.writeGrant cfg now faults reviews fresh with
    | (some r, f) => (.error r, f)
    | (none, f) => (.ok true, f)

/-- `_grant_equivalent_mutants`: whatever is raised is no grant. -/
def grantEquivalentMutants (py : Conversions) (e : Evidence) : Bool × Judged :=
  match f.tryGrantEquivalentMutants cfg now faults py e with
  | (.ok granted, f) => (granted, f)
  | (.error _, f) => (false, f)

/-- The rest of `_apply_repair_enforcement_result`, for a result that is not excused. -/
def concludeResult (result : QualityGateResult) : Option Raised × Judged :=
  let f := (f.setGateOverride none).setOutcome (if result.passed then .success else .failed)
    result.summary
  (f.setStatus (if result.passed then .green else .rerunFailed)).reportAndSave cfg now faults
    result.passed (Focus.repairTerminalCallbackKey result.passed result.summary)

def setResult (result : QualityGateResult) : Judged :=
  { f with record := { f.record with enforcementResult := some result } }

/-- `_apply_repair_enforcement_result`, for the rerun of a repair task. The grant has its faults,
and what follows it has others. -/
def applyRepairEnforcementResult (py : Conversions) (e : Evidence) (later : Faults)
    (result : QualityGateResult) : Option Raised × Judged :=
  let f := f.setResult result
  if result.passed then f.concludeResult cfg now later result
  else
    match f.grantEquivalentMutants cfg now faults py e with
    | (true, f) => (none, f)
    | (false, f) => f.concludeResult cfg now later result

end Judged

/-! What a report keeps. -/

/-- A report sends at most one outcome, and writes only its key and its time. -/
structure Reported (passed : Bool) (f g : Judged) : Prop where
  record : g.record = f.record
  status : g.session.status = f.session.status
  equivalenceOverride : g.equivalenceOverride = f.equivalenceOverride
  grantedGate : g.grantedGate = f.grantedGate
  sent : g.sent = f.sent ∨ g.sent = f.sent ++ [passed || f.record.callbackOverride]

section Reporting
variable {f : Judged} {cfg : Config} {faults : Faults} {now : ℕ} {passed : Bool} {key : String}

theorem reportResult_reported : Reported passed f (f.reportResult cfg faults passed).2 := by
  unfold Judged.reportResult
  by_cases protocol : cfg.protocol = true
  · rw [if_neg (not_not.mpr protocol)]
    cases faults .sending with
    | true => exact ⟨rfl, rfl, rfl, rfl, .inl rfl⟩
    | false =>
        dsimp only
        unfold Focus.reportResult
        rw [if_neg Bool.false_ne_true, if_pos protocol]
        exact ⟨rfl, rfl, rfl, rfl, .inr rfl⟩
  · rw [if_pos protocol]
    exact ⟨rfl, rfl, rfl, rfl, .inl rfl⟩

theorem reportAndSave_reported :
    Reported passed f (f.reportAndSave cfg now faults passed key).2 := by
  have reported : Reported passed f (f.reportResult cfg faults passed).2 := reportResult_reported
  unfold Judged.reportAndSave Judged.reportRepairResultOnce
  by_cases due : Focus.Due f.session key
  · rw [if_neg (not_not.mpr due)]
    generalize f.reportResult cfg faults passed = sending at reported ⊢
    obtain ⟨_ | e, g⟩ := sending
    · cases faults .keySaving with
      | true => exact ⟨reported.record, reported.status, reported.equivalenceOverride,
          reported.grantedGate, reported.sent⟩
      | false => exact ⟨reported.record, reported.status, reported.equivalenceOverride,
          reported.grantedGate, reported.sent⟩
    · exact reported
  · rw [if_pos due]
    exact ⟨rfl, rfl, rfl, rfl, .inl rfl⟩

/-- What was sent since is the outcome, if anything was. -/
theorem Reported.new {g : Judged} (reported : Reported passed f g) :
    ∀ outcome ∈ g.sent.drop f.sent.length, outcome = (passed || f.record.callbackOverride) := by
  intro outcome new
  rcases reported.sent with quiet | sent
  · rw [quiet, List.drop_length] at new
    exact nomatch new
  · rw [sent, List.drop_left] at new
    exact List.mem_singleton.mp new

end Reporting

/-! A grant that raises. -/

/-- The grant raises before it has written the session's override: while it loads the rows and the
reviews, asks for the flags and the survivors, decides, or makes up the override. -/
def RaisesEarly (py : Conversions) (faults : Faults) (e : Evidence) : Prop :=
  (∃ r, weighGrant py faults e = .error r) ∨ faults .equivalenceOverride = true

/-- After the normal failure path: nothing is left of a grant, and it has reported nothing. -/
structure Restored (before : Judged) (normal after : Option Raised × Judged) : Prop where
  same : after = normal
  gateOverride : after.2.grantedGate = none ∧ after.2.record.gateOverride = false
  equivalenceOverride : after.2.equivalenceOverride = none
  success : true ∈ after.2.sent.drop before.sent.length → before.record.callbackOverride = true
  callbacks : ¬ (true ∈ after.2.sent.drop before.sent.length ∧
    false ∈ after.2.sent.drop before.sent.length)

section Grants
variable {f : Judged} {cfg : Config} {faults later : Faults} {now : ℕ} {py : Conversions}
  {e : Evidence} {result : QualityGateResult}

/-- A grant that was weighed and then raises has written the session's status; unless it raises
early, the session's override too. -/
theorem tryGrant_raises {r : Raised}
    (raises : (f.tryGrantEquivalentMutants cfg now faults py e).1 = .error r) :
    RaisesEarly py faults e ∧ (∃ status,
      (f.tryGrantEquivalentMutants cfg now faults py e).2 = f.setStatus status) ∨
    ¬ RaisesEarly py faults e ∧
      (f.tryGrantEquivalentMutants cfg now faults py e).2.equivalenceOverride ≠ none := by
  unfold Judged.tryGrantEquivalentMutants at raises ⊢
  unfold RaisesEarly
  rcases weighed : weighGrant py faults e with r' | _ | ⟨reviews, fresh⟩
  · exact .inl ⟨.inl ⟨r', rfl⟩, f.session.status, rfl⟩
  · rw [weighed] at raises
    exact nomatch raises
  · dsimp only
    unfold Judged.writeGrant
    dsimp only
    cases early : faults .equivalenceOverride with
    | true => exact .inl ⟨.inr rfl, _, rfl⟩
    | false =>
        refine .inr ⟨fun raised => ?_, ?_⟩
        · rcases raised with ⟨r', raised⟩ | raised
          · exact nomatch raised
          · exact nomatch raised
        · rw [if_neg Bool.false_ne_true]
          cases faults .gateOverride with
          | true => exact nofun
          | false =>
              rw [if_neg Bool.false_ne_true]
              generalize reports : Judged.reportAndSave _ cfg now faults true _ = outcome
              have kept := congrArg (·.2.equivalenceOverride) reports.symm
              rw [reportAndSave_reported.equivalenceOverride] at kept
              obtain ⟨_ | r', g⟩ := outcome
              all_goals exact ne_of_eq_of_ne kept nofun

theorem conclude_reported : Reported result.passed
    (((f.setGateOverride none).setOutcome (if result.passed then .success else .failed)
      result.summary).setStatus (if result.passed then .green else .rerunFailed))
    (f.concludeResult cfg now later result).2 := reportAndSave_reported

/-- The normal path does not depend on the status that the session had. -/
theorem conclude_setStatus (status : SessionStatus) :
    (f.setStatus status).concludeResult cfg now later result =
      f.concludeResult cfg now later result := rfl

theorem apply_of_raise {r : Raised} (failed : result.passed = false)
    (raises : ((f.setResult result).tryGrantEquivalentMutants cfg now faults py e).1 = .error r) :
    f.applyRepairEnforcementResult cfg now faults py e later result =
      ((f.setResult result).tryGrantEquivalentMutants cfg now faults py e).2.concludeResult cfg now
        later result := by
  unfold Judged.applyRepairEnforcementResult Judged.grantEquivalentMutants
  dsimp only
  rw [failed, if_neg Bool.false_ne_true]
  generalize (f.setResult result).tryGrantEquivalentMutants cfg now faults py e = outcome at raises
  obtain ⟨_, g⟩ := outcome
  obtain rfl := raises
  rfl

/-- The normal failure path reports a success only where an operator has released the record. -/
theorem conclude_restored (failed : result.passed = false) (bare : f.equivalenceOverride = none) :
    Restored f ((f.setResult result).concludeResult cfg now later result)
      ((f.setResult result).concludeResult cfg now later result) := by
  have reported : Reported result.passed
      ((((f.setResult result).setGateOverride none).setOutcome
        (if result.passed then .success else .failed) result.summary).setStatus
          (if result.passed then .green else .rerunFailed))
      ((f.setResult result).concludeResult cfg now later result).2 := conclude_reported
  have new := reported.new
  rw [failed, Bool.false_or] at new
  refine ⟨rfl, ⟨reported.grantedGate, congrArg Record.gateOverride reported.record⟩,
    reported.equivalenceOverride.trans bare, fun success => (new true success).symm, ?_⟩
  rintro ⟨success, failure⟩
  exact Bool.false_ne_true ((new false failure).trans (new true success).symm)

/-- A grant that raises leaves nothing behind exactly if it raises early and nothing was there. -/
theorem grantRaise_restored_iff (f : Judged) (cfg : Config) (now : ℕ) (py : Conversions)
    (e : Evidence) (faults later : Faults) (result : QualityGateResult)
    (failed : result.passed = false)
    (raises : ∃ r,
      ((f.setResult result).tryGrantEquivalentMutants cfg now faults py e).1 = .error r) :
    Restored f ((f.setResult result).concludeResult cfg now later result)
        (f.applyRepairEnforcementResult cfg now faults py e later result) ↔
      RaisesEarly py faults e ∧ f.equivalenceOverride = none := by
  obtain ⟨r, raises⟩ := raises
  rw [apply_of_raise failed raises]
  rcases tryGrant_raises raises with ⟨early, status, written⟩ | ⟨late, written⟩
  · rw [written, conclude_setStatus]
    refine ⟨fun restored => ⟨early, ?_⟩, fun both => conclude_restored failed both.2⟩
    exact (conclude_reported (f := f.setResult result)).equivalenceOverride.symm.trans
      restored.equivalenceOverride
  · refine iff_of_false (fun restored => written ?_) fun both => late both.1
    exact conclude_reported.equivalenceOverride.symm.trans restored.equivalenceOverride

end Grants

/-- A session that is judged for the first time. -/
def firstJudged : Judged where
  record := { status := .failed }
  tasks := [.completed]
  sent := []
  session := { status := .repairCompleted, repoTaskId := some 0 }

def survivingResult : QualityGateResult :=
  { status := "failed", passed := false, summary := "1 mutant survives" }

/-- One failing class, whose review calls the one survivor equivalent. -/
def excusingEvidence : Evidence where
  rows := [{ status := .mutationFail, classFqn := "a.A"
             review := jsonDumps (.obj (reviewAt "m1" "d").toFields) }]
  flags := some passingFlags
  survivors := some (survivorsAt ["m1"] "d")

theorem unreadRows_restored :
    Restored firstJudged
      ((firstJudged.setResult survivingResult).concludeResult {} 1 (fun _ => false) survivingResult)
      (firstJudged.applyRepairEnforcementResult {} 1 (decide <| · = .rows) noConversions
        excusingEvidence (fun _ => false) survivingResult) :=
  (grantRaise_restored_iff firstJudged {} 1 noConversions excusingEvidence _ _ survivingResult rfl
    ⟨.other, rfl⟩).mpr ⟨.inl ⟨.other, rfl⟩, rfl⟩

/-- The last save of a grant fails: both outcomes are reported, and the override stays. -/
theorem failedSave_reportsBoth :
    ((firstJudged.setResult survivingResult).tryGrantEquivalentMutants {} 1 (decide <| · = .saving)
        noConversions excusingEvidence).1 = .error .other ∧
      (firstJudged.applyRepairEnforcementResult {} 1 (decide <| · = .saving) noConversions
        excusingEvidence (fun _ => false) survivingResult).2.sent = [true, false] ∧
      (firstJudged.applyRepairEnforcementResult {} 1 (decide <| · = .saving) noConversions
        excusingEvidence (fun _ => false) survivingResult).2.session.status = .rerunFailed ∧
      (firstJudged.applyRepairEnforcementResult {} 1 (decide <| · = .saving) noConversions
        excusingEvidence (fun _ => false) survivingResult).2.equivalenceOverride ≠ none ∧
      ¬ Restored firstJudged
        ((firstJudged.setResult survivingResult).concludeResult {} 1 (fun _ => false)
          survivingResult)
        (firstJudged.applyRepairEnforcementResult {} 1 (decide <| · = .saving) noConversions
          excusingEvidence (fun _ => false) survivingResult) := by
  have left : (firstJudged.applyRepairEnforcementResult {} 1 (decide <| · = .saving) noConversions
      excusingEvidence (fun _ => false) survivingResult).2.equivalenceOverride ≠ none := by
    decide +kernel
  exact ⟨by decide +kernel, by decide +kernel, by decide +kernel, left,
    fun restored => left restored.equivalenceOverride⟩

/-! Without a fault. -/

/-- The summary under which the reviews excuse a result. -/
def excuse (py : Conversions) (e : Evidence) (sessionId : String) : Option String :=
  match weighGrant py (fun _ => false) e with
  | .ok (some (_, fresh)) => some (grantSummary sessionId fresh)
  | _ => none

theorem reportAndSave_sound (f : Judged) (cfg : Config) (now : ℕ) (passed : Bool) (key : String) :
    f.reportAndSave cfg now (fun _ => false) passed key =
      (none, { f with toFocus := f.toFocus.reportRepairResultOnce cfg now passed key }) := by
  unfold Judged.reportAndSave Judged.reportRepairResultOnce Judged.reportResult
    Focus.reportRepairResultOnce Focus.reportResult
  by_cases due : Focus.Due f.session key
  · rw [if_neg (not_not.mpr due), if_pos due]
    cases cfg.protocol <;> rfl
  · rw [if_pos due, if_neg due]
    rfl

/-- Where nothing outside raises, a result is applied as the refresh of the sessions has it. -/
theorem apply_refines (f : Judged) (cfg : Config) (now : ℕ) (py : Conversions) (e : Evidence)
    (result : QualityGateResult) :
    (f.applyRepairEnforcementResult cfg now (fun _ => false) py e (fun _ => false)
        result).2.toFocus =
      f.toFocus.applyRepairEnforcementResult cfg now result (excuse py e f.sessionId) := by
  unfold Judged.applyRepairEnforcementResult Focus.applyRepairEnforcementResult
    Judged.grantEquivalentMutants Judged.tryGrantEquivalentMutants Judged.concludeResult excuse
  dsimp only
  cases failed : result.passed with
  | true =>
      rw [if_pos rfl, if_pos rfl, reportAndSave_sound]
      rfl
  | false =>
      rw [if_neg Bool.false_ne_true, if_neg Bool.false_ne_true]
      rcases weighGrant py (fun _ => false) e with r | _ | ⟨reviews, fresh⟩
      · dsimp only
        rw [reportAndSave_sound]
        rfl
      · dsimp only
        rw [reportAndSave_sound]
        rfl
      · unfold Judged.writeGrant
        dsimp only
        rw [if_neg Bool.false_ne_true, if_neg Bool.false_ne_true, reportAndSave_sound]
        rfl

end Uta.Repair
