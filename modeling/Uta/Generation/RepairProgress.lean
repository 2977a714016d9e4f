/- When a score-driven repair loop is worth another turn. The policy reads the
scores of the targets that still fail, the best ones so far, and the counters. -/
import Uta.Lib.Marks
import Uta.Tasks.Lifecycle

namespace Uta.Generation
open Uta.Lib.Marks
open Uta.Tasks (textOr)

/-! Kinds. -/

inductive RepairKind where
  | compile
  | coverage
  | mutation
  deriving DecidableEq, Repr

def RepairKind.value : RepairKind → String
  | .compile => "compile"
  | .coverage => "coverage"
  | .mutation => "mutation"

/-- `SCORE_DRIVEN_KINDS`. -/
def scoreDrivenKinds : List RepairKind := [.coverage, .mutation]

/-- `SCORE_DRIVEN_PHASES`. -/
def scoreDrivenPhases (phase : String) : Option RepairKind :=
  scoreDrivenKinds.find? fun kind => "measure_" ++ kind.value = phase

/-- `DEFAULT_HARD_CAP`. -/
def defaultHardCap : ℤ := 6

def repairPhaseFor (kind : RepairKind) : String := "fix_" ++ kind.value

/-! Scores. -/

/-- A value of a score map: a number, or what is none (a boolean, a text, a null). -/
inductive Reported (α : Type) where
  | number (value : α)
  | other
  deriving DecidableEq, Repr

def Reported.number? {α : Type} : Reported α → Option α
  | .number value => some value
  | .other => none

/-- `_scores`. -/
def scores {α : Type} (reported : Named (Reported α)) : Named α := select Reported.number? reported

/-- Scores as a checkpoint holds them. -/
def recorded {α : Type} (marks : Named α) : Named (Reported α) := select (some ∘ .number) marks

structure RepairProgressDecision (α : Type) where
  shouldRepair : Bool
  failureReason : String
  bestScores : Named α
  improved : List String
  noProgressTurns : ℤ

section Decide
variable {α : Type} [LinearOrder α] (plusEpsilon : α → α)

/-- Is a score an improvement on the best one so far? -/
def beats (best : WithBot α) (score : α) : Bool :=
  WithBot.recBotCoe true (fun b => decide (plusEpsilon b < score)) best

/-- The body of the loop over the scores: the best ones, and the improved targets. -/
def judge (read : Named α × List String) (e : (_ : String) × α) : Named α × List String :=
  (raise read.1 e, if beats plusEpsilon (mark read.1 e.1) e.2 then read.2 ++ [e.1] else read.2)

/-- The flat rounds in a row. A missing measurement is a tool failure, and is not counted. -/
def flatStreak (improved : List String) (measured : List ((_ : String) × α))
    (attempts previousNoProgress : ℤ) : ℤ :=
  if improved ≠ [] then 0 else previousNoProgress + if measured ≠ [] ∧ 0 < attempts then 1 else 0

def decideRepairProgress (kind : String) (reported previousBest : Named (Reported α))
    (attempts hardCap previousNoProgress : ℤ) : RepairProgressDecision α :=
  let measured := (scores reported).entries
  let read := measured.foldl (judge plusEpsilon) (scores previousBest, [])
  let streak := flatStreak read.2 measured attempts previousNoProgress
  if hardCap ≤ attempts then ⟨false, kind ++ "_repair_attempts_exhausted", read.1, read.2, streak⟩
  else if read.2 = [] ∧ measured ≠ [] ∧ 2 ≤ streak then
    ⟨false, kind ++ "_repair_no_progress", read.1, read.2, streak⟩
  else ⟨true, "", read.1, read.2, streak⟩

end Decide

/-! The phases. -/

/-- The part of the cycle state that the policy reads. -/
structure CycleState (α : Type) where
  attemptsByPhase : Named ℤ := ∅
  maxAttemptsByPhase : Named ℤ := ∅
  bestScoresByPhase : Named (Named (Reported α)) := ∅
  noProgressByPhase : Named ℤ := ∅
  mainModel : Option String := none

structure Evidence (α : Type) where
  repairKind : Option String := none
  repairPhase : Option String := none
  scoresByTarget : Named (Reported α) := ∅
  failureReason : Option String := none

structure PhaseResult (α : Type) where
  phaseOutcome : String
  evidence : Evidence α := {}

/-- What the policy adds to a result. -/
structure Decided (α : Type) where
  attempt : ℤ
  maxAttempts : ℤ
  bestScores : Named α
  improvedTargets : List String
  noProgressTurns : ℤ
  effortStrategy : String
  modelId : Option String
  bestScoresByPhase : Named (Named α)
  noProgressByPhase : Named ℤ
  repairFeedback : String

structure Projection (α : Type) where
  phaseOutcome : String
  failureReason : Option String
  decided : Option (Decided α)

def repairFeedbackText : String :=
  "The previous repair did not improve the measured score. Reassess the remaining " ++
  "actionable groups, rather than repeating the same tests. For every mutation group " ++
  "identify the original and mutated behavior, a distinguishing input, and an observable " ++
  "assertion. For example, x <= 0 versus x < 0 differs at 0, not 1; keep other guards " ++
  "satisfied so they cannot mask that difference. For coverage, identify the unexecuted " ++
  "branch and a fixture that reaches it. Fix broken fixtures rather than deleting the " ++
  "only distinguishing case. Account for unattempted groups and source-backed blockers. " ++
  "Do not claim success without verification or change the gates."

section Phases
variable {α : Type}

def CycleState.attempts (state : CycleState α) (repairPhase : String) : ℤ :=
  (state.attemptsByPhase.lookup repairPhase).getD 0

def CycleState.hardCap (state : CycleState α) (repairPhase : String) : ℤ :=
  (state.maxAttemptsByPhase.lookup repairPhase).getD defaultHardCap

def CycleState.noProgress (state : CycleState α) (phase : String) : ℤ :=
  (state.noProgressByPhase.lookup phase).getD 0

def repairRoundAvailable (state : CycleState α) (phase : String) : Bool :=
  match scoreDrivenPhases phase with
  | none => true
  | some kind => state.attempts (repairPhaseFor kind) < state.hardCap (repairPhaseFor kind)

def bestScoresFor (state : CycleState α) (phase : String) : Named α :=
  scores ((state.bestScoresByPhase.lookup phase).getD ∅)

def mergedBestScores (state : CycleState α) (phase : String) (best : Named α) : Named (Named α) :=
  (select (some ∘ scores) state.bestScoresByPhase).insert phase best

/-- The kind that a phase, or else its evidence, declares. -/
def kindOf (phase : String) (evidence : Evidence α) : Option RepairKind :=
  (scoreDrivenPhases phase).or
    (scoreDrivenKinds.find? fun kind => evidence.repairKind = some kind.value)

/-- The kind on which the policy decides, if it does. -/
def decidedKind (phase : String) (result : PhaseResult α) : Option RepairKind :=
  if result.phaseOutcome ∈ ["passed", "repair"] then kindOf phase result.evidence else none

def repairPhaseOf (kind : RepairKind) (evidence : Evidence α) : String :=
  textOr evidence.repairPhase (repairPhaseFor kind)

def historyPhase (kind : RepairKind) (evidence : Evidence α) : String :=
  if textOr evidence.repairPhase "" ≠ "" then repairPhaseOf kind evidence ++ ":" ++ kind.value
  else repairPhaseOf kind evidence

variable [LinearOrder α] (plusEpsilon : α → α)

/-- The decision on a result of a kind. -/
def decisionOn (kind : RepairKind) (state : CycleState α) (result : PhaseResult α) :
    RepairProgressDecision α :=
  let repairPhase := repairPhaseOf kind result.evidence
  let history := historyPhase kind result.evidence
  decideRepairProgress plusEpsilon kind.value result.evidence.scoresByTarget
    (recorded (bestScoresFor state history)) (state.attempts repairPhase) (state.hardCap repairPhase)
    (state.noProgress history)

/-- What becomes of a result of a kind that is decided on. -/
def decidedProjection (kind : RepairKind) (state : CycleState α) (result : PhaseResult α) : Projection α :=
  let repairPhase := repairPhaseOf kind result.evidence
  let history := historyPhase kind result.evidence
  let decision := decisionOn plusEpsilon kind state result
  let refused := result.phaseOutcome = "repair" ∧ decision.shouldRepair = false
  let outcome := if refused then "failed" else result.phaseOutcome
  let corrective := outcome = "repair" ∧ decision.noProgressTurns ≠ 0
  let measured := (scores result.evidence.scoresByTarget).entries ≠ []
  { phaseOutcome := outcome
    failureReason := if refused then some decision.failureReason else result.evidence.failureReason
    decided := some
      { attempt := state.attempts repairPhase
        maxAttempts := state.hardCap repairPhase
        bestScores := decision.bestScores
        improvedTargets := decision.improved
        noProgressTurns := decision.noProgressTurns
        effortStrategy := if corrective ∧ measured then "higher" else "default"
        modelId := if corrective then state.mainModel else none
        bestScoresByPhase := mergedBestScores state history decision.bestScores
        noProgressByPhase := state.noProgressByPhase.insert history
          (if outcome = "passed" then 0 else decision.noProgressTurns)
        repairFeedback := if corrective ∧ measured then repairFeedbackText else "" } }

def applyRepairProgress (phase : String) (state : CycleState α) (result : PhaseResult α) :
    Projection α :=
  match decidedKind phase result with
  | none => ⟨result.phaseOutcome, result.evidence.failureReason, none⟩
  | some kind => decidedProjection plusEpsilon kind state result

/-- A phase node projects what it returns onto the state. -/
def CycleState.project (state : CycleState α) (projection : Projection α) : CycleState α :=
  match projection.decided with
  | none => state
  | some decided =>
    { state with
      bestScoresByPhase := select (some ∘ recorded) decided.bestScoresByPhase
      noProgressByPhase := decided.noProgressByPhase }

end Phases
end Uta.Generation
