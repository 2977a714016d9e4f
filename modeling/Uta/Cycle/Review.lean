/- The cycle's side of the equivalent-mutant review: what is prepared before the turn, what the
prompt removes, and what is made of the turn. -/
import Uta.Enforce.Verdicts
import Uta.Lib.Stamped

namespace Uta.Cycle.Review
open Uta.Lib Uta.Enforce

/-! What git says. -/

/-- How a command ended. -/
inductive Ending where
  | exited (returncode : ℤ)
  | timedOut
  | osError
  deriving DecidableEq

/-- `git_output`, of a command that prints `stdout`. -/
def gitOutput (stdout : List Char) : Ending → List Char
  | .exited returncode => if returncode ≠ 0 then [] else PyText.strip stdout
  | .timedOut | .osError => []

/-- A digest of texts, without collisions. -/
structure Hashing where
  hexdigest : List Char → String
  filled : ∀ text, hexdigest text ≠ ""
  injective : Function.Injective hexdigest

/-- What git prints of a repository: the name of its HEAD, and how its tracked files differ from
HEAD. The names of the files' blobs are part of the difference, so that it tells contents apart also
where its end is stripped. -/
structure Git (C T : Type) where
  head : C → List Char
  diff : C → List Char
  /-- The content of every tracked file, relative to HEAD. -/
  tracked : C → T
  single : ∀ c, '\n' ∉ PyText.strip (head c)
  tells : ∀ c c', PyText.strip (head c) = PyText.strip (head c') →
    PyText.strip (diff c) = PyText.strip (diff c') → tracked c = tracked c'

/-- How the two commands of a fingerprint ended. -/
structure Endings where
  head : Ending
  diff : Ending
  deriving DecidableEq

section

variable {C T : Type} (hash : Hashing) (git : Git C T)

def headText (c : C) (e : Endings) : List Char := gitOutput (git.head c) e.head

def diffText (c : C) (e : Endings) : List Char := gitOutput (git.diff c) e.diff

def trackedTreeFingerprint (c : C) (e : Endings) : Option String :=
  if (headText git c e).isEmpty then none
  else some (hash.hexdigest (headText git c e ++ '\n' :: diffText git c e))

end

/-! What the phases keep. -/

/-- The evidence of a phase, as far as a review reads or writes it. -/
structure Evidence where
  failureReason : String := ""
  /-- `equivalence_review`. -/
  review : Option ReviewDecision := none
  /-- `equivalence_survivors`. -/
  survivors : Option (List (String × Json)) := none
  /-- `equivalence_verdicts_path`. -/
  verdictsPath : String := ""
  /-- `equivalence_tree`. -/
  tree : String := ""

structure Projection where
  phaseOutcome : String
  evidence : Evidence := {}
  reviewTimeoutSeconds : Option ℤ := none

/-- A text that is missing is empty. -/
structure CycleState where
  qualityMode : String := ""
  unitId : String := ""
  phaseResults : List (String × Projection) := []
  turnStatus : String := ""
  turnSessionRefs : List (List (String × String)) := []
  turnSessionId : String := ""

/-- The result of a turn. -/
structure Turn where
  status : String := ""
  mainModel : String := ""
  modelId : String := ""

def noProgressReason : String := "mutation_repair_no_progress"

def reviewOutcome : String := "review_equivalence"

def reviewPhase : String := "review_equivalent_mutants"

/-- The phases that can stall on mutation, in the order searched. -/
def triggerPhases : List String := ["measure_mutation", "delegated_quality_gate_verify"]

structure Settings where
  reviewMax : ℤ
  reviewTimeoutSeconds : ℤ

/-! Before the turn. -/

/-- The reason of `assess_eligibility`, empty where the review may be made. -/
def ineligibility (survivors : Option ScoringSurvivors) (cap : ℤ) : String :=
  match survivors with
  | none => "survivors_unproven"
  | some s =>
    if 0 < s.unreviewedScoringFailures then "unreviewed_scoring_failures"
    else if s.mutants.isEmpty then "no_survivors"
    else if cap < s.mutants.length then "over_cap"
    else ""

/-- `re.sub(r"[^A-Za-z0-9_.-]+", "-", value)`, inside or outside a run. -/
def dashed : Bool → List Char → List Char
  | _, [] => []
  | inside, c :: cs =>
    if c.isAlphanum || c = '_' || c = '.' || c = '-' then c :: dashed false cs
    else if inside then dashed true cs
    else '-' :: dashed true cs

/-- `_safe`. -/
def safe (value : String) : String :=
  let edge : Char → Bool := fun c => c = '-' || c = '.'
  let bare := ((dashed false value.toList).dropWhile edge).rdropWhile edge
  if bare.isEmpty then "unit" else String.ofList bare

def verdictsFile (unit : String) : String :=
  ".uta_cache/equivalence/" ++ safe unit ++ "/verdicts.json"

/-- The state with the result of a phase, as `prepare_review` shows it to the backend and
`generation_operation` leaves it. -/
def withResult (phase : String) (state : CycleState) (projection : Projection) : CycleState :=
  { state with phaseResults := state.phaseResults ++ [(phase, projection)] }

/-- `prepare_review`. `fingerprint` is what `tracked_tree_fingerprint` answers, which is asked only
of survivors that may be reviewed. -/
def prepareReview (settings : Settings) (phase : String) (state : CycleState)
    (projection : Projection) (scoringSurvivors : Option (CycleState → Option ScoringSurvivors))
    (fingerprint : Option String) : Projection :=
  if projection.phaseOutcome ≠ "failed" ∨
      projection.evidence.failureReason ≠ noProgressReason ∨
      state.qualityMode ≠ "ci_incremental" ∨
      (Dict.get? state.phaseResults reviewPhase).isSome then projection
  else
    let survivors := scoringSurvivors.bind fun reader => reader (withResult phase state projection)
    let ineligible reason : Projection :=
      let review : ReviewDecision := ⟨.ineligible, reason, survivors, [], "", [], ""⟩
      { projection with evidence := { projection.evidence with review := some review } }
    if ineligibility survivors settings.reviewMax ≠ "" then
      ineligible (ineligibility survivors settings.reviewMax)
    else
      match fingerprint with
      | none => ineligible "workspace_unverifiable"
      | some tree =>
        { phaseOutcome := reviewOutcome
          evidence := { projection.evidence with
            survivors := survivors.map ScoringSurvivors.toFields
            verdictsPath := verdictsFile state.unitId
            tree }
          reviewTimeoutSeconds := some settings.reviewTimeoutSeconds }

/-! The request. -/

/-- The evidence of the first phase in the order searched that was prepared for a review. -/
def reviewEvidence (state : CycleState) : Option Evidence :=
  triggerPhases.findSome? fun phase =>
    ((Dict.get? state.phaseResults phase).map Projection.evidence).filter fun evidence =>
      evidence.survivors.isSome

structure Request where
  survivors : ScoringSurvivors
  verdictsPath : String
  tree : String

/-- What is read of the evidence; `none` is an exception. -/
def requestOf (py : Conversions) (evidence : Evidence) : Option Request :=
  (survivorsFromDict py (evidence.survivors.getD [])).map fun survivors =>
    ⟨survivors, evidence.verdictsPath, evidence.tree⟩

/-- `_review_request`; the outer `none` is an exception. -/
def reviewRequest (py : Conversions) (state : CycleState) : Option (Option Request) :=
  match reviewEvidence state with
  | none => some none
  | some evidence => (requestOf py evidence).map some

/-! The workspace. -/

/-- What a path holds. A file whose directories lead out of the repository is not `inside`. -/
inductive Node where
  | file (size : ℕ) (text : List Char) (inside : Bool)
  | symlink
  | directory
  | special

structure Workspace (C : Type) where
  content : C
  files : Stamped String Node

def maxVerdictsBytes : ℕ := 1024 * 1024

/-- The removal of `render_prompt`; `none` is an exception. -/
def renderPrompt {C : Type} (w : Workspace C) (path : String) : Option (Workspace C) :=
  match w.files.held path with
  | some (.directory, _) => none
  | _ => some { w with files := w.files.change (.remove path) }

/-- `_read_verdicts`. -/
def readVerdictsFile {C : Type} (w : Workspace C) (path : String) : Option (List Char) :=
  match w.files.held path with
  | some (.file size text inside, _) =>
    if maxVerdictsBytes < size then none
    else if ¬ inside then none
    else some text
  | _ => none

/-! After the turn. -/

/-- `_session_ref`. -/
def sessionRef (state : CycleState) : List (String × String) :=
  match state.turnSessionRefs.getLast? with
  | some ref => ref
  | none => if state.turnSessionId = "" then [] else [("session_id", state.turnSessionId)]

def orText (a b : String) : String := if a = "" then b else a

/-- The status that the turn states, or the state for it. -/
def statedStatus (turn : Option Turn) (state : CycleState) : String :=
  orText ((turn.map Turn.status).getD "") state.turnStatus

def modelId (turn : Option Turn) : String :=
  match turn with
  | none => ""
  | some t => orText t.mainModel t.modelId

section

variable {C T : Type} (py : Conversions) (hash : Hashing) (git : Git C T)

/-- The decision of `interpret` on a request; `none` is an exception. -/
def decide_ (request : Request) (turn : Option Turn) (state : CycleState) (w : Workspace C)
    (e : Endings) : Option ReviewDecision :=
  let rejected reason : ReviewDecision :=
    ⟨.rejected, reason, some request.survivors, [], "", sessionRef state, modelId turn⟩
  if request.tree = "" ∨ trackedTreeFingerprint hash git w.content e ≠ some request.tree then
    some (rejected "review_modified_workspace")
  else if statedStatus turn state ≠ "" ∧ statedStatus turn state ≠ "completed" then
    some (rejected "turn_failed")
  else
    let text := readVerdictsFile w request.verdictsPath
    reviewFromTurn py request.survivors text ((text.map hash.hexdigest).getD "")
      (sessionRef state) (modelId turn)

/-- `interpret`; `none` is an exception. -/
def interpret (state : CycleState) (turn : Option Turn) (w : Workspace C) (e : Endings) :
    Option Projection :=
  let decided decision : Projection :=
    { phaseOutcome := "failed"
      evidence := { failureReason := noProgressReason, review := some decision } }
  (reviewRequest py state).bind fun
    | none => some (decided ⟨.rejected, "turn_failed", none, [], "", [], ""⟩)
    | some request => (decide_ py hash git request turn state w e).map decided

end

end Uta.Cycle.Review
