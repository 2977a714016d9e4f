/- The mutation repair context: its survivor groups, the texts written for them, and the plan of a
round. -/
import Uta.Enforce.Equivalence
import Uta.Lib.Lines
import Uta.Lib.Placing
import Mathlib.Data.Prod.Lex
import Mathlib.Data.Rat.Init
import Mathlib.Data.String.Basic
import Mathlib.Algebra.Order.Ring.Rat

namespace Uta.Enforce.MutationRepair
open Uta.Lib Uta.Lib.PyText

abbrev Fields := List (String × Json)

structure MutationRepairGroup where
  symbol : String
  count : ℤ
  lines : List ℤ := []
  survivors : List Fields := []
  representativeDiffs : List Fields := []
  family : List Char := []
  killability : List Char := []
  mutator : List Char := []
  effortScore : List Char := []
  effortBand : List Char := []
  roi : Option ℚ := none
  deprioritized : Bool := false
  likelyEquivalent : Bool := false

structure MutationRepairContext where
  targetId : List Char
  sourcePath : List Char
  testPaths : List (List Char)
  reproduceCommand : List Char
  survivorCount : ℤ
  groups : List MutationRepairGroup
  artifactPath : List Char := []
  groupArtifactPaths : List (String × List Char) := []
  language : List Char := []
  failureBreakdown : List (String × ℤ) := []

/-! The text of a context. -/

/-- Python's `str`, of JSON values that are not texts and of a float. -/
structure Rendering extends Conversions where
  decimal : ℚ → List Char

section Text
variable (py : Rendering)

def quoted (text : List Char) : List Char := '`' :: (text ++ ['`'])

/-- `str(item.get(key) or item.get(other) or "").strip()`. -/
def eitherField (item : Fields) (key other : String) : List Char :=
  let value := (truthyField item key).or (truthyField item other)
  strip ((value.map (strOf py.toConversions)).getD "").toList

def survivorLine (survivor : Fields) : List Char :=
  let mutantId := eitherField py survivor "id" "mutant"
  let idSuffix := if mutantId = [] then [] else ' ' :: quoted mutantId
  let description := eitherField py survivor "description" "mutation_type"
  let line := strOf py.toConversions ((Dict.get? survivor "line").getD (.str "?"))
  rstrip ("  - line ".toList ++ line.toList ++ ':' :: (idSuffix ++ ' ' :: description))

def diffLines (diff : Fields) : List (List Char) :=
  let output := strip (textField py.toConversions diff "output").toList
  if output = [] then [] else ["```diff".toList, output, "```".toList]

def orText (text default : List Char) : List Char := if text = [] then default else text

/-- `_format_family_line`. -/
def formatFamilyLine (group : MutationRepairGroup) : List Char :=
  "- mutation family: ".toList ++ quoted group.family ++
    (if group.mutator = [] then [] else " via ".toList ++ quoted group.mutator) ++
    (if group.killability = [] then [] else ", killability ".toList ++ group.killability) ++
    (match group.roi with
      | none => []
      | some roi =>
        ", effort ".toList ++ orText group.effortScore ['?'] ++ " (".toList ++
          orText group.effortBand ['?'] ++ "), roi ".toList ++ py.decimal roi) ++
    (if group.likelyEquivalent then ", likely_equivalent — skip, not worth a test".toList
    else if group.deprioritized then ", deprioritize unless there is an easy seam".toList
    else if group.mutator ≠ [] ∨ group.roi.isSome then ", target early".toList
    else [])

/-- The lines of one group. -/
def section_ (group : MutationRepairGroup) : List (List Char) :=
  let lineList := [',', ' '].intercalate ((group.lines.take 12).map Json.intText)
  ["### ".toList ++ quoted group.symbol.toList,
    "- survivors: ".toList ++ Json.intText group.count,
    "- lines: ".toList ++ orText lineList "unknown".toList] ++
  (if group.family = [] then [] else [formatFamilyLine py group]) ++
  (if group.survivors = [] then []
    else "- representative survivors:".toList ::
      (group.survivors.take 6).map (survivorLine py)) ++
  (if group.representativeDiffs = [] then []
    else "- representative diffs:".toList :: group.representativeDiffs.flatMap (diffLines py)) ++
  [[]]

/-- `_format_failure_breakdown`. -/
def formatFailureBreakdown (context : MutationRepairContext) : List Char :=
  if context.failureBreakdown = [] then
    " (survived=".toList ++ Json.intText context.survivorCount ++ [')']
  else
    let parts := ((Dict.sorted context.failureBreakdown).filter (·.2 ≠ 0)).map fun entry =>
      entry.1.toList ++ '=' :: Json.intText entry.2
    if parts = [] then [] else " (".toList ++ [',', ' '].intercalate parts ++ [')']

/-- The lines before the groups. -/
def head (context : MutationRepairContext) : List (List Char) :=
  ["# Mutation Repair Context".toList, [],
    "- Target: ".toList ++ quoted context.targetId,
    "- Source: ".toList ++ quoted context.sourcePath,
    "- Test path(s): ".toList ++ quoted ([',', ' '].intercalate context.testPaths),
    "- Failed mutation candidates: ".toList ++ Json.intText context.survivorCount ++
      formatFailureBreakdown context,
    [], "## Verification".toList,
    ("The orchestrator will run the authoritative mutation verifier after the active test file " ++
      "is edited.").toList,
    "Do not run mutation commands from this context artifact.".toList,
    [], "## Survivor Groups".toList, []] ++
  (if context.groups.any (·.roi.isSome) then
    ["_Ranked by kill-per-effort ROI — tackle the top entry first._".toList, []] else [])

/-- The text that describes some groups of a context. -/
def describe (context : MutationRepairContext) (groups : List MutationRepairGroup) : List Char :=
  rstrip (joinLines (head context ++ groups.flatMap (section_ py))) ++ ['\n']

/-- `format_mutation_repair_context`; an empty `selectedGroup` selects nothing. -/
def formatMutationRepairContext (context : MutationRepairContext) (selectedGroup : String := "") :
    List Char :=
  describe py context
    (context.groups.filter fun group => selectedGroup = "" ∨ group.symbol = selectedGroup)

end Text

/-! The artifacts. -/

/-- `re.sub(r"[^A-Za-z0-9]+", "_", text)`, inside or outside a run. -/
def underscored : Bool → List Char → List Char
  | _, [] => []
  | inside, c :: cs =>
    if c.isAlphanum then c :: underscored false cs
    else if inside then underscored true cs
    else '_' :: underscored true cs

/-- `_slug`. -/
def slug (value : String) : List Char :=
  let text := if value = "" then "unknown".toList else value.toList
  let bare := ((underscored false text).dropWhile (· = '_')).rdropWhile (· = '_')
  orText (bare.map Char.toLower) "unknown".toList

/-- `(directory / name).as_posix()`. -/
def under (directory name : List Char) : List Char :=
  if directory = ['.'] then name
  else if directory = ['/'] then '/' :: name
  else directory ++ '/' :: name

def repairFile (directory stem : List Char) : List Char :=
  under directory ("mutation-repair-".toList ++ (stem ++ ".md".toList))

def contextPath (directory : List Char) : List Char := repairFile directory "context".toList

def groupPath (directory : List Char) (symbol : String) : List Char :=
  repairFile directory (slug symbol)

def jsonPath (directory : List Char) : List Char :=
  under directory "mutation-repair-context.json".toList

def shouldSplitMutationRepair (survivorCount threshold : ℤ) : Bool :=
  decide (threshold < survivorCount)

/-- Where the texts of files are found. -/
abbrev Files := List Char → Option (List Char)

section Writing
variable (py : Rendering) (contextJson : MutationRepairContext → List Char)

/-- `write_mutation_repair_context`, with the files of the groups written in the order given. -/
def writeInOrder (order : List MutationRepairGroup) (directory : List Char)
    (context : MutationRepairContext) (splitThreshold : ℤ) (files : Files) :
    Files × MutationRepairContext :=
  let files := Function.update files (contextPath directory)
    (some (formatMutationRepairContext py context))
  let files := Function.update files (jsonPath directory) (some (contextJson context))
  let split := shouldSplitMutationRepair context.survivorCount splitThreshold
  let written := if split then order else []
  (putAll (fun group => groupPath directory group.symbol)
      (fun group => formatMutationRepairContext py context group.symbol) files written,
    { context with
      artifactPath := contextPath directory
      groupArtifactPaths := written.map fun group => (group.symbol, groupPath directory group.symbol) })

/-- `write_mutation_repair_context`. -/
def writeMutationRepairContext (directory : List Char) (context : MutationRepairContext)
    (splitThreshold : ℤ := 50) (files : Files) : Files × MutationRepairContext :=
  writeInOrder py contextJson context.groups directory context splitThreshold files

end Writing

/-! The plan of a round. -/

structure MutationRepairRoundState where
  targetId : List Char
  attemptIndex : ℤ := 1
  previousSurvivorCount : Option ℤ := none
  latestSurvivorCount : Option ℤ := none
  previousSelectedGroupIds : List String := []
  editedTestPaths : List (List Char) := []

structure MutationRepairPlanEvidence where
  previousSurvivorCount : Option ℤ
  latestSurvivorCount : Option ℤ
  selectedGroupIds : List String
  previousSelectedGroupIds : List String
  editedTestPaths : List (List Char)
  noProgress : Bool

inductive RoundKind where
  | fullRoi
  | focusedRoi
  deriving DecidableEq

/-- `prompt_flags`: the full round, the split one, and the kind of the round. -/
structure PromptFlags where
  roiGuidedFull : Bool
  split : Bool
  roundKind : RoundKind

structure MutationRepairPlan where
  targetId : List Char
  language : List Char
  roundIndex : ℤ
  roundKind : RoundKind
  selectedGroups : List MutationRepairGroup
  contextArtifactPath : List Char
  groupArtifactPaths : List (List Char)
  promptFlags : PromptFlags
  evidence : MutationRepairPlanEvidence

/-- The key of `_ordered_mutation_groups`. -/
def orderKey (group : MutationRepairGroup) : ℚ ×ₗ ℤ ×ₗ String ×ₗ ℤ :=
  toLex (-(group.roi.getD (-1)), toLex (-group.count, toLex (group.symbol, group.lines.headD 0)))

/-- `_ordered_mutation_groups`. -/
def orderedMutationGroups (groups : List MutationRepairGroup) : List MutationRepairGroup :=
  groups.mergeSort fun a b => decide (orderKey a ≤ orderKey b)

/-- `_mutation_repair_no_progress`. -/
def mutationRepairNoProgress (state : MutationRepairRoundState) : Bool :=
  match state.previousSurvivorCount, state.latestSurvivorCount with
  | some previous, some latest => !state.editedTestPaths.isEmpty && decide (previous ≤ latest)
  | _, _ => false

/-- `_language_from_target_id`. -/
def languageFromTargetId (targetId : List Char) : List Char :=
  if PyText.startsWith "pyfile:" targetId || PyText.startsWith "pysymbol:" targetId then
    "python".toList
  else if PyText.startsWith "java:" targetId || PyText.startsWith "class:" targetId then
    "java".toList
  else "unknown".toList

def planMutationRepair (context : MutationRepairContext) (state : MutationRepairRoundState)
    (focusedGroupCount : ℤ := 1) : MutationRepairPlan :=
  let attempt := max 1 state.attemptIndex
  let ordered := orderedMutationGroups context.groups
  let fullRound := decide (attempt ≤ 1)
  let selected := if fullRound then ordered else ordered.take (max 1 focusedGroupCount).toNat
  let groupPaths := (selected.map fun group =>
    (Dict.get? context.groupArtifactPaths group.symbol).getD []).filter (· ≠ [])
  let roundKind := if fullRound then RoundKind.fullRoi else .focusedRoi
  { targetId := context.targetId
    language := orText context.language (languageFromTargetId context.targetId)
    roundIndex := attempt
    roundKind
    selectedGroups := selected
    contextArtifactPath := context.artifactPath
    groupArtifactPaths := groupPaths
    promptFlags :=
      { roiGuidedFull := fullRound, split := !fullRound && !groupPaths.isEmpty, roundKind }
    evidence :=
      { previousSurvivorCount := state.previousSurvivorCount
        latestSurvivorCount := state.latestSurvivorCount
        selectedGroupIds := selected.map (·.symbol)
        previousSelectedGroupIds := state.previousSelectedGroupIds
        editedTestPaths := state.editedTestPaths
        noProgress := mutationRepairNoProgress state } }

end Uta.Enforce.MutationRepair
