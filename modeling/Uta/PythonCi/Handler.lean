/- The Python handler of CI records: the targets that a failed enforcement leaves to
repair, and the verdict on a completed repair task. -/
import Mathlib.Data.List.Basic
import Uta.Lib.Json
import Uta.Operations.Rows
import Uta.Tasks.Rows
import Mathlib.Algebra.Ring.Int.Defs

namespace Uta.PythonCi
open Uta.Lib Uta.Operations Uta.Tasks

/-! Python values. -/

inductive Raised where
  | value
  | type
  deriving DecidableEq, Repr

abbrev Fields := List (String × Json)

/-- The interpreter's conversions. -/
structure Python where
  /-- `str(value)` of what is not a string. -/
  str : Json → String
  /-- `int(value)` of what is not an integer. -/
  int : Json → Except Raised ℤ
  float : Json → Except Raised PyFloat
  lower : String → String
  upper : String → String

/-- `a >= b`. -/
def floatGe : PyFloat → PyFloat → Bool
  | .nan, _ | _, .nan => false
  | .finite p, .finite q => decide (q ≤ p)
  | .finite _, .infinite negative => negative
  | .infinite negative, .finite _ => !negative
  | .infinite p, .infinite q => !p || q

/-- `a < b`. -/
def floatLt (a b : PyFloat) : Bool := floatGe b a && !floatGe a b

/-- `x or 0.0`. -/
def orZero : Option PyFloat → PyFloat
  | some x => if x = .finite 0 then .finite 0 else x
  | none => .finite 0

/-- `d.get(key)`. -/
def get (d : Fields) (key : String) : Json := (Dict.get? d key).getD .null

/-- `value if isinstance(value, dict) else {}`. -/
def asDict (v : Json) : Fields := v.fields?.getD []

/-- `d.items()`. -/
def items (d : Fields) : Fields :=
  (d.map Prod.fst).eraseDups.filterMap fun key => (Dict.get? d key).map (key, ·)

/-- `a or b`. -/
def or (a b : Json) : Json := if a.truthy then a else b

/-- `value is False`. -/
def isFalse : Json → Bool
  | .bool b => !b
  | _ => false

/-- `value is True`. -/
def isTrue : Json → Bool
  | .bool b => b
  | _ => false

/-- `for x in value or []`. -/
def iterate (v : Json) : Except Raised (List Json) :=
  if v.truthy then
    match v with
    | .arr l => .ok l
    | .obj d => .ok (d.map fun entry => .str entry.1)
    | .str s => .ok (s.toList.map fun c => .str (String.ofList [c]))
    | _ => .error .type
  else .ok []

/-! Text. -/

/-- `text.replace("\\", "/")`. -/
def slashed (text : String) : String :=
  String.ofList (text.toList.map fun c => if c = '\\' then '/' else c)

/-- `text.strip()`. -/
def strip (text : String) : String := String.ofList (PyText.strip text.toList)

/-- `text.lstrip("./")`. -/
def stripDots (text : String) : String :=
  String.ofList (text.toList.dropWhile fun c => c = '.' ∨ c = '/')

def startsWith (text head : String) : Bool := PyText.startsWith head text.toList

def endsWith (text tail : String) : Bool := decide (tail.toList <:+ text.toList)

/-- What stands before the first `sep`, and after it. -/
def splitOnce (sep : List Char) : List Char → List Char × Option (List Char)
  | [] => ([], none)
  | c :: cs =>
    if sep <+: c :: cs then ([], some ((c :: cs).drop sep.length))
    else (c :: (splitOnce sep cs).1, (splitOnce sep cs).2)

/-- `text.split(sep, 1)`. -/
def split (text sep : String) : String × Option String :=
  let parts := splitOnce sep.toList text.toList
  (String.ofList parts.1, parts.2.map String.ofList)

/-! Targets. -/

structure TargetRef where
  targetId : String
  displayName : String
  sourcePath : String
  symbol : Option String
  granularity : String
  deriving DecidableEq, Repr

/-- `while path.startswith("./"): path = path[2:]`. -/
def dropDotSlash : List Char → List Char
  | '.' :: '/' :: rest => dropDotSlash rest
  | path => path

/-- `_normalize_source_path`. -/
def normalizeSourcePath (sourcePath : String) : Except Raised String :=
  let path := strip sourcePath
  if path = "" then .error .value
  else
    let path := dropDotSlash (slashed path).toList
    let parts := (path.splitOn '/').filter fun part => !part.isEmpty
    if ['/'] <+: path ∨ ['.', '.'] ∈ parts then .error .value
    else if ¬ ".py".toList <:+ path then .error .value
    else .ok (String.ofList (['/'].intercalate parts))

/-- `_strip_prefixed_target`. -/
def stripPrefixedTarget (value : String) : Except Raised (String × Option String) :=
  if startsWith value "pyfile:" then .ok (String.ofList (value.toList.drop 7), none)
  else if startsWith value "pysymbol:" then
    match split (String.ofList (value.toList.drop 9)) "::" with
    | (path, some symbol) => .ok (path, some symbol)
    | (_, none) => .error .value
  else .ok (split value "::")

/-- `_parse_python_selection`, of a target without other fields. -/
def parsePythonSelection (value : String) : Except Raised (String × Option String) := do
  let parts ← stripPrefixedTarget value
  let sourcePath ← normalizeSourcePath parts.1
  .ok (sourcePath, (parts.2.map strip).filter fun symbol => symbol ≠ "")

/-- The reference to a file, or to a symbol of it. -/
def targetRef (sourcePath : String) : Option String → TargetRef
  | some symbol =>
    let display := sourcePath ++ "::" ++ symbol
    ⟨"pysymbol:" ++ display, display, sourcePath, some symbol, "function"⟩
  | none => ⟨"pyfile:" ++ sourcePath, sourcePath, sourcePath, none, "file"⟩

/-- `normalize_target(RawTargetSelection(target=value))`. -/
def normalizeTarget (value : String) : Except Raised TargetRef :=
  (parsePythonSelection value).map fun parsed => targetRef parsed.1 parsed.2

/-- `_repair_scope_key`. -/
def repairScopeKey (targetId sourcePath : String) : String :=
  let path := strip (slashed sourcePath)
  if path ≠ "" then path
  else
    let value := strip targetId
    let value := (split value ":").2.getD value
    (split value "::").1

/-- `_repair_scope_keys`. -/
def repairScopeKeys (targets : List TargetRef) : List String :=
  (targets.map fun t => repairScopeKey t.targetId t.sourcePath).filter fun key => key ≠ ""

/-- `ADVISORY_SKIP_REASONS`. -/
def advisorySkipReasons : List String :=
  ["python_large_change_skipped", "python_runtime_incompatible_skipped"]

/-- `candidate_plan_requires_mutation_execution`. -/
def candidatePlanRequiresMutationExecution (plan : Json) : Bool :=
  ["eligibleMutationOpportunities", "activeSelected", "reportFullSelected",
      "exactToolCandidateKeys"].any fun key =>
    match get (asDict plan) key with
    | .arr (_ :: _) => true
    | _ => false

section Handler
variable (py : Python)

def strOf : Json → String
  | .str s => s
  | v => py.str v

def intOf : Json → Except Raised ℤ
  | .int n => .ok n
  | v => py.int v

/-- `str(value or "")`. -/
def textOf (v : Json) : String := if v.truthy then strOf py v else ""

/-- The mutants that a target was to have generated are missing. -/
def mutationUnexecuted (mutation : Json) : Except Raised Bool :=
  match mutation with
  | .obj d => do
    let generated ← intOf py (or (or (get d "changedLineMutantsGenerated") (get d "generated")) (.int 0))
    .ok (decide (generated ≤ 0) &&
      candidatePlanRequiresMutationExecution (or (get d "candidatePlan") (.obj [])))
  | _ => .ok false

/-- `value is a dict and value.get("passed") is False`. -/
def notPassed (v : Json) : Bool := isFalse (get (asDict v) "passed")

/-- `str(item.get(key) or "").strip().lower()`. -/
def wordOf (item : Fields) (key : String) : String := py.lower (strip (textOf py (get item key)))

/-- `_target_result_needs_repair`. -/
def targetResultNeedsRepair (item : Fields) : Except Raised Bool :=
  if wordOf py item "reasonCode" ∈ advisorySkipReasons then .ok false
  else if notPassed (get item "coverage") then .ok true
  else if notPassed (get item "mutation") then .ok true
  else do
    if ← mutationUnexecuted py (get item "mutation") then .ok true
    else if isFalse (get item "testsPass") then .ok true
    else
      let status := wordOf py item "status"
      let reasonCode := wordOf py item "reasonCode"
      if status ≠ "" ∧ status ∉ ["pass", "passed", "success", "succeeded", "skipped"] then .ok true
      else if reasonCode ≠ "" ∧ reasonCode ∉ ["pass", "passed", "success"] then .ok true
      else
        .ok (!((get item "coverage").fields?.isSome || (get item "mutation").fields?.isSome ||
          (Dict.get? item "testsPass").isSome || status ≠ "" || reasonCode ≠ ""))

/-- `target.get("target") or target.get("target_id") or target.get("source_path")`. -/
def targetName (target : Json) : Option String :=
  match target with
  | .obj d =>
    let value := or (or (get d "target") (get d "target_id")) (get d "source_path")
    if value.truthy then some (strOf py value) else none
  | _ => none

/-- The target that an id of a request selects. -/
def selectedTarget (targetId : String) : Option String :=
  if startsWith targetId "python:" then (split targetId ":").2
  else if startsWith targetId "pyfile:" ∨ startsWith targetId "pysymbol:" ∨
      endsWith targetId ".py" ∨ ".py::".toList <:+: targetId.toList then some targetId
  else none

/-- The target results of the evidence. -/
def targetResults (enforcement : Fields) : Except Raised (List Fields) := do
  let results ← iterate (get (asDict (get enforcement "evidence")) "targetResults")
  .ok (results.filterMap Json.fields?)

/-- The names of the results that need repair. -/
def failingNames : List Fields → Except Raised (List String)
  | [] => .ok []
  | item :: rest => do
    let needed ← targetResultNeedsRepair py item
    let names ← failingNames rest
    .ok (if needed then (targetName py (get item "target")).toList ++ names else names)

/-- The targets in the evidence that need repair, by name. -/
def repairValues (enforcement : Fields) : Except Raised (List String) := do
  let results ← targetResults enforcement
  let values ← failingNames py results
  if values.isEmpty ∧ results.isEmpty then
    let evidence := asDict (get enforcement "evidence")
    let targets ← iterate (get evidence "targets")
    let files ← iterate (get evidence "changedProductionFiles")
    .ok (targets.filterMap (targetName py) ++
      (files.filter Json.truthy).map (strOf py))
  else .ok values

/-- `_repair_targets`. -/
def repairTargets (targetIds : List String) (enforcement : Fields) : Except Raised (List TargetRef) := do
  let selected := targetIds.filterMap selectedTarget
  let values ← if selected.isEmpty then repairValues py enforcement else .ok selected
  values.eraseDups.mapM normalizeTarget

/-! Reports. -/

/-- `_coverage_summary_keys`, of the values that name a result or a row. -/
def coverageSummaryKeys (values : List String) : List String :=
  (values.flatMap fun value =>
    let normalized := strip (stripDots (slashed value))
    if normalized = "" then []
    else if endsWith normalized ".py" ∧ ¬ startsWith normalized "pyfile:" ∧
        ¬ startsWith normalized "pysymbol:" then
      [normalized, "pyfile:" ++ normalized]
    else [normalized]).eraseDups

/-- The keys of a result of a report. -/
def resultKeys (resultKey : String) (result : Fields) : List String :=
  let target := asDict (get result "target")
  coverageSummaryKeys
    [resultKey, textOf py (get result "target_id"), textOf py (get result "class_fqn"),
      textOf py (get result "source_path"), textOf py (get target "target_id"),
      textOf py (get target "source_path"), textOf py (get target "display_name")]

/-- The results of a report that have a coverage summary. -/
def summarizedResults (report : Option Json) : List (String × Fields) :=
  (items (asDict (get (asDict (report.getD .null)) "results"))).filterMap fun entry =>
    match entry.2 with
    | .obj result => if (get result "coverage_summary").fields?.isSome then some (entry.1, result) else none
    | _ => none

/-- `summaries.setdefault(key, coverage)`. -/
def setdefault (summaries : List (String × Fields)) (key : String) (coverage : Fields) :
    List (String × Fields) :=
  if (summaries.lookup key).isSome then summaries else summaries ++ [(key, coverage)]

/-- `_coverage_summaries_from_latest_report`. -/
def coverageSummariesFromLatestReport (report : Option Json) : List (String × Fields) :=
  (summarizedResults report).foldl (fun summaries entry =>
    (resultKeys py entry.1 entry.2).foldl (fun summaries key =>
      setdefault summaries key (asDict (get entry.2 "coverage_summary"))) summaries) []

end Handler

/-! Rows. -/

/-- A row of `class_tasks`. -/
structure ClassRow where
  status : String
  classFqn : String
  targetId : Option String := none
  sourcePath : Option String := none
  symbol : Option String := none
  targetGranularity : Option String := none
  displayName : Option String := none
  coverageLine : Option PyFloat := none
  coverage : Option PyFloat := none
  mutationScore : Option PyFloat := none
  survivingMutants : Option ℤ := none
  totalMutants : Option ℤ := none
  currentDetail : Option String := none
  testFilePath : Option String := none
  deriving DecidableEq, Repr

/-- `a or b` of columns. -/
def orText (a : Option String) (b : String) : String :=
  match a with
  | some s => if s = "" then b else s
  | none => b

namespace ClassRow
variable (row : ClassRow)

/-- `_repair_scope_key` of the row. -/
def scopeKey : String :=
  repairScopeKey (orText row.targetId row.classFqn) (row.sourcePath.getD "")

/-- `_coverage_summary_keys` of the row. -/
def summaryKeys : List String :=
  coverageSummaryKeys ["", row.targetId.getD "", row.classFqn, row.sourcePath.getD "", "", "", ""]

/-- `_coverage_summary_for_task_row`. -/
def coverageSummary (summaries : List (String × Fields)) : Option Fields :=
  row.summaryKeys.findSome? fun key => summaries.lookup key

/-- `generated`. -/
def generated : ℤ := row.totalMutants.getD 0

/-- `survived`. -/
def survived : ℤ := row.survivingMutants.getD 0

/-- `mutation_rate`. -/
def mutationRate : PyFloat :=
  if row.generated = 0 ∧ row.survived = 0 then .finite 100 else orZero row.mutationScore

/-- `coverage_rate`. -/
def coverageRate : PyFloat :=
  match row.coverageLine with
  | some rate => rate
  | none => orZero row.coverage

end ClassRow

structure CoverageEvidence where
  covered : ℤ
  total : ℤ
  rate : PyFloat
  gate : PyFloat
  passed : Bool
  /-- What is copied of the summary. -/
  copied : Fields := []

structure MutationEvidence where
  generated : ℤ
  killed : ℤ
  survived : ℤ
  rate : PyFloat
  gate : PyFloat
  passed : Bool
  deriving DecidableEq, Repr

structure TargetEvidence where
  targetId : String
  displayName : String
  sourcePath : Option String
  symbol : Option String
  granularity : String
  message : String
  coverage : CoverageEvidence
  mutation : MutationEvidence
  testFilePath : String

def nonEmpty (a : Option String) : Option String := a.filter fun s => s ≠ ""

section Handler
variable (py : Python)

/-- The coverage of a row, from the summary if there is one that is not empty. -/
def rowCoverage (row : ClassRow) (coverageGate : PyFloat) (summary : Option Fields) :
    Except Raised CoverageEvidence :=
  match summary with
  | none | some [] =>
    .ok { covered := 0, total := 0, rate := row.coverageRate, gate := coverageGate
          passed := floatGe row.coverageRate coverageGate }
  | some summary => do
    let covered ← intOf py (or (get summary "covered") (.int 0))
    let total ← intOf py (or (get summary "total") (.int 0))
    let rate ← match get summary "rate" with
      | .null => .ok row.coverageRate
      | v => py.float v
    let gate ← match get summary "gate" with
      | .null => .ok coverageGate
      | v => py.float v
    .ok { covered, total, rate, gate, passed := isTrue (get summary "passed")
          copied := ["scope", "no_executable_changed_lines", "changed_lines", "xml_path"].filterMap
            fun key => (Dict.get? summary key).map (key, ·) }

/-- `_target_evidence_from_task_row`. -/
def targetEvidenceFromTaskRow (coverageGate mutationGate : PyFloat)
    (summaries : List (String × Fields)) (row : ClassRow) : Except Raised TargetEvidence := do
  let coverage ← rowCoverage py row coverageGate (row.coverageSummary summaries)
  .ok
    { targetId := orText row.targetId (orText row.classFqn (row.sourcePath.getD ""))
      displayName := orText row.displayName (orText row.classFqn (row.targetId.getD ""))
      sourcePath := nonEmpty row.sourcePath
      symbol := nonEmpty row.symbol
      granularity := orText row.targetGranularity "file"
      message := orText row.currentDetail "PASS"
      coverage
      mutation :=
        { generated := row.generated
          killed := max 0 (row.generated - row.survived)
          survived := row.survived
          rate := row.mutationRate
          gate := mutationGate
          passed := floatGe row.mutationRate mutationGate }
      testFilePath := row.testFilePath.getD "" }

/-- `min(rates, default=0.0)`. -/
def minRate : List PyFloat → PyFloat
  | [] => .finite 0
  | rate :: rates => rates.foldl (fun least r => if floatLt r least then r else least) rate

/-- `_aggregate_task_coverage`. -/
def aggregateTaskCoverage (results : List TargetEvidence) (gate : PyFloat) : CoverageEvidence where
  covered := (results.map fun r => r.coverage.covered).sum
  total := (results.map fun r => r.coverage.total).sum
  rate := minRate (results.map fun r => orZero (some r.coverage.rate))
  gate
  passed := !results.isEmpty && results.all fun r => r.coverage.passed

/-- `_aggregate_task_mutation`. -/
def aggregateTaskMutation (results : List TargetEvidence) (gate : PyFloat) : MutationEvidence where
  generated := (results.map fun r => r.mutation.generated).sum
  killed := (results.map fun r => r.mutation.killed).sum
  survived := (results.map fun r => r.mutation.survived).sum
  rate := minRate (results.map fun r => orZero (some r.mutation.rate))
  gate
  passed := !results.isEmpty && results.all fun r => r.mutation.passed

end Handler

/-! The verdict. -/

/-- What the handler reads of a CI record. -/
structure CiRecord where
  language : String
  enforcementResult : Option Fields := none

/-- What the handler reads of a row of `repo_tasks`. -/
structure RepairTask where
  language : Option String := none
  status : RepoStatus
  coverageGate : Option PyFloat := none
  mutationGate : Option PyFloat := none
  deriving DecidableEq, Repr

structure Settings where
  coverageGate : PyFloat
  mutationGate : PyFloat
  deriving DecidableEq, Repr

/-- The result for a repair task whose rows clear the gates. -/
structure QualityGateResult where
  targetResults : List TargetEvidence
  coverage : CoverageEvidence
  mutation : MutationEvidence

namespace QualityGateResult

def status : String := "passed"

def summary : String := "Python enforcement passed from completed repair task evidence"

end QualityGateResult

namespace CiRecord
variable (record : CiRecord)

/-- `record.enforcement_result or {}`. -/
def enforcement : Fields := record.enforcementResult.getD []

/-- `record.enforcement_result["evidence"]`. -/
def evidence : Fields := asDict (get record.enforcement "evidence")

/-- `matches`. -/
def matchesPython : Bool :=
  let isText (v : Json) (text : String) : Bool :=
    match v with
    | .str s => decide (s = text)
    | _ => false
  record.language = "python" || isText (get record.enforcement "language") "python" ||
    isText (get record.enforcement "backend") "python_enforcer"

end CiRecord

section Handler
variable (py : Python)

/-- A gate: the task's, else that of the original evidence, else the configured one. -/
def gateOf (column : Option PyFloat) (original : Fields) (configured : PyFloat) :
    Except Raised PyFloat :=
  match column.filter fun gate => gate ≠ .finite 0 with
  | some gate => .ok gate
  | none =>
    if (get original "gate").truthy then py.float (get original "gate") else .ok configured

/-- Every row is `PASS`. -/
def AllPass (rows : List ClassRow) : Prop := ∀ row ∈ rows, py.upper row.status = "PASS"

instance (rows : List ClassRow) : Decidable (AllPass py rows) :=
  inferInstanceAs (Decidable (∀ row ∈ rows, _))

/-- The files that the task's rows are about. -/
def completedSources (rows : List ClassRow) : List String :=
  (rows.map ClassRow.scopeKey).filter fun key => key ≠ ""

/-- `completed_task_enforcement_result`; `report` is what the latest report is read as. -/
def completedTaskEnforcementResult (settings : Settings) (record : CiRecord) (task : RepairTask)
    (rows : List ClassRow) (report : Except Raised (Option Json)) :
    Except Raised (Option QualityGateResult) :=
  if ¬ record.matchesPython ∧ task.language.getD "" ≠ "python" then .ok none
  else if task.status ≠ .completed then .ok none
  else if rows = [] ∨ ¬ AllPass py rows then .ok none
  else do
    let required ← repairTargets py [] record.enforcement
    if ¬ repairScopeKeys required ⊆ completedSources rows then .ok none
    else
      let coverageGate ← gateOf py task.coverageGate (asDict (get record.evidence "coverage"))
        settings.coverageGate
      let mutationGate ← gateOf py task.mutationGate (asDict (get record.evidence "mutation"))
        settings.mutationGate
      let summaries := coverageSummariesFromLatestReport py (← report)
      let results ← rows.mapM (targetEvidenceFromTaskRow py coverageGate mutationGate summaries)
      let coverage := aggregateTaskCoverage results coverageGate
      let mutation := aggregateTaskMutation results mutationGate
      if ¬ coverage.passed ∨ ¬ mutation.passed then .ok none
      else .ok (some { targetResults := results, coverage, mutation })

end Handler
end Uta.PythonCi
