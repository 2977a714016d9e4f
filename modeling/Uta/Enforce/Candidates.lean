/- The mutation opportunities of a Python source: which changed lines carry one,
and which are suppressed. -/
import Uta.Enforce.PyAst
import Uta.Lib.PyText
import Mathlib.Data.List.Sort
import Mathlib.Data.List.Dedup

namespace Uta.Enforce
open Uta.Lib

/-- What the planner takes from the interpreter: its parser (`none` is a
`SyntaxError`), its Unicode tables, and its hash functions. -/
structure Python where
  parse : List Char → Option Node
  /-- `str.lower`. -/
  lower : String → String
  /-- `str.isupper`. -/
  isUpper : String → Bool
  /-- The hexadecimal SHA-256 of the UTF-8 bytes. -/
  sha256 : String → String
  /-- `json.dumps` of a list of texts and numbers, in the form that ids are hashed in. -/
  dumps : List (String ⊕ ℕ) → String

/-- `text.strip("_")`. -/
def stripUnderscores (text : String) : String :=
  String.ofList (((text.toList.dropWhile (· = '_')).reverse.dropWhile (· = '_')).reverse)

/-- `needle in hay`. -/
def contains (hay needle : String) : Bool := decide (needle.toList <:+: hay.toList)

/-! Suppression. -/

inductive SuppressionReason where
  | lowValueLogging | metricsOnly | importWiring | pureConfigConstant | generatedFrameworkGlue
  | mutationToolUnsupported | asyncSchedulerLoop
  deriving DecidableEq, Repr

def SuppressionReason.code : SuppressionReason → String
  | .lowValueLogging => "low_value_logging"
  | .metricsOnly => "metrics_only"
  | .importWiring => "import_wiring"
  | .pureConfigConstant => "pure_config_constant"
  | .generatedFrameworkGlue => "generated_framework_glue"
  | .mutationToolUnsupported => "mutation_tool_unsupported"
  | .asyncSchedulerLoop => "async_scheduler_loop"

def lowValueSideEffectTokens : List String :=
  ["audit", "counter", "histogram", "log", "logger", "logging", "meter", "metric", "metrics", "span",
   "stats", "statsd", "telemetry", "timer", "trace", "tracer"]

def lowValueSideEffectMethods : List String :=
  ["add_event", "count", "critical", "debug", "decr", "decrement", "emit", "emit_audit",
   "emit_metric", "error", "exception", "gauge", "histogram", "incr", "increment", "info", "log",
   "mark", "meter", "notice", "observe", "record", "record_event", "record_metric", "set_tag", "tag",
   "timer", "trace", "warning", "warn"]

section Suppression
variable (py : Python)

def loweredNames (func : Node) : List String := func.callNameParts.map py.lower

/-- The function of a call. -/
def calledNames (call : Node) : List String := (call.field .func).flatMap (loweredNames py)

def sideEffectReason (lowered : List String) : Option SuppressionReason :=
  match lowered with
  | [] => none
  | first :: _ =>
    if stripUnderscores first ∉ lowValueSideEffectMethods then none
    else if ¬ lowered.any fun name => lowValueSideEffectTokens.any (contains name) then none
    else if ["metric", "metrics", "stats", "statsd", "counter", "histogram", "gauge", "timer"].any
        (contains (".".intercalate lowered.reverse)) then some .metricsOnly
    else some .lowValueLogging

def frameworkRegistrationReason (lowered : List String) : Option SuppressionReason :=
  match lowered with
  | [] => none
  | first :: rest =>
    if stripUnderscores first ∉ ["add_api_route", "add_event_handler", "add_url_rule", "connect",
        "include_router", "register", "register_blueprint"] then none
    else if stripUnderscores (rest.headD "") ∈ ["admin", "api", "app", "application", "blueprint",
        "bp", "router", "signal", "signals"] then some .generatedFrameworkGlue
    else none

def emptyReturn (node : Node) : Bool :=
  match node.field .value with
  | [] => true
  | value :: _ =>
    match value.kind with
    | .constant .none => true
    | .list | .tuple | .set | .dict => value.children.isEmpty
    | .call =>
      (value.field .args).isEmpty && (value.field .keywords).isEmpty &&
        (calledNames py value).head?.any (· ∈ ["dict", "list", "set", "tuple"])
    | _ => false

/-- The value of an assignment is a call of one of these names. -/
def assignsCall (node : Node) (accepts : List String → Bool) : Bool :=
  (node.field .value).any fun value => value.kind == .call && accepts (calledNames py value)

def assignTargets (node : Node) : List Node := node.field .targets ++ node.field .target

def frameworkGlueAssign (node : Node) : Bool :=
  let names := (node.field .targets).map fun target => py.lower target.targetName
  names.any (· ∈ ["urlpatterns", "app_name"]) ||
    assignsCall py node (fun called => decide (stripUnderscores (called.headD "") ∈
      ["apirouter", "blueprint", "celery", "fastapi", "flask"])) &&
    names.any (· ∈ ["api", "app", "application", "blueprint", "bp", "celery_app", "router"])

def loggingAssign (node : Node) : Bool :=
  (node.field .targets).any (fun target => contains (py.lower target.targetName) "log") &&
    assignsCall py node fun called =>
      contains (".".intercalate called.reverse) "logging.getlogger" ||
        contains (".".intercalate called.reverse) "logger"

def startsWith (text head : String) : Bool := decide (head.toList <+: text.toList)

def moduleStateOrConfigAssign (l : Located) : Bool :=
  let names := ((assignTargets l.node).map Node.targetName).filter (· ≠ "")
  l.parentKind == some .module && !names.isEmpty &&
    names.all fun name => py.isUpper name || startsWith name "_" || name == "__all__"

def moduleConstantAssign (node : Node) : Bool :=
  (node.field .targets).all (fun target =>
    match target.kind with
    | .name id => py.isUpper id
    | _ => false) &&
  (node.field .value).any fun value =>
    match value.kind with
    | .constant _ | .tuple | .list | .dict | .set => true
    | .call => (calledNames py value).head?.any (· ∈ ["frozenset", "set", "tuple", "list", "dict"])
    | _ => false

def isSchedulerSleepCall (call : Node) : Bool :=
  let names := calledNames py call
  let dotted := ".".intercalate names.reverse
  !names.isEmpty && (dotted == "asyncio.sleep" || dotted == "sleep" ||
    decide (".asyncio.sleep".toList <:+ dotted.toList))

def awaitsPerpetualSchedulerSleep (l : Located) : Bool :=
  (l.node.field .value).any (fun call => call.kind == .call && isSchedulerSleepCall py call) &&
    decideUp (fun _ parent _ =>
      if parent.kind = .while ∧ (parent.field .test).any (fun t => t.kind == .constant .true) then
        some true
      else if parent.isCallable || parent.isClass then some false
      else none) l.node l.path

def moduleInitCall (l : Located) (call : Node) : Bool :=
  l.parentKind == some .module &&
    (calledNames py call).head?.any fun name => startsWith name "_init" || startsWith name "init_"

/-- `_truthiness_condition_node`. -/
def truthinessConditionNode (node : Node) : Bool :=
  match node.kind with
  | .unaryOp not_ => not_
  | _ => (node.field .test).any fun test =>
    match test.kind with
    | .unaryOp true | .name _ | .attribute _ | .subscript | .call => true
    | _ => false

def isStatementMutation (kind : Kind) : Bool :=
  kind ∈ [.assign, .augAssign, .annAssign, .break, .continue, .pass, .assert, .delete]

/-- `_mutmut3_candidate_shape`. -/
def mutmut3CandidateShape (l : Located) : Bool :=
  match l.node.kind with
  | .compare | .boolOp => true
  | .if | .while | .unaryOp _ => truthinessConditionNode l.node
  | .binOp => !l.insideAnnotation
  | .call => !(l.insideDecorator || l.insideRaise || l.noArgumentCallWithoutValueMutation)
  | .constant _ => !(l.insideAnnotation || l.insideDocstring || l.insideDecorator || l.insideRaise ||
      l.insideFormattedString)
  | kind => isStatementMutation kind && !l.insideClassFieldDefinition

/-- The value of an expression statement, if it is a call. -/
def statementCall (node : Node) : Option Node :=
  if node.kind = .expr then (node.field .value).find? fun value => value.kind = .call else none

/-- `_suppression_reason_for_node`. -/
def suppressionReasonForNode (l : Located) : Option SuppressionReason :=
  let node := l.node
  let isAssign := decide (node.kind = .assign)
  if node.kind = .import ∨ node.kind = .importFrom then some .importWiring
  else if l.nestedCallable then some .mutationToolUnsupported
  else if node.isCallable ∧ ¬ (node.field .decoratorList).isEmpty then some .generatedFrameworkGlue
  else if node.kind = .return ∧ emptyReturn py node then some .mutationToolUnsupported
  else if (node.kind = .if ∨ node.kind = .while) ∧ (node.field .test).any Node.lowYieldGuard then
    some .mutationToolUnsupported
  else if node.kind = .pass then some .mutationToolUnsupported
  else if isAssign ∧ frameworkGlueAssign py node then some .generatedFrameworkGlue
  else if isAssign ∧ loggingAssign py node then some .lowValueLogging
  else if (isAssign ∨ node.kind = .annAssign) ∧ moduleStateOrConfigAssign py l then
    some .pureConfigConstant
  else if isAssign ∧ moduleConstantAssign py node then some .pureConfigConstant
  else if node.isConstant ∧ l.insideFunctionDefault then some .mutationToolUnsupported
  else if node.kind = .await ∧ awaitsPerpetualSchedulerSleep py l then some .asyncSchedulerLoop
  else
    match statementCall node with
    | some call =>
      if moduleInitCall py l call then some .pureConfigConstant
      else (frameworkRegistrationReason (calledNames py call)).or (sideEffectReason (calledNames py call))
    | none =>
      if mutmut3CandidateShape l ∧ ¬ l.insideMaterializableCallable then some .mutationToolUnsupported
      else none

/-- `_suppressed_line_reasons`, read at one line: the reason of the first node
of the walk that covers it. -/
def suppressedLineReason (tree : Node) (line : ℕ) : Option SuppressionReason :=
  (walk tree).findSome? fun l =>
    if l.node.lineno ≤ line ∧ line ≤ l.node.endLineno then suppressionReasonForNode py l else none

end Suppression

/-! Operators. -/

structure OperatorHint where
  operatorName : String
  familyHint : String
  priority : ℕ
  deriving DecidableEq, Repr

def operatorHints (l : Located) : List OperatorHint :=
  match l.node.kind with
  | .compare => [⟨"comparison_boundary", "boundary", 100⟩, ⟨"comparison_negation", "conditional", 100⟩]
  | .if | .while | .unaryOp _ =>
    if truthinessConditionNode l.node then [⟨"boolean_operator", "conditional", 100⟩] else []
  | .boolOp => [⟨"boolean_operator", "conditional", 100⟩]
  | .binOp => if l.insideAnnotation then [] else [⟨"math_operator", "math", 90⟩]
  | .call =>
    if l.insideDecorator || l.insideRaise || l.noArgumentCallWithoutValueMutation then []
    else [⟨"call_argument", "call", 90⟩]
  | .constant _ =>
    if l.insideAnnotation || l.insideDocstring || l.insideDecorator || l.insideRaise ||
      l.insideFormattedString then []
    else [⟨"constant_value", "literal", 80⟩]
  | _ => []

/-- The nodes of a line that lie inside a function or a method. -/
def materializableOnLine (tree : Node) (line : ℕ) : List Located :=
  (walk tree).filter fun l => l.node.lineno = line ∧ l.insideMaterializableCallable

def statementMutationNodeOnLine (tree : Node) (line : ℕ) : Bool :=
  (materializableOnLine tree line).any fun l =>
    isStatementMutation l.node.kind && !l.insideClassFieldDefinition

/-- The first hint of each name. -/
def dedupHints (hints : List OperatorHint) : List OperatorHint :=
  hints.foldl (fun kept hint =>
    if kept.any fun k => k.operatorName == hint.operatorName then kept else kept ++ [hint]) []

def operatorHintsForLine (tree : Node) (line : ℕ) : List OperatorHint :=
  let hints := (materializableOnLine tree line).flatMap operatorHints
  dedupHints <|
    if hints.isEmpty && statementMutationNodeOnLine tree line then [⟨"statement", "other", 20⟩]
    else hints

/-! Symbols. -/

def joinSymbol (stack : List String) (name : String) : String := "ǁ".intercalate (stack ++ [name])

mutual

/-- What `_symbol_by_line` records, in the order of the visit. -/
def symbolRecords (stack : List String) : Node → List (ℕ × ℕ × String)
  | .mk (.classDef name) _ lines cs =>
    (lines.map fun (first, last) => (first, last, name)).toList ++
      symbolRecordsAll (stack ++ [name]) cs
  | .mk (.functionDef name) _ lines cs =>
    (lines.map fun (first, last) => (first, last, joinSymbol stack name)).toList ++
      symbolRecordsAll (stack ++ [name]) cs
  | .mk (.asyncFunctionDef name) _ lines cs =>
    (lines.map fun (first, last) => (first, last, joinSymbol stack name)).toList ++
      symbolRecordsAll (stack ++ [name]) cs
  | .mk _ _ _ cs => symbolRecordsAll stack cs

def symbolRecordsAll (stack : List String) : List Node → List (ℕ × ℕ × String)
  | [] => []
  | n :: ns => symbolRecords stack n ++ symbolRecordsAll stack ns

end

/-- `symbol_by_line.get(line, "<module>")`: the last record wins. -/
def symbolAt (tree : Node) (line : ℕ) : String :=
  (((symbolRecords [] tree).reverse.find? fun (first, last, _) => first ≤ line ∧ line ≤ last).map
    fun r => r.2.2).getD "<module>"

/-! Opportunities. -/

structure Opportunity where
  language : String := "python"
  sourcePath : String
  line : ℕ
  lineSpan : ℕ × ℕ
  symbol : String
  opportunityId : String
  operatorName : String
  familyHint : String
  diffHunk : String
  operatorPriority : ℕ
  roiScore : ℕ
  covered : Bool
  executable : Bool
  selectionReason : String
  deriving DecidableEq, Repr

/-- The order of `selection_rank`. -/
def compareRank (a b : Opportunity) : Ordering :=
  (compare (!a.covered) (!b.covered)).then <|
  (compare b.operatorPriority a.operatorPriority).then <|
  (compare a.sourcePath b.sourcePath).then <|
  (compare a.line b.line).then <|
  (compare a.symbol b.symbol).then <|
  (compare a.operatorName b.operatorName).then <|
  compare a.opportunityId b.opportunityId

/-- The order in which the opportunities of one line compete. -/
def compareOnLine (a b : Opportunity) : Ordering :=
  (compare (!a.covered) (!b.covered)).then <|
  (compare b.operatorPriority a.operatorPriority).then <|
  (compare a.symbol b.symbol).then <|
  (compare a.operatorName b.operatorName).then <|
  compare a.opportunityId b.opportunityId

/-- `sorted(items, key=...)`, which is stable. -/
def sortedBy {α : Type} (cmp : α → α → Ordering) (items : List α) : List α :=
  items.insertionSort fun a b => cmp a b ≠ .gt

structure SuppressedOpportunity where
  opportunity : Opportunity
  reasonCode : String
  reason : String
  deriving DecidableEq, Repr

structure OpportunityPlan where
  eligible : List Opportunity
  selected : List Opportunity
  omittedByOnePerLine : List Opportunity
  suppressed : List SuppressedOpportunity
  deriving DecidableEq, Repr

section Collect
variable (py : Python)

/-- `_normalize_text`. -/
def normalizeText (text : List Char) : String :=
  "\n".intercalate ((PyText.splitlines (PyText.strip text)).map fun line =>
    String.ofList ((line.reverse.dropWhile PyText.isSpace).reverse))

def makeOpportunityId (sourcePath : String) (line : ℕ) (symbol operatorName : String)
    (sourceLine diffHunk : List Char) : String :=
  py.sha256 <| py.dumps [.inl "python", .inl sourcePath, .inr line, .inl symbol, .inl operatorName,
    .inl (normalizeText sourceLine), .inl (normalizeText diffHunk)]

def opportunity (sourcePath : String) (line : ℕ) (symbol : String) (hint : OperatorHint)
    (sourceLine : List Char) (covered : Bool) (selectionReason : String) : Opportunity :=
  let diffHunk := s!"@@ {line} @@\n".toList ++ PyText.strip sourceLine
  { sourcePath, line, lineSpan := (line, line), symbol
    opportunityId := makeOpportunityId py sourcePath line symbol hint.operatorName sourceLine diffHunk
    operatorName := hint.operatorName
    familyHint := hint.familyHint
    diffHunk := String.ofList diffHunk
    operatorPriority := hint.priority
    roiScore := hint.priority
    covered, executable := true, selectionReason }

/-- `sorted` of the positive numbers of a collection, without repetition. -/
def sortedLines (lines : List ℕ) : List ℕ :=
  ((lines.filter (0 < ·)).dedup).insertionSort (· ≤ ·)

/-- The representative of each line, and the others. -/
def selectOneOpportunityPerLine (opportunities : List Opportunity) :
    List Opportunity × List Opportunity :=
  let keys := sortedBy (fun a b => (compare a.1 b.1).then (compare a.2 b.2))
    (opportunities.map fun o => (o.sourcePath, o.line)).dedup
  let ranked := keys.map fun key =>
    sortedBy compareOnLine (opportunities.filter fun o => (o.sourcePath, o.line) = key)
  (ranked.filterMap List.head?, ranked.flatMap fun r =>
    sortedBy (fun a b => compare a.opportunityId b.opportunityId) r.tail)

/-- The opportunity of a suppressed line. -/
def suppressedOpportunity (tree : Node) (sourcePath : String) (line : ℕ) (text : List Char)
    (covered : Bool) (reason : SuppressionReason) : SuppressedOpportunity where
  opportunity := opportunity py sourcePath line (symbolAt tree line)
    ((operatorHintsForLine tree line).headD ⟨"statement", "other", 20⟩) text covered
    "suppressed changed line"
  reasonCode := reason.code
  reason := s!"Suppressed by Python AST binding: {reason.code}"

/-- `none` is a `SyntaxError`. -/
def collectPythonMutationOpportunities (source : List Char) (sourcePath : String)
    (changedLines coveredLines : List ℕ) : Option OpportunityPlan := do
  let tree ← py.parse source
  let changed := sortedLines changedLines
  let covered := fun line => decide (line ∈ coveredLines)
  let text := fun line => ((PyText.splitlines source)[line - 1]?).getD []
  let live := changed.filter fun line => (suppressedLineReason py tree line).isNone
  let eligible := live.flatMap fun line =>
    (operatorHintsForLine tree line).map fun hint =>
      opportunity py sourcePath line (symbolAt tree line) hint (text line) (covered line)
        (if covered line then "covered changed line" else "changed line")
  let suppressed := changed.filterMap fun line =>
    (suppressedLineReason py tree line).map
      (suppressedOpportunity py tree sourcePath line (text line) (covered line))
  let (selected, omitted) := selectOneOpportunityPerLine eligible
  pure
    { eligible := sortedBy compareRank eligible
      selected
      omittedByOnePerLine := omitted
      suppressed := sortedBy (fun a b => compareRank a.opportunity b.opportunity) suppressed }

end Collect
end Uta.Enforce
