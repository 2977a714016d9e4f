/- The candidate plan of a mutation run: which keys of mutmut's metadata stand for the selected
opportunities. -/
import Uta.Enforce.Selection
import Uta.Enforce.Mutation
import Uta.Lib.Dict

namespace Uta.Enforce
open Uta.Lib

/-! Metadata. -/

/-- The object of a `.meta` file. A field is `none` where its key is absent. -/
structure MetaObject where
  exitCodeByKey : List (String × Option Int)
  unique : (exitCodeByKey.map Prod.fst).Nodup
  lineByKey : Option (List (String × ℤ)) := none
  operatorByKey : Option (List (String × String)) := none
  policyOperatorByKey : Option (List (String × String)) := none
  opportunityIdByKey : Option (List (String × String)) := none

/-- The file that the adapter writes beside it. -/
structure Sidecar where
  lineByKey : List (String × ℤ)
  operatorByKey : List (String × String)
  opportunityIdByKey : List (String × String)

def MetaObject.empty : MetaObject := ⟨[], List.nodup_nil, none, none, none, none⟩

/-- `_read_mutmut_meta`: the sidecar supplies what the object lacks. -/
def readTargetMeta (object : Option MetaObject) (sidecar : Option Sidecar) : MetaObject :=
  match object with
  | none => .empty
  | some object =>
    { object with
      lineByKey := object.lineByKey.or (sidecar.map Sidecar.lineByKey)
      operatorByKey := object.operatorByKey.or (sidecar.map Sidecar.operatorByKey)
      opportunityIdByKey := object.opportunityIdByKey.or (sidecar.map Sidecar.opportunityIdByKey) }

namespace MetaObject
variable (m : MetaObject)

def keys : List String := m.exitCodeByKey.map Prod.fst

/-- `_line_by_key(meta).get(key)`. -/
def lineOf (key : String) : Option ℤ := (Dict.get? (m.lineByKey.getD []) key).filter (0 < ·)

/-- The pairs whose value is not blank. -/
def filled (pairs : List (String × String)) : List (String × String) :=
  pairs.filter fun pair => PyText.strip pair.2.toList ≠ []

/-- `_operator_by_key(meta)`. -/
def operators : List (String × String) :=
  let raw := m.operatorByKey.getD []
  filled (if raw ≠ [] then raw else m.policyOperatorByKey.getD [])

/-- `_opportunity_id_by_key(meta)`. -/
def opportunityIds : List (String × String) := filled (m.opportunityIdByKey.getD [])

end MetaObject

/-! Keys. -/

/-- `_normalize_relpath`. -/
def normalizeRelpath (path : String) : String :=
  let slashed := path.toList.map fun c => if c = '\\' then '/' else c
  String.ofList ((PyText.strip slashed).dropWhile fun c => c = '.' || c = '/')

/-- `_module_name`. -/
def moduleName (sourcePath : String) : String :=
  let value := (normalizeRelpath sourcePath).toList
  let stem := if ".py".toList <:+ value then value.take (value.length - 3) else value
  let parts := (stem.splitOn '/').filter fun part => part ≠ [] ∧ part ≠ "__init__".toList
  let module := ['.'].intercalate parts
  String.ofList (if "src.".toList <+: module then module.drop 4 else module)

/-- `_mutmut_key_prefixes`. -/
def mutmutKeyPrefixes (module symbol : String) : List String :=
  if symbol = "" ∨ symbol = "<module>" then [module ++ ".x_"]
  else [module ++ ".x_" ++ symbol ++ "__mutmut_", module ++ ".xǁ" ++ symbol ++ "__mutmut_"]

/-- The key is one of the symbol's, on the opportunity's line, and of its id and
operator where the metadata has any. -/
def MatchesKey (m : MetaObject) (module : String) (o : Opportunity) (key : String) : Prop :=
  (mutmutKeyPrefixes module o.symbol).any (startsWith key) = true ∧
    m.lineOf key = some (o.line : ℤ) ∧
    (m.opportunityIds = [] ∨ Dict.get? m.opportunityIds key = some o.opportunityId) ∧
    (m.operators = [] ∨ Dict.get? m.operators key = some o.operatorName)

instance (m : MetaObject) (module : String) (o : Opportunity) (key : String) :
    Decidable (MatchesKey m module o key) :=
  inferInstanceAs (Decidable (_ ∧ _ ∧ _ ∧ _))

/-! The opportunities of a policy. -/

/-- `value or default`, of a text. -/
def orText (value default_ : String) : String := if value = "" then default_ else value

/-- `_opportunity_from_payload` of what `as_dict` wrote. -/
def opportunityFromPayload (o : Opportunity) : Opportunity :=
  { o with
    language := orText o.language "python"
    symbol := orText o.symbol "<module>"
    operatorName := orText o.operatorName "statement"
    familyHint := orText o.familyHint "other"
    operatorPriority := if o.operatorPriority = 0 then 10 else o.operatorPriority
    roiScore :=
      if o.roiScore ≠ 0 then o.roiScore
      else if o.operatorPriority ≠ 0 then o.operatorPriority
      else 10
    selectionReason := orText o.selectionReason "generation policy" }

/-- `_opportunity_plan_from_generation_policy`. The ranks are those that the
policy recorded. -/
def opportunityPlanFromPolicy (policy : GenerationPolicy) : Option OpportunityPlan :=
  if policy.selected = [] then none
  else
    let before := if policy.selectedBeforeCap = [] then policy.selected else policy.selectedBeforeCap
    some
      { eligible := (sortedBy compareRank before).map opportunityFromPayload
        selected := (sortedBy compareRank policy.selected).map opportunityFromPayload
        omittedByOnePerLine :=
          (sortedBy compareRank policy.omittedByOnePerLineOpportunities).map opportunityFromPayload
        suppressed :=
          (sortedBy (fun a b => compareRank a.opportunity b.opportunity) policy.suppressed).map
            fun s => { s with opportunity := opportunityFromPayload s.opportunity } }

/-- A generated mutant that stands for an opportunity. -/
structure MutationCandidate where
  opportunity : Opportunity
  toolCandidateKey : String
  score : ℕ
  deriving DecidableEq, Repr

structure CandidatePlan where
  eligibleOpportunities : List Opportunity
  suppressed : List SuppressedOpportunity
  reportFullSelected : List MutationCandidate
  activeSelected : List MutationCandidate
  omittedByOnePerLine : List Opportunity
  exactToolCandidateKeys : List String
  deriving DecidableEq, Repr

/-- The first of the keys that match an opportunity. -/
def candidateOf (m : MetaObject) (module : String) (o : Opportunity) : Option MutationCandidate :=
  (((m.keys.filter fun key => MatchesKey m module o key).insertionSort (· ≤ ·)).head?).map fun key =>
    ⟨o, key, o.roiScore⟩

def candidatePlanOf (m : MetaObject) (module : String) (plan : OpportunityPlan) : CandidatePlan :=
  let candidates := plan.selected.filterMap (candidateOf m module)
  { eligibleOpportunities := plan.eligible
    suppressed := plan.suppressed
    reportFullSelected := candidates
    activeSelected := candidates
    omittedByOnePerLine := plan.omittedByOnePerLine
    exactToolCandidateKeys := candidates.map MutationCandidate.toolCandidateKey }

/-- The opportunities that a plan is made for; `none` is a `SyntaxError`. -/
def opportunityPlan (py : Python) (source : List Char) (sourcePath : String)
    (changedLines coveredLines : List ℕ) (policy : Option GenerationPolicy) :
    Option OpportunityPlan :=
  (policy.bind opportunityPlanFromPolicy).or
    (collectPythonMutationOpportunities py source (normalizeRelpath sourcePath) changedLines
      coveredLines)

/-- `build_mutmut3_candidate_plan_from_meta`, from the two files of the metadata. -/
def buildMutmut3CandidatePlanFromMeta (py : Python) (source : List Char) (sourcePath : String)
    (changedLines coveredLines : List ℕ) (policy : Option GenerationPolicy)
    (object : Option MetaObject) (sidecar : Option Sidecar) : Option CandidatePlan :=
  (opportunityPlan py source sourcePath changedLines coveredLines policy).map
    (candidatePlanOf (readTargetMeta object sidecar) (moduleName sourcePath))

end Uta.Enforce
