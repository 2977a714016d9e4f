/- The generation policy of a target, and its restriction to the lines of one
batch. -/
import Uta.Enforce.Candidates

namespace Uta.Enforce
open Uta.Lib

structure GenerationPolicy where
  sourcePath : String
  sourceBytes : ℕ
  changedLines : List ℕ
  changedLineCount : ℕ
  allowedLines : List ℕ
  selectedLines : List ℕ
  eligibleOpportunities : ℕ
  selectedOpportunitiesBeforeCap : ℕ
  hardCapSelectedOpportunities : ℕ
  selectedOpportunities : ℕ
  omittedByCap : ℕ
  omittedByHardCap : ℕ
  omittedByRepresentativeSelection : ℕ := 0
  selectedOperatorOpportunities : ℕ
  hardCapSelectedOperatorOpportunities : ℕ
  retainedOperatorAlternatives : ℕ
  omittedByOnePerLine : ℕ := 0
  suppressedOpportunities : ℕ
  truncated : Bool
  truncationReasons : List String
  capProfile : String := "full"
  maxSelected : Int
  selected : List Opportunity
  selectedLineRepresentatives : List Opportunity
  selectedBeforeCap : List Opportunity
  hardCapSelected : List Opportunity
  omittedByCapOpportunities : List Opportunity
  omittedByOnePerLineOpportunities : List Opportunity := []
  suppressed : List SuppressedOpportunity
  operatorByLine : List (ℕ × String) := []
  opportunityIdByLine : List (ℕ × String) := []
  deriving DecidableEq, Repr

/-- `_hard_cap`. -/
def hardCap (py : Python) (selected : List Opportunity) (limit : Int) : List Opportunity :=
  if limit ≤ 0 ∨ (selected.length : Int) ≤ limit then selected
  else
    let ranked := sortedBy (fun a b =>
      (compare b.operatorPriority a.operatorPriority).then <|
      (compare (py.sha256 a.opportunityId) (py.sha256 b.opportunityId)).then (compareRank a b)) selected
    sortedBy compareRank (ranked.take limit.toNat)

/-- The policy of a plan of opportunities. -/
def policyOfPlan (py : Python) (sourceBytes : ℕ) (sourcePath : String) (changedLines : List ℕ)
    (cap : Int) (plan : OpportunityPlan) : GenerationPolicy :=
  let selected := hardCap py plan.selected cap
  let selectedKeys := selected.map fun o => (o.sourcePath, o.line)
  let selectedLines := ((selected.map Opportunity.line).dedup).insertionSort (· ≤ ·)
  let selectedOperators := sortedBy compareRank
    (plan.eligible.filter fun o => (o.sourcePath, o.line) ∈ selectedKeys)
  { sourcePath, sourceBytes, changedLines
    changedLineCount := changedLines.length
    allowedLines := selectedLines
    selectedLines
    eligibleOpportunities := plan.eligible.length
    selectedOpportunitiesBeforeCap := plan.selected.length
    hardCapSelectedOpportunities := selected.length
    selectedOpportunities := selected.length
    omittedByCap := plan.selected.length - selected.length
    omittedByHardCap := plan.selected.length - selected.length
    selectedOperatorOpportunities := selectedOperators.length
    hardCapSelectedOperatorOpportunities := selectedOperators.length
    retainedOperatorAlternatives := selectedOperators.length - selected.length
    suppressedOpportunities := plan.suppressed.length
    truncated := decide (selected.length < plan.selected.length)
    truncationReasons :=
      if 0 < cap ∧ selected.length < plan.selected.length then
        [s!"selectedOpportunities={plan.selected.length} capped to {cap}"]
      else []
    maxSelected := cap
    selected
    selectedLineRepresentatives := selected
    selectedBeforeCap := plan.eligible
    hardCapSelected := selected
    omittedByCapOpportunities :=
      plan.selected.filter fun o => (o.sourcePath, o.line) ∉ selectedKeys
    suppressed := plan.suppressed }

/-- `none` is the `SyntaxError` of the parser; `sourceBytes` is the size of the
file. -/
def buildGenerationPolicy (py : Python) (source : List Char) (sourceBytes : ℕ) (sourcePath : String)
    (changedLines coveredLines : List ℕ) (cap : Int) : Option GenerationPolicy :=
  let changed := sortedLines changedLines
  (collectPythonMutationOpportunities py source sourcePath changed coveredLines).map
    (policyOfPlan py sourceBytes sourcePath changed cap)

section Built
variable {py : Python} {source : List Char} {sourceBytes : ℕ} {sourcePath : String}
  {changedLines coveredLines : List ℕ} {cap : Int} {policy : GenerationPolicy}
  (built : buildGenerationPolicy py source sourceBytes sourcePath changedLines coveredLines cap =
    some policy)
include built

/-- The lines of a policy are those of its selected opportunities. -/
theorem mem_selectedLines (line : ℕ) :
    line ∈ policy.selectedLines ↔ ∃ o ∈ policy.selected, o.line = line := by
  obtain ⟨plan, _, rfl⟩ := Option.map_eq_some_iff.mp built
  simp only [policyOfPlan, List.mem_insertionSort, List.mem_dedup, List.mem_map]

end Built

section Filter
variable (lines : List ℕ)

def keepOpportunities (items : List Opportunity) : List Opportunity :=
  items.filter fun o => o.line ∈ lines

/-- `filter_generation_policy_to_lines`. -/
def filterGenerationPolicyToLines (policy : GenerationPolicy) : GenerationPolicy :=
  { policy with
    selected := keepOpportunities lines policy.selected
    selectedLineRepresentatives := keepOpportunities lines policy.selectedLineRepresentatives
    selectedBeforeCap := keepOpportunities lines policy.selectedBeforeCap
    hardCapSelected := keepOpportunities lines policy.hardCapSelected
    omittedByCapOpportunities := keepOpportunities lines policy.omittedByCapOpportunities
    omittedByOnePerLineOpportunities :=
      keepOpportunities lines policy.omittedByOnePerLineOpportunities
    suppressed := policy.suppressed.filter fun s => s.opportunity.line ∈ lines
    selectedLines := (policy.selectedLines.filter (· ∈ lines)).insertionSort (· ≤ ·)
    allowedLines := (policy.allowedLines.filter (· ∈ lines)).insertionSort (· ≤ ·)
    operatorByLine := policy.operatorByLine.filter fun item => item.1 ∈ lines
    opportunityIdByLine := policy.opportunityIdByLine.filter fun item => item.1 ∈ lines }

theorem mem_filter_selectedLines (policy : GenerationPolicy) (line : ℕ) :
    line ∈ (filterGenerationPolicyToLines lines policy).selectedLines ↔
      line ∈ policy.selectedLines ∧ line ∈ lines := by
  simp only [filterGenerationPolicyToLines, List.mem_insertionSort, List.mem_filter, decide_eq_true_eq]

end Filter
end Uta.Enforce
