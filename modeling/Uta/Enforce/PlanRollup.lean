/- The candidate plans of a batched run, merged into one and reported: which facts of the policy are
left in the report. -/
import Uta.Enforce.PlanAccounting

namespace Uta.Enforce
open Uta.Lib

/-! Plans as they are written. -/

/-- `_SUM_COUNT_FIELDS`. -/
inductive PlanCount where
  | eligibleMutationCandidates
  | reportFullSelectedCandidates
  | selectedCandidates
  | suppressedCandidates
  | exactToolCandidateKeyCount
  | runMutants
  | scoredMutants
  | killed
  | survived
  | noTests
  | timeout
  | suspicious
  deriving DecidableEq, Repr

/-- `count_fields`. -/
inductive PolicyCount where
  | changedLineCount
  | eligibleOpportunities
  | selectedOpportunitiesBeforeCap
  | selectedOpportunities
  | omittedByOnePerLine
  | omittedByHardCap
  | suppressedOpportunities
  deriving DecidableEq, Repr

def GenerationPolicy.count (policy : GenerationPolicy) : PolicyCount → ℕ
  | .changedLineCount => policy.changedLineCount
  | .eligibleOpportunities => policy.eligibleOpportunities
  | .selectedOpportunitiesBeforeCap => policy.selectedOpportunitiesBeforeCap
  | .selectedOpportunities => policy.selectedOpportunities
  | .omittedByOnePerLine => policy.omittedByOnePerLine
  | .omittedByHardCap => policy.omittedByHardCap
  | .suppressedOpportunities => policy.suppressedOpportunities

/-- What a plan says of its policy. A count is `none` where its key is absent. -/
structure PolicySummary where
  count : PolicyCount → Option ℕ
  truncated : Bool

structure PlanPayload where
  eligibleMutationOpportunities : List Opportunity
  suppressed : List SuppressedOpportunity
  reportFullSelected : List MutationCandidate
  activeSelected : List MutationCandidate
  omittedByOnePerLine : List Opportunity
  exactToolCandidateKeys : List String
  suppressionByReason : List (String × ℕ)
  counts : PlanCount → ℕ
  filterMechanism : String
  adapterFilteredGenerationApplied : Bool
  generationPolicy : Option PolicySummary

/-- `{}`. -/
def PlanPayload.empty : PlanPayload where
  eligibleMutationOpportunities := []
  suppressed := []
  reportFullSelected := []
  activeSelected := []
  omittedByOnePerLine := []
  exactToolCandidateKeys := []
  suppressionByReason := []
  counts _ := 0
  filterMechanism := ""
  adapterFilteredGenerationApplied := false
  generationPolicy := none

/-- `counts[key] = counts.get(key, 0) + count`. -/
def addCount (counts : List (String × ℕ)) (item : String × ℕ) : List (String × ℕ) :=
  counts ++ [(item.1, (Dict.get? counts item.1).getD 0 + item.2)]

/-- `_suppression_counts`. -/
def suppressionCounts (suppressed : List SuppressedOpportunity) : List (String × ℕ) :=
  (suppressed.map fun item => (item.reasonCode, 1)).foldl addCount []

/-- `MUTMUT3_METADATA_SELECTED_EXECUTION`. -/
def mutmut3Mechanism : String := "mutmut3_metadata_selected_execution"

/-- `MutationCandidatePlan.as_dict`, of a plan made from metadata. -/
def CandidatePlan.asDict (plan : CandidatePlan) : PlanPayload where
  eligibleMutationOpportunities := plan.eligibleOpportunities
  suppressed := plan.suppressed
  reportFullSelected := plan.reportFullSelected
  activeSelected := plan.activeSelected
  omittedByOnePerLine := plan.omittedByOnePerLine
  exactToolCandidateKeys := plan.exactToolCandidateKeys
  suppressionByReason := suppressionCounts plan.suppressed
  counts
    | .eligibleMutationCandidates => plan.reportFullSelected.length
    | .reportFullSelectedCandidates => plan.reportFullSelected.length
    | .selectedCandidates => plan.activeSelected.length
    | .suppressedCandidates => plan.suppressed.length
    | .exactToolCandidateKeyCount => plan.exactToolCandidateKeys.length
    | _ => 0
  filterMechanism := mutmut3Mechanism
  adapterFilteredGenerationApplied := decide (plan.activeSelected ≠ [])
  generationPolicy := none

abbrev MetaFiles := Option MetaObject × Option Sidecar

/-- `_candidate_plan`. The keys that it copies from the policy have no `omittedByOnePerLine`. -/
def candidatePlanPayload (t : PlanTarget) (policy : GenerationPolicy) (files : MetaFiles) :
    Option PlanPayload :=
  (buildMutmut3CandidatePlanFromMeta t.py t.source t.sourcePath t.changedLines t.changedLines
    (some policy) files.1 files.2).map fun plan =>
      { plan.asDict with
        generationPolicy := some
          { count := fun f => if f = .omittedByOnePerLine then none else some (policy.count f)
            truncated := policy.truncated } }

/-- The plan that `_no_candidate_mutation` writes. -/
def noCandidatePlan (policy : GenerationPolicy) : PlanPayload :=
  { PlanPayload.empty with
    filterMechanism := mutmut3Mechanism
    eligibleMutationOpportunities := policy.selectedBeforeCap
    suppressed := policy.suppressed
    suppressionByReason := suppressionCounts policy.suppressed
    adapterFilteredGenerationApplied := true
    generationPolicy := some { count := fun f => some (policy.count f), truncated := policy.truncated } }

/-! Merging and reporting. -/

/-- `aggregate_batch_candidate_plans`. -/
def aggregateBatchCandidatePlans (plans : List PlanPayload) : PlanPayload :=
  match plans with
  | [] => .empty
  | base :: _ =>
    { eligibleMutationOpportunities := plans.flatMap PlanPayload.eligibleMutationOpportunities
      suppressed := plans.flatMap PlanPayload.suppressed
      reportFullSelected := plans.flatMap PlanPayload.reportFullSelected
      activeSelected := plans.flatMap PlanPayload.activeSelected
      omittedByOnePerLine := plans.flatMap PlanPayload.omittedByOnePerLine
      exactToolCandidateKeys := plans.flatMap PlanPayload.exactToolCandidateKeys
      suppressionByReason := (plans.flatMap PlanPayload.suppressionByReason).foldl addCount []
      counts := fun f => (plans.map fun plan => plan.counts f).sum
      filterMechanism := base.filterMechanism
      adapterFilteredGenerationApplied := base.adapterFilteredGenerationApplied
      -- Neither carried nor summed nor concatenated.
      generationPolicy := none }

structure PolicyReport where
  count : PolicyCount → ℕ
  truncated : Bool

structure PlanReport where
  activeSelected : List MutationCandidate
  reportFullSelected : List MutationCandidate
  exactToolCandidateKeys : List String
  eligibleMutationOpportunities : List Opportunity
  suppressed : List SuppressedOpportunity
  suppressionByReason : List (String × ℕ)
  filterMechanisms : List String
  filterMechanism : Option String
  adapterFilteredGenerationApplied : Bool
  generationPolicy : PolicyReport

/-- `aggregate_candidate_plan`. -/
def aggregateCandidatePlan (plans : List PlanPayload) : PlanReport :=
  let suppressed := plans.flatMap PlanPayload.suppressed
  let mechanisms := (((plans.map PlanPayload.filterMechanism).filter (· ≠ "")).dedup).insertionSort
    (· ≤ ·)
  let policies := plans.filterMap PlanPayload.generationPolicy
  { activeSelected := plans.flatMap PlanPayload.activeSelected
    reportFullSelected := plans.flatMap PlanPayload.reportFullSelected
    exactToolCandidateKeys := plans.flatMap PlanPayload.exactToolCandidateKeys
    eligibleMutationOpportunities := plans.flatMap PlanPayload.eligibleMutationOpportunities
    suppressed
    suppressionByReason := suppressionCounts (suppressed.filter fun item => item.reasonCode ≠ "")
    filterMechanisms := mechanisms
    filterMechanism := if mechanisms.length = 1 then mechanisms.head? else none
    adapterFilteredGenerationApplied :=
      decide (plans ≠ []) && plans.all PlanPayload.adapterFilteredGenerationApplied
    generationPolicy :=
      { count := fun f => (policies.map fun policy => (policy.count f).getD 0).sum
        truncated := policies.any PolicySummary.truncated } }

section Runs
variable (t : PlanTarget) (policy : GenerationPolicy)

/-- The report of a run with one pass. -/
def unbatchedReport (files : MetaFiles) : Option PlanReport :=
  (if policy.selectedLines = [] then some (noCandidatePlan policy)
    else candidatePlanPayload t policy files).map fun plan => aggregateCandidatePlan [plan]

/-- The report of a run over batches of lines, each with the metadata of its pass. -/
def batchedReport (batches : List (List ℕ × MetaFiles)) : Option PlanReport :=
  (batches.mapM fun batch =>
    candidatePlanPayload t (filterGenerationPolicyToLines batch.1 policy) batch.2).map fun plans =>
      aggregateCandidatePlan [aggregateBatchCandidatePlans plans]

end Runs

/-- The two reports tell the same of what is eligible, suppressed, omitted, selected and cut off. -/
structure PlanReport.Agrees (single batched : PlanReport) : Prop where
  eligible : batched.eligibleMutationOpportunities.Perm single.eligibleMutationOpportunities
  suppressed : batched.suppressed.Perm single.suppressed
  reasons : ∀ reason,
    Dict.get? batched.suppressionByReason reason = Dict.get? single.suppressionByReason reason
  counts : ∀ f, f ≠ .changedLineCount →
    batched.generationPolicy.count f = single.generationPolicy.count f
  truncated : batched.generationPolicy.truncated = single.generationPolicy.truncated

/-! What the batches see. -/

theorem filter_apart_perm {α : Type} {p q : α → Bool} (apart : ∀ a, p a = true → q a = false)
    (items : List α) :
    (items.filter p ++ items.filter q).Perm (items.filter fun a => p a || q a) := by
  have split := List.filter_append_perm p (items.filter fun a => p a || q a)
  have first : ∀ a, (p a && (p a || q a)) = p a := fun a => by cases p a <;> rfl
  have second : ∀ a, (!p a && (p a || q a)) = q a := by
    intro a
    cases here : p a with
    | true => simp [apart a here]
    | false => rfl
  simpa only [List.filter_filter, first, second] using split

/-- Parts that share nothing take from a list what their union takes. -/
theorem filter_parts_perm {α : Type} (key : α → ℕ) (items : List α) {parts : List (List ℕ)}
    (apart : parts.flatten.Nodup) :
    (parts.flatMap fun part => items.filter fun a => key a ∈ part).Perm
      (items.filter fun a => key a ∈ parts.flatten) := by
  induction parts with
  | nil => simp
  | cons part rest ih =>
      obtain ⟨-, later, disjoint⟩ := List.nodup_append'.mp apart
      have once : ∀ a, decide (key a ∈ part) = true → decide (key a ∈ rest.flatten) = false :=
        fun a here => decide_eq_false (disjoint (of_decide_eq_true here))
      refine ((ih later).append_left _).trans ((filter_apart_perm once items).trans (.of_eq ?_))
      simp only [List.flatten_cons, List.mem_append, Bool.decide_or]

@[simp] theorem line_opportunityFromPayload (o : Opportunity) :
    (opportunityFromPayload o).line = o.line := rfl

/-- The opportunities of a policy as a plan lists them. -/
def listedOpportunities (items : List Opportunity) : List Opportunity :=
  (sortedBy compareRank items).map opportunityFromPayload

def listedSuppressed (items : List SuppressedOpportunity) : List SuppressedOpportunity :=
  (sortedBy (fun a b => compareRank a.opportunity b.opportunity) items).map fun s =>
    { s with opportunity := opportunityFromPayload s.opportunity }

theorem listedOpportunities_perm (items : List Opportunity) :
    (listedOpportunities items).Perm (items.map opportunityFromPayload) :=
  (List.perm_insertionSort _ _).map _

theorem listedSuppressed_perm (items : List SuppressedOpportunity) :
    (listedSuppressed items).Perm
      (items.map fun s => { s with opportunity := opportunityFromPayload s.opportunity }) :=
  (List.perm_insertionSort _ _).map _

/-- Every selected line has a selected opportunity, which is one of those before the cap. -/
structure GenerationPolicy.Backed (policy : GenerationPolicy) : Prop where
  distinct : policy.selectedLines.Nodup
  backed : ∀ line ∈ policy.selectedLines, ∃ o ∈ policy.selected,
    o ∈ policy.selectedBeforeCap ∧ o.line = line

theorem GenerationPolicy.Backed.filter {policy : GenerationPolicy} (backed : policy.Backed)
    (lines : List ℕ) : (filterGenerationPolicyToLines lines policy).Backed where
  distinct := (List.perm_insertionSort _ _).nodup_iff.mpr (backed.distinct.filter _)
  backed := by
    intro line member
    obtain ⟨selected, kept⟩ := (mem_filter_selectedLines lines policy line).mp member
    obtain ⟨o, chosen, listed, rfl⟩ := backed.backed line selected
    exact ⟨o, List.mem_filter.mpr ⟨chosen, by simpa using kept⟩,
      List.mem_filter.mpr ⟨listed, by simpa using kept⟩, rfl⟩

section Built
variable {py : Python} {source : List Char} {sourceBytes : ℕ} {sourcePath : String}
  {changedLines coveredLines : List ℕ} {cap : Int} {whole policy : GenerationPolicy}
  (built : buildGenerationPolicy py source sourceBytes sourcePath changedLines coveredLines cap =
    some whole) (narrowed : Narrowed whole policy)
include built narrowed

theorem backed_of_narrowed : policy.Backed := by
  induction narrowed with
  | whole =>
      obtain ⟨_, _, selects, _⟩ := policy_selects built
      refine ⟨?_, fun line member => ?_⟩
      · obtain ⟨plan, _, rfl⟩ := Option.map_eq_some_iff.mp built
        exact (List.perm_insertionSort _ _).nodup_iff.mpr (List.nodup_dedup _)
      · obtain ⟨o, chosen, rfl⟩ := (mem_selectedLines built line).mp member
        have listed := selects.partition.mem_iff.mp
          (List.mem_append_left _ (List.mem_append_left _ chosen))
        exact ⟨o, chosen, listed, rfl⟩
  | profile _ _ ih => exact ⟨ih.distinct, ih.backed⟩
  | lines lines _ ih => exact ih.filter lines

/-- Where a policy counts nothing, there is nothing in it. -/
theorem empty_of_counts (eligible : policy.eligibleOpportunities = 0)
    (suppressed : policy.suppressedOpportunities = 0) :
    policy.selectedLines = [] ∧ policy.selectedBeforeCap = [] ∧ policy.suppressed = [] ∧
      (∀ f, f ≠ .changedLineCount → policy.count f = 0) ∧ policy.truncated = false := by
  induction narrowed with
  | whole =>
      obtain ⟨plan, planned, rfl⟩ := Option.map_eq_some_iff.mp built
      have none_ : plan.eligible = [] := List.length_eq_zero_iff.mp eligible
      have live : plan.suppressed = [] := List.length_eq_zero_iff.mp suppressed
      have chosen : plan.selected = [] := by
        rw [collect_eq] at planned
        obtain ⟨tree, _, rfl⟩ := Option.map_eq_some_iff.mp planned
        have found := (List.perm_insertionSort _ _).symm.trans (List.Perm.of_eq none_)
        have empty := List.Perm.eq_nil found
        change (selectOneOpportunityPerLine _).1 = []
        rw [empty]
        rfl
      have kept : hardCap py plan.selected cap = [] := by
        have within : cap ≤ 0 ∨ (([] : List Opportunity).length : Int) ≤ cap := by
          rw [List.length_nil]
          omega
        rw [chosen, hardCap, if_pos within]
      refine ⟨?_, none_, live, fun f other => ?_, ?_⟩
      · simp [policyOfPlan, kept]
      · cases f <;> simp_all [GenerationPolicy.count, policyOfPlan]
      · simp [policyOfPlan, chosen]
  | profile _ _ ih => exact ih eligible suppressed
  | lines lines _ ih =>
      obtain ⟨selected, before, live, counts, whole_⟩ := ih eligible suppressed
      refine ⟨?_, ?_, ?_, counts, whole_⟩
      · simp [filterGenerationPolicyToLines, selected]
      · simp [filterGenerationPolicyToLines, keepOpportunities, before]
      · simp [filterGenerationPolicyToLines, live]

end Built

/-! The two reports. -/

section Reports
variable {t : PlanTarget} {policy : GenerationPolicy}

/-- The plan of a policy that selects something is made from the policy. -/
theorem candidatePlanPayload_some (backed : policy.Backed) (selects : policy.selectedLines ≠ [])
    (files : MetaFiles) :
    ∃ plan, candidatePlanPayload t policy files = some plan ∧
      plan.eligibleMutationOpportunities = listedOpportunities policy.selectedBeforeCap ∧
      plan.suppressed = listedSuppressed policy.suppressed ∧
      plan.generationPolicy = some
        { count := fun f => if f = .omittedByOnePerLine then none else some (policy.count f)
          truncated := policy.truncated } := by
  obtain ⟨line, member⟩ := List.exists_mem_of_ne_nil _ selects
  obtain ⟨o, chosen, listed, -⟩ := backed.backed line member
  have some_ : policy.selected ≠ [] := List.ne_nil_of_mem chosen
  have before : policy.selectedBeforeCap ≠ [] := List.ne_nil_of_mem listed
  have planned : opportunityPlan t.py t.source t.sourcePath t.changedLines t.changedLines
      (some policy) = opportunityPlanFromPolicy policy := by
    simp [opportunityPlan, opportunityPlanFromPolicy, some_]
  unfold candidatePlanPayload buildMutmut3CandidatePlanFromMeta
  rw [planned, opportunityPlanFromPolicy, if_neg some_]
  refine ⟨_, rfl, ?_, rfl, rfl⟩
  change ((sortedBy compareRank (if _ then _ else _)).map _) = _
  rw [if_neg before]
  rfl

theorem aggregateBatch_generationPolicy (plans : List PlanPayload) :
    (aggregateBatchCandidatePlans plans).generationPolicy = none := by
  cases plans <;> rfl

theorem aggregateBatch_eligible (plans : List PlanPayload) :
    (aggregateBatchCandidatePlans plans).eligibleMutationOpportunities =
      plans.flatMap PlanPayload.eligibleMutationOpportunities := by
  cases plans <;> rfl

theorem aggregateBatch_suppressed (plans : List PlanPayload) :
    (aggregateBatchCandidatePlans plans).suppressed = plans.flatMap PlanPayload.suppressed := by
  cases plans <;> rfl

/-- Each batch has its plan, and the lists of these are what the batch sees of the policy. -/
theorem batchPlans_some (backed : policy.Backed) {batches : List (List ℕ × MetaFiles)}
    (filled : ∀ batch ∈ batches, batch.1 ≠ [])
    (within : ∀ batch ∈ batches, ∀ line ∈ batch.1, line ∈ policy.selectedLines) :
    ∃ plans, (batches.mapM fun batch => candidatePlanPayload t
        (filterGenerationPolicyToLines batch.1 policy) batch.2) = some plans ∧
      plans.flatMap PlanPayload.eligibleMutationOpportunities = (batches.map Prod.fst).flatMap
        (fun lines => listedOpportunities (keepOpportunities lines policy.selectedBeforeCap)) ∧
      plans.flatMap PlanPayload.suppressed = (batches.map Prod.fst).flatMap
        (fun lines => listedSuppressed (policy.suppressed.filter fun s => s.opportunity.line ∈ lines)) := by
  induction batches with
  | nil => exact ⟨[], rfl, rfl, rfl⟩
  | cons batch rest ih =>
      obtain ⟨plans, made, eligible, suppressed⟩ := ih
        (fun b member => filled b (List.mem_cons_of_mem _ member))
        (fun b member => within b (List.mem_cons_of_mem _ member))
      obtain ⟨line, member⟩ := List.exists_mem_of_ne_nil _ (filled batch List.mem_cons_self)
      have kept := (mem_filter_selectedLines batch.1 policy line).mpr
        ⟨within batch List.mem_cons_self line member, member⟩
      obtain ⟨plan, first, eligible', suppressed', -⟩ := candidatePlanPayload_some (t := t)
        (backed.filter batch.1) (List.ne_nil_of_mem kept) batch.2
      refine ⟨plan :: plans, ?_, ?_, ?_⟩
      · rw [List.mapM_cons, first, made]
        rfl
      · rw [List.flatMap_cons, List.map_cons, List.flatMap_cons, eligible, eligible']
        rfl
      · rw [List.flatMap_cons, List.map_cons, List.flatMap_cons, suppressed, suppressed']
        rfl

@[simp] theorem report_eligible (plan : PlanPayload) :
    (aggregateCandidatePlan [plan]).eligibleMutationOpportunities =
      plan.eligibleMutationOpportunities := by
  simp [aggregateCandidatePlan]

@[simp] theorem report_suppressed (plan : PlanPayload) :
    (aggregateCandidatePlan [plan]).suppressed = plan.suppressed := by
  simp [aggregateCandidatePlan]

theorem report_reasons (plan : PlanPayload) : (aggregateCandidatePlan [plan]).suppressionByReason =
    suppressionCounts (plan.suppressed.filter fun item => item.reasonCode ≠ "") := by
  simp [aggregateCandidatePlan]

theorem report_policy {plan : PlanPayload} {summary : PolicySummary}
    (has : plan.generationPolicy = some summary) :
    (∀ f, (aggregateCandidatePlan [plan]).generationPolicy.count f = (summary.count f).getD 0) ∧
      (aggregateCandidatePlan [plan]).generationPolicy.truncated = summary.truncated := by
  simp [aggregateCandidatePlan, has]

/-- A plan without the policy reports nothing of it. -/
theorem report_noPolicy {plan : PlanPayload} (has : plan.generationPolicy = none) :
    (∀ f, (aggregateCandidatePlan [plan]).generationPolicy.count f = 0) ∧
      (aggregateCandidatePlan [plan]).generationPolicy.truncated = false := by
  simp [aggregateCandidatePlan, has]

theorem unbatchedReport_some (backed : policy.Backed) (files : MetaFiles) :
    ∃ plan, unbatchedReport t policy files = some (aggregateCandidatePlan [plan]) ∧
      (policy.selectedLines = [] → plan = noCandidatePlan policy) ∧
      (policy.selectedLines ≠ [] →
        plan.eligibleMutationOpportunities = listedOpportunities policy.selectedBeforeCap ∧
        plan.suppressed = listedSuppressed policy.suppressed) ∧
      (∀ f, f ≠ .omittedByOnePerLine →
        (aggregateCandidatePlan [plan]).generationPolicy.count f = policy.count f) ∧
      (aggregateCandidatePlan [plan]).generationPolicy.truncated = policy.truncated := by
  unfold unbatchedReport
  by_cases none_ : policy.selectedLines = []
  · obtain ⟨counts, truncated⟩ := @report_policy (noCandidatePlan policy) _ rfl
    exact ⟨_, by rw [if_pos none_]; rfl, fun _ => rfl, fun some_ => absurd none_ some_,
      fun f _ => counts f, truncated⟩
  · obtain ⟨plan, made, eligible, suppressed, has⟩ :=
      candidatePlanPayload_some (t := t) backed none_ files
    obtain ⟨counts, truncated⟩ := report_policy has
    refine ⟨plan, by rw [if_neg none_, made]; rfl, fun empty => absurd empty none_,
      fun _ => ⟨eligible, suppressed⟩, fun f other => ?_, truncated⟩
    rw [counts]
    simp only [if_neg other, Option.getD_some]

theorem batchedReport_some (backed : policy.Backed) {batches : List (List ℕ × MetaFiles)}
    (filled : ∀ batch ∈ batches, batch.1 ≠ [])
    (parts : (batches.map Prod.fst).flatten.Perm policy.selectedLines) :
    ∃ plan, batchedReport t policy batches = some (aggregateCandidatePlan [plan]) ∧
      plan.generationPolicy = none ∧
      plan.eligibleMutationOpportunities.Perm ((policy.selectedBeforeCap.filter
        fun o => o.line ∈ policy.selectedLines).map opportunityFromPayload) ∧
      plan.suppressed.Perm ((policy.suppressed.filter
        fun s => s.opportunity.line ∈ policy.selectedLines).map
          fun s => { s with opportunity := opportunityFromPayload s.opportunity }) := by
  have within : ∀ batch ∈ batches, ∀ line ∈ batch.1, line ∈ policy.selectedLines :=
    fun batch member line own => parts.mem_iff.mp
      (List.mem_flatten.mpr ⟨batch.1, List.mem_map_of_mem member, own⟩)
  have apart : (batches.map Prod.fst).flatten.Nodup := parts.nodup_iff.mpr backed.distinct
  obtain ⟨plans, made, eligible, suppressed⟩ := batchPlans_some (t := t) backed filled within
  refine ⟨aggregateBatchCandidatePlans plans, ?_, aggregateBatch_generationPolicy plans, ?_, ?_⟩
  · unfold batchedReport
    rw [made]
    rfl
  · rw [aggregateBatch_eligible, eligible]
    have each := List.Perm.flatMap_left (batches.map Prod.fst) fun lines _ =>
      listedOpportunities_perm (keepOpportunities lines policy.selectedBeforeCap)
    have joined := filter_parts_perm Opportunity.line policy.selectedBeforeCap apart
    simp only [parts.mem_iff] at joined
    refine each.trans ?_
    rw [← List.map_flatMap]
    exact joined.map _
  · rw [aggregateBatch_suppressed, suppressed]
    have each := List.Perm.flatMap_left (batches.map Prod.fst) fun lines _ =>
      listedSuppressed_perm (policy.suppressed.filter fun s => s.opportunity.line ∈ lines)
    have joined := filter_parts_perm (fun s : SuppressedOpportunity => s.opportunity.line)
      policy.suppressed apart
    simp only [parts.mem_iff] at joined
    refine each.trans ?_
    rw [← List.map_flatMap]
    exact joined.map _

/-- A batched report has the opportunities of the selected lines, whatever the batches, and no figure
of the policy: it tells what the single report tells exactly where there is nothing to tell. -/
theorem batchedReport_agrees_iff {sourceBytes : ℕ} {cap : Int}
    (built : buildGenerationPolicy t.py t.source sourceBytes t.sourcePath t.changedLines
      t.changedLines cap = some t.whole)
    (narrowed : Narrowed t.whole policy) (files : MetaFiles) {batches : List (List ℕ × MetaFiles)}
    (filled : ∀ batch ∈ batches, batch.1 ≠ [])
    (parts : (batches.map Prod.fst).flatten.Perm policy.selectedLines) :
    ∃ single batched, unbatchedReport t policy files = some single ∧
      batchedReport t policy batches = some batched ∧
      (single.Agrees batched ↔
        policy.eligibleOpportunities = 0 ∧ policy.suppressedOpportunities = 0) ∧
      batched.eligibleMutationOpportunities.Perm
        (single.eligibleMutationOpportunities.filter fun o => o.line ∈ policy.selectedLines) ∧
      batched.suppressed.Perm
        (single.suppressed.filter fun s => s.opportunity.line ∈ policy.selectedLines) := by
  have backed := backed_of_narrowed built narrowed
  obtain ⟨whole, single, none_, some_, counts, truncated⟩ :=
    unbatchedReport_some (t := t) backed files
  obtain ⟨plan, batched, dropped, eligible, suppressed⟩ :=
    batchedReport_some (t := t) backed filled parts
  obtain ⟨zero, untruncated⟩ := report_noPolicy dropped
  refine ⟨_, _, single, batched, ⟨fun agrees => ?_, ?_⟩, ?_, ?_⟩
  · have count : ∀ f, f ≠ .changedLineCount → f ≠ .omittedByOnePerLine → policy.count f = 0 :=
      fun f other listed => (counts f listed).symm.trans ((agrees.counts f other).symm.trans (zero f))
    exact ⟨count .eligibleOpportunities (by decide) (by decide),
      count .suppressedOpportunities (by decide) (by decide)⟩
  · rintro ⟨noneEligible, noneSuppressed⟩
    obtain ⟨lines, before, live, figures, whole_⟩ :=
      empty_of_counts built narrowed noneEligible noneSuppressed
    obtain rfl := none_ lines
    have noEligible : plan.eligibleMutationOpportunities = [] := by
      rw [before] at eligible
      exact eligible.eq_nil
    have noSuppressed : plan.suppressed = [] := by
      rw [live] at suppressed
      exact suppressed.eq_nil
    have figures' := (@report_policy (noCandidatePlan policy) _ rfl).1
    constructor
    case eligible => simp [noEligible, noCandidatePlan, before]
    case suppressed => simp [noSuppressed, noCandidatePlan, live]
    case reasons =>
      intro reason
      rw [report_reasons, report_reasons, noSuppressed]
      simp [noCandidatePlan, live]
    case counts =>
      intro f other
      rw [zero, figures']
      exact (figures f other).symm
    case truncated => rw [untruncated, truncated, whole_]
  · rw [report_eligible, report_eligible]
    by_cases lines : policy.selectedLines = []
    · rw [lines] at eligible ⊢
      simpa using eligible
    · rw [(some_ lines).1]
      refine eligible.trans ?_
      have listed := (listedOpportunities_perm policy.selectedBeforeCap).filter
        fun o => decide (o.line ∈ policy.selectedLines)
      rw [List.filter_map] at listed
      exact listed.symm
  · rw [report_suppressed, report_suppressed]
    by_cases lines : policy.selectedLines = []
    · rw [lines] at suppressed ⊢
      simpa using suppressed
    · rw [(some_ lines).2]
      refine suppressed.trans ?_
      have listed := (listedSuppressed_perm policy.suppressed).filter
        fun s => decide (s.opportunity.line ∈ policy.selectedLines)
      rw [List.filter_map] at listed
      exact listed.symm

end Reports

theorem flat_batched :
    ∃ whole, ∃ single batched,
      unbatchedReport (flatTarget whole) whole (none, none) = some single ∧
      batchedReport (flatTarget whole) whole [([2], none, none), ([4], none, none)] = some batched ∧
      (single.Agrees batched ↔ whole.eligibleOpportunities = 0 ∧ whole.suppressedOpportunities = 0) ∧
      batched.eligibleMutationOpportunities.Perm
        (single.eligibleMutationOpportunities.filter fun o => o.line ∈ whole.selectedLines) ∧
      batched.suppressed.Perm
        (single.suppressed.filter fun s => s.opportunity.line ∈ whole.selectedLines) := by
  have both : ((buildGenerationPolicy (oneText flatText flatTree) flatText 54 "m.py" [2, 4] [2, 4]
      1000).any fun whole => decide (whole.selectedLines = [2, 4])) = true := by decide +kernel
  obtain ⟨whole, built, lines⟩ := (Option.any_eq_true _ _).mp both
  have parts : ([[2], [4]] : List (List ℕ)).flatten.Perm whole.selectedLines := by
    rw [of_decide_eq_true lines]
    exact .refl _
  have filled : ∀ batch ∈ ([([2], none, none), ([4], none, none)] : List (List ℕ × MetaFiles)),
      batch.1 ≠ [] := by simp
  exact ⟨whole, batchedReport_agrees_iff (t := flatTarget whole) built .whole (none, none) filled
    parts⟩

/-- Of three changed lines two are selected, and a report over two batches tells of no opportunity at
all and of no cut. -/
theorem batched_truncation_hidden :
    ∃ whole, buildGenerationPolicy (oneText nestedText nestedTree) nestedText 117 "m.py" [4, 6, 8]
        [4, 6, 8] 2 = some whole ∧ whole.selectedLines = [4, 6] ∧
      ∃ single batched,
        unbatchedReport ⟨oneText nestedText nestedTree, nestedText, "m.py", [4, 6, 8], whole⟩ whole
          (none, none) = some single ∧
        batchedReport ⟨oneText nestedText nestedTree, nestedText, "m.py", [4, 6, 8], whole⟩ whole
          [([4], none, none), ([6], none, none)] = some batched ∧
        single.generationPolicy.count .eligibleOpportunities = 9 ∧
        single.generationPolicy.truncated = true ∧
        batched.generationPolicy.count .eligibleOpportunities = 0 ∧
        batched.generationPolicy.truncated = false ∧ ¬ single.Agrees batched := by
  have facts : ((buildGenerationPolicy (oneText nestedText nestedTree) nestedText 117 "m.py" [4, 6, 8]
      [4, 6, 8] 2).any fun whole => decide (whole.selectedLines = [4, 6]) &&
        decide (whole.eligibleOpportunities = 9) && whole.truncated) = true := by decide +kernel
  obtain ⟨whole, built, facts⟩ := (Option.any_eq_true _ _).mp facts
  simp only [Bool.and_eq_true, decide_eq_true_eq] at facts
  obtain ⟨⟨lines, nine⟩, cut⟩ := facts
  let t : PlanTarget :=
    ⟨oneText nestedText nestedTree, nestedText, "m.py", [4, 6, 8], whole⟩
  have backed := backed_of_narrowed built .whole
  obtain ⟨_, single, -, -, counts, truncated⟩ := unbatchedReport_some (t := t) backed (none, none)
  have filled : ∀ batch ∈ ([([4], none, none), ([6], none, none)] : List (List ℕ × MetaFiles)),
      batch.1 ≠ [] := by simp
  have parts : ([[4], [6]] : List (List ℕ)).flatten.Perm whole.selectedLines := by
    rw [lines]
    exact .refl _
  obtain ⟨_, batched, dropped, -⟩ := batchedReport_some (t := t) backed filled parts
  obtain ⟨zero, untruncated⟩ := report_noPolicy dropped
  have eligible := (counts .eligibleOpportunities (by decide)).trans nine
  refine ⟨whole, built, lines, _, _, single, batched, eligible, truncated.trans cut, zero _,
    untruncated, fun agrees => ?_⟩
  have same := agrees.truncated
  rw [untruncated, truncated, cut] at same
  cases same

end Uta.Enforce
