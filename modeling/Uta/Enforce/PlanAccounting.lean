/- What a candidate plan accounts for: each of its keys is one generated mutant of one selected
opportunity, and a run fails its plan where a mutant is left over. -/
import Uta.Enforce.CandidatePlan
import Mathlib.Data.List.Perm.Subperm

namespace Uta.Enforce
open Uta.Lib

/-- What the keys of a plan promise. -/
structure CandidatePlan.Exact (plan : CandidatePlan) (m : MetaObject) (module : String)
    (selected : List Opportunity) : Prop where
  distinct : plan.exactToolCandidateKeys.Nodup
  attached : ∀ c ∈ plan.activeSelected, c.toolCandidateKey ∈ m.keys ∧
    MatchesKey m module c.opportunity c.toolCandidateKey
  /-- At most one candidate for each selected opportunity. -/
  onePerOpportunity : (plan.activeSelected.map MutationCandidate.opportunity).Sublist selected
  /-- At most one opportunity for each key. -/
  oneOpportunity : ∀ c ∈ plan.activeSelected, ∀ d ∈ plan.activeSelected,
    c.toolCandidateKey = d.toolCandidateKey → c = d

section Candidates
variable {m : MetaObject} {module : String}

theorem candidateOf_some {o : Opportunity} {c : MutationCandidate}
    (found : candidateOf m module o = some c) :
    c.opportunity = o ∧ c.toolCandidateKey ∈ m.keys ∧ MatchesKey m module o c.toolCandidateKey := by
  obtain ⟨key, first, rfl⟩ := Option.map_eq_some_iff.mp found
  have member := (List.mem_insertionSort _).mp (List.mem_of_head? first)
  obtain ⟨known, matches_⟩ := List.mem_filter.mp member
  exact ⟨rfl, known, of_decide_eq_true matches_⟩

theorem filterMap_opportunities (os : List Opportunity) :
    ((os.filterMap (candidateOf m module)).map MutationCandidate.opportunity).Sublist os := by
  induction os with
  | nil => exact .slnil
  | cons o os ih =>
      rw [List.filterMap_cons]
      cases found : candidateOf m module o with
      | none => exact ih.cons o
      | some c =>
          rw [List.map_cons, (candidateOf_some found).1]
          exact ih.cons_cons o

/-- Opportunities of different lines have different keys. -/
theorem filterMap_keys_nodup {os : List Opportunity} (lines : (os.map Opportunity.line).Nodup) :
    ((os.filterMap (candidateOf m module)).map MutationCandidate.toolCandidateKey).Nodup := by
  have nodup : (os.filterMap (candidateOf m module)).Nodup :=
    ((filterMap_opportunities os).nodup (List.Nodup.of_map _ lines)).of_map
  refine nodup.map_on fun c left d right same => ?_
  obtain ⟨a, known, found⟩ := List.mem_filterMap.mp left
  obtain ⟨b, known', found'⟩ := List.mem_filterMap.mp right
  -- The metadata has one line for the key, and the lines have one opportunity each.
  have here := (candidateOf_some found).2.2.2.1
  have there := (candidateOf_some found').2.2.2.1
  rw [same] at here
  have lineOf : a.line = b.line := by
    have := here.symm.trans there
    simpa using this
  obtain rfl := List.inj_on_of_nodup_map lines known known' lineOf
  exact Option.some.inj (found.symm.trans found')

theorem candidatePlanOf_exact {plan : OpportunityPlan}
    (lines : (plan.selected.map Opportunity.line).Nodup) :
    (candidatePlanOf m module plan).Exact m module plan.selected where
  distinct := filterMap_keys_nodup lines
  attached := by
    intro c member
    obtain ⟨o, _, found⟩ := List.mem_filterMap.mp member
    obtain ⟨rfl, known, matches_⟩ := candidateOf_some found
    exact ⟨known, matches_⟩
  onePerOpportunity := filterMap_opportunities plan.selected
  oneOpportunity := by
    intro c left d right same
    exact List.inj_on_of_nodup_map (filterMap_keys_nodup lines) left right same

end Candidates

/-! The lines of a policy. -/

/-- What is made of a policy on the way to a pass: its lines are narrowed, by the sampling policy or
to those of a batch. -/
inductive Narrowed (whole : GenerationPolicy) : GenerationPolicy → Prop where
  | whole : Narrowed whole whole
  | profile (capProfile : String) {policy} :
    Narrowed whole policy → Narrowed whole { policy with capProfile }
  | lines (lines : List ℕ) {policy} :
    Narrowed whole policy → Narrowed whole (filterGenerationPolicyToLines lines policy)

theorem Narrowed.selected {whole policy : GenerationPolicy} (narrowed : Narrowed whole policy) :
    policy.selected.Sublist whole.selected := by
  induction narrowed with
  | whole => exact .refl _
  | profile _ _ ih => exact ih
  | lines lines _ ih => exact (List.filter_sublist).trans ih

theorem discovered_path {py : Python} {tree : Node} {source : List Char} {sourcePath : String}
    {changed coveredLines : List ℕ} {o : Opportunity}
    (found : o ∈ discovered py tree source sourcePath changed coveredLines) :
    o.sourcePath = sourcePath := by
  obtain ⟨_, _, hinted⟩ := List.mem_flatMap.mp found
  obtain ⟨_, _, rfl⟩ := List.mem_map.mp hinted
  rfl

/-- Representatives in one file are on different lines. -/
theorem selected_lines_nodup {py : Python} {tree : Node} {source : List Char} {sourcePath : String}
    {changed coveredLines : List ℕ} :
    ((selectOneOpportunityPerLine (discovered py tree source sourcePath changed
      coveredLines)).1.map Opportunity.line).Nodup := by
  have places_ := @places_nodup (discovered py tree source sourcePath changed coveredLines)
  rw [← selected_places] at places_
  refine (List.Nodup.of_map _ places_).map_on fun a left b right same => ?_
  refine List.inj_on_of_nodup_map places_ left right (Prod.ext ?_ same)
  exact (discovered_path (mem_selected left).1).trans (discovered_path (mem_selected right).1).symm

theorem built_lines_nodup {py : Python} {source : List Char} {sourceBytes : ℕ} {sourcePath : String}
    {changedLines coveredLines : List ℕ} {cap : Int} {policy : GenerationPolicy}
    (built : buildGenerationPolicy py source sourceBytes sourcePath changedLines coveredLines cap =
      some policy) : (policy.selected.map Opportunity.line).Nodup := by
  unfold buildGenerationPolicy at built
  dsimp only at built
  rw [collect_eq, Option.map_map] at built
  obtain ⟨tree, _, rfl⟩ := Option.map_eq_some_iff.mp built
  obtain ⟨dropped, split, _⟩ := hardCap_split py (planOf (discovered py tree source sourcePath
    (sortedLines (sortedLines changedLines)) coveredLines) (suppressedOpportunities py tree source
      sourcePath (sortedLines (sortedLines changedLines)) coveredLines)).selected cap
  have lines := (split.map Opportunity.line).nodup_iff.mpr selected_lines_nodup
  rw [List.map_append, List.nodup_append'] at lines
  exact lines.1

/-- The opportunities that a plan selects are on different lines. -/
theorem plan_lines_nodup {py : Python} {source : List Char} {sourcePath : String}
    {changedLines coveredLines : List ℕ} {policy : Option GenerationPolicy}
    (lines : ∀ p ∈ policy, (p.selected.map Opportunity.line).Nodup) {plan : OpportunityPlan}
    (planned : opportunityPlan py source sourcePath changedLines coveredLines policy = some plan) :
    (plan.selected.map Opportunity.line).Nodup := by
  unfold opportunityPlan at planned
  cases read : policy.bind opportunityPlanFromPolicy with
  | none =>
      rw [read, Option.none_or, collect_eq] at planned
      obtain ⟨tree, _, rfl⟩ := Option.map_eq_some_iff.mp planned
      exact selected_lines_nodup
  | some fromPolicy =>
      rw [read, Option.some_or] at planned
      cases planned
      obtain ⟨p, given, filled⟩ := Option.bind_eq_some_iff.mp read
      unfold opportunityPlanFromPolicy at filled
      split at filled
      · cases filled
      · cases filled
        have sorted := List.perm_insertionSort (fun a b => compareRank a b ≠ .gt) p.selected
        rw [List.map_map]
        exact ((sorted.map Opportunity.line).nodup_iff.mpr (lines p given) : _)

/-! Runs. -/

/-- The inputs of every pass of a run: the target, its source and its policy. -/
structure PlanTarget where
  py : Python
  source : List Char
  sourcePath : String
  changedLines : List ℕ
  whole : GenerationPolicy

/-- What one pass leaves in `mutants/`: the files of the target, and the other files. -/
structure PassFiles where
  metadataRun : CommandRun
  runSelected : CommandRun
  policy : GenerationPolicy
  target : Option MetaObject
  sidecar : Option Sidecar
  others : List MetaFile

/-- The metadata file of a source. -/
def metaName (sourcePath : String) : String := sourcePath ++ ".meta"

/-- A file that `read_mutmut_meta` reads, with its keys. -/
def MetaFile.counted (file : MetaFile) : List String :=
  if ".py.meta".toList <:+ file.name.toList then (file.exitCodeByKey.getD []).map Prod.fst else []

/-- A generated mutant: a key of the target's metadata, or of another file's. -/
inductive Mutant where
  | target (key : String)
  | other (key : String)
  deriving DecidableEq, Repr

namespace PassFiles
variable (t : PlanTarget) (p : PassFiles)

def targetFile : List MetaFile :=
  p.target.toList.map fun object => ⟨metaName t.sourcePath, some object.exitCodeByKey⟩

/-- The plan that `_candidate_plan` builds after the pass. -/
def plan : Option CandidatePlan :=
  buildMutmut3CandidatePlanFromMeta t.py t.source t.sourcePath t.changedLines t.changedLines
    (some p.policy) p.target p.sidecar

def exactKeys : List String := ((p.plan t).map CandidatePlan.exactToolCandidateKeys).getD []

def outcome : PassOutcome where
  metadataRun := p.metadataRun
  runSelected := p.runSelected
  metas := p.targetFile t ++ p.others
  exactToolCandidateKeys := p.exactKeys t

/-- The mutants that the pass generated. -/
def mutants : List Mutant :=
  (p.target.toList.flatMap MetaObject.keys).map .target ++
    (p.others.flatMap MetaFile.counted).map .other

/-- The mutant is the candidate of a selected opportunity. -/
def Accounts : Mutant → Prop
  | .target key => key ∈ p.exactKeys t
  | .other _ => False

instance (m : Mutant) : Decidable (p.Accounts t m) :=
  match m with
  | .target key => inferInstanceAs (Decidable (key ∈ p.exactKeys t))
  | .other _ => inferInstanceAs (Decidable False)

end PassFiles

/-- The number of mutants in the files. -/
theorem values_bump (c : Counts) (s : MutantStatus) : (c.bump s).values = c.values + 1 := by
  cases s <;> simp [Counts.values, Counts.bump] <;> omega

theorem values_add (c d : Counts) : (c.add d).values = c.values + d.values := by
  unfold Counts.values Counts.add
  omega

theorem readMutmutMeta_values (metas : List MetaFile) :
    (readMutmutMeta metas).values = (metas.flatMap MetaFile.counted).length := by
  have items : ∀ (codes : List (String × Option Int)) (c : Counts),
      (codes.foldl (fun c item => c.bump (mutmutStatus item.2)) c).values = c.values + codes.length := by
    intro codes
    induction codes with
    | nil => exact fun c => rfl
    | cons item codes ih =>
        intro c
        rw [List.foldl_cons, ih, values_bump, List.length_cons]
        omega
  have files : ∀ (metas : List MetaFile) (c : Counts),
      (metas.foldl (fun counts file =>
        if ".py.meta".toList <:+ file.name.toList then
          (file.exitCodeByKey.getD []).foldl (fun c item => c.bump (mutmutStatus item.2)) counts
        else counts) c).values = c.values + (metas.flatMap MetaFile.counted).length := by
    intro metas
    induction metas with
    | nil => exact fun c => rfl
    | cons file metas ih =>
        intro c
        rw [List.foldl_cons, ih, List.flatMap_cons, List.length_append]
        by_cases counted : ".py.meta".toList <:+ file.name.toList
        · rw [if_pos counted, items, MetaFile.counted, if_pos counted, List.length_map]
          omega
        · rw [if_neg counted, MetaFile.counted, if_neg counted, List.length_nil, Nat.zero_add]
  have none_ : Counts.zero.values = 0 := rfl
  have all := files metas .zero
  rw [none_, Nat.zero_add] at all
  exact all

theorem runGenerationPasses_totals (passes : List PassOutcome) :
    (runGenerationPasses passes).totals.values =
      (passes.map fun p => (readMutmutMeta p.metas).values).sum ∧
    (runGenerationPasses passes).exactToolCandidateKeys.length =
      (passes.map fun p => p.exactToolCandidateKeys.length).sum := by
  have from_ : ∀ (passes : List PassOutcome) (t : PassTotals),
      (passes.foldl PassTotals.step t).totals.values =
        t.totals.values + (passes.map fun p => (readMutmutMeta p.metas).values).sum ∧
      (passes.foldl PassTotals.step t).exactToolCandidateKeys.length =
        t.exactToolCandidateKeys.length + (passes.map fun p => p.exactToolCandidateKeys.length).sum := by
    intro passes
    induction passes with
    | nil => exact fun t => ⟨rfl, rfl⟩
    | cons p passes ih =>
        intro t
        obtain ⟨totals, keys⟩ := ih (t.step p)
        have first : (t.step p).totals.values = t.totals.values + (readMutmutMeta p.metas).values :=
          values_add _ _
        have second : (t.step p).exactToolCandidateKeys.length =
            t.exactToolCandidateKeys.length + p.exactToolCandidateKeys.length := List.length_append
        rw [List.foldl_cons, List.map_cons, List.map_cons, List.sum_cons, List.sum_cons]
        constructor
        · omega
        · omega
  obtain ⟨totals, keys⟩ := from_ passes {}
  have none_ : ({} : PassTotals).totals.values = 0 := rfl
  constructor
  · rw [runGenerationPasses, totals, none_, Nat.zero_add]
  · rw [runGenerationPasses, keys]
    exact Nat.zero_add _

section Pass
variable {t : PlanTarget} {p : PassFiles}

/-- The keys of a pass are different keys of its target's metadata. -/
theorem exactKeys_nodup (narrowed : Narrowed t.whole p.policy)
    (lines : (t.whole.selected.map Opportunity.line).Nodup) :
    (p.exactKeys t).Nodup ∧ p.exactKeys t ⊆ p.target.toList.flatMap MetaObject.keys := by
  unfold PassFiles.exactKeys PassFiles.plan buildMutmut3CandidatePlanFromMeta
  cases planned : opportunityPlan t.py t.source t.sourcePath t.changedLines t.changedLines
      (some p.policy) with
  | none => exact ⟨List.nodup_nil, List.nil_subset _⟩
  | some plan =>
      have narrow : ∀ q ∈ some p.policy, (q.selected.map Opportunity.line).Nodup := by
        rintro q ⟨⟩
        exact (narrowed.selected.map _).nodup lines
      have exact_ := @candidatePlanOf_exact (readTargetMeta p.target p.sidecar)
        (moduleName t.sourcePath) plan (plan_lines_nodup narrow planned)
      refine ⟨exact_.distinct, fun key member => ?_⟩
      obtain ⟨c, listed, rfl⟩ := List.mem_map.mp member
      have known := (exact_.attached c listed).1
      cases object : p.target with
      | none =>
          rw [object] at known
          cases known
      | some object =>
          rw [object] at known
          simpa [readTargetMeta, MetaObject.keys] using known

/-- A pass has no more keys than mutants, and as many where all are accounted for. -/
theorem exactKeys_length (narrowed : Narrowed t.whole p.policy)
    (lines : (t.whole.selected.map Opportunity.line).Nodup) :
    (p.exactKeys t).length ≤ p.mutants.length ∧
      ((p.exactKeys t).length = p.mutants.length ↔ ∀ m ∈ p.mutants, p.Accounts t m) := by
  obtain ⟨nodup, known⟩ := exactKeys_nodup narrowed lines
  have within := nodup.subperm known
  have fewer := within.length_le
  have count : p.mutants.length = (p.target.toList.flatMap MetaObject.keys).length +
      (p.others.flatMap MetaFile.counted).length := by
    simp [PassFiles.mutants]
  refine ⟨by omega, fun same m member => ?_, fun all => ?_⟩
  · -- Nothing is left for the other files, and every key of the target is one of the plan's.
    have none_ : (p.others.flatMap MetaFile.counted).length = 0 := by omega
    have keys := within.perm_of_length_le (by omega)
    rcases List.mem_append.mp member with own | foreign
    · obtain ⟨key, here, rfl⟩ := List.mem_map.mp own
      exact keys.mem_iff.mpr here
    · obtain ⟨key, there, rfl⟩ := List.mem_map.mp foreign
      rw [List.length_eq_zero_iff.mp none_] at there
      cases there
  · have none_ : p.others.flatMap MetaFile.counted = [] := by
      refine List.eq_nil_iff_forall_not_mem.mpr fun key there => ?_
      exact all (.other key) (List.mem_append_right _ (List.mem_map_of_mem there))
    have unique : (p.target.toList.flatMap MetaObject.keys).Nodup := by
      cases p.target with
      | none => exact List.nodup_nil
      | some object => simpa [MetaObject.keys] using object.unique
    have back := (unique.subperm fun key here =>
      all (.target key) (List.mem_append_left _ (List.mem_map_of_mem here))).length_le
    have rest : (p.others.flatMap MetaFile.counted).length = 0 := by rw [none_]; rfl
    omega

theorem outcome_values (named : ".py".toList <:+ t.sourcePath.toList) :
    (readMutmutMeta (p.outcome t).metas).values = p.mutants.length := by
  have suffix : ".py.meta".toList <:+ (metaName t.sourcePath).toList := by
    obtain ⟨stem, split⟩ := named
    refine ⟨stem, ?_⟩
    rw [metaName, String.toList_append, ← split, List.append_assoc]
    rfl
  have own : (p.targetFile t).flatMap MetaFile.counted = p.target.toList.flatMap MetaObject.keys := by
    unfold PassFiles.targetFile
    rw [List.flatMap_map]
    refine List.flatMap_congr fun object _ => ?_
    rw [MetaFile.counted, if_pos suffix]
    rfl
  have files : (p.outcome t).metas = p.targetFile t ++ p.others := rfl
  rw [readMutmutMeta_values, files, List.flatMap_append, own, PassFiles.mutants,
    List.length_append, List.length_append, List.length_map, List.length_map]

end Pass

/-- Sums of parts that are no greater are equal exactly where all parts are. -/
theorem sum_eq_iff {α : Type} {f g : α → ℕ} {items : List α} (le : ∀ a ∈ items, f a ≤ g a) :
    (items.map f).sum ≤ (items.map g).sum ∧
      ((items.map f).sum = (items.map g).sum ↔ ∀ a ∈ items, f a = g a) := by
  induction items with
  | nil => simp
  | cons a items ih =>
      obtain ⟨first, rest⟩ := List.forall_mem_cons.mp le
      obtain ⟨below, same⟩ := ih rest
      rw [List.map_cons, List.map_cons, List.sum_cons, List.sum_cons, List.forall_mem_cons, ← same]
      omega

/-- A python3 run over the passes of a target. -/
def targetRun (t : PlanTarget) (gate : ℚ) (selectedLines : List ℤ) (first : PassFiles)
    (rest : List PassFiles) (cleanTestProbe collectionProbe : CommandRun) : MutationRun where
  gate := gate
  lane := .python3 selectedLines (first.outcome t) (rest.map (PassFiles.outcome t))
  cleanTestProbe := cleanTestProbe
  collectionProbe := collectionProbe

section Run
variable {t : PlanTarget} {gate : ℚ} {selectedLines : List ℤ} {first : PassFiles}
  {rest : List PassFiles} {cleanTestProbe collectionProbe : CommandRun}

theorem targetRun_planFailed (named : ".py".toList <:+ t.sourcePath.toList)
    (narrowed : ∀ p ∈ first :: rest, Narrowed t.whole p.policy)
    (lines : (t.whole.selected.map Opportunity.line).Nodup) :
    (targetRun t gate selectedLines first rest cleanTestProbe collectionProbe).planFailed ↔
      ∃ p ∈ first :: rest, ∃ m ∈ p.mutants, ¬ p.Accounts t m := by
  obtain ⟨totals, keys⟩ := runGenerationPasses_totals ((first :: rest).map (PassFiles.outcome t))
  rw [List.map_map] at totals keys
  have each : ∀ p ∈ first :: rest,
      (fun p : PassFiles => (p.exactKeys t).length) p ≤ (fun p : PassFiles => p.mutants.length) p :=
    fun p member => (exactKeys_length (narrowed p member) lines).1
  obtain ⟨below, same⟩ := sum_eq_iff each
  have generated : (targetRun t gate selectedLines first rest cleanTestProbe
      collectionProbe).generated = ((first :: rest).map fun p => p.mutants.length).sum := by
    refine totals.trans (congrArg List.sum (List.map_congr_left fun p _ => ?_))
    exact outcome_values named
  have exact_ : (targetRun t gate selectedLines first rest cleanTestProbe
      collectionProbe).lane.exactToolCandidateKeys.length =
        ((first :: rest).map fun p => (p.exactKeys t).length).sum := keys
  have accounted : ((first :: rest).map fun p => (p.exactKeys t).length).sum =
      ((first :: rest).map fun p => p.mutants.length).sum ↔
        ∀ p ∈ first :: rest, ∀ m ∈ p.mutants, p.Accounts t m := by
    rw [same]
    exact forall₂_congr fun p member => (exactKeys_length (narrowed p member) lines).2
  have python3 : (targetRun t gate selectedLines first rest cleanTestProbe
      collectionProbe).lane.isPython3 = true := rfl
  unfold MutationRun.planFailed
  rw [generated, exact_]
  constructor
  · rintro ⟨_, _, differ⟩
    by_contra all
    push Not at all
    exact differ (accounted.mpr all)
  · rintro ⟨p, member, m, made, left⟩
    have differ : ((first :: rest).map fun p => (p.exactKeys t).length).sum ≠
        ((first :: rest).map fun p => p.mutants.length).sum :=
      fun equal => left (accounted.mp equal p member m made)
    exact ⟨python3, by omega, differ⟩

end Run

/-- What a run over the passes of a target owes to its plans. -/
structure PlanAccounted (t : PlanTarget) (x : MutationRun) (passes : List PassFiles) : Prop where
  exact_ : ∀ p ∈ passes, ∀ policyPlan plan,
    opportunityPlan t.py t.source t.sourcePath t.changedLines t.changedLines (some p.policy) =
      some policyPlan → p.plan t = some plan →
    plan.Exact (readTargetMeta p.target p.sidecar) (moduleName t.sourcePath) policyPlan.selected
  failed : (runMutation x).reasonCode = some "mutation_candidate_plan_failed" ↔
    x.lane.noCandidate = false ∧ ¬ x.collectionFailed ∧ ¬ x.backendFailed ∧
      ∃ p ∈ passes, ∃ m ∈ p.mutants, ¬ p.Accounts t m

/-- Whatever the metadata, the keys of each plan are different mutants of different opportunities,
and a run that neither its collection nor its backend fails reports a failed plan exactly where some
mutant is left over. -/
theorem run_planAccounted {t : PlanTarget} {gate : ℚ} {selectedLines : List ℤ} {first : PassFiles}
    {rest : List PassFiles} {cleanTestProbe collectionProbe : CommandRun} {sourceBytes : ℕ} {cap : Int}
    (named : ".py".toList <:+ t.sourcePath.toList)
    (built : buildGenerationPolicy t.py t.source sourceBytes t.sourcePath t.changedLines
      t.changedLines cap = some t.whole)
    (narrowed : ∀ p ∈ first :: rest, Narrowed t.whole p.policy) :
    PlanAccounted t (targetRun t gate selectedLines first rest cleanTestProbe collectionProbe)
      (first :: rest) := by
  have lines := built_lines_nodup built
  constructor
  case exact_ =>
    intro p member policyPlan plan planned made
    unfold PassFiles.plan buildMutmut3CandidatePlanFromMeta at made
    rw [planned] at made
    cases made
    apply candidatePlanOf_exact
    apply plan_lines_nodup _ planned
    rintro q ⟨⟩
    exact ((narrowed p member).selected.map _).nodup lines
  case failed =>
    rw [← @targetRun_planFailed t gate selectedLines first rest cleanTestProbe collectionProbe named
      narrowed lines]
    unfold runMutation
    split
    · rename_i none_
      simp [noCandidateMutation, none_]
    · rename_i candidates
      simp only [Bool.not_eq_true] at candidates
      rw [candidates]
      dsimp only
      split_ifs <;> simp_all

/-! Two functions and their mutants. -/

def succeeded : CommandRun := ⟨0, [], []⟩

def flatTarget (whole : GenerationPolicy) : PlanTarget :=
  ⟨oneText flatText flatTree, flatText, "m.py", [2, 4], whole⟩

/-- A pass that generated one mutant for each line, with the exit code of the second. -/
def flatPass (whole : GenerationPolicy) (line : ℤ) (code : Option Int) : PassFiles where
  metadataRun := succeeded
  runSelected := succeeded
  policy := whole
  target := some { exitCodeByKey := [("m.x_g__mutmut_1", some 1), ("m.x_h__mutmut_1", code)]
                   unique := by simp }
  sidecar := some ⟨[("m.x_g__mutmut_1", 2), ("m.x_h__mutmut_1", line)], [], []⟩
  others := []

theorem flat_planAccounted : ∃ whole, PlanAccounted (flatTarget whole)
    (targetRun (flatTarget whole) 80 [2, 4] (flatPass whole 4 (some 1)) [] succeeded succeeded)
    [flatPass whole 4 (some 1)] := by
  have isSome : (buildGenerationPolicy (oneText flatText flatTree) flatText 54 "m.py" [2, 4] [2, 4]
      1000).isSome = true := by decide +kernel
  obtain ⟨whole, built⟩ := Option.isSome_iff_exists.mp isSome
  have named : ".py".toList <:+ "m.py".toList := by decide
  refine ⟨whole, @run_planAccounted (flatTarget whole) 80 [2, 4] (flatPass whole 4 (some 1)) []
    succeeded succeeded 54 1000 named built ?_⟩
  intro p member
  obtain rfl := List.mem_singleton.mp member
  exact .whole

/-- A mutant of a line without an opportunity, left unchecked, is reported as a backend failure. -/
theorem unchecked_not_planFailed : ∃ whole, buildGenerationPolicy (oneText flatText flatTree) flatText
      54 "m.py" [2, 4] [2, 4] 1000 = some whole ∧
    (∃ m ∈ (flatPass whole 9 none).mutants, ¬ (flatPass whole 9 none).Accounts (flatTarget whole) m) ∧
    (runMutation (targetRun (flatTarget whole) 80 [2, 4] (flatPass whole 9 none) [] succeeded
      succeeded)).reasonCode ≠ some "mutation_candidate_plan_failed" := by
  have left : ((buildGenerationPolicy (oneText flatText flatTree) flatText 54 "m.py" [2, 4] [2, 4]
      1000).any fun whole => decide ((∃ m ∈ (flatPass whole 9 none).mutants,
        ¬ (flatPass whole 9 none).Accounts (flatTarget whole) m) ∧
      (runMutation (targetRun (flatTarget whole) 80 [2, 4] (flatPass whole 9 none) [] succeeded
        succeeded)).reasonCode ≠ some "mutation_candidate_plan_failed")) = true := by
    decide +kernel
  obtain ⟨whole, built, left⟩ := (Option.any_eq_true _ _).mp left
  exact ⟨whole, built, of_decide_eq_true left⟩

end Uta.Enforce
