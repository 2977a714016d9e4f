/- Which of the discovered opportunities a policy selects: one for each line, the best ranked of
the line, whatever the order of their discovery, and where the others go. -/
import Uta.Enforce.BatchingLaws
import Uta.Lib.Sorting

namespace Uta.Enforce
open Uta.Lib

def Opportunity.place (o : Opportunity) : String × ℕ := (o.sourcePath, o.line)

/-- No two opportunities of one line have one operator. -/
def Apart (opportunities : List Opportunity) : Prop :=
  (opportunities.map fun o => (o.place, o.operatorName)).Nodup

theorem Apart.nodup {os : List Opportunity} (apart : Apart os) : os.Nodup :=
  List.Nodup.of_map _ apart

theorem Apart.eq {os : List Opportunity} (apart : Apart os) {a b : Opportunity} (left : a ∈ os)
    (right : b ∈ os) (places : a.place = b.place) (operators : a.operatorName = b.operatorName) :
    a = b :=
  List.inj_on_of_nodup_map apart left right (Prod.ext places operators)

theorem Apart.perm {os os' : List Opportunity} (apart : Apart os) (perm : os.Perm os') : Apart os' :=
  (perm.map _).nodup_iff.mp apart

/-! What is discovered. -/

section Discovery
variable (py : Python) (tree : Node) (source : List Char) (sourcePath : String)
  (changed coveredLines : List ℕ)

/-- The eligible opportunities, in the order of their discovery. -/
def discovered : List Opportunity :=
  (changed.filter fun line => (suppressedLineReason py tree line).isNone).flatMap fun line =>
    (operatorHintsForLine tree line).map fun hint =>
      opportunity py sourcePath line (symbolAt tree line) hint
        (((PyText.splitlines source)[line - 1]?).getD []) (decide (line ∈ coveredLines))
        (if line ∈ coveredLines then "covered changed line" else "changed line")

/-- The suppressed opportunities, in the order of their lines. -/
def suppressedOpportunities : List SuppressedOpportunity :=
  changed.filterMap fun line => (suppressedLineReason py tree line).map
    (suppressedOpportunity py tree sourcePath line (((PyText.splitlines source)[line - 1]?).getD [])
      (decide (line ∈ coveredLines)))

end Discovery

/-- The plan of discovered opportunities. -/
def planOf (discovered : List Opportunity) (suppressed : List SuppressedOpportunity) :
    OpportunityPlan where
  eligible := sortedBy compareRank discovered
  selected := (selectOneOpportunityPerLine discovered).1
  omittedByOnePerLine := (selectOneOpportunityPerLine discovered).2
  suppressed := sortedBy (fun a b => compareRank a.opportunity b.opportunity) suppressed

theorem collect_eq (py : Python) (source : List Char) (sourcePath : String)
    (changedLines coveredLines : List ℕ) :
    collectPythonMutationOpportunities py source sourcePath changedLines coveredLines =
      (py.parse source).map fun tree =>
        planOf (discovered py tree source sourcePath (sortedLines changedLines) coveredLines)
          (suppressedOpportunities py tree source sourcePath (sortedLines changedLines)
            coveredLines) := by
  unfold collectPythonMutationOpportunities planOf discovered suppressedOpportunities
  cases py.parse source with
  | none => rfl
  | some tree => simp [Bind.bind, Pure.pure, Option.bind]

/-- The hints that are kept have different names. -/
theorem dedupHints_nodup (hints : List OperatorHint) :
    ((dedupHints hints).map OperatorHint.operatorName).Nodup := by
  suffices kept : ∀ kept : List OperatorHint, (kept.map OperatorHint.operatorName).Nodup →
      ((hints.foldl (fun kept hint =>
        if kept.any fun k => k.operatorName == hint.operatorName then kept else kept ++ [hint])
          kept).map OperatorHint.operatorName).Nodup from kept [] List.nodup_nil
  induction hints with
  | nil => exact fun kept nodup => nodup
  | cons hint hints ih =>
      intro kept nodup
      rw [List.foldl_cons]
      apply ih
      split
      · exact nodup
      · rename_i new
        rw [List.map_append, List.nodup_append']
        refine ⟨nodup, List.nodup_singleton _, ?_⟩
        intro name known own
        obtain ⟨k, member, rfl⟩ := List.mem_map.mp known
        exact new (List.any_eq_true.mpr ⟨k, member, by simpa using own⟩)

theorem discovered_apart (py : Python) (tree : Node) (source : List Char) (sourcePath : String)
    {changed : List ℕ} (coveredLines : List ℕ) (lines : changed.Nodup) :
    Apart (discovered py tree source sourcePath changed coveredLines) := by
  unfold Apart discovered
  rw [List.map_flatMap]
  refine List.nodup_flatMap.mpr ⟨fun line _ => ?_, ?_⟩
  · have named : ((operatorHintsForLine tree line).map OperatorHint.operatorName).Nodup :=
      dedupHints_nodup _
    have paired := named.map fun a b (same : ((sourcePath, line), a) = ((sourcePath, line), b)) =>
      (Prod.mk.inj same).2
    rw [List.map_map] at paired ⊢
    exact paired
  · refine (lines.filter _).imp fun {a b} apart => ?_
    intro item left right
    simp only [List.mem_map] at left right
    obtain ⟨_, ⟨_, _, rfl⟩, rfl⟩ := left
    obtain ⟨_, ⟨_, _, rfl⟩, same⟩ := right
    exact apart (congrArg (fun t => t.1.2) same).symm

theorem sortedLines_nodup (lines : List ℕ) : (sortedLines lines).Nodup :=
  (List.perm_insertionSort _ _).nodup_iff.mpr (List.nodup_dedup _)

theorem sortedLines_again (lines : List ℕ) : sortedLines (sortedLines lines) = sortedLines lines := by
  have positive : ∀ line ∈ sortedLines lines, 0 < line := by
    intro line member
    have kept : line ∈ lines.filter (0 < ·) :=
      List.mem_dedup.mp ((List.mem_insertionSort _).mp member)
    simpa using (List.mem_filter.mp kept).2
  have all : (sortedLines lines).filter (0 < ·) = sortedLines lines :=
    List.filter_eq_self.mpr fun line member => decide_eq_true (positive line member)
  have sorted : (sortedLines lines).Pairwise (· ≤ ·) := List.pairwise_insertionSort _ _
  rw [sortedLines, all, (sortedLines_nodup lines).dedup, sorted.insertionSort_eq]

/-! The two orders. -/

instance : Std.TransCmp compareRank :=
  inferInstanceAs (Std.TransCmp (compareLex (compareOn fun o => !o.covered) <|
    compareLex (fun a b => compareOn Opportunity.operatorPriority b a) <|
    compareLex (compareOn Opportunity.sourcePath) <| compareLex (compareOn Opportunity.line) <|
    compareLex (compareOn Opportunity.symbol) <| compareLex (compareOn Opportunity.operatorName) <|
    compareOn Opportunity.opportunityId))

instance : Std.TransCmp compareOnLine :=
  inferInstanceAs (Std.TransCmp (compareLex (compareOn fun o => !o.covered) <|
    compareLex (fun a b => compareOn Opportunity.operatorPriority b a) <|
    compareLex (compareOn Opportunity.symbol) <| compareLex (compareOn Opportunity.operatorName) <|
    compareOn Opportunity.opportunityId))

/-- On one line the ranks are the order in which its opportunities compete. -/
theorem compareRank_onLine {a b : Opportunity} (places : a.place = b.place) :
    compareRank a b = compareOnLine a b := by
  obtain ⟨paths, lines⟩ := Prod.mk.inj places
  unfold compareRank compareOnLine
  rw [paths, lines]
  have path : compare b.sourcePath b.sourcePath = .eq := Std.ReflOrd.compare_self
  have line : compare b.line b.line = .eq := Std.ReflOrd.compare_self
  rw [path, line]
  rfl

theorem compareRank_eq {a b : Opportunity} (equal : compareRank a b = .eq) :
    a.place = b.place ∧ a.operatorName = b.operatorName := by
  unfold compareRank at equal
  simp only [Ordering.then_eq_eq, Std.compare_eq_iff_eq] at equal
  exact ⟨Prod.ext equal.2.2.1 equal.2.2.2.1, equal.2.2.2.2.2.1⟩

theorem compareOnLine_eq {a b : Opportunity} (equal : compareOnLine a b = .eq) :
    a.operatorName = b.operatorName := by
  unfold compareOnLine at equal
  simp only [Ordering.then_eq_eq, Std.compare_eq_iff_eq] at equal
  exact equal.2.2.2.1

/-! One opportunity for each line. -/

def comparePlace (a b : String × ℕ) : Ordering := (compare a.1 b.1).then (compare a.2 b.2)

instance : Std.TransCmp comparePlace :=
  inferInstanceAs (Std.TransCmp (compareLex (compareOn Prod.fst) (compareOn Prod.snd)))

theorem comparePlace_eq {a b : String × ℕ} (equal : comparePlace a b = .eq) : a = b := by
  unfold comparePlace at equal
  simp only [Ordering.then_eq_eq, Std.compare_eq_iff_eq] at equal
  exact Prod.ext equal.1 equal.2

/-- The places of the opportunities, in order. -/
def places (os : List Opportunity) : List (String × ℕ) :=
  sortedBy comparePlace (os.map Opportunity.place).dedup

/-- The opportunities of a place, the best first. -/
def rankedAt (os : List Opportunity) (place : String × ℕ) : List Opportunity :=
  sortedBy compareOnLine (os.filter fun o => o.place = place)

theorem select_eq (os : List Opportunity) : selectOneOpportunityPerLine os =
    ((places os).filterMap fun place => (rankedAt os place).head?,
      (places os).flatMap fun place =>
        sortedBy (fun a b => compare a.opportunityId b.opportunityId) (rankedAt os place).tail) := by
  unfold selectOneOpportunityPerLine
  dsimp only
  rw [List.filterMap_map, List.flatMap_map]
  rfl

section PerLine
variable {os : List Opportunity}

theorem places_nodup : (places os).Nodup :=
  (List.perm_insertionSort _ _).nodup_iff.mpr (List.nodup_dedup _)

theorem mem_places {place : String × ℕ} : place ∈ places os ↔ ∃ o ∈ os, o.place = place := by
  unfold places sortedBy
  rw [List.mem_insertionSort, List.mem_dedup, List.mem_map]

theorem rankedAt_perm (place : String × ℕ) :
    (rankedAt os place).Perm (os.filter fun o => o.place = place) :=
  List.perm_insertionSort _ _

theorem mem_rankedAt {place : String × ℕ} {o : Opportunity} :
    o ∈ rankedAt os place ↔ o ∈ os ∧ o.place = place := by
  rw [(rankedAt_perm place).mem_iff, List.mem_filter, decide_eq_true_eq]

/-- Every place has a best opportunity. -/
theorem rankedAt_head {place : String × ℕ} (known : place ∈ places os) :
    ∃ o, (rankedAt os place).head? = some o ∧ o.place = place := by
  obtain ⟨o, member, own⟩ := mem_places.mp known
  have listed := mem_rankedAt.mpr ⟨member, own⟩
  cases ranked : rankedAt os place with
  | nil =>
      rw [ranked] at listed
      cases listed
  | cons first rest =>
      have head : first ∈ rankedAt os place := by rw [ranked]; exact List.mem_cons_self
      exact ⟨first, rfl, (mem_rankedAt.mp head).2⟩

/-- The representatives are at the places, one at each. -/
theorem selected_places : (selectOneOpportunityPerLine os).1.map Opportunity.place = places os := by
  rw [select_eq]
  dsimp only
  have each : ∀ place ∈ places os, ∃ o, (rankedAt os place).head? = some o ∧ o.place = place :=
    fun _ => rankedAt_head
  revert each
  generalize places os = known
  intro each
  induction known with
  | nil => rfl
  | cons place known ih =>
      obtain ⟨o, head, own⟩ := each place List.mem_cons_self
      rw [List.filterMap_cons, head, List.map_cons, own,
        ih fun place member => each place (List.mem_cons_of_mem _ member)]

theorem mem_selected {o : Opportunity} (member : o ∈ (selectOneOpportunityPerLine os).1) :
    o ∈ os ∧ ∀ e ∈ os, e.place = o.place → compareRank o e ≠ .gt := by
  rw [select_eq] at member
  obtain ⟨place, _, head⟩ := List.mem_filterMap.mp member
  obtain ⟨listed, best⟩ := Sorting.sort_head compareOnLine head
  obtain ⟨listed, own⟩ := List.mem_filter.mp listed
  have here : o.place = place := of_decide_eq_true own
  refine ⟨listed, fun e known same => ?_⟩
  rw [compareRank_onLine same.symm]
  exact best e (List.mem_filter.mpr ⟨known, decide_eq_true (same.trans here)⟩)

/-- Each opportunity is a representative or one of the others. -/
theorem select_perm (apart : Apart os) :
    ((selectOneOpportunityPerLine os).1 ++ (selectOneOpportunityPerLine os).2).Perm os := by
  rw [select_eq]
  have heads : ((places os).filterMap fun place => (rankedAt os place).head?) =
      (places os).flatMap fun place => (rankedAt os place).head?.toList := by
    rw [List.filterMap_eq_flatMap_toList]
  rw [heads]
  have split : ∀ place, ((rankedAt os place).head?.toList ++
      sortedBy (fun a b => compare a.opportunityId b.opportunityId) (rankedAt os place).tail).Perm
        (os.filter fun o => o.place = place) := by
    intro place
    have tail := (List.perm_insertionSort (fun a b : Opportunity =>
      compare a.opportunityId b.opportunityId ≠ .gt) (rankedAt os place).tail)
    refine (tail.append_left _).trans (.trans ?_ (rankedAt_perm place))
    cases rankedAt os place with
    | nil => exact .refl _
    | cons first rest => exact .refl _
  refine (List.flatMap_append_perm (places os) _ _).trans ?_
  refine (List.Perm.flatMap_left _ fun place _ => split place).trans ?_
  exact Sorting.group_perm places_nodup (fun o member => mem_places.mpr ⟨o, member, rfl⟩) apart.nodup

/-- The order of the discovery does not matter. -/
theorem select_of_perm (apart : Apart os) {os' : List Opportunity} (perm : os.Perm os') :
    selectOneOpportunityPerLine os = selectOneOpportunityPerLine os' := by
  have known : places os = places os' :=
    Sorting.sort_eq_of_perm comparePlace (perm.map Opportunity.place).dedup
      fun a _ b _ equal => comparePlace_eq equal
  have ranked : ∀ place, rankedAt os place = rankedAt os' place := by
    intro place
    refine Sorting.sort_eq_of_perm compareOnLine (perm.filter _) fun a left b right equal => ?_
    obtain ⟨left, here⟩ := List.mem_filter.mp left
    obtain ⟨right, there⟩ := List.mem_filter.mp right
    have same : a.place = b.place :=
      (of_decide_eq_true here).trans (of_decide_eq_true there).symm
    exact apart.eq left right same (compareOnLine_eq equal)
  rw [select_eq, select_eq, known, funext ranked]

end PerLine

/-! The hard cap. -/

def compareCapped (py : Python) (a b : Opportunity) : Ordering :=
  (compare b.operatorPriority a.operatorPriority).then <|
  (compare (py.sha256 a.opportunityId) (py.sha256 b.opportunityId)).then (compareRank a b)

instance (py : Python) : Std.TransCmp (compareCapped py) :=
  inferInstanceAs (Std.TransCmp (compareLex (fun a b => compareOn Opportunity.operatorPriority b a) <|
    compareLex (compareOn fun o => py.sha256 o.opportunityId) compareRank))

theorem compareCapped_priority {py : Python} {a b : Opportunity} (before : compareCapped py a b ≠ .gt) :
    b.operatorPriority ≤ a.operatorPriority := by
  by_contra above
  have greater : compare b.operatorPriority a.operatorPriority = .gt :=
    Nat.compare_eq_gt.mpr (not_le.mp above)
  apply before
  rw [compareCapped, greater]
  rfl

/-- What the cap keeps and what it drops. -/
theorem hardCap_split (py : Python) (selected : List Opportunity) (limit : Int) :
    ∃ dropped, (hardCap py selected limit ++ dropped).Perm selected ∧
      ∀ kept ∈ hardCap py selected limit, ∀ d ∈ dropped,
        d.operatorPriority ≤ kept.operatorPriority := by
  unfold hardCap
  split
  · exact ⟨[], by rw [List.append_nil], fun _ _ d none_ => absurd none_ List.not_mem_nil⟩
  · have kept := List.perm_insertionSort (fun a b => compareRank a b ≠ .gt)
      ((sortedBy (compareCapped py) selected).take limit.toNat)
    refine ⟨(sortedBy (compareCapped py) selected).drop limit.toNat, ?_, ?_⟩
    · refine (kept.append_right _).trans ?_
      rw [List.take_append_drop]
      exact List.perm_insertionSort _ _
    · intro first member d later
      exact compareCapped_priority
        (Sorting.sort_take (compareCapped py) (kept.mem_iff.mp member) later)

/-! Policies. -/

/-- What a policy selects of the opportunities of its plan. -/
structure GenerationPolicy.Selects (policy : GenerationPolicy) (plan : OpportunityPlan) : Prop where
  /-- The eligible opportunities are the selected ones, those over the cap, and
  the alternatives of lines that have a representative. -/
  partition : (policy.selected ++ policy.omittedByCapOpportunities ++
    plan.omittedByOnePerLine).Perm policy.selectedBeforeCap
  distinct : policy.selectedBeforeCap.Nodup
  /-- The alternatives are in no omitted list of the policy. -/
  unlisted : policy.omittedByOnePerLineOpportunities = []
  onePerLine : (policy.selected.map Opportunity.place).Nodup
  best : ∀ o ∈ policy.selected, ∀ e ∈ policy.selectedBeforeCap, e.place = o.place →
    compareRank o e ≠ .gt
  capped : ∀ kept ∈ policy.selected, ∀ dropped ∈ policy.omittedByCapOpportunities,
    dropped.operatorPriority ≤ kept.operatorPriority

section Policy
variable {py : Python} {sourceBytes : ℕ} {sourcePath : String} {changed : List ℕ} {cap : Int}

/-- Representatives of different places are split by their places. -/
theorem omitted_by_cap {selected kept dropped : List Opportunity}
    (places : (selected.map Opportunity.place).Nodup) (split : (kept ++ dropped).Perm selected) :
    (selected.filter fun o => o.place ∉ kept.map Opportunity.place).Perm dropped := by
  have once : (kept ++ dropped).Nodup := split.nodup_iff.mpr (List.Nodup.of_map _ places)
  refine (List.perm_ext_iff_of_nodup ((List.Nodup.of_map _ places).filter _)
    (List.nodup_append'.mp once).2.1).mpr fun o => ?_
  rw [List.mem_filter, decide_eq_true_eq]
  constructor
  · rintro ⟨member, apart⟩
    rcases List.mem_append.mp (split.mem_iff.mpr member) with here | there
    · exact absurd (List.mem_map_of_mem here) apart
    · exact there
  · intro member
    have listed := split.mem_iff.mp (List.mem_append_right kept member)
    refine ⟨listed, fun taken => ?_⟩
    obtain ⟨other, here, same⟩ := List.mem_map.mp taken
    have known := split.mem_iff.mp (List.mem_append_left dropped here)
    obtain rfl := List.inj_on_of_nodup_map places known listed same
    exact (List.nodup_append'.mp once).2.2 here member

theorem policyOfPlan_selects {os : List Opportunity} (apart : Apart os)
    (suppressed : List SuppressedOpportunity) :
    (policyOfPlan py sourceBytes sourcePath changed cap (planOf os suppressed)).Selects
      (planOf os suppressed) := by
  have representatives : ((planOf os suppressed).selected.map Opportunity.place).Nodup := by
    unfold planOf
    rw [selected_places]
    exact places_nodup
  have eligible : (sortedBy compareRank os).Perm os := List.perm_insertionSort _ _
  obtain ⟨dropped, split, capped⟩ := hardCap_split py (planOf os suppressed).selected cap
  have omitted := omitted_by_cap representatives split
  constructor
  case partition =>
    refine ((omitted.append_left _).append_right _).trans ?_
    exact (split.append_right _).trans ((select_perm apart).trans eligible.symm)
  case distinct => exact eligible.nodup_iff.mpr apart.nodup
  case unlisted => rfl
  case onePerLine =>
    have kept := (split.map Opportunity.place).nodup_iff.mpr representatives
    rw [List.map_append, List.nodup_append'] at kept
    exact kept.1
  case best =>
    intro o member e listed
    have known := split.mem_iff.mp (List.mem_append_left dropped member)
    exact (mem_selected known).2 e (eligible.mem_iff.mp listed)
  case capped =>
    intro kept member d listed
    exact capped kept member d (omitted.mem_iff.mp listed)

theorem planOf_perm {os os' : List Opportunity} (apart : Apart os) (perm : os.Perm os')
    (suppressed : List SuppressedOpportunity) : planOf os' suppressed = planOf os suppressed := by
  have eligible : sortedBy compareRank os = sortedBy compareRank os' := by
    refine Sorting.sort_eq_of_perm compareRank perm fun a left b right equal => ?_
    obtain ⟨places, operators⟩ := compareRank_eq equal
    exact apart.eq left right places operators
  unfold planOf
  rw [eligible, select_of_perm apart perm]

end Policy

/-- A policy selects one of the best opportunities of each line, the cap keeps the most important,
and the order in which the opportunities were discovered does not matter. -/
theorem policy_selects {py : Python} {source : List Char} {sourceBytes : ℕ} {sourcePath : String}
    {changedLines coveredLines : List ℕ} {cap : Int} {policy : GenerationPolicy}
    (built : buildGenerationPolicy py source sourceBytes sourcePath changedLines coveredLines cap =
      some policy) :
    ∃ tree, py.parse source = some tree ∧
      let changed := sortedLines changedLines
      let found := discovered py tree source sourcePath changed coveredLines
      let suppressed := suppressedOpportunities py tree source sourcePath changed coveredLines
      policy.Selects (planOf found suppressed) ∧ ∀ found', found.Perm found' →
        policyOfPlan py sourceBytes sourcePath changed cap (planOf found' suppressed) = policy := by
  unfold buildGenerationPolicy at built
  dsimp only at built
  rw [collect_eq, Option.map_map] at built
  obtain ⟨tree, parsed, rfl⟩ := Option.map_eq_some_iff.mp built
  have changed := sortedLines_again changedLines
  have apart := discovered_apart py tree source sourcePath coveredLines
    (sortedLines_nodup changedLines)
  refine ⟨tree, parsed, ?_, fun found' perm => ?_⟩
  · dsimp only [Function.comp]
    rw [changed]
    exact policyOfPlan_selects apart _
  · dsimp only [Function.comp]
    rw [changed, planOf_perm apart perm]

theorem flat_selects :
    ∃ policy tree, buildGenerationPolicy (oneText flatText flatTree) flatText 54 "m.py" [2, 4] [2, 4]
        1 = some policy ∧
      (oneText flatText flatTree).parse flatText = some tree ∧
      policy.Selects (planOf
        (discovered (oneText flatText flatTree) tree flatText "m.py" (sortedLines [2, 4]) [2, 4])
        (suppressedOpportunities (oneText flatText flatTree) tree flatText "m.py"
          (sortedLines [2, 4]) [2, 4])) := by
  have isSome : (buildGenerationPolicy (oneText flatText flatTree) flatText 54 "m.py" [2, 4] [2, 4]
      1).isSome = true := by decide +kernel
  obtain ⟨policy, built⟩ := Option.isSome_iff_exists.mp isSome
  obtain ⟨tree, parsed, selects, _⟩ := policy_selects built
  exact ⟨policy, tree, built, parsed, selects⟩

/-- Of the opportunities of two lines, those that no representative stands for are in no list. -/
theorem flat_alternatives_unlisted :
    ∃ policy, buildGenerationPolicy (oneText flatText flatTree) flatText 54 "m.py" [2, 4] [2, 4]
        1 = some policy ∧
      ¬ (policy.selected ++ policy.omittedByCapOpportunities ++
        policy.omittedByOnePerLineOpportunities).Perm policy.selectedBeforeCap := by
  have fewer : ((buildGenerationPolicy (oneText flatText flatTree) flatText 54 "m.py" [2, 4] [2, 4]
      1).any fun policy => decide ((policy.selected ++ policy.omittedByCapOpportunities ++
        policy.omittedByOnePerLineOpportunities).length < policy.selectedBeforeCap.length)) = true := by
    decide +kernel
  obtain ⟨policy, built, fewer⟩ := (Option.any_eq_true _ _).mp fewer
  refine ⟨policy, built, fun perm => ?_⟩
  have same := perm.length_eq
  have less := of_decide_eq_true fewer
  omega

end Uta.Enforce
