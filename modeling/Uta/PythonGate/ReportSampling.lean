/- The mutation budget of a report: which opportunities are sampled over all targets, and how many
the policy then keeps of each. -/
import Uta.Enforce.Selection
import Uta.Lib.Dict
import Uta.Lib.RoundRobin

namespace Uta.PythonGate.ReportSampling
open Uta.Lib Uta.Enforce RoundRobin

/-- What the mutation work of a report depends on besides its targets. -/
structure Report where
  py : Python
  /-- The text of a file, if it can be read and decoded. -/
  file : String → Option (List Char)
  fileBytes : String → ℕ := fun _ => 0
  changedLines : String → List ℕ
  baseCommit : String := ""
  /-- `python_mutation_generation_ci_max_selected`, and the other two caps. -/
  maxSelected : ℤ
  maxOpportunities : ℤ := 0
  maxChangedLines : ℤ := 0

/-- The file, the symbol and the operator that an opportunity is grouped by. -/
abbrev Key := String × String × String

namespace Report
variable (r : Report)

/-! The selection. -/

/-- The source paths of the targets; a target without a file has none. -/
def sourcePaths (targets : List String) : List String :=
  sortedBy compare (targets.filter (· ≠ "")).dedup

/-- The opportunities of a file. -/
def opportunities (sourcePath : String) : List Opportunity :=
  let lines := sortedLines (r.changedLines sourcePath)
  if lines = [] then []
  else
    match (r.file sourcePath).bind fun source =>
        collectPythonMutationOpportunities r.py source sourcePath lines [] with
    | some plan => plan.selected
    | none => []

def keyed (targets : List String) : List (Key × Opportunity) :=
  (sourcePaths targets).flatMap fun path =>
    (r.opportunities path).map fun o => ((path, o.symbol, o.operatorName), o)

/-- The digest that orders the groups and their opportunities. -/
def seed (targets : List String) : String :=
  r.py.sha256 <| "deterministic_target_symbol_operator_hash_v1|" ++ r.baseCommit ++ "|" ++
    "|".intercalate (sortedBy compare ((r.keyed targets).map fun e => e.2.opportunityId))

def compareItems (seed : String) (a b : Opportunity) : Ordering :=
  let digest := fun o : Opportunity => r.py.sha256 (seed ++ "|" ++ o.opportunityId)
  compare (digest a) (digest b)

def compareKeys (seed : String) (a b : Key × List Opportunity) : Ordering :=
  let digest := fun k : Key => r.py.sha256 (seed ++ "|" ++ "|".intercalate [k.1, k.2.1, k.2.2])
  compare (digest a.1) (digest b.1)

/-- `groups`, in `group_order`. -/
def groups (targets : List String) : List (Key × List Opportunity) :=
  let seed := r.seed targets
  let entries := r.keyed targets
  sortedBy (r.compareKeys seed) <|
    (entries.map Prod.fst).reverse.dedup.reverse.map fun k =>
      (k, sortedBy (r.compareItems seed) (takenOf k entries))

/-- The opportunities that the rounds take. -/
def sampled (targets : List String) : List (Key × Opportunity) :=
  roundRobin r.maxSelected.toNat (r.groups targets)

/-- The lines that were selected in a file. -/
def selectedLines (targets : List String) (path : String) : List ℕ :=
  ((((r.sampled targets).filter fun t => t.1.1 = path).map fun t => t.2.line).dedup).insertionSort
    (· ≤ ·)

/-- `_ci_report_mutation_selection`. -/
def ciReportMutationSelection (targets : List String) : List (String × List ℕ) × String :=
  ((sourcePaths targets).map fun path => (path, r.selectedLines targets path), r.seed targets)

/-! The policy. -/

/-- `mutation_allocations.get(path)`. -/
def allocation (targets : List String) (path : String) : Option ℕ :=
  (Dict.get? (r.ciReportMutationSelection targets).1 path).map List.length

/-- `_effective_limit`. -/
def effectiveLimit (allocated : Option ℕ) (items : List Opportunity) : ℤ :=
  let maxSelected := (allocated.map Int.ofNat).getD r.maxSelected
  if allocated = some 0 then 0
  else
    let lines := (items.map Opportunity.line).dedup.length
    let limits := [maxSelected, r.maxOpportunities].filter (decide <| 0 < ·)
    (limits ++ if 0 < r.maxChangedLines ∧ r.maxChangedLines < lines then [r.maxChangedLines]
      else []).min?.getD (-1)

/-- `CiCapSamplingPolicy.select_mutants`; an item is known by its place. -/
def selectMutants (allocated : Option ℕ) (items : List Opportunity) : List Opportunity :=
  let limit := r.effectiveLimit allocated items
  if items = [] ∨ limit < 0 ∨ items.length ≤ limit then items
  else
    let ranked := sortedBy (fun a b => compareCapped r.py a.1 b.1) items.zipIdx
    let kept := (ranked.take limit.toNat).map Prod.snd
    (items.zipIdx.filter fun e => e.2 ∈ kept).map Prod.fst

/-- `GENERATION_HARD_CAP`. -/
def generationHardCap : ℤ := 1000

/-- The candidates of a target; without a file there is nothing to read. -/
def candidates (path : String) : List Opportunity :=
  if path = "" then []
  else
    match (r.file path).bind fun source =>
        buildGenerationPolicy r.py source (r.fileBytes path) path (r.changedLines path)
          (r.changedLines path) generationHardCap with
    | some policy => policy.selected
    | none => []

/-- The opportunities that are kept of a target. -/
def kept (targets : List String) (path : String) : List Opportunity :=
  r.selectMutants (r.allocation targets path) (r.candidates path)

/-- How many opportunities are kept over all targets. -/
def keptInAll (targets : List String) : ℕ :=
  (targets.map fun path => (r.kept targets path).length).sum

end Report

/-- What the sampling of a report promises. -/
structure Right (r : Report) (targets : List String) : Prop where
  changed : ∀ e ∈ (r.ciReportMutationSelection targets).1, ∀ line ∈ e.2, line ∈ r.changedLines e.1
  /-- No group gives two opportunities more than one that has some left. -/
  even : ∀ g ∈ r.groups targets, ∀ h ∈ r.groups targets,
    (takenOf h.1 (r.sampled targets)).length ≤ (takenOf g.1 (r.sampled targets)).length + 1 ∨
      takenOf g.1 (r.sampled targets) = g.2
  unordered : ∀ targets', targets.Perm targets' →
    r.ciReportMutationSelection targets' = r.ciReportMutationSelection targets
  bounded : (r.keptInAll targets : ℤ) ≤ r.maxSelected

/-! The selection. -/

section Selection
variable {r : Report} {targets : List String}

theorem mem_sourcePaths {path : String} :
    path ∈ Report.sourcePaths targets ↔ path ∈ targets ∧ path ≠ "" := by
  simp only [Report.sourcePaths, sortedBy, List.mem_insertionSort, List.mem_dedup, List.mem_filter,
    decide_eq_true_eq]

/-- The selection goes by the set of the files. -/
theorem sourcePaths_perm {targets' : List String} (perm : targets.Perm targets') :
    Report.sourcePaths targets' = Report.sourcePaths targets :=
  Sorting.sort_eq_of_perm compare (perm.symm.filter _).dedup fun _ _ _ _ equal =>
    Std.LawfulEqOrd.eq_of_compare equal

theorem keyed_perm {targets' : List String} (perm : targets.Perm targets') :
    r.keyed targets' = r.keyed targets := by
  rw [Report.keyed, Report.keyed, sourcePaths_perm perm]

theorem sampled_perm {targets' : List String} (perm : targets.Perm targets') :
    r.sampled targets' = r.sampled targets := by
  rw [Report.sampled, Report.sampled, Report.groups, Report.groups, Report.seed, Report.seed,
    keyed_perm perm]

theorem selection_perm {targets' : List String} (perm : targets.Perm targets') :
    r.ciReportMutationSelection targets' = r.ciReportMutationSelection targets := by
  unfold Report.ciReportMutationSelection Report.selectedLines
  rw [sourcePaths_perm perm, sampled_perm perm, Report.seed, Report.seed, keyed_perm perm]

/-- The opportunities of a file lie on its changed lines. -/
theorem opportunities_changed {path : String} {o : Opportunity}
    (member : o ∈ r.opportunities path) : o.line ∈ r.changedLines path := by
  unfold Report.opportunities at member
  dsimp only at member
  split at member
  · exact nomatch member
  split at member
  · next plan found =>
    obtain ⟨source, _, collected⟩ := Option.bind_eq_some_iff.mp found
    rw [collect_eq] at collected
    obtain ⟨tree, _, rfl⟩ := Option.map_eq_some_iff.mp collected
    obtain ⟨line, live, hinted⟩ := List.mem_flatMap.mp (mem_selected member).1
    obtain ⟨hint, _, rfl⟩ := List.mem_map.mp hinted
    have listed := (List.mem_filter.mp live).1
    simp only [sortedLines, List.mem_insertionSort, List.mem_dedup, List.mem_filter] at listed
    exact listed.1.1
  · exact nomatch member

theorem groups_perm (targets : List String) : (r.groups targets).Perm
    ((((r.keyed targets).map Prod.fst).reverse.dedup.reverse).map fun k =>
      (k, sortedBy (r.compareItems (r.seed targets)) (takenOf k (r.keyed targets)))) :=
  List.perm_insertionSort _ _

theorem groups_once : ((r.groups targets).map Prod.fst).Nodup := by
  rw [((groups_perm targets).map _).nodup_iff, List.map_map]
  exact (List.nodup_reverse.mpr (List.nodup_dedup _)).map fun _ _ same => same

theorem mem_groups {g : Key × List Opportunity} (member : g ∈ r.groups targets) :
    (∃ e ∈ r.keyed targets, e.1 = g.1) ∧ g.2.Perm (takenOf g.1 (r.keyed targets)) := by
  obtain ⟨k, listed, rfl⟩ := List.mem_map.mp ((groups_perm targets).mem_iff.mp member)
  rw [List.mem_reverse, List.mem_dedup, List.mem_reverse] at listed
  obtain ⟨e, known, rfl⟩ := List.mem_map.mp listed
  exact ⟨⟨e, known, rfl⟩, List.perm_insertionSort _ _⟩

theorem groups_full : Full (r.groups targets) := by
  intro g member empty
  obtain ⟨⟨e, known, key⟩, perm⟩ := mem_groups member
  rw [empty] at perm
  have none_ := perm.symm.eq_nil
  have own : e.2 ∈ takenOf g.1 (r.keyed targets) :=
    List.mem_map.mpr ⟨e, List.mem_filter.mpr ⟨known, decide_eq_true key⟩, rfl⟩
  rw [none_] at own
  exact nomatch own

theorem sampled_fair (r : Report) (targets : List String) :
    Fair r.maxSelected.toNat (r.groups targets) (r.sampled targets) :=
  roundRobin_fair _ groups_full groups_once

/-- What is sampled in a file are opportunities of it. -/
theorem mem_sampled {t : Key × Opportunity} (member : t ∈ r.sampled targets) :
    t.1.1 ∈ Report.sourcePaths targets ∧ t.2 ∈ r.opportunities t.1.1 := by
  obtain ⟨g, known, key, own⟩ := (sampled_fair r targets).known t member
  have listed := (mem_groups known).2.mem_iff.mp own
  obtain ⟨e, inside, same⟩ := List.mem_map.mp listed
  obtain ⟨inside, here⟩ := List.mem_filter.mp inside
  obtain ⟨path, listed, entry⟩ := List.mem_flatMap.mp inside
  obtain ⟨o, present, rfl⟩ := List.mem_map.mp entry
  have here : (path, o.symbol, o.operatorName) = t.1 := (of_decide_eq_true here).trans key
  rw [← here, ← same]
  exact ⟨listed, present⟩

theorem selectedLines_changed {path : String} {line : ℕ}
    (member : line ∈ r.selectedLines targets path) : line ∈ r.changedLines path := by
  simp only [Report.selectedLines, List.mem_insertionSort, List.mem_dedup, List.mem_map,
    List.mem_filter, decide_eq_true_eq] at member
  obtain ⟨t, ⟨taken, rfl⟩, rfl⟩ := member
  exact opportunities_changed (mem_sampled taken).2

end Selection

/-! The policy. -/

section Policy
variable {r : Report} {targets : List String}

theorem effectiveLimit_le (items : List Opportunity) (n : ℕ) (some_ : n ≠ 0) :
    0 ≤ r.effectiveLimit (some n) items ∧ r.effectiveLimit (some n) items ≤ n := by
  unfold Report.effectiveLimit
  rw [if_neg fun none_ => some_ (Option.some.inj none_)]
  dsimp only [Option.map_some, Option.getD_some]
  generalize spare : (if 0 < r.maxChangedLines ∧
    r.maxChangedLines < (items.map Opportunity.line).dedup.length then [r.maxChangedLines]
    else []) = lines
  have positive : ∀ limit ∈ [Int.ofNat n, r.maxOpportunities].filter (decide <| 0 < ·) ++ lines,
      0 < limit := by
    intro limit member
    rcases List.mem_append.mp member with cap | line
    · exact of_decide_eq_true (List.mem_filter.mp cap).2
    · rw [← spare] at line
      split at line
      · next both => exact List.mem_singleton.mp line ▸ both.1
      · exact nomatch line
  have own : Int.ofNat n ∈ [Int.ofNat n, r.maxOpportunities].filter (decide <| 0 < ·) ++ lines := by
    refine List.mem_append_left _ (List.mem_filter.mpr ⟨List.mem_cons_self, decide_eq_true ?_⟩)
    exact Int.natCast_pos.mpr (Nat.pos_of_ne_zero some_)
  generalize [Int.ofNat n, r.maxOpportunities].filter (decide <| 0 < ·) ++ lines = limits
    at positive own
  cases least : limits.min? with
  | none =>
      rw [List.min?_eq_none_iff.mp least] at own
      exact nomatch own
  | some limit =>
      obtain ⟨listed, below⟩ := List.min?_eq_some_iff.mp least
      exact ⟨(positive limit listed).le, below _ own⟩

/-- An allocation bounds what is kept. -/
theorem selectMutants_le (items : List Opportunity) (n : ℕ) :
    (r.selectMutants (some n) items).length ≤ n := by
  have limited : 0 ≤ r.effectiveLimit (some n) items ∧ r.effectiveLimit (some n) items ≤ n := by
    rcases Nat.eq_zero_or_pos n with rfl | some_
    · exact ⟨le_rfl, le_rfl⟩
    · exact effectiveLimit_le items n some_.ne'
  unfold Report.selectMutants
  dsimp only
  generalize r.effectiveLimit (some n) items = limit at limited ⊢
  by_cases all : items = [] ∨ limit < 0 ∨ items.length ≤ limit
  · rw [if_pos all]
    rcases all with rfl | below | few
    · exact Nat.zero_le _
    · exact absurd limited.1 (not_le.mpr below)
    · exact_mod_cast few.trans limited.2
  · rw [if_neg all, List.length_map]
    generalize sortedBy (fun a b : Opportunity × ℕ => compareCapped r.py a.1 b.1) items.zipIdx =
      ranked
    have places : ((items.zipIdx.filter fun e => e.2 ∈ (ranked.take limit.toNat).map Prod.snd).map
        Prod.snd).Nodup := by
      refine List.Nodup.sublist (List.filter_sublist.map _) ?_
      rw [List.zipIdx_map_snd]
      exact List.nodup_range'
    have inside := List.subperm_of_subset places fun place member => by
      obtain ⟨e, kept, rfl⟩ := List.mem_map.mp member
      exact of_decide_eq_true (List.mem_filter.mp kept).2
    have short := inside.length_le
    rw [List.length_map, List.length_map, List.length_take] at short
    omega

theorem allocation_eq {path : String} (member : path ∈ Report.sourcePaths targets) :
    r.allocation targets path = some (r.selectedLines targets path).length := by
  have found : Dict.get? (r.ciReportMutationSelection targets).1 path =
      some (r.selectedLines targets path) := by
    unfold Report.ciReportMutationSelection
    dsimp only
    generalize r.selectedLines targets = lines
    generalize Report.sourcePaths targets = paths at member
    induction paths with
    | nil => exact nomatch member
    | cons head rest ih =>
        rw [List.map_cons, Dict.get?_cons]
        by_cases later : path ∈ rest
        · rw [ih later, Option.some_or]
        · obtain rfl := (List.mem_cons.mp member).resolve_right later
          rw [if_pos rfl]
          cases hidden : Dict.get? (rest.map fun p => (p, lines p)) path with
          | none => rfl
          | some found =>
              obtain ⟨p, known, same⟩ := List.mem_map.mp (Dict.mem_of_get? hidden)
              exact absurd ((Prod.mk.injEq ..).mp same).1 (fun equal => later (equal ▸ known))
  rw [Report.allocation, found]
  rfl

/-- As many lines of a file are selected as opportunities were taken in it, at most. -/
theorem selectedLines_le (path : String) : (r.selectedLines targets path).length ≤
    (r.sampled targets).countP (fun t => t.1.1 = path) := by
  unfold Report.selectedLines
  rw [List.length_insertionSort]
  refine (List.dedup_sublist _).length_le.trans ?_
  rw [List.length_map, List.countP_eq_length_filter]

theorem kept_le {path : String} (member : path ∈ targets) :
    (r.kept targets path).length ≤
      if path = "" then 0 else (r.sampled targets).countP (fun t => t.1.1 = path) := by
  by_cases bare : path = ""
  · have nothing : r.candidates path = [] := if_pos bare
    rw [if_pos bare, Report.kept, nothing, Report.selectMutants, if_pos (.inl rfl)]
    exact le_rfl
  · rw [if_neg bare, Report.kept, allocation_eq (mem_sourcePaths.mpr ⟨member, bare⟩)]
    exact (selectMutants_le _ _).trans (selectedLines_le path)

end Policy

/-- Items are counted once under each key. -/
theorem sum_countP_le {α κ : Type} [DecidableEq κ] (key : α → κ) {keys : List κ} (once : keys.Nodup)
    (items : List α) :
    (keys.map fun k => items.countP fun a => key a = k).sum ≤ items.length := by
  induction keys generalizing items with
  | nil => exact Nat.zero_le _
  | cons k keys ih =>
      obtain ⟨fresh, once⟩ := List.nodup_cons.mp once
      have others := ih once (items.filter fun a => key a ≠ k)
      have same : (keys.map fun j => (items.filter fun a => key a ≠ k).countP fun a => key a = j) =
          keys.map fun j => items.countP fun a => key a = j := by
        refine List.map_congr_left fun j member => ?_
        rw [List.countP_filter]
        refine List.countP_congr fun a _ => ?_
        have apart : j ≠ k := fun equal => fresh (equal ▸ member)
        simp only [ne_eq, decide_not, Bool.and_eq_true, decide_eq_true_eq, Bool.not_eq_true',
          decide_eq_false_iff_not, and_iff_left_iff_imp]
        exact fun here there => apart (here.symm.trans there)
      have split := List.length_eq_countP_add_countP (fun a => decide (key a = k)) (l := items)
      rw [same] at others
      rw [List.map_cons, List.sum_cons, split]
      refine Nat.add_le_add_left (others.trans_eq ?_) _
      rw [← List.countP_eq_length_filter]
      exact List.countP_congr fun a _ => by simp

/-- Where no two targets share a file, no more is kept than was sampled. -/
theorem keptInAll_le (r : Report) {targets : List String}
    (once : (targets.filter (· ≠ "")).Nodup) :
    r.keptInAll targets ≤ (r.sampled targets).length := by
  have each : r.keptInAll targets ≤ (targets.map fun path =>
      if path = "" then 0 else (r.sampled targets).countP (fun t => t.1.1 = path)).sum :=
    List.sum_le_sum fun path member => kept_le member
  refine each.trans ?_
  have named : (targets.map fun path =>
      if path = "" then 0 else (r.sampled targets).countP (fun t => t.1.1 = path)).sum =
        ((targets.filter (· ≠ "")).map fun path =>
          (r.sampled targets).countP (fun t => t.1.1 = path)).sum := by
    generalize r.sampled targets = sampled
    clear each once
    induction targets with
    | nil => rfl
    | cons path rest ih =>
        by_cases bare : path = "" <;> simp [bare, ih]
  rw [named]
  exact sum_countP_le (fun t : Key × Opportunity => t.1.1) once _

theorem right_of_once {r : Report} {targets : List String} (budget : 0 < r.maxSelected)
    (once : (targets.filter (· ≠ "")).Nodup) : Right r targets where
  changed e member line listed := by
    obtain ⟨path, _, rfl⟩ := List.mem_map.mp member
    exact selectedLines_changed listed
  even := (sampled_fair r targets).even
  unordered _ := selection_perm
  bounded := by
    have within := (keptInAll_le r once).trans (sampled_fair r targets).within
    omega

/-! Two targets in one file. -/

/-- A budget of one, and one changed line that can be mutated, in one file. -/
def oneLineChanged (path : String) : Report where
  py := oneText flatText flatTree
  file := fun _ => some flatText
  changedLines := fun p => if p = path then [2] else []
  maxSelected := 1

section Shared
variable {path : String} {targets : List String}

/-- The line has one opportunity. -/
theorem collect_one (path : String) (covered : List ℕ) :
    ∃ plan, collectPythonMutationOpportunities (oneText flatText flatTree) flatText path [2]
        covered = some plan ∧
      ∃ o, plan.selected = [o] := by
  have parsed : (oneText flatText flatTree).parse flatText = some flatTree := by
    simp [oneText]
  have live : suppressedLineReason (oneText flatText flatTree) flatTree 2 = none := by
    decide +kernel
  have hinted : operatorHintsForLine flatTree 2 ≠ [] := by decide +kernel
  rw [collect_eq, parsed]
  refine ⟨_, rfl, ?_⟩
  generalize found : discovered (oneText flatText flatTree) flatTree flatText path (sortedLines [2])
    covered = opportunities
  have one : opportunities.map Opportunity.place =
      List.replicate (operatorHintsForLine flatTree 2).length (path, 2) := by
    rw [← found, show sortedLines [2] = [2] from by decide, discovered, List.filter_cons_of_pos
      (by rw [live]; rfl), List.filter_nil, List.flatMap_cons, List.flatMap_nil, List.append_nil,
      List.map_map]
    exact List.map_eq_replicate_iff.mpr fun _ _ => rfl
  have placed : places opportunities = [(path, 2)] := by
    rw [places, one, List.replicate_dedup (by simpa using hinted)]
    rfl
  have selected : (selectOneOpportunityPerLine opportunities).1.map Opportunity.place =
      places opportunities := selected_places
  rw [placed] at selected
  obtain ⟨o, rest, same, _, none_⟩ := List.map_eq_cons_iff.mp selected
  obtain rfl := List.map_eq_nil_iff.mp none_
  refine ⟨o, ?_⟩
  rw [← found] at same
  exact same

theorem opportunities_one (path : String) :
    ∃ o, (oneLineChanged path).opportunities path = [o] := by
  obtain ⟨plan, collected, o, one⟩ := collect_one path []
  refine ⟨o, ?_⟩
  have lines : sortedLines ((oneLineChanged path).changedLines path) = [2] := by
    rw [show (oneLineChanged path).changedLines path = [2] from if_pos rfl]
    decide
  unfold Report.opportunities
  dsimp only
  rw [lines, if_neg (List.cons_ne_nil _ _)]
  change (match collectPythonMutationOpportunities (oneText flatText flatTree) flatText path [2] []
    with | some plan => plan.selected | none => []) = [o]
  rw [collected]
  exact one

theorem opportunities_none {other : String} (apart : other ≠ path) :
    (oneLineChanged path).opportunities other = [] := by
  unfold Report.opportunities
  dsimp only
  rw [show (oneLineChanged path).changedLines other = [] from if_neg apart]
  rfl

theorem candidates_one (named : path ≠ "") : ∃ o, (oneLineChanged path).candidates path = [o] := by
  obtain ⟨plan, collected, o, one⟩ := collect_one path [2]
  refine ⟨o, ?_⟩
  have lines : (oneLineChanged path).changedLines path = [2] := if_pos rfl
  have built : buildGenerationPolicy (oneText flatText flatTree) flatText 0 path [2] [2]
      Report.generationHardCap = some (policyOfPlan (oneText flatText flatTree) 0 path [2]
        Report.generationHardCap plan) := by
    rw [buildGenerationPolicy, show sortedLines [2] = [2] from by decide, collected]
    rfl
  have capped : (policyOfPlan (oneText flatText flatTree) 0 path [2] Report.generationHardCap
      plan).selected = [o] := by
    rw [policyOfPlan, hardCap, one, if_pos (.inr (by simp [Report.generationHardCap]))]
  unfold Report.candidates
  rw [if_neg named, lines]
  change (match buildGenerationPolicy (oneText flatText flatTree) flatText 0 path [2] [2]
    Report.generationHardCap with | some policy => policy.selected | none => []) = [o]
  rw [built]
  exact capped

theorem flatMap_one {α β : Type} {f : α → List β} {a : α} {l : List α} (once : l.Nodup)
    (member : a ∈ l) (others : ∀ b ∈ l, b ≠ a → f b = []) : l.flatMap f = f a := by
  induction l with
  | nil => exact nomatch member
  | cons b rest ih =>
      obtain ⟨fresh, once⟩ := List.nodup_cons.mp once
      rw [List.flatMap_cons]
      by_cases own : b = a
      · have none_ : rest.flatMap f = [] := List.flatMap_eq_nil_iff.mpr fun c later =>
          others c (List.mem_cons_of_mem _ later) fun same => fresh (own.trans same.symm ▸ later)
        rw [none_, List.append_nil, own]
      · rw [others b List.mem_cons_self own, List.nil_append]
        exact ih once ((List.mem_cons.mp member).resolve_left (Ne.symm own)) fun c later =>
          others c (List.mem_cons_of_mem _ later)

/-- The one opportunity is sampled, for each target of its file. -/
theorem kept_one (named : path ≠ "") (member : path ∈ targets) :
    ((oneLineChanged path).kept targets path).length = 1 := by
  obtain ⟨o, one⟩ := opportunities_one path
  obtain ⟨c, candidate⟩ := candidates_one named
  have listed := mem_sourcePaths.mpr ⟨member, named⟩
  have once : (Report.sourcePaths targets).Nodup :=
    (List.perm_insertionSort _ _).nodup_iff.mpr (List.nodup_dedup _)
  have keyed : (oneLineChanged path).keyed targets = [((path, o.symbol, o.operatorName), o)] := by
    rw [Report.keyed, flatMap_one once listed fun other _ apart => by
      rw [opportunities_none apart]
      rfl, one]
    rfl
  have groups : (oneLineChanged path).groups targets =
      [((path, o.symbol, o.operatorName), [o])] := by
    rw [Report.groups, keyed]
    simp [sortedBy, takenOf]
  have sampled : (oneLineChanged path).sampled targets =
      [((path, o.symbol, o.operatorName), o)] := by
    have dealt : roundRobin 1 [((path, o.symbol, o.operatorName), [o])] =
        [((path, o.symbol, o.operatorName), o)] := by
      rw [roundRobin, dif_pos ⟨one_pos, List.cons_ne_nil _ _⟩, roundRobin]
      rfl
    rw [Report.sampled, groups]
    exact dealt
  have lines : (oneLineChanged path).selectedLines targets path = [o.line] := by
    rw [Report.selectedLines, sampled]
    simp
  rw [Report.kept, allocation_eq listed, lines, candidate]
  rfl

end Shared

/-- Two targets in one file keep two opportunities where the budget is one. -/
theorem sharedFile_overspent :
    (oneLineChanged "a.py").maxSelected = 1 ∧
      (oneLineChanged "a.py").keptInAll ["a.py", "a.py"] = 2 ∧
      ¬ Right (oneLineChanged "a.py") ["a.py", "a.py"] := by
  have one := @kept_one "a.py" ["a.py", "a.py"] (by decide) List.mem_cons_self
  have both : (oneLineChanged "a.py").keptInAll ["a.py", "a.py"] = 2 := by
    simp only [Report.keptInAll, List.map_cons, List.map_nil, List.sum_cons, List.sum_nil, one,
      Nat.reduceAdd]
  refine ⟨rfl, both, fun right => ?_⟩
  have bounded := right.bounded
  rw [both] at bounded
  exact absurd bounded (by decide)

/-- The promises hold of every report over the targets exactly if no two of them share a file. -/
theorem right_iff (targets : List String) :
    (∀ r : Report, 0 < r.maxSelected → Right r targets) ↔ (targets.filter (· ≠ "")).Nodup := by
  refine ⟨fun right => ?_, fun once r budget => right_of_once budget once⟩
  by_contra repeated
  rw [List.nodup_iff_sublist] at repeated
  push Not at repeated
  obtain ⟨path, twice⟩ := repeated
  have listed := List.mem_filter.mp (twice.subset (List.mem_cons_self))
  have one := kept_one (of_decide_eq_true listed.2) listed.1
  have bounded := (right (oneLineChanged path) one_pos).bounded
  have most : 1 + (1 + 0) ≤ (oneLineChanged path).keptInAll targets := by
    have both : ([path, path].map fun p => ((oneLineChanged path).kept targets p).length).sum ≤
        (oneLineChanged path).keptInAll targets :=
      ((twice.trans List.filter_sublist).map _).sum_le_sum fun _ _ => Nat.zero_le _
    simpa only [List.map_cons, List.map_nil, List.sum_cons, List.sum_nil, one] using both
  change ((oneLineChanged path).keptInAll targets : ℤ) ≤ 1 at bounded
  omega

end Uta.PythonGate.ReportSampling
