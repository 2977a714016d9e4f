/- Which selected lines the generation passes keep: what the grouping into units
sees, what the packing conserves, and which lines are generated or reported. -/
import Uta.Enforce.Batching
import Mathlib.Data.Finset.Sigma

namespace Uta.Enforce
open Uta.Lib

/-- A line of a top-level function, or of a method of a top-level class. -/
def InCopyUnit (tree : Node) (line : ℕ) : Prop :=
  ∃ node ∈ tree.field .body, node.isCallable = true ∧ node.spans line = true ∨
    node.isClass = true ∧ ∃ method ∈ node.field .body, method.isCallable = true ∧
      method.spans line = true

theorem isCallable_of_isClass {node : Node} (isClass : node.isClass = true) :
    node.isCallable = false := by
  unfold Node.isClass at isClass
  unfold Node.isCallable
  split at isClass <;> simp_all

theorem unitOfLine_isSome_iff (source : List Char) (tree : Node) (line : ℕ) :
    (unitOfLine source tree line).isSome = true ↔ InCopyUnit tree line := by
  have spanned : (unitOfLine source tree line).isSome = true ↔
      ∃ unit ∈ copyUnits tree, unit.2.spans line = true := by
    simp [unitOfLine]
  rw [spanned]
  simp only [copyUnits, List.mem_flatMap, InCopyUnit]
  constructor
  · rintro ⟨unit, ⟨node, member, copied⟩, spans⟩
    refine ⟨node, member, ?_⟩
    split at copied
    · cases List.mem_singleton.mp copied
      exact .inl ⟨‹_›, spans⟩
    · split at copied
      · obtain ⟨method, found, rfl⟩ := List.mem_map.mp copied
        obtain ⟨direct, callable⟩ := List.mem_filter.mp found
        exact .inr ⟨‹_›, method, direct, callable, spans⟩
      · cases copied
  · rintro ⟨node, member, ⟨callable, spans⟩ | ⟨isClass, method, direct, callable, spans⟩⟩
    · exact ⟨(node.defName, node), ⟨node, member, by simp [callable]⟩, spans⟩
    · refine ⟨(node.defName ++ classNameSeparator ++ method.defName, method),
        ⟨node, member, ?_⟩, spans⟩
      rw [if_neg (by simp [isCallable_of_isClass isClass]), if_pos isClass]
      exact List.mem_map.mpr ⟨method, List.mem_filter.mpr ⟨direct, callable⟩, rfl⟩

/-! Units. -/

section Units
variable (source : List Char) (tree : Node) (selected : List (ℕ × ℕ))

/-- The symbol of a placed line is that of its unit. -/
theorem placed_symbol {p : PlacedLine} (placed : p ∈ selected.filterMap (placeLine source tree)) :
    (unitOfLine source tree p.line).map Prod.fst = some p.symbol := by
  obtain ⟨pair, _, placed⟩ := List.mem_filterMap.mp placed
  obtain ⟨unit, found, rfl⟩ := Option.map_eq_some_iff.mp placed
  simp [found]

theorem mem_placed_lines (line : ℕ) :
    (∃ p ∈ selected.filterMap (placeLine source tree), p.line = line) ↔
      (∃ pair ∈ selected, pair.1 = line) ∧ InCopyUnit tree line := by
  rw [← unitOfLine_isSome_iff source tree line]
  constructor
  · rintro ⟨p, placed, rfl⟩
    have unit := placed_symbol source tree selected placed
    obtain ⟨pair, member, placed⟩ := List.mem_filterMap.mp placed
    obtain ⟨_, _, rfl⟩ := Option.map_eq_some_iff.mp placed
    exact ⟨⟨pair, member, rfl⟩, by
      obtain ⟨_, found, _⟩ := Option.map_eq_some_iff.mp unit
      simp [found]⟩
  · rintro ⟨⟨pair, member, rfl⟩, unit⟩
    obtain ⟨⟨symbol, unitBytes⟩, found⟩ := Option.isSome_iff_exists.mp unit
    exact ⟨⟨pair.1, pair.2, symbol, unitBytes⟩,
      List.mem_filterMap.mpr ⟨pair, member, by simp [placeLine, found]⟩, rfl⟩

theorem mem_unitOf_lines (placed : List PlacedLine) (symbol : String) (line : ℕ) :
    line ∈ (unitOf placed symbol).lines ↔ ∃ p ∈ placed, p.symbol = symbol ∧ p.line = line := by
  simp [unitOf, and_assoc]

variable {source tree selected} {py : Python} (parsed : py.parse source = some tree)
include parsed

theorem units_of_parsed : mutationUnitsFromSource py source selected =
    ((((selected.filterMap (placeLine source tree)).map PlacedLine.symbol).dedup).insertionSort
      (· ≤ ·)).map (unitOf (selected.filterMap (placeLine source tree))) := by
  rw [mutationUnitsFromSource, parsed]

theorem mem_units_lines (line : ℕ) :
    line ∈ (mutationUnitsFromSource py source selected).flatMap MutationUnit.lines ↔
      (∃ pair ∈ selected, pair.1 = line) ∧ InCopyUnit tree line := by
  rw [units_of_parsed parsed, ← mem_placed_lines source tree selected line]
  simp only [List.mem_flatMap, List.mem_map, List.mem_insertionSort, List.mem_dedup,
    exists_exists_and_eq_and, mem_unitOf_lines]
  constructor
  · rintro ⟨_, _, p, member, _, line⟩
    exact ⟨p, member, line⟩
  · rintro ⟨p, member, line⟩
    exact ⟨p, member, p, member, rfl, line⟩

/-- A line belongs to one unit, and stands there once. -/
theorem units_lines_nodup :
    ((mutationUnitsFromSource py source selected).flatMap MutationUnit.lines).Nodup := by
  rw [units_of_parsed parsed, List.flatMap_map, List.nodup_flatMap]
  constructor
  · intro symbol _
    exact (List.perm_insertionSort _ _).nodup_iff.mpr (List.nodup_dedup _)
  · have distinct := (List.perm_insertionSort (· ≤ ·) _).nodup_iff.mpr (List.nodup_dedup
      ((selected.filterMap (placeLine source tree)).map PlacedLine.symbol))
    refine distinct.imp fun {a b} ne => ?_
    rw [Function.onFun, List.disjoint_left]
    intro line first second
    obtain ⟨p, placed, rfl, rfl⟩ := (mem_unitOf_lines _ _ _).mp first
    obtain ⟨q, placed', rfl, same⟩ := (mem_unitOf_lines _ _ _).mp second
    have one := placed_symbol source tree selected placed
    have other := placed_symbol source tree selected placed'
    rw [same, one] at other
    exact ne (Option.some.inj other)

end Units

/-! Packing. -/

section Partition
variable (budget maxBatches : ℤ) (py : Python) (units : List MutationUnit)

theorem capLines_lines (unit : MutationUnit) :
    ((capLines budget unit).1 ++ (capLines budget unit).2).Perm unit.lines := by
  have sorted := List.perm_insertionSort (· ≤ ·) unit.lines
  simp only [capLines]
  split
  · rwa [List.take_append_drop]
  · rwa [List.append_nil]

theorem flatMap_split {α β : Type} (f g h : α → List β) (items : List α)
    (split : ∀ a ∈ items, (f a ++ g a).Perm (h a)) :
    (items.flatMap f ++ items.flatMap g).Perm (items.flatMap h) := by
  induction items with
  | nil => rfl
  | cons a items ih =>
      have head := split a (by simp)
      have tail := ih fun b member => split b (by simp [member])
      simp only [List.flatMap_cons]
      have swap : (f a ++ items.flatMap f ++ (g a ++ items.flatMap g)).Perm
          ((f a ++ g a) ++ (items.flatMap f ++ items.flatMap g)) := by
        simp only [List.append_assoc]
        exact (List.perm_append_comm_assoc _ _ _).append_left (f a)
      exact swap.trans (head.append tail)

theorem orderedUnits_lines :
    ((orderedUnits units).flatMap MutationUnit.lines).Perm (units.flatMap MutationUnit.lines) := by
  have dropped : ∀ items : List MutationUnit,
      (items.filter fun unit => unit.lines ≠ []).flatMap MutationUnit.lines =
        items.flatMap MutationUnit.lines := by
    intro items
    induction items with
    | nil => rfl
    | cons unit items ih =>
        by_cases empty : unit.lines = []
        · simp_all
        · simp_all
  rw [orderedUnits, dropped]
  exact (List.perm_insertionSort _ units).flatMap_right _

/-- The lines that the packing was offered. -/
theorem packUnits_lines :
    (((packUnits budget maxBatches units).items).flatMap MutationUnit.lines ++
      (orderedUnits units).flatMap fun unit => (capLines budget unit).2).Perm
      (units.flatMap MutationUnit.lines) := by
  have kept := (FirstFit.pack_items MutationUnit.estimate budget (max 1 maxBatches).toNat
    ((orderedUnits units).map (capped budget))).flatMap_right MutationUnit.lines
  rw [List.flatMap_map] at kept
  have split := flatMap_split (fun unit => (capLines budget unit).1)
    (fun unit => (capLines budget unit).2) MutationUnit.lines (orderedUnits units)
    fun unit _ => capLines_lines budget unit
  exact (kept.append_right _).trans (split.trans (orderedUnits_lines units))

theorem bins_lines (bins : List (Bin MutationUnit ℤ)) :
    ((bins.filter fun b => binLines b ≠ []).flatMap binLines) = bins.flatMap binLines := by
  induction bins with
  | nil => rfl
  | cons b bins ih =>
      by_cases empty : binLines b = []
      · simp_all
      · simp_all

theorem batches_lines :
    ((partitionUnitsIntoBatches budget maxBatches py units).batches.flatMap BatchPlan.lines).Perm
      ((packUnits budget maxBatches units).packed.flatMap MutationUnit.lines) := by
  have unindexed : ∀ bins : List (Bin MutationUnit ℤ),
      (bins.zipIdx.flatMap fun b => (binLines b.1).insertionSort (· ≤ ·)).Perm
        (bins.flatMap binLines) := by
    intro bins
    have forget : (bins.zipIdx.flatMap fun b => (binLines b.1).insertionSort (· ≤ ·)) =
        bins.flatMap fun b => (binLines b).insertionSort (· ≤ ·) := by
      conv_rhs => rw [← List.zipIdx_map_fst 0 bins, List.flatMap_map]
    rw [forget]
    exact List.Perm.flatMap_left _ fun b _ => List.perm_insertionSort _ _
  simp only [partitionUnitsIntoBatches, List.flatMap_map]
  refine (unindexed _).trans ?_
  refine ((List.perm_insertionSort _ _).flatMap_right binLines).trans ?_
  rw [bins_lines, Packing.packed, List.flatMap_assoc]
  rfl

/-- A partition puts each line of the units into a batch or reports it. -/
theorem partition_lines :
    ((partitionUnitsIntoBatches budget maxBatches py units).batches.flatMap BatchPlan.lines ++
      ((partitionUnitsIntoBatches budget maxBatches py units).omittedByMaxBatches ++
        (partitionUnitsIntoBatches budget maxBatches py units).omittedByGeneratedBytesCap)).Perm
      (units.flatMap MutationUnit.lines) := by
  refine List.Perm.trans ?_ (packUnits_lines budget maxBatches units)
  rw [Packing.items, List.flatMap_append, List.append_assoc]
  refine (batches_lines budget maxBatches py units).append (List.Perm.append ?_ ?_)
  · exact List.perm_insertionSort _ _
  · exact List.perm_insertionSort _ _

theorem capped_filled {unit : MutationUnit} (filled : unit.lines ≠ []) :
    (capped budget unit).lines ≠ [] := by
  have some_ : unit.lines.insertionSort (· ≤ ·) ≠ [] := by
    intro none_
    have same := (List.perm_insertionSort (· ≤ ·) unit.lines).length_eq
    rw [none_] at same
    exact filled (List.length_eq_zero_iff.mp same.symm)
  simp only [capped, capLines]
  split
  · simp [List.take_eq_nil_iff, some_]
  · exact some_

theorem estimate_nonneg (unit : MutationUnit) : 0 ≤ unit.estimate := by
  unfold MutationUnit.estimate estimatedGeneratedBytes
  positivity

section Filled
variable (filled : ∀ unit ∈ units, unit.lines ≠ [])
include filled

theorem orderedUnits_perm : (orderedUnits units).Perm units := by
  have sorted := List.perm_insertionSort (fun a b : MutationUnit =>
    ((compare b.priority a.priority).then (compare a.symbol b.symbol)) ≠ .gt) units
  rw [orderedUnits, List.filter_eq_self.mpr]
  · exact sorted
  · intro unit member
    exact decide_eq_true (filled unit (sorted.mem_iff.mp member))

/-- Every bin becomes a batch. -/
theorem bins_filled : ∀ b ∈ (packUnits budget maxBatches units).bins, binLines b ≠ [] := by
  intro b member empty
  obtain ⟨item, rest, items⟩ := List.exists_cons_of_ne_nil
    (FirstFit.pack_filled MutationUnit.estimate budget (max 1 maxBatches).toNat _ b member)
  have offered : item ∈ (orderedUnits units).map (capped budget) := by
    apply (FirstFit.pack_items MutationUnit.estimate budget (max 1 maxBatches).toNat _).mem_iff.mp
    exact List.mem_append_left _ (List.mem_flatMap.mpr ⟨b, member, by simp [items]⟩)
  obtain ⟨unit, unitMember, rfl⟩ := List.mem_map.mp offered
  have lines := filled unit ((orderedUnits_perm units filled).mem_iff.mp unitMember)
  refine capped_filled budget lines ?_
  rw [binLines, items, List.flatMap_cons, List.append_eq_nil_iff] at empty
  exact empty.1

/-- When the units fill at most one batch. -/
theorem batches_single_iff :
    (partitionUnitsIntoBatches budget maxBatches py units).batches.length ≤ 1 ↔
      maxBatches ≤ 1 ∨ units.length ≤ 1 ∨
        (units.map fun unit => (capped budget unit).estimate).sum ≤ budget := by
  have batches : (partitionUnitsIntoBatches budget maxBatches py units).batches.length =
      (packUnits budget maxBatches units).bins.length := by
    simp only [partitionUnitsIntoBatches, List.length_map, List.length_zipIdx,
      List.length_insertionSort]
    rw [List.filter_eq_self.mpr]
    intro b member
    exact decide_eq_true (bins_filled budget maxBatches units filled b member)
  have packed := (orderedUnits_perm units filled).map (capped budget)
  have length : ((orderedUnits units).map (capped budget)).length = units.length := by
    rw [packed.length_eq, List.length_map]
  have total := (packed.map MutationUnit.estimate).sum_eq
  have estimates : (units.map (capped budget)).map MutationUnit.estimate =
      units.map fun unit => (capped budget unit).estimate := List.map_map
  rw [estimates] at total
  rw [batches, packUnits, FirstFit.pack_single_iff _ _ _ estimate_nonneg (by omega), length, total]
  have limit : (max 1 maxBatches).toNat ≤ 1 ↔ maxBatches ≤ 1 := by omega
  rw [limit]

end Filled
end Partition

/-! Passes. -/

theorem countP_mem_eq_one {α : Type} [DecidableEq α] (a : α) (lists : List (List α))
    (nodup : lists.flatten.Nodup) :
    lists.countP (fun items => decide (a ∈ items)) = 1 ↔ a ∈ lists.flatten := by
  have counted : lists.countP (fun items => decide (a ∈ items)) = lists.flatten.count a := by
    induction lists with
    | nil => rfl
    | cons items lists ih =>
        rw [List.flatten_cons, List.nodup_append] at nodup
        rw [List.countP_cons, List.flatten_cons, List.count_append, ih nodup.2.1, Nat.add_comm,
          List.Nodup.count nodup.1]
        simp
  rw [counted]
  constructor
  · intro one
    exact List.count_pos_iff.mp (by omega)
  · exact List.count_eq_one_of_mem nodup

/-- A selected line is generated by exactly one pass, or it is reported. -/
def Accounted (outcome : List GenerationPass × Option PartitionResult) (line : ℕ) : Prop :=
  outcome.1.countP (fun pass => decide (line ∈ pass.policy.selectedLines)) = 1 ∨
    ∃ partition ∈ outcome.2, line ∈ partition.omittedByGeneratedBytesCap ∨
      line ∈ partition.omittedByMaxBatches

section Passes
variable (py : Python) (settings : GenerationSettings) (source : List Char)
  (policy : GenerationPolicy)

/-- The units of the policy fit into one batch. -/
def OneBatch : Prop :=
  let units := generationUnits py settings source policy
  settings.maxBatches ≤ 1 ∨ units.length ≤ 1 ∨
    (units.map fun unit => (capped settings.maxGeneratedBytes unit).estimate).sum ≤
      settings.maxGeneratedBytes

theorem generationUnits_lines : (generationUnits py settings source policy).map MutationUnit.lines =
    (mutationUnitsFromGenerationPolicy py source policy.selected).map MutationUnit.lines := by
  simp only [generationUnits]
  split
  · rw [List.map_map]
    rfl
  · rfl

theorem generationUnits_flatMap :
    (generationUnits py settings source policy).flatMap MutationUnit.lines =
      (mutationUnitsFromGenerationPolicy py source policy.selected).flatMap MutationUnit.lines := by
  rw [List.flatMap_def, generationUnits_lines, ← List.flatMap_def]

theorem generationUnits_filled :
    ∀ unit ∈ generationUnits py settings source policy, unit.lines ≠ [] := by
  intro unit member empty
  have same := generationUnits_lines py settings source policy
  have lines : [] ∈ (mutationUnitsFromGenerationPolicy py source policy.selected).map
      MutationUnit.lines := by
    rw [← same]
    exact List.mem_map.mpr ⟨unit, member, empty⟩
  obtain ⟨original, found, none_⟩ := List.mem_map.mp lines
  simp only [mutationUnitsFromGenerationPolicy, mutationUnitsFromSource] at found
  split at found
  · cases found
  · obtain ⟨symbol, placed, rfl⟩ := List.mem_map.mp found
    obtain ⟨p, member, own⟩ := List.mem_map.mp
      (List.mem_dedup.mp ((List.mem_insertionSort _).mp placed))
    have line := (mem_unitOf_lines _ symbol p.line).mpr ⟨p, member, own, rfl⟩
    rw [none_] at line
    cases line

section Built
variable {py source policy} {tree : Node} {sourceBytes : ℕ} {sourcePath : String}
  {changedLines coveredLines : List ℕ} {cap : Int}
  (built : buildGenerationPolicy py source sourceBytes sourcePath changedLines coveredLines cap =
    some policy)
  (parsed : py.parse source = some tree)
include parsed

theorem batches_nodup :
    ((generationPartition py settings source policy).batches.map BatchPlan.lines).flatten.Nodup := by
  have conserved := (partition_lines settings.maxGeneratedBytes settings.maxBatches py
    (generationUnits py settings source policy)).nodup_iff
  rw [generationUnits_flatMap] at conserved
  have all := conserved.mpr (units_lines_nodup parsed)
  rw [← List.flatMap_def]
  exact (List.nodup_append.mp all).1

include built

/-- What the partition of a policy keeps or reports of its selected lines. -/
theorem mem_partition_lines {line : ℕ} (selected : line ∈ policy.selectedLines) :
    (line ∈ (generationPartition py settings source policy).batches.flatMap BatchPlan.lines ∨
      line ∈ (generationPartition py settings source policy).omittedByGeneratedBytesCap ∨
      line ∈ (generationPartition py settings source policy).omittedByMaxBatches) ↔
      InCopyUnit tree line := by
  have conserved := (partition_lines settings.maxGeneratedBytes settings.maxBatches py
    (generationUnits py settings source policy)).mem_iff (a := line)
  have units := @mem_units_lines source tree (policy.selected.map fun o => (o.line, o.operatorPriority))
    py parsed line
  have known : ∃ pair ∈ policy.selected.map fun o => (o.line, o.operatorPriority),
      pair.1 = line := by
    obtain ⟨o, member, same⟩ := (mem_selectedLines built line).mp selected
    exact ⟨_, List.mem_map.mpr ⟨o, member, rfl⟩, same⟩
  rw [generationUnits_flatMap, mutationUnitsFromGenerationPolicy, units] at conserved
  simp only [List.mem_append, known, true_and] at conserved
  rw [← conserved, or_comm (a := _ ∈ PartitionResult.omittedByGeneratedBytesCap _)]
  rfl

/-- With several batches the lines of the copied functions, and no others, are
accounted for. -/
theorem accounted_iff_inCopyUnit (batch : settings.strategy = .batch)
    (several : ¬ (generationPartition py settings source policy).batches.length ≤ 1)
    {line : ℕ} (selected : line ∈ policy.selectedLines) :
    Accounted (generationPasses py settings source policy) line ↔ InCopyUnit tree line := by
  have counted : (generationPasses py settings source policy).1.countP
      (fun pass => decide (line ∈ pass.policy.selectedLines)) =
      ((generationPartition py settings source policy).batches.map BatchPlan.lines).countP
        (fun lines => decide (line ∈ lines)) := by
    simp only [generationPasses, batch, ne_eq, not_true_eq_false, if_false, several,
      List.countP_map, Function.comp_def, mem_filter_selectedLines, selected, true_and]
  rw [Accounted, counted, countP_mem_eq_one _ _ (batches_nodup settings parsed), ← List.flatMap_def,
    ← mem_partition_lines settings built parsed selected]
  simp [generationPasses, batch, several]

/-- Every selected line is in exactly one pass or reported, exactly when the units
fit into one batch or every selected line lies in a function that is copied. -/
theorem selectedLines_accounted_iff (batch : settings.strategy = .batch) :
    (∀ line ∈ policy.selectedLines,
      Accounted (generationPasses py settings source policy) line) ↔
      OneBatch py settings source policy ∨ ∀ line ∈ policy.selectedLines, InCopyUnit tree line := by
  have single : (generationPartition py settings source policy).batches.length ≤ 1 ↔
      OneBatch py settings source policy :=
    batches_single_iff _ _ py _ (generationUnits_filled py settings source policy)
  by_cases one : (generationPartition py settings source policy).batches.length ≤ 1
  · have whole : ∀ line ∈ policy.selectedLines,
        Accounted (generationPasses py settings source policy) line := by
      intro line selected
      exact .inl (by simp [generationPasses, batch, one, selected])
    exact iff_of_true whole (.inl (single.mp one))
  · have several : ¬ OneBatch py settings source policy := fun h => one (single.mpr h)
    simp only [several, false_or]
    exact forall₂_congr fun line selected =>
      accounted_iff_inCopyUnit settings built parsed batch one selected

end Built
end Passes

/-! A method of a nested class. -/

/-- `def name(x): return x > k`, on two lines. -/
def comparingFunction (name : String) (line : ℕ) : Node :=
  .mk (.functionDef name) .body (some (line, line + 1)) [
    .mk .arguments .args none [.mk .arg .args (some (line, line)) []],
    .mk .return .body (some (line + 1, line + 1)) [
      .mk .compare .value (some (line + 1, line + 1)) [
        .mk (.name "x") .other (some (line + 1, line + 1)) [],
        .mk (.constant .other) .other (some (line + 1, line + 1)) []]]]

def nestedTree : Node :=
  .mk .module .other none [
    .mk (.classDef "A") .body (some (1, 4)) [
      .mk (.classDef "B") .body (some (2, 4)) [comparingFunction "f" 3]],
    comparingFunction "g" 5, comparingFunction "h" 7]

def nestedText : List Char := ("class A:\n    class B:\n        def f(x):\n            return x > 1\n" ++
  "def g(x):\n    return x > 2\ndef h(x):\n    return x > 3\n").toList

/-- An interpreter that answers about one text. -/
def oneText (text : List Char) (tree : Node) : Python where
  parse source := if source = text then some tree else none
  lower := id
  isUpper _ := false
  sha256 := id
  dumps _ := ""

def smallBudget : GenerationSettings := { maxGeneratedBytes := 150 }

def nestedPolicy : Option GenerationPolicy :=
  buildGenerationPolicy (oneText nestedText nestedTree) nestedText 117 "m.py" [4, 6, 8] [4, 6, 8]
    1000

/-- The line of `A.B.f` is selected, but it is in no pass and it is not reported. -/
theorem nestedMethod_dropped :
    ∃ policy ∈ nestedPolicy, 4 ∈ policy.selectedLines ∧
      ¬ Accounted (generationPasses (oneText nestedText nestedTree) smallBudget nestedText policy)
        4 := by
  have dropped : (nestedPolicy.any fun policy =>
      let outcome := generationPasses (oneText nestedText nestedTree) smallBudget nestedText policy
      decide (4 ∈ policy.selectedLines) &&
        !decide (outcome.1.countP (fun pass => decide (4 ∈ pass.policy.selectedLines)) = 1) &&
        !(outcome.2.any fun partition => decide (4 ∈ partition.omittedByGeneratedBytesCap) ||
          decide (4 ∈ partition.omittedByMaxBatches))) = true := by
    decide +kernel
  obtain ⟨policy, built, dropped⟩ := (Option.any_eq_true _ _).mp dropped
  simp only [Bool.and_eq_true, decide_eq_true_eq, Bool.not_eq_true', decide_eq_false_iff_not] at dropped
  refine ⟨policy, built, dropped.1.1, ?_⟩
  rintro (one | ⟨partition, made, reported⟩)
  · exact dropped.1.2 one
  · have none_ := dropped.2
    rw [Option.mem_def.mp made] at none_
    simp_all

def flatTree : Node :=
  .mk .module .other none [comparingFunction "g" 1, comparingFunction "h" 3]

def flatText : List Char :=
  "def g(x):\n    return x > 2\ndef h(x):\n    return x > 3\n".toList

theorem flat_accounted :
    ∃ policy, buildGenerationPolicy (oneText flatText flatTree) flatText 54 "m.py" [2, 4] [2, 4]
        1000 = some policy ∧
      ((∀ line ∈ policy.selectedLines,
        Accounted (generationPasses (oneText flatText flatTree) smallBudget flatText policy) line) ↔
      OneBatch (oneText flatText flatTree) smallBudget flatText policy ∨
        ∀ line ∈ policy.selectedLines, InCopyUnit flatTree line) := by
  have isSome : (buildGenerationPolicy (oneText flatText flatTree) flatText 54 "m.py" [2, 4]
      [2, 4] 1000).isSome = true := by decide +kernel
  have parsed : (oneText flatText flatTree).parse flatText = some flatTree := by simp [oneText]
  obtain ⟨policy, built⟩ := Option.isSome_iff_exists.mp isSome
  exact ⟨policy, built, selectedLines_accounted_iff smallBudget built parsed rfl⟩

end Uta.Enforce
