/- Partitions of units that share no line: where each line goes, how large the batches are, and
that the order of the units does not matter. -/
import Uta.Enforce.BatchingLaws
import Uta.Lib.Sorting
import Mathlib.Data.List.Pairwise

namespace Uta.Enforce
open Uta.Lib

/-- The places that a line can go to. -/
def PartitionResult.places (result : PartitionResult) : List (List ℕ) :=
  result.batches.map BatchPlan.lines ++
    [result.omittedByGeneratedBytesCap, result.omittedByMaxBatches]

/-- The bytes that are generated for a unit, with the lines of it that the batch keeps. -/
def BatchPlan.bytesOf (batch : BatchPlan) (unit : MutationUnit) : ℤ :=
  let kept := unit.lines.countP (· ∈ batch.lines)
  if kept = 0 then 0 else estimatedGeneratedBytes unit.unitBytes kept

/-- What a partition promises of its units. -/
structure PartitionResult.Lawful (result : PartitionResult) (units : List MutationUnit)
    (budget maxBatches : ℤ) : Prop where
  conserved : result.places.flatten.Perm (units.flatMap MutationUnit.lines)
  once : ∀ unit ∈ units, ∀ line ∈ unit.lines,
    result.places.countP (fun place => decide (line ∈ place)) = 1
  few : (result.batches.length : ℤ) ≤ max 1 maxBatches
  estimated : ∀ batch ∈ result.batches, batch.estimatedBytes = (units.map batch.bytesOf).sum
  within : ∀ batch ∈ result.batches, batch.estimatedBytes ≤ budget ∨
    ∃ symbol line, batch.symbols = [symbol] ∧ batch.lines = [line]
  together : ∀ unit ∈ units, ∀ batch ∈ result.batches, ∀ other ∈ result.batches,
    ∀ line ∈ unit.lines, ∀ second ∈ unit.lines,
      line ∈ batch.lines → second ∈ other.lines → batch = other

/-! The order of the units. -/

section Order
variable {units : List MutationUnit}

/-- Units of one symbol are one unit. -/
theorem unit_of_symbol (symbols : (units.map MutationUnit.symbol).Nodup) {a b : MutationUnit}
    (left : a ∈ units) (right : b ∈ units) (same : a.symbol = b.symbol) : a = b :=
  List.inj_on_of_nodup_map symbols left right same

theorem orderedUnits_of_perm (symbols : (units.map MutationUnit.symbol).Nodup)
    {units' : List MutationUnit} (perm : units.Perm units') :
    orderedUnits units = orderedUnits units' := by
  let cmp : MutationUnit → MutationUnit → Ordering :=
    compareLex (fun a b => compareOn MutationUnit.priority b a) (compareOn MutationUnit.symbol)
  have sorted : sortedBy cmp units = sortedBy cmp units' := by
    refine Sorting.sort_eq_of_perm cmp perm fun a left b right equal => ?_
    have same : a.symbol = b.symbol :=
      Std.LawfulEqOrd.eq_of_compare (compareLex_eq_eq.mp equal).2
    exact unit_of_symbol symbols left right same
  exact congrArg (List.filter fun unit => unit.lines ≠ []) sorted

/-- The partition is the same for every order of the units. -/
theorem partition_of_perm (budget maxBatches : ℤ) (py : Python)
    (symbols : (units.map MutationUnit.symbol).Nodup) {units' : List MutationUnit}
    (perm : units.Perm units') :
    partitionUnitsIntoBatches budget maxBatches py units =
      partitionUnitsIntoBatches budget maxBatches py units' := by
  unfold partitionUnitsIntoBatches packUnits
  rw [orderedUnits_of_perm symbols perm]

end Order

/-! The bytes of a unit. -/

theorem mem_capped {budget : ℤ} {unit : MutationUnit} {line : ℕ}
    (kept : line ∈ (capped budget unit).lines) : line ∈ unit.lines :=
  (capLines_lines budget unit).mem_iff.mp (List.mem_append_left _ kept)

theorem estimate_within {budget : ℤ} {unitBytes lines : ℕ} (positive : 0 < unitBytes)
    (fits : (lines : ℤ) ≤ budget / unitBytes - 1) :
    estimatedGeneratedBytes unitBytes lines ≤ budget := by
  have share : (lines : ℤ) + 1 ≤ budget / unitBytes := by omega
  exact (Int.le_ediv_iff_mul_le (by exact_mod_cast positive)).mp share

/-- A unit that is over the budget keeps one line. -/
theorem capped_within {budget : ℤ} (positive : 0 < budget) {unit : MutationUnit}
    (filled : unit.lines ≠ []) :
    (capped budget unit).estimate ≤ budget ∨ ∃ line, (capped budget unit).lines = [line] := by
  have count : (unit.lines.insertionSort (· ≤ ·)).length = unit.lines.length :=
    (List.perm_insertionSort _ _).length_eq
  have some_ : 0 < unit.lines.length := List.length_pos_of_ne_nil filled
  by_cases exceeds : 0 < unit.unitBytes ∧ 0 < budget ∧
      budget / unit.unitBytes - 1 < (unit.lines.insertionSort (· ≤ ·)).length
  · have kept : (capped budget unit).lines = (unit.lines.insertionSort (· ≤ ·)).take
        (max 1 (budget / unit.unitBytes - 1)).toNat := by
      simp only [capped, capLines, if_pos exceeds]
    have length : (capped budget unit).lines.length =
        (max 1 (budget / unit.unitBytes - 1)).toNat := by
      rw [kept, List.length_take]
      omega
    by_cases share : 1 ≤ budget / unit.unitBytes - 1
    · have fits : ((capped budget unit).lines.length : ℤ) ≤ budget / unit.unitBytes - 1 := by
        rw [length]
        omega
      exact .inl (estimate_within exceeds.1 fits)
    · refine .inr (List.length_eq_one_iff.mp ?_)
      rw [length]
      omega
  · have kept : (capped budget unit).lines = unit.lines.insertionSort (· ≤ ·) := by
      simp only [capped, capLines, if_neg exceeds]
    refine .inl ?_
    rcases Nat.eq_zero_or_pos unit.unitBytes with none_ | some_
    · simp [MutationUnit.estimate, estimatedGeneratedBytes, capped, none_, positive.le]
    · refine estimate_within some_ ?_
      rw [kept]
      by_contra less
      exact exceeds ⟨some_, positive, not_le.mp less⟩

/-! Units that share no line. -/

/-- In lists that share nothing, an item has one owner. -/
theorem owner_unique {α β : Type} {held : α → List β} {owners : List α}
    (nodup : (owners.flatMap held).Nodup) {a b : α} (left : a ∈ owners) (right : b ∈ owners)
    {item : β} (first : item ∈ held a) (second : item ∈ held b) : a = b := by
  by_contra ne
  have symmetric : Std.Symm (Function.onFun List.Disjoint held) := ⟨fun _ _ apart => apart.symm⟩
  exact (List.nodup_flatMap.mp nodup).2.forall left right ne first second

section Apart
variable {budget maxBatches : ℤ} {units : List MutationUnit}
  (symbols : (units.map MutationUnit.symbol).Nodup)
  (lines : (units.flatMap MutationUnit.lines).Nodup)

theorem mem_orderedUnits {unit : MutationUnit} :
    unit ∈ orderedUnits units ↔ unit ∈ units ∧ unit.lines ≠ [] := by
  simp [orderedUnits, sortedBy]

theorem binLines_mem {b : Bin MutationUnit ℤ} (member : b ∈ (packUnits budget maxBatches units).bins)
    {item : MutationUnit} (placed : item ∈ b.items) :
    ∃ unit ∈ units, unit.lines ≠ [] ∧ item = capped budget unit := by
  have offered : item ∈ (orderedUnits units).map (capped budget) := by
    apply (FirstFit.pack_items MutationUnit.estimate budget (max 1 maxBatches).toNat _).mem_iff.mp
    exact List.mem_append_left _ (List.mem_flatMap.mpr ⟨b, member, placed⟩)
  obtain ⟨unit, found, rfl⟩ := List.mem_map.mp offered
  obtain ⟨known, filled⟩ := mem_orderedUnits.mp found
  exact ⟨unit, known, filled, rfl⟩

include lines

/-- The lines that a bin has of a unit are those to which the unit was capped. -/
theorem mem_binLines {b : Bin MutationUnit ℤ}
    (member : b ∈ (packUnits budget maxBatches units).bins) {unit : MutationUnit}
    (known : unit ∈ units) {line : ℕ} (own : line ∈ unit.lines) :
    line ∈ binLines b ↔ capped budget unit ∈ b.items ∧ line ∈ (capped budget unit).lines := by
  constructor
  · intro kept
    obtain ⟨item, placed, held⟩ := List.mem_flatMap.mp kept
    obtain ⟨other, otherKnown, _, rfl⟩ := binLines_mem member placed
    rw [owner_unique lines known otherKnown own (mem_capped held)]
    exact ⟨placed, held⟩
  · rintro ⟨placed, held⟩
    exact List.mem_flatMap.mpr ⟨_, placed, held⟩

/-- What a batch of a bin's lines keeps of a unit. -/
theorem kept_lines {b : Bin MutationUnit ℤ} (member : b ∈ (packUnits budget maxBatches units).bins)
    {unit : MutationUnit} (known : unit ∈ units) (placed : capped budget unit ∈ b.items) :
    unit.lines.countP (fun line => decide (line ∈ binLines b)) = (capped budget unit).lines.length := by
  have split := capLines_lines budget unit
  have nodup := split.nodup_iff.mpr ((List.nodup_flatMap.mp lines).1 unit known)
  rw [← split.countP_eq, List.countP_append]
  have all : (capLines budget unit).1.countP (fun line => decide (line ∈ binLines b)) =
      (capped budget unit).lines.length := by
    refine List.countP_eq_length.mpr fun line held => decide_eq_true ?_
    exact (mem_binLines lines member known (mem_capped held)).mpr ⟨placed, held⟩
  have none_ : (capLines budget unit).2.countP (fun line => decide (line ∈ binLines b)) = 0 := by
    refine List.countP_eq_zero.mpr fun line dropped => ?_
    rw [decide_eq_true_eq]
    intro kept
    have own : line ∈ unit.lines := split.mem_iff.mp (List.mem_append_right _ dropped)
    have held := ((mem_binLines lines member known own).mp kept).2
    exact List.disjoint_of_nodup_append nodup held dropped
  rw [all, none_, Nat.add_zero]

theorem not_kept {b : Bin MutationUnit ℤ} (member : b ∈ (packUnits budget maxBatches units).bins)
    {unit : MutationUnit} (known : unit ∈ units) (elsewhere : capped budget unit ∉ b.items) :
    unit.lines.countP (fun line => decide (line ∈ binLines b)) = 0 := by
  refine List.countP_eq_zero.mpr fun line own => ?_
  rw [decide_eq_true_eq]
  intro kept
  exact elsewhere ((mem_binLines lines member known own).mp kept).1

include symbols

omit lines in
theorem items_nodup : ∀ b ∈ (packUnits budget maxBatches units).bins, b.items.Nodup := by
  have ordered : ((orderedUnits units).map MutationUnit.symbol).Nodup := by
    have sorted := List.perm_insertionSort (fun a b : MutationUnit =>
      ((compare b.priority a.priority).then (compare a.symbol b.symbol)) ≠ .gt) units
    have kept := (sorted.map MutationUnit.symbol).nodup_iff.mpr symbols
    exact kept.sublist (List.filter_sublist.map _)
  have offered : ((orderedUnits units).map (capped budget)).Nodup := by
    apply List.Nodup.of_map MutationUnit.symbol
    rwa [List.map_map]
  have items := (FirstFit.pack_items MutationUnit.estimate budget (max 1 maxBatches).toNat
    ((orderedUnits units).map (capped budget))).nodup_iff.mpr offered
  intro b member
  exact (List.nodup_flatMap.mp (List.nodup_append.mp items).1).1 b member

/-- The bytes of a bin are those of what it keeps of the units. -/
theorem used_eq {b : Bin MutationUnit ℤ} (member : b ∈ (packUnits budget maxBatches units).bins)
    {batch : BatchPlan} (same : ∀ line, line ∈ batch.lines ↔ line ∈ binLines b) :
    b.used = (units.map batch.bytesOf).sum := by
  have share : ∀ unit ∈ units, batch.bytesOf unit =
      if capped budget unit ∈ b.items then (capped budget unit).estimate else 0 := by
    intro unit known
    have counted : unit.lines.countP (fun line => decide (line ∈ batch.lines)) =
        unit.lines.countP (fun line => decide (line ∈ binLines b)) := by
      simp only [same]
    unfold BatchPlan.bytesOf
    simp only [counted]
    split_ifs with empty placed placed
    · obtain ⟨other, otherKnown, filled, equal⟩ := binLines_mem member placed
      have unit_ : unit = other :=
        unit_of_symbol symbols known otherKnown (by injection equal)
      rw [kept_lines lines member known placed, List.length_eq_zero_iff] at empty
      exact absurd empty (capped_filled budget (unit_ ▸ filled))
    · rfl
    · rw [kept_lines lines member known placed]
      rfl
    · exact absurd (not_kept lines member known placed) empty
  have picked : ((units.filter fun unit => capped budget unit ∈ b.items).map (capped budget)).Perm
      b.items := by
    have distinct : ((units.filter fun unit => capped budget unit ∈ b.items).map
        (capped budget)).Nodup := by
      apply List.Nodup.of_map MutationUnit.symbol
      rw [List.map_map]
      exact symbols.sublist (List.filter_sublist.map _)
    refine (List.perm_ext_iff_of_nodup distinct (items_nodup symbols b member)).mpr fun item => ?_
    simp only [List.mem_map, List.mem_filter, decide_eq_true_eq]
    constructor
    · rintro ⟨unit, ⟨_, placed⟩, rfl⟩
      exact placed
    · intro placed
      obtain ⟨unit, known, _, rfl⟩ := binLines_mem member placed
      exact ⟨unit, ⟨known, placed⟩, rfl⟩
  calc b.used = (b.items.map MutationUnit.estimate).sum :=
        FirstFit.pack_used MutationUnit.estimate budget _ _ b member
    _ = (((units.filter fun unit => capped budget unit ∈ b.items).map (capped budget)).map
          MutationUnit.estimate).sum := (picked.map _).sum_eq.symm
    _ = (units.map fun unit =>
          if capped budget unit ∈ b.items then (capped budget unit).estimate else 0).sum := by
        rw [List.map_map, List.sum_map_ite, List.map_const', List.sum_replicate, nsmul_zero, add_zero]
        rfl
    _ = (units.map batch.bytesOf).sum := by rw [List.map_congr_left share]

end Apart

/-! Partitions. -/

section Lawful
variable {budget maxBatches : ℤ} (py : Python) {units : List MutationUnit}

/-- A batch is made of a bin. -/
theorem batch_of_bin {batch : BatchPlan}
    (member : batch ∈ (partitionUnitsIntoBatches budget maxBatches py units).batches) :
    ∃ b ∈ (packUnits budget maxBatches units).bins,
      batch.symbols = b.items.map MutationUnit.symbol ∧
        batch.lines = (binLines b).insertionSort (· ≤ ·) ∧ batch.estimatedBytes = b.used := by
  obtain ⟨⟨b, i⟩, indexed, rfl⟩ := List.mem_map.mp member
  have sorted := List.fst_mem_of_mem_zipIdx indexed
  rw [List.mem_insertionSort, List.mem_filter] at sorted
  exact ⟨b, sorted.1, rfl, rfl, rfl⟩

/-- A batch is estimated at the bytes that are generated for what it keeps of the units. -/
theorem estimatedBytes_eq (symbols : (units.map MutationUnit.symbol).Nodup)
    (lines : (units.flatMap MutationUnit.lines).Nodup) {batch : BatchPlan}
    (member : batch ∈ (partitionUnitsIntoBatches budget maxBatches py units).batches) :
    batch.estimatedBytes = (units.map batch.bytesOf).sum := by
  obtain ⟨b, found, _, held, used⟩ := batch_of_bin py member
  rw [used]
  exact used_eq symbols lines found fun line => by rw [held, List.mem_insertionSort]

theorem partition_few :
    ((partitionUnitsIntoBatches budget maxBatches py units).batches.length : ℤ) ≤
      max 1 maxBatches := by
  have bins := FirstFit.pack_length MutationUnit.estimate budget (max 1 maxBatches).toNat
    ((orderedUnits units).map (capped budget))
  have kept : (partitionUnitsIntoBatches budget maxBatches py units).batches.length ≤
      (packUnits budget maxBatches units).bins.length := by
    simp only [partitionUnitsIntoBatches, List.length_map, List.length_zipIdx,
      List.length_insertionSort]
    exact List.length_filter_le _ _
  have limited := kept.trans bins
  omega

theorem partition_places :
    (partitionUnitsIntoBatches budget maxBatches py units).places.flatten.Perm
      (units.flatMap MutationUnit.lines) := by
  refine List.Perm.trans ?_ (partition_lines budget maxBatches py units)
  simp only [PartitionResult.places, List.flatten_append, ← List.flatMap_def, List.flatten_cons,
    List.flatten_nil, List.append_nil]
  exact List.perm_append_comm.append_left _

/-- A partition of units that share no symbol and no line keeps its promises, and is the same for
every order of the units. -/
theorem partition_lawful (symbols : (units.map MutationUnit.symbol).Nodup)
    (lines : (units.flatMap MutationUnit.lines).Nodup) (positive : 0 < budget) :
    (partitionUnitsIntoBatches budget maxBatches py units).Lawful units budget maxBatches ∧
      ∀ units', units.Perm units' → partitionUnitsIntoBatches budget maxBatches py units' =
        partitionUnitsIntoBatches budget maxBatches py units := by
  refine ⟨?_, fun units' perm => (partition_of_perm budget maxBatches py symbols perm).symm⟩
  have places := @partition_places budget maxBatches py units
  have apart := places.nodup_iff.mpr lines
  constructor
  case conserved => exact places
  case once =>
      intro unit known line own
      apply (countP_mem_eq_one line _ apart).mpr
      exact places.mem_iff.mpr (List.mem_flatMap.mpr ⟨unit, known, own⟩)
  case few => exact partition_few py
  case estimated => exact fun batch member => estimatedBytes_eq py symbols lines member
  case within =>
      intro batch member
      obtain ⟨b, found, names, held, used⟩ := batch_of_bin py member
      rcases FirstFit.pack_within MutationUnit.estimate budget _ _ b found with below | ⟨item, alone⟩
      · exact .inl (used ▸ below)
      · obtain ⟨unit, _, filled, rfl⟩ := binLines_mem found (by rw [alone]; exact List.mem_cons_self)
        rcases capped_within positive filled with below | ⟨line, single⟩
        · refine .inl ?_
          rw [used, FirstFit.pack_used MutationUnit.estimate budget _ _ b found, alone]
          simpa using below
        · refine .inr ⟨unit.symbol, line, by rw [names, alone]; rfl, ?_⟩
          rw [held, binLines, alone, List.flatMap_singleton, single]
          rfl
  case together =>
      intro unit known batch member other otherMember line own second own' kept kept'
      obtain ⟨b, found, _, held, _⟩ := batch_of_bin py member
      obtain ⟨b', found', _, held', _⟩ := batch_of_bin py otherMember
      rw [held, List.mem_insertionSort, mem_binLines lines found known own] at kept
      rw [held', List.mem_insertionSort, mem_binLines lines found' known own'] at kept'
      -- the lines that the unit was capped to are in the batch of each of them
      have batches := List.nodup_append.mp (by
        rwa [PartitionResult.places, List.flatten_append, ← List.flatMap_def] at apart)
      have first : second ∈ batch.lines := by
        rw [held, List.mem_insertionSort, mem_binLines lines found known own']
        exact ⟨kept.1, kept'.2⟩
      have last : second ∈ other.lines := by
        rw [held', List.mem_insertionSort, mem_binLines lines found' known own']
        exact kept'
      exact owner_unique batches.1 member otherMember first last

/-- Two batches: a unit that is capped, one that is over the budget with its only line, and one that
finds no room. -/
def sharedBudget : List MutationUnit :=
  [⟨"f", 40, [3, 4, 5], 90⟩, ⟨"g", 80, [9], 100⟩, ⟨"h", 30, [12, 13], 80⟩]

theorem sharedBudget_lawful :
    (partitionUnitsIntoBatches 120 2 (oneText flatText flatTree) sharedBudget).Lawful sharedBudget 120 2 ∧
      ∀ units', sharedBudget.Perm units' →
        partitionUnitsIntoBatches 120 2 (oneText flatText flatTree) units' =
          partitionUnitsIntoBatches 120 2 (oneText flatText flatTree) sharedBudget :=
  partition_lawful (oneText flatText flatTree) (by decide) (by decide) (by decide)

end Lawful
end Uta.Enforce
