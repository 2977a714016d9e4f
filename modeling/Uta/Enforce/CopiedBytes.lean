/- What mutmut copies for the lines of a batch, against the bytes that the batch is estimated at. -/
import Uta.Enforce.Partition
import Mathlib.Algebra.Order.BigOperators.Group.List
import Mathlib.Data.List.Perm.Subperm

namespace Uta.Enforce
open Uta.Lib

/-! The parser's lines. -/

/-- The lines of a text as the parser numbers them: they end at LF, CR and CR LF. -/
def parserLines : List Char → List (List Char)
  | [] => []
  | '\r' :: '\n' :: cs => ['\r', '\n'] :: parserLines cs
  | c :: cs =>
    if c = '\n' ∨ c = '\r' then [c] :: parserLines cs
    else
      match parserLines cs with
      | [] => [[c]]
      | l :: ls => (c :: l) :: ls

/-- The UTF-8 size of the lines from `start` to `stop`. -/
def linesBytes (lines : List (List Char)) (start stop : ℕ) : ℕ :=
  (((lines.zipIdx 1).filter fun (_, i) => start ≤ i ∧ i ≤ stop).map
    fun (line, _) => (String.ofList line).utf8ByteSize).sum

/-- The UTF-8 size of a function's source span. -/
def textBytes (source : List Char) (node : Node) : ℕ :=
  linesBytes (parserLines source) node.lineno node.endLineno

/-- Up to the end of the function `splitlines` breaks where the parser does. -/
def BreaksPlain (source : List Char) (node : Node) : Prop :=
  ∀ line ∈ (parserLines source).take node.endLineno, ∀ c ∈ line,
    PyText.isLineBreak c = true → c = '\n' ∨ c = '\r'

theorem spanBytes_eq (source : List Char) (start stop : ℕ) :
    spanBytes source start stop = linesBytes (splitlinesKeepEnds source) start stop := rfl

theorem linesBytes_take (lines : List (List Char)) (start stop : ℕ) :
    linesBytes (lines.take stop) start stop = linesBytes lines start stop := by
  have later : ((lines.drop stop).zipIdx (1 + (lines.take stop).length)).filter
      (fun p : List Char × ℕ => decide (start ≤ p.2 ∧ p.2 ≤ stop)) = [] := by
    refine List.filter_eq_nil_iff.mpr fun p member => ?_
    have long : stop < lines.length := by
      by_contra short
      rw [List.drop_eq_nil_of_le (by omega)] at member
      cases member
    have beyond := (List.mem_zipIdx member).1
    rw [List.length_take] at beyond
    simp only [decide_eq_true_eq]
    omega
  conv_rhs => rw [linesBytes, ← List.take_append_drop stop lines, List.zipIdx_append,
    List.filter_append, later, List.append_nil]
  rfl

theorem take_lines (source : List Char) (k : ℕ)
    (plain : ∀ line ∈ (parserLines source).take k, ∀ c ∈ line,
      PyText.isLineBreak c = true → c = '\n' ∨ c = '\r') :
    (splitlinesKeepEnds source).take k = (parserLines source).take k := by
  cases k with
  | zero => rfl
  | succ k =>
      induction source using parserLines.induct generalizing k with
      | case1 => rfl
      | case2 cs ih =>
          rw [splitlinesKeepEnds, parserLines, List.take_succ_cons, List.take_succ_cons]
          rw [parserLines, List.take_succ_cons] at plain
          cases k with
          | zero => rfl
          | succ k => rw [ih k fun line member => plain line (List.mem_cons_of_mem _ member)]
      | case3 c cs single ends ih =>
          have both : PyText.isLineBreak c = true := by rcases ends with rfl | rfl <;> decide
          rw [splitlinesKeepEnds.eq_3 c cs single, parserLines.eq_3 c cs single, if_pos both, if_pos ends,
            List.take_succ_cons, List.take_succ_cons]
          rw [parserLines.eq_3 c cs single, if_pos ends, List.take_succ_cons] at plain
          cases k with
          | zero => rfl
          | succ k => rw [ih k fun line member => plain line (List.mem_cons_of_mem _ member)]
      | case4 c cs single inside empty ih =>
          rw [parserLines.eq_3 c cs single, if_neg inside, empty] at plain ⊢
          have neither : ¬ PyText.isLineBreak c = true := fun breaks =>
            inside (plain [c] (by simp) c List.mem_cons_self breaks)
          have rest := ih k (by simp [empty])
          rw [empty, List.take_nil, List.take_eq_nil_iff] at rest
          rw [splitlinesKeepEnds.eq_3 c cs single, if_neg neither, rest.resolve_left (by omega)]
      | case5 c cs single inside l ls split ih =>
          rw [parserLines.eq_3 c cs single, if_neg inside, split] at plain ⊢
          rw [List.take_succ_cons] at plain ⊢
          have neither : ¬ PyText.isLineBreak c = true := fun breaks =>
            inside (plain (c :: l) List.mem_cons_self c List.mem_cons_self breaks)
          have rest := ih k (by
            rw [split, List.take_succ_cons]
            intro line member a own
            rcases List.mem_cons.mp member with rfl | later
            · exact plain _ List.mem_cons_self a (List.mem_cons_of_mem _ own)
            · exact plain line (List.mem_cons_of_mem _ later) a own)
          rw [split, List.take_succ_cons] at rest
          rw [splitlinesKeepEnds.eq_3 c cs single, if_neg neither]
          cases first : splitlinesKeepEnds cs with
          | nil =>
              rw [first] at rest
              cases rest
          | cons l' ls' =>
              rw [first, List.take_succ_cons] at rest
              injection rest with same later
              rw [List.take_succ_cons, same, later]

/-- With such breaks the two sizes are one. -/
theorem spanBytes_of_plain {source : List Char} {node : Node} (plain : BreaksPlain source node) :
    spanBytes source node.lineno node.endLineno = textBytes source node := by
  rw [spanBytes_eq, textBytes, ← linesBytes_take, take_lines source _ plain, linesBytes_take]

/-! Functions. -/

/-- No line is in two functions. -/
def FunctionsApart (tree : Node) : Prop :=
  (copyUnits tree).Pairwise fun f g => ∀ line, ¬ (f.2.spans line = true ∧ g.2.spans line = true)

/-- Functions that stand one after the other. -/
theorem functionsApart_of_order {tree : Node}
    (ordered : (copyUnits tree).Pairwise fun f g => f.2.endLineno < g.2.lineno) :
    FunctionsApart tree := by
  refine ordered.imp fun {f g} before line both => ?_
  have first := both.1
  have second := both.2
  simp only [Node.spans, Bool.and_eq_true, decide_eq_true_eq] at first second
  omega

/-- What mutmut copies for the lines of a batch: each function with a line among them once, and once
more for each of its lines. -/
def copiedBytes (source : List Char) (tree : Node) (lines : List ℕ) : ℤ :=
  ((copyUnits tree).map fun f =>
    let kept := lines.countP f.2.spans
    if kept = 0 then 0 else estimatedGeneratedBytes (textBytes source f.2) kept).sum

section Units
variable (py : Python) (source : List Char) (tree : Node) (selected : List (ℕ × ℕ))

/-- The units are the functions that mutmut copies, and their bytes bound what it copies. -/
structure UnitsBound : Prop where
  unit : ∀ a ∈ selected, ∀ f ∈ copyUnits tree, f.2.spans a.1 = true →
    ∃ unit ∈ mutationUnitsFromSource py source selected, unit.symbol = f.1 ∧ a.1 ∈ unit.lines ∧
      (∀ line ∈ unit.lines, f.2.spans line = true) ∧ textBytes source f.2 ≤ unit.unitBytes
  bounded : ∀ budget maxBatches, ∀ batch ∈ (partitionUnitsIntoBatches budget maxBatches py
    (mutationUnitsFromSource py source selected)).batches,
      copiedBytes source tree batch.lines ≤ batch.estimatedBytes

/-- Selected lines of different functions have different symbols. -/
def OneFunction : Prop :=
  ∀ a ∈ selected, ∀ b ∈ selected, ∀ f ∈ copyUnits tree, ∀ g ∈ copyUnits tree,
    f.2.spans a.1 = true → g.2.spans b.1 = true → f.1 = g.1 → f = g

/-- When they do. -/
structure UnitsFit : Prop where
  oneFunction : OneFunction tree selected
  /-- What `splitlines` numbers with the lines of a function is as long as the function. -/
  covered : ∀ a ∈ selected, ∀ f ∈ copyUnits tree, f.2.spans a.1 = true →
    textBytes source f.2 ≤ linesBytes (splitlinesKeepEnds source) f.2.lineno f.2.endLineno

variable {py source tree selected}

theorem function_unique (apart : FunctionsApart tree) {f g : String × Node} (left : f ∈ copyUnits tree)
    (right : g ∈ copyUnits tree) {line : ℕ} (first : f.2.spans line = true)
    (second : g.2.spans line = true) : f = g := by
  by_contra ne
  have symmetric : Std.Symm fun f g : String × Node =>
      ∀ line, ¬ (f.2.spans line = true ∧ g.2.spans line = true) :=
    ⟨fun _ _ apart line both => apart line both.symm⟩
  exact apart.forall left right ne line ⟨first, second⟩

/-- A line is placed in its function. -/
theorem unitOfLine_function (apart : FunctionsApart tree) {f : String × Node}
    (function : f ∈ copyUnits tree) {line : ℕ} (spans : f.2.spans line = true) :
    unitOfLine source tree line = some (f.1, spanBytes source f.2.lineno f.2.endLineno) := by
  have some_ : (copyUnits tree).filter (fun g => g.2.spans line) ≠ [] :=
    List.ne_nil_of_mem (List.mem_filter.mpr ⟨function, spans⟩)
  obtain ⟨g, last⟩ := List.getLast?_isSome.mpr some_ |> Option.isSome_iff_exists.mp
  obtain ⟨member, spans'⟩ := List.mem_filter.mp (List.mem_of_getLast? last)
  obtain rfl := function_unique apart function member spans spans'
  unfold unitOfLine
  rw [last]
  rfl

theorem mem_placed (apart : FunctionsApart tree) {p : PlacedLine} :
    p ∈ selected.filterMap (placeLine source tree) ↔
      ∃ a ∈ selected, ∃ f ∈ copyUnits tree, f.2.spans a.1 = true ∧
        p = ⟨a.1, a.2, f.1, spanBytes source f.2.lineno f.2.endLineno⟩ := by
  rw [List.mem_filterMap]
  constructor
  · rintro ⟨a, member, placed⟩
    obtain ⟨unit, found, rfl⟩ := Option.map_eq_some_iff.mp placed
    have spanned := (unitOfLine_isSome_iff source tree a.1).mp (by rw [found]; rfl)
    obtain ⟨f, last, rfl⟩ := Option.map_eq_some_iff.mp found
    obtain ⟨function, spans⟩ := List.mem_filter.mp (List.mem_of_getLast? last)
    exact ⟨a, member, f, function, spans, rfl⟩
  · rintro ⟨a, member, f, function, spans, rfl⟩
    refine ⟨a, member, ?_⟩
    rw [placeLine, unitOfLine_function apart function spans]
    rfl

variable (parsed : py.parse source = some tree) (apart : FunctionsApart tree)
include parsed

theorem units_symbols_nodup :
    ((mutationUnitsFromSource py source selected).map MutationUnit.symbol).Nodup := by
  rw [units_of_parsed parsed, List.map_map]
  have same : MutationUnit.symbol ∘ unitOf (selected.filterMap (placeLine source tree)) = id := rfl
  rw [same, List.map_id]
  exact (List.perm_insertionSort _ _).nodup_iff.mpr (List.nodup_dedup _)

include apart

/-- The unit of a function with a selected line, where no other function has its symbol. -/
theorem unit_of_function (one : OneFunction tree selected) {a : ℕ × ℕ} (chosen : a ∈ selected)
    {f : String × Node} (function : f ∈ copyUnits tree) (spans : f.2.spans a.1 = true) :
    let unit := unitOf (selected.filterMap (placeLine source tree)) f.1
    unit ∈ mutationUnitsFromSource py source selected ∧ a.1 ∈ unit.lines ∧
      (∀ line ∈ unit.lines, f.2.spans line = true) ∧
      unit.unitBytes = spanBytes source f.2.lineno f.2.endLineno := by
  have placed : ⟨a.1, a.2, f.1, spanBytes source f.2.lineno f.2.endLineno⟩ ∈
      selected.filterMap (placeLine source tree) :=
    (mem_placed apart).mpr ⟨a, chosen, f, function, spans, rfl⟩
  -- The placed lines of this symbol are those of this function.
  have own : ∀ p ∈ selected.filterMap (placeLine source tree), p.symbol = f.1 →
      f.2.spans p.line = true ∧ p.unitBytes = spanBytes source f.2.lineno f.2.endLineno := by
    intro p member same
    obtain ⟨b, chosen', g, function', spans', rfl⟩ := (mem_placed apart).mp member
    obtain rfl := one b chosen' a chosen g function' f function spans' spans same
    exact ⟨spans', rfl⟩
  refine ⟨?_, ?_, ?_, ?_⟩
  · rw [units_of_parsed parsed]
    refine List.mem_map_of_mem ?_
    rw [List.mem_insertionSort, List.mem_dedup]
    exact List.mem_map.mpr ⟨_, placed, rfl⟩
  · exact (mem_unitOf_lines _ _ _).mpr ⟨_, placed, rfl, rfl⟩
  · intro line member
    obtain ⟨p, listed, same, rfl⟩ := (mem_unitOf_lines _ _ _).mp member
    exact (own p listed same).1
  · have some_ : (selected.filterMap (placeLine source tree)).filter (fun p => p.symbol = f.1) ≠ [] :=
      List.ne_nil_of_mem (List.mem_filter.mpr ⟨placed, by simp⟩)
    obtain ⟨p, last⟩ := Option.isSome_iff_exists.mp (List.getLast?_isSome.mpr some_)
    obtain ⟨listed, same⟩ := List.mem_filter.mp (List.mem_of_getLast? last)
    change ((List.getLast? _).map PlacedLine.unitBytes).getD 0 = _
    rw [last]
    exact (own p listed (of_decide_eq_true same)).2

end Units

/-! The bytes of a batch. -/

theorem estimatedGeneratedBytes_mono {a b m n : ℕ} (bytes : a ≤ b) (lines : m ≤ n) :
    estimatedGeneratedBytes a m ≤ estimatedGeneratedBytes b n := by
  unfold estimatedGeneratedBytes
  have more : ((m : ℤ) + 1) ≤ n + 1 := by exact_mod_cast Nat.succ_le_succ lines
  exact mul_le_mul more (by exact_mod_cast bytes) (by positivity) (by positivity)

theorem bytesOf_nonneg (batch : BatchPlan) (unit : MutationUnit) : 0 ≤ batch.bytesOf unit := by
  unfold BatchPlan.bytesOf estimatedGeneratedBytes
  dsimp only
  split_ifs <;> positivity

section Batches
variable {py : Python} {source : List Char} {tree : Node} {selected : List (ℕ × ℕ)}
  (parsed : py.parse source = some tree)

section Lines
variable {budget maxBatches : ℤ} {batch : BatchPlan}
  (member : batch ∈ (partitionUnitsIntoBatches budget maxBatches py
    (mutationUnitsFromSource py source selected)).batches)
include parsed member

theorem batch_lines_nodup : batch.lines.Nodup := by
  have places := @partition_places budget maxBatches py (mutationUnitsFromSource py source selected)
  have all := places.nodup_iff.mpr (units_lines_nodup parsed)
  rw [PartitionResult.places, List.flatten_append] at all
  exact (List.nodup_flatten.mp (List.nodup_append.mp all).1).1 _ (List.mem_map_of_mem member)

theorem batch_lines_selected {line : ℕ} (own : line ∈ batch.lines) : ∃ a ∈ selected, a.1 = line := by
  have places := @partition_places budget maxBatches py (mutationUnitsFromSource py source selected)
  have listed := places.mem_iff.mp (List.mem_flatten.mpr
    ⟨batch.lines, List.mem_append_left _ (List.mem_map_of_mem member), own⟩)
  exact ((mem_units_lines parsed line).mp listed).1

end Lines

variable (apart : FunctionsApart tree) (fits : UnitsFit source tree selected)
include parsed apart fits

/-- What is copied of one function is no more than what its unit is estimated at. -/
theorem copied_function_le {batch : BatchPlan} (once : batch.lines.Nodup)
    (chosen : ∀ line ∈ batch.lines, ∃ a ∈ selected, a.1 = line) {f : String × Node}
    (function : f ∈ copyUnits tree) (some_ : batch.lines.countP f.2.spans ≠ 0) :
    unitOf (selected.filterMap (placeLine source tree)) f.1 ∈
        mutationUnitsFromSource py source selected ∧
      estimatedGeneratedBytes (textBytes source f.2) (batch.lines.countP f.2.spans) ≤
        batch.bytesOf (unitOf (selected.filterMap (placeLine source tree)) f.1) := by
  obtain ⟨line, own, spans⟩ := List.countP_pos_iff.mp (Nat.pos_of_ne_zero some_)
  obtain ⟨a, picked, rfl⟩ := chosen line own
  obtain ⟨known, -, -, bytes⟩ := unit_of_function parsed apart fits.oneFunction picked function spans
  have kept : batch.lines.countP f.2.spans ≤
      (unitOf (selected.filterMap (placeLine source tree)) f.1).lines.countP
        (fun line => decide (line ∈ batch.lines)) := by
    rw [List.countP_eq_length_filter, List.countP_eq_length_filter]
    refine (List.subperm_of_subset (once.filter _) fun line held => ?_).length_le
    obtain ⟨inBatch, spans'⟩ := List.mem_filter.mp held
    obtain ⟨b, picked', rfl⟩ := chosen line inBatch
    exact List.mem_filter.mpr
      ⟨(unit_of_function parsed apart fits.oneFunction picked' function
        spans').2.1, decide_eq_true inBatch⟩
  refine ⟨known, ?_⟩
  unfold BatchPlan.bytesOf
  dsimp only
  rw [if_neg (by omega)]
  refine estimatedGeneratedBytes_mono ?_ kept
  rw [bytes]
  exact fits.covered a picked f function spans

theorem copied_le_estimated {budget maxBatches : ℤ} {batch : BatchPlan}
    (member : batch ∈ (partitionUnitsIntoBatches budget maxBatches py
      (mutationUnitsFromSource py source selected)).batches) :
    copiedBytes source tree batch.lines ≤ batch.estimatedBytes := by
  have chosen : ∀ line ∈ batch.lines, ∃ a ∈ selected, a.1 = line :=
    fun line own => batch_lines_selected parsed member own
  let kept := fun f : String × Node => batch.lines.countP f.2.spans
  let unit := fun f : String × Node => unitOf (selected.filterMap (placeLine source tree)) f.1
  let live := (copyUnits tree).filter fun f => kept f ≠ 0
  have own : ∀ f ∈ live, f ∈ copyUnits tree ∧ ∃ a ∈ selected, f.2.spans a.1 = true := by
    intro f has
    obtain ⟨function, some_⟩ := List.mem_filter.mp has
    obtain ⟨line, listed, spans⟩ := List.countP_pos_iff.mp
      (Nat.pos_of_ne_zero (of_decide_eq_true some_))
    obtain ⟨a, picked, rfl⟩ := chosen line listed
    exact ⟨function, a, picked, spans⟩
  have each : ∀ f ∈ live, unit f ∈ mutationUnitsFromSource py source selected ∧
      estimatedGeneratedBytes (textBytes source f.2) (kept f) ≤ batch.bytesOf (unit f) := by
    intro f has
    obtain ⟨function, some_⟩ := List.mem_filter.mp has
    exact copied_function_le parsed apart fits (batch_lines_nodup parsed member) chosen function
      (of_decide_eq_true some_)
  -- Different functions with a line in the batch have different units.
  have distinct : (live.map unit).Nodup := by
    have functions : live.Nodup := by
      refine (List.Pairwise.filter _ apart).imp_of_mem fun {f g} left _ disjoint same => ?_
      obtain ⟨-, a, -, spans⟩ := own f left
      exact disjoint a.1 ⟨spans, same ▸ spans⟩
    refine functions.map_on fun f left g right same => ?_
    obtain ⟨function, a, picked, spans⟩ := own f left
    obtain ⟨function', b, picked', spans'⟩ := own g right
    exact fits.oneFunction a picked b picked' f function g function' spans spans'
      (congrArg MutationUnit.symbol same)
  have subset : live.map unit ⊆ mutationUnitsFromSource py source selected := by
    intro u has
    obtain ⟨f, listed, rfl⟩ := List.mem_map.mp has
    exact (each f listed).1
  obtain ⟨part, perm, sub⟩ := List.subperm_of_subset distinct subset
  calc copiedBytes source tree batch.lines
      = (live.map fun f => estimatedGeneratedBytes (textBytes source f.2) (kept f)).sum := by
        have flip : ∀ f : String × Node, (if kept f = 0 then (0 : ℤ)
            else estimatedGeneratedBytes (textBytes source f.2) (kept f)) =
            if kept f ≠ 0 then estimatedGeneratedBytes (textBytes source f.2) (kept f) else 0 :=
          fun f => by by_cases none_ : kept f = 0 <;> simp [none_]
        change ((copyUnits tree).map fun f => if kept f = 0 then (0 : ℤ)
          else estimatedGeneratedBytes (textBytes source f.2) (kept f)).sum = _
        simp only [flip]
        rw [List.sum_map_ite, List.map_const', List.sum_replicate, nsmul_zero, add_zero]
    _ ≤ (live.map fun f => batch.bytesOf (unit f)).sum :=
        List.sum_le_sum fun f has => (each f has).2
    _ = (part.map batch.bytesOf).sum := by
        rw [(perm.map batch.bytesOf).sum_eq, List.map_map]
        rfl
    _ ≤ ((mutationUnitsFromSource py source selected).map batch.bytesOf).sum :=
        (sub.map _).sum_le_sum fun _ has => by
          obtain ⟨unit, -, rfl⟩ := List.mem_map.mp has
          exact bytesOf_nonneg batch unit
    _ = batch.estimatedBytes := (estimatedBytes_eq py (units_symbols_nodup parsed)
        (units_lines_nodup parsed) member).symm

end Batches

/-- The units are what mutmut copies, and bound it, exactly where no two functions with selected
lines share a symbol and what `splitlines` numbers with a function's lines is as long as the function;
it is, where `splitlines` breaks up to the function's end as the parser does. -/
theorem unitsBound_iff {py : Python} {source : List Char} {tree : Node} (selected : List (ℕ × ℕ))
    (parsed : py.parse source = some tree) (apart : FunctionsApart tree) :
    (UnitsBound py source tree selected ↔ UnitsFit source tree selected) ∧
      ∀ f ∈ copyUnits tree, BreaksPlain source f.2 → textBytes source f.2 =
        linesBytes (splitlinesKeepEnds source) f.2.lineno f.2.endLineno := by
  refine ⟨⟨fun bound => ?_, fun fits => ?_⟩, fun f _ plain => (spanBytes_of_plain plain).symm⟩
  · have one : OneFunction tree selected := by
      intro a picked b picked' f function g function' spans spans' same
      obtain ⟨unit, known, symbol, -, only, -⟩ := bound.unit a picked f function spans
      obtain ⟨unit', known', symbol', own, -, -⟩ := bound.unit b picked' g function' spans'
      have joined : unit' = unit := unit_of_symbol (units_symbols_nodup parsed) known' known
        (symbol'.trans (same.symm.trans symbol.symm))
      exact function_unique apart function function' (only b.1 (joined ▸ own)) spans'
    refine ⟨one, fun a picked f function spans => ?_⟩
    obtain ⟨unit, known, symbol, -, -, large⟩ := bound.unit a picked f function spans
    obtain ⟨known', -, -, bytes⟩ := unit_of_function parsed apart one picked function spans
    have same := unit_of_symbol (units_symbols_nodup parsed) known known' symbol
    rw [same, bytes] at large
    exact large
  · constructor
    case unit =>
      intro a picked f function spans
      obtain ⟨known, own, only, bytes⟩ :=
        unit_of_function parsed apart fits.oneFunction picked function spans
      refine ⟨_, known, rfl, own, only, ?_⟩
      rw [bytes]
      exact fits.covered a picked f function spans
    case bounded => exact fun budget maxBatches batch member =>
      copied_le_estimated parsed apart fits member

/-- The flat text with both of its lines selected. -/
theorem flat_unitsBound :
    (UnitsBound (oneText flatText flatTree) flatText flatTree [(2, 60), (4, 60)] ↔
        UnitsFit flatText flatTree [(2, 60), (4, 60)]) ∧
      ∀ f ∈ copyUnits flatTree, BreaksPlain flatText f.2 → textBytes flatText f.2 =
        linesBytes (splitlinesKeepEnds flatText) f.2.lineno f.2.endLineno :=
  unitsBound_iff _ (by simp [oneText]) (functionsApart_of_order (by decide))

/-- A function that is defined twice, first with the longer text. -/
def twiceText : List Char :=
  "def g(x):\n    return x > 1000\ndef g(x):\n    return x > 3\n".toList

def twiceTree : Node :=
  .mk .module .other none [comparingFunction "g" 1, comparingFunction "g" 3]

/-- A function after a form feed on a line of its own. -/
def formFeedText : List Char := "\x0c\ndef g(x):\n    return x > 1000\n".toList

def formFeedTree : Node := .mk .module .other none [comparingFunction "g" 2]

/-- A unit of fewer bytes than its function. -/
theorem not_unitsBound {py : Python} {source : List Char} {tree : Node} {selected : List (ℕ × ℕ)}
    {a : ℕ × ℕ} (picked : a ∈ selected)
    (short : ((copyUnits tree).head?.any fun f => decide (f.2.spans a.1 = true) &&
      (mutationUnitsFromSource py source selected).all
        fun unit => decide (unit.unitBytes < textBytes source f.2)) = true) :
    ¬ UnitsBound py source tree selected := by
  intro bound
  obtain ⟨f, first, facts⟩ := (Option.any_eq_true _ _).mp short
  simp only [Bool.and_eq_true, decide_eq_true_eq, List.all_eq_true] at facts
  obtain ⟨unit, known, -, -, -, large⟩ := bound.unit a picked f (List.mem_of_head? first) facts.1
  exact absurd large (not_le.mpr (facts.2 unit known))

/-- The unit of both definitions has the size of the second, and after a form feed the size of a
function is that of lines before its end. -/
theorem undercounted :
    ¬ UnitsBound (oneText twiceText twiceTree) twiceText twiceTree [(2, 60), (4, 60)] ∧
      ¬ UnitsBound (oneText formFeedText formFeedTree) formFeedText formFeedTree [(3, 60)] :=
  ⟨not_unitsBound List.mem_cons_self (by decide +kernel),
    not_unitsBound List.mem_cons_self (by decide +kernel)⟩

end Uta.Enforce
