/- The generation passes of a target: its selected lines grouped by the function
that is copied for each mutant, and packed under a budget of generated bytes. -/
import Uta.Enforce.Policy
import Uta.Lib.FirstFit
import Uta.Lib.Percent
import Mathlib.Data.String.Basic

namespace Uta.Enforce
open Uta.Lib

/-! Units. -/

structure MutationUnit where
  symbol : String
  unitBytes : ℕ
  lines : List ℕ
  priority : ℕ := 0
  deriving DecidableEq, Repr

def classNameSeparator : String := "ǁ"

/-- `splitlines(keepends=True)`. -/
def splitlinesKeepEnds : List Char → List (List Char)
  | [] => []
  | '\r' :: '\n' :: cs => ['\r', '\n'] :: splitlinesKeepEnds cs
  | c :: cs =>
    if PyText.isLineBreak c then [c] :: splitlinesKeepEnds cs
    else
      match splitlinesKeepEnds cs with
      | [] => [[c]]
      | l :: ls => (c :: l) :: ls

/-- The UTF-8 size of the lines from `start` to `stop` that the text has. -/
def spanBytes (source : List Char) (start stop : ℕ) : ℕ :=
  ((((splitlinesKeepEnds source).zipIdx 1).filter fun (_, i) => start ≤ i ∧ i ≤ stop).map
    fun (line, _) => (String.ofList line).utf8ByteSize).sum

/-- What is copied for a mutant, under its symbol: the top-level functions, and the
methods of the top-level classes. -/
def copyUnits (tree : Node) : List (String × Node) :=
  (tree.field .body).flatMap fun node =>
    if node.isCallable then [(node.defName, node)]
    else if node.isClass then
      ((node.field .body).filter Node.isCallable).map fun method =>
        (node.defName ++ classNameSeparator ++ method.defName, method)
    else []

def Node.spans (node : Node) (line : ℕ) : Bool :=
  0 < node.lineno && node.lineno ≤ line && line ≤ node.endLineno

/-- `unit_by_line`, in which a later unit replaces an earlier one. -/
def unitOfLine (source : List Char) (tree : Node) (line : ℕ) : Option (String × ℕ) :=
  (((copyUnits tree).filter fun (_, node) => node.spans line).getLast?).map
    fun (symbol, node) => (symbol, spanBytes source node.lineno node.endLineno)

/-- A selected line in its unit. -/
structure PlacedLine where
  line : ℕ
  priority : ℕ
  symbol : String
  unitBytes : ℕ
  deriving DecidableEq, Repr

def placeLine (source : List Char) (tree : Node) (pair : ℕ × ℕ) : Option PlacedLine :=
  (unitOfLine source tree pair.1).map fun (symbol, unitBytes) =>
    ⟨pair.1, pair.2, symbol, unitBytes⟩

def unitOf (placed : List PlacedLine) (symbol : String) : MutationUnit :=
  let own := placed.filter fun p => p.symbol = symbol
  { symbol
    unitBytes := (own.getLast?.map PlacedLine.unitBytes).getD 0
    lines := ((own.map PlacedLine.line).dedup).insertionSort (· ≤ ·)
    priority := (own.map PlacedLine.priority).foldl max 0 }

def mutationUnitsFromSource (py : Python) (source : List Char) (selected : List (ℕ × ℕ)) :
    List MutationUnit :=
  match py.parse source with
  | none => []
  | some tree =>
    let placed := selected.filterMap (placeLine source tree)
    (((placed.map PlacedLine.symbol).dedup).insertionSort (· ≤ ·)).map (unitOf placed)

def mutationUnitsFromGenerationPolicy (py : Python) (source : List Char)
    (selected : List Opportunity) : List MutationUnit :=
  mutationUnitsFromSource py source (selected.map fun o => (o.line, o.operatorPriority))

/-! Batches. -/

structure BatchPlan where
  index : ℕ
  symbols : List String
  lines : List ℕ
  estimatedBytes : ℤ
  deriving DecidableEq, Repr

structure PartitionResult where
  batches : List BatchPlan
  signature : String
  omittedByGeneratedBytesCap : List ℕ
  omittedByMaxBatches : List ℕ
  deriving DecidableEq, Repr

def estimatedGeneratedBytes (unitBytes lines : ℕ) : ℤ := (lines + 1) * unitBytes

def MutationUnit.estimate (unit : MutationUnit) : ℤ :=
  estimatedGeneratedBytes unit.unitBytes unit.lines.length

section Partition
variable (budget maxBatches : ℤ)

/-- The lines of a unit that fit under the budget, at least one, and the others. -/
def capLines (unit : MutationUnit) : List ℕ × List ℕ :=
  let lines := unit.lines.insertionSort (· ≤ ·)
  let maxLinesFit := budget / unit.unitBytes - 1
  if 0 < unit.unitBytes ∧ 0 < budget ∧ maxLinesFit < lines.length then
    (lines.take (max 1 maxLinesFit).toNat, lines.drop (max 1 maxLinesFit).toNat)
  else (lines, [])

def capped (unit : MutationUnit) : MutationUnit := { unit with lines := (capLines budget unit).1 }

/-- The units with a line, in the order in which they are packed. -/
def orderedUnits (units : List MutationUnit) : List MutationUnit :=
  (sortedBy (fun a b => (compare b.priority a.priority).then (compare a.symbol b.symbol))
    units).filter fun unit => unit.lines ≠ []

def binLines (bin : Bin MutationUnit ℤ) : List ℕ := bin.items.flatMap MutationUnit.lines

/-- `min(b.lines)` of a bin that has lines. -/
def firstLine (bin : Bin MutationUnit ℤ) : ℕ := ((binLines bin).min?).getD 0

/-- The lines of each batch. -/
def signatureOf (py : Python) (batches : List BatchPlan) : String :=
  let payload := "|".intercalate
    (batches.map fun b => ",".intercalate (b.lines.map fun line => toString line))
  String.ofList ((py.sha256 payload).toList.take 16)

def packUnits (units : List MutationUnit) : Packing MutationUnit ℤ :=
  FirstFit.pack MutationUnit.estimate budget (max 1 maxBatches).toNat
    ((orderedUnits units).map (capped budget))

def partitionUnitsIntoBatches (py : Python) (units : List MutationUnit) : PartitionResult :=
  let packing := packUnits budget maxBatches units
  let orderedBins := (packing.bins.filter fun b => binLines b ≠ []).insertionSort
    fun a b => firstLine a ≤ firstLine b
  let batches := orderedBins.zipIdx.map fun (bin, i) =>
    { index := i
      symbols := bin.items.map MutationUnit.symbol
      lines := (binLines bin).insertionSort (· ≤ ·)
      estimatedBytes := bin.used }
  { batches
    signature := signatureOf py batches
    omittedByGeneratedBytesCap :=
      ((orderedUnits units).flatMap fun unit => (capLines budget unit).2).insertionSort (· ≤ ·)
    omittedByMaxBatches := (packing.omitted.flatMap MutationUnit.lines).insertionSort (· ≤ ·) }

end Partition

/-! Passes. -/

inductive GenerationStrategy where
  | batch | hardCap
  deriving DecidableEq, Repr

structure GenerationSettings where
  strategy : GenerationStrategy := .batch
  maxGeneratedBytes : ℤ := 8000000
  maxBatches : ℤ := 12
  bytesPerLineFactor : ℚ := 2
  deriving DecidableEq

structure GenerationPass where
  index : ℕ
  policy : GenerationPolicy
  suffix : String
  deriving DecidableEq, Repr

section Passes
variable (py : Python) (settings : GenerationSettings) (source : List Char)
  (policy : GenerationPolicy)

/-- `int(unit_bytes * factor)`. -/
def scaledBytes (factor : ℚ) (bytes : ℕ) : ℕ := ⌊binary64 (binary64 bytes * factor)⌋.toNat

def generationUnits : List MutationUnit :=
  let units := mutationUnitsFromGenerationPolicy py source policy.selected
  if 1 < settings.bytesPerLineFactor then
    units.map fun unit =>
      { unit with unitBytes := scaledBytes settings.bytesPerLineFactor unit.unitBytes }
  else units

def generationPartition : PartitionResult :=
  partitionUnitsIntoBatches settings.maxGeneratedBytes settings.maxBatches py
    (generationUnits py settings source policy)

def generationPasses : List GenerationPass × Option PartitionResult :=
  if settings.strategy ≠ .batch then ([⟨0, policy, ""⟩], none)
  else
    let partition := generationPartition py settings source policy
    if partition.batches.length ≤ 1 then ([⟨0, policy, ""⟩], some partition)
    else
      (partition.batches.map fun batch =>
        ⟨batch.index, filterGenerationPolicyToLines batch.lines policy, s!"_batch_{batch.index}"⟩,
       some partition)

end Passes
end Uta.Enforce
