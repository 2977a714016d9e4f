/- The failing tests that a Java change is answerable for, and the inventory of test classes
that a rerun names on the Maven command line. -/
import Mathlib.Data.List.Dedup
import Mathlib.Data.List.Sort
import Uta.Lib.PyText
import Mathlib.Data.List.Lex

namespace Uta.JavaGate
open Uta.Lib

/-! Names of classes and paths. -/

def strip (text : String) : String := String.ofList (PyText.strip text.toList)

/-- `text.split(dot)`. -/
def parts (dot : Char) (text : String) : List (List Char) := text.toList.splitOn dot

/-- `fqn.rsplit(".", 1)[-1]`. -/
def simpleName (fqn : String) : String := String.ofList ((parts '.' fqn).getLast?.getD [])

/-- What follows the first `root` of a text. -/
def after (root : List Char) : List Char → Option (List Char)
  | [] => if root = [] then some [] else none
  | c :: cs => if root.isPrefixOf (c :: cs) then some ((c :: cs).drop root.length) else after root cs

/-- `_java_fqn_from_path`. -/
def javaFqnFromPath (path root : String) : Option String :=
  if ".java".toList.isSuffixOf path.toList then
    (after root.toList path.toList).map fun rest =>
      let dotted := (rest.take (rest.length - 5)).map fun c => if c = '/' then '.' else c
      String.ofList (((dotted.dropWhile (· = '.')).reverse.dropWhile (· = '.')).reverse)
  else none

/-- `Path(path_text).stem`. -/
def stem (path : String) : String :=
  let name := (parts '/' path).getLast?.getD []
  let suffix := (name.reverse.takeWhile (· ≠ '.')).length
  if suffix = 0 ∨ name.length ≤ suffix + 1 then String.ofList name
  else String.ofList (name.take (name.length - (suffix + 1)))

section Names
variable (letter : Char → Bool)

/-- `\w`; `letter` says which code points outside ASCII it matches. -/
def isWord (c : Char) : Bool :=
  c.isAlphanum || c = '_' || (decide (128 ≤ c.toNat) && !PyText.isSpace c && letter c)

/-- `[A-Za-z_$][\w$]*`. -/
def isIdentifier : List Char → Bool
  | [] => false
  | c :: cs => (c.isAlpha || c = '_' || c = '$') && cs.all fun d => isWord letter d || d = '$'

/-- `_is_excludable_test_class`. -/
def isExcludableTestClass (name : String) : Bool := (parts '.' (strip name)).all (isIdentifier letter)

end Names

/-! The partition of the failing tests. -/

structure FailingTestPartition where
  excluded : List String := []
  collateral : List String := []
  retained : List String := []
  reason : String := ""
  deriving DecidableEq

/-- Modules and the test classes of each. -/
abbrev Inventory := List (String × List String)

namespace FailingTestPartition

def allExcluded (p : FailingTestPartition) : List String := p.excluded ++ p.collateral

end FailingTestPartition

/-- The change: its files, the tests generated for it, and which test classes target which
type (`_references_any` asks for each source of the test class). -/
structure Change where
  changedJava : Option (List String)
  changedProductionJava : Option (List String)
  generatedTestClasses : List String := []
  targetsType : String → String → Bool

namespace Change
variable (change : Change)

/-- `changed_test_fqns`. -/
def changedTestFqns (changedJava : List String) : List String :=
  changedJava.filterMap fun path => (javaFqnFromPath path "src/test/java/").filter (· ≠ "")

/-- `_references_any`. -/
def referencesAny (fqn : String) : Bool :=
  ((change.changedProductionJava.getD []).map stem).any (change.targetsType fqn)

/-- The test was changed, or generated, or references a changed class. -/
def answersFor (fqn : String) : Bool :=
  decide (fqn ∈ changedTestFqns (change.changedJava.getD [])) ||
    decide (fqn ∈ (change.generatedTestClasses.map strip).filter (· ≠ "")) ||
    change.referencesAny fqn

/-- The end of `partition_failing_tests`, once every name is in one. -/
def sorted (retained excluded : List String) : FailingTestPartition :=
  if excluded = [] then { retained, reason := "all-failures-related" }
  else { excluded, retained }

/-- `partition_failing_tests`. -/
def partitionFailingTests (letter : Char → Bool) (failing : List String) : FailingTestPartition :=
  if failing = [] then { reason := "no-failures" }
  else if change.changedJava = none then
    { retained := failing, reason := "no-diff-available" }
  else
    let stays fqn := !isExcludableTestClass letter fqn || change.answersFor fqn
    let names := (failing.map strip).filter (· ≠ "")
    sorted (names.filter stays) (names.filter (!stays ·))

end Change

/-! The rewrites. -/

/-- The classes of an inventory. -/
def known (modules : Inventory) : List String := (modules.flatMap Prod.snd).dedup

/-- `_classes_by_simple_name(known)[name]`. -/
def classesBySimpleName (modules : Inventory) (name : String) : List String :=
  (known modules).filter (simpleName · = name)

/-- Several classes have the name. -/
def collides (modules : Inventory) (name : String) : Bool :=
  decide (1 < (classesBySimpleName modules name).length)

/-! The reports of a run. -/

/-- A Surefire report that could be parsed: its module, the class that it names, and its errors
and failures where they are numbers. -/
structure SurefireReport where
  module : String
  name : String
  broken : Option ℤ

/-- `classes_by_module.setdefault(module, set()).update(classes)`. -/
def update (modules : Inventory) (m : String × List String) : Inventory :=
  if m.1 ∈ modules.map Prod.fst then
    modules.map fun e => if e.1 = m.1 then (e.1, e.2 ++ m.2) else e
  else modules ++ [m]

def merge (modules added : Inventory) : Inventory := added.foldl update modules

/-- The classes that `_surefire_test_class_results` maps to failed. -/
def failingClasses (reports : List SurefireReport) : List String :=
  let counted := reports.filter fun r => decide (strip r.name ≠ "") && r.broken.isSome
  (counted.map (strip ·.name)).eraseDups.filter fun name =>
    counted.any fun r => decide (strip r.name = name) && decide (0 < r.broken.getD 0)

/-- `_surefire_test_classes_by_module`. -/
def surefireTestClassesByModule (reports : List SurefireReport) : Inventory :=
  merge [] ((reports.filter (strip ·.name ≠ "")).map fun r => (r.module, [strip r.name]))

namespace FailingTestPartition
variable (p : FailingTestPartition) (modules : Inventory)

/-- `_without_exclusions`. -/
def withoutExclusions (reason : String) : FailingTestPartition where
  retained := p.retained ++ p.excluded
  reason := reason

/-- The classes whose simple name is a colliding one of an excluded class. -/
def expanded : List String :=
  (known modules).filter fun c =>
    decide (simpleName c ∈ p.excluded.map simpleName) && collides modules (simpleName c)

/-- `added`. -/
def added : List String :=
  ((p.expanded modules).filter (· ∉ p.excluded)).insertionSort (· ≤ ·)

/-- `_expand_colliding_simple_name_exclusions`. -/
def expandCollidingSimpleNameExclusions : FailingTestPartition :=
  if p.allExcluded = [] then p
  else if p.added modules = [] then p
  else
    { p with
      collateral := p.collateral ++ p.added modules
      retained := p.retained.filter (· ∉ p.expanded modules)
      reason := "simple-name-collision-expanded" }

/-- The class's name is in `forced_collision_names`. -/
def forced (c : String) : Bool :=
  collides modules (simpleName c) &&
    (classesBySimpleName modules (simpleName c)).all (· ∈ p.allExcluded)

/-- The module would be left without tests. -/
def empties (classes : List String) : Bool :=
  decide (classes ≠ []) && classes.all (· ∈ p.allExcluded)

/-- `protected`. -/
def protectedClasses : List String :=
  modules.flatMap fun m => if p.empties m.2 then m.2.filter (!p.forced modules ·) else []

/-- The lists of `_without_module_emptying_exclusions`. -/
def guarded (kept collateral retained : List String) : FailingTestPartition :=
  if kept = [] ∧ collateral = [] then { retained, reason := "would-empty-module-suite" }
  else { p with excluded := kept, collateral, retained }

/-- `_without_module_emptying_exclusions`. -/
def withoutModuleEmptyingExclusions : FailingTestPartition :=
  if p.allExcluded = [] then p
  else if p.protectedClasses modules = [] then p
  else
    p.guarded (p.excluded.filter (· ∉ p.protectedClasses modules))
      (p.collateral.filter (· ∉ p.protectedClasses modules))
      (p.retained ++ p.excluded.filter (· ∈ p.protectedClasses modules))

/-- Both rewrites, as the runner applies them. -/
def narrowed : FailingTestPartition :=
  (p.expandCollidingSimpleNameExclusions modules).withoutModuleEmptyingExclusions modules

end FailingTestPartition

/-! The Maven command. -/

/-- The arguments that the selection of tests reads and writes; the words of `-Dtest`, the
patterns of the includes file and the names of `-DexcludedTestClasses` are lists. -/
inductive Arg where
  | test (words : List String)
  | includes (pattern : String)
  | includesFile (patterns : List String)
  | excludedTestClasses (names : List String)
  | failIfNoTests
  | failIfNoSpecifiedTests
  | other (text : String)
  deriving DecidableEq

namespace Arg

def testWords : Arg → Option (List String)
  | .test words => some words
  | _ => none

def filePatterns : Arg → Option (List String)
  | .includesFile patterns => some patterns
  | _ => none

def excludedNames : Arg → Option (List String)
  | .excludedTestClasses names => some names
  | _ => none

def isIncludes : Arg → Bool
  | .includes _ => true
  | _ => false

end Arg

/-- `_maven_property_value(cmd, "excludedTestClasses")`. -/
def excludedTestClassesOf (cmd : List Arg) : List String :=
  (cmd.findSome? Arg.excludedNames).getD []

/-- `_merged_csv`. -/
def mergedCsv (existing additions : List String) : List String :=
  additions.foldl (fun values item => if item ∈ values then values else values ++ [item]) existing

/-- `_surefire_test_selector`. -/
def surefireTestSelector (targetTests : List String) : List String :=
  targetTests.foldl (fun selectors target =>
    let selector := strip (simpleName target)
    if selector ≠ "" ∧ selector ∉ selectors then selectors ++ [selector] else selectors) []

/-- A property is appended unless it is there. -/
def withFlag (cmd : List Arg) (flag : Arg) : List Arg := if flag ∈ cmd then cmd else cmd ++ [flag]

/-- `-DexcludedTestClasses`, with what it names already. -/
def withExcludedTestClasses (cmd : List Arg) (drop : List String) : List Arg :=
  cmd.filter (·.excludedNames = none) ++
    [.excludedTestClasses (mergedCsv (excludedTestClassesOf cmd) drop)]

/-- `_MAX_SUREFIRE_TEST_SELECTOR_BYTES`. -/
def maxSurefireTestSelectorBytes : ℕ := 96 * 1024

/-- The bytes of `"-Dtest=" + ",".join(words)`. -/
def selectorBytes (words : List String) : ℕ :=
  ("-Dtest=" ++ ",".intercalate words).utf8ByteSize

section Command
variable (letter : Char → Bool)

/-- The names that can be handed to Maven. -/
def excludable (classes : List String) : List String :=
  (classes.filter (isExcludableTestClass letter)).map strip

/-- `_with_selected_test_classes`. -/
def withSelectedTestClasses (cmd : List Arg) (kept excluded : List String) : List Arg :=
  let keep := excludable letter kept
  let drop := excludable letter excluded
  if keep = [] ∨ drop = [] then cmd
  else if maxSurefireTestSelectorBytes < selectorBytes (surefireTestSelector keep) then cmd
  else
    withFlag (withExcludedTestClasses
      (cmd.filter (·.testWords = none) ++ [.test (surefireTestSelector keep)]) drop) .failIfNoTests

/-- The pattern that `_write_surefire_positive_inventory` writes for a class. -/
def inventoryPattern (name : String) : String := "**/" ++ simpleName name ++ ".java"

/-- `_with_selected_test_file`. -/
def withSelectedTestFile (cmd : List Arg) (patterns excluded : List String) : List Arg :=
  let drop := excludable letter excluded
  if drop = [] then cmd
  else
    let updated := cmd.filter fun arg =>
      decide (arg.testWords = none) && !arg.isIncludes && decide (arg.filePatterns = none)
    let updated := updated ++ [.includes "__uta_no_test_matches__", .includesFile patterns]
    withFlag (withFlag (withExcludedTestClasses updated drop) .failIfNoTests) .failIfNoSpecifiedTests

/-- The versions of Surefire that the output names. -/
abbrev Versions := List (List ℕ)

/-- `_surefire_supports_includes_file`. -/
def supportsIncludesFile (versions : Versions) : Bool :=
  decide (versions ≠ []) && versions.all fun v => decide ([2, 13] ≤ v)

/-- The inventory without what is excluded. -/
def keptClasses (modules : Inventory) (excluded : List String) : List String :=
  ((known modules).filter (· ∉ excluded)).insertionSort (· ≤ ·)

/-- `_excluding_test_classes`; `writes` says whether the inventory can be written. -/
def excludingTestClasses (cmd : List Arg) (excluded : List String) (versions : Versions)
    (writes : Bool) (modules : Inventory) : List Arg × String :=
  if keptClasses modules excluded = [] then (cmd, "empty-positive-test-inventory")
  else if supportsIncludesFile versions then
    if writes then
      (withSelectedTestFile letter cmd ((keptClasses modules excluded).map inventoryPattern) excluded,
        "")
    else (cmd, "positive-test-inventory-write-failed")
  else
    (withSelectedTestClasses letter cmd (keptClasses modules excluded) excluded,
      if withSelectedTestClasses letter cmd (keptClasses modules excluded) excluded ≠ cmd then ""
      else "positive-test-selector-too-large")

/-- Surefire runs the class: `-Dtest` names it, else the includes file does, else it is left to
the POM. -/
def selects (cmd : List Arg) (c : String) : Bool :=
  match cmd.findSome? Arg.testWords with
  | some words => decide (simpleName c ∈ words)
  | none =>
    match cmd.findSome? Arg.filePatterns with
    | some patterns => decide (inventoryPattern c ∈ patterns)
    | none => true

end Command

end Uta.JavaGate
