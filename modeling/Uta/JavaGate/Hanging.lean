/- The test classes that stall a Maven run: how a run is repeated without them. -/
import Uta.JavaGate.ScopeLaws

namespace Uta.JavaGate
open Uta.Lib

/-! The repository. -/

/-- The name of a test class: not empty, and without blanks around it. -/
abbrev TestClass := { c : String // c ≠ "" ∧ strip c = c }

/-- The POMs, as Maven's names of the modules with their directories, and the test sources, as the
directory before `src/test/java` with the class. -/
structure Layout where
  poms : List (String × String)
  tests : List (String × TestClass)

/-- `_SUREFIRE_2_DEFAULT_TEST_CLASS`, and with the suffix `_SUREFIRE_3_DEFAULT_TEST_CLASS`. -/
def isDefaultTestClass (letter : Char → Bool) (includeTestsSuffix : Bool) (stem : String) : Bool :=
  stem.toList.all (isWord letter) &&
    ("Test".toList.isPrefixOf stem.toList || "Test".toList.isSuffixOf stem.toList ||
      "TestCase".toList.isSuffixOf stem.toList ||
      includeTestsSuffix && "Tests".toList.isSuffixOf stem.toList)

namespace Layout
variable (l : Layout)

/-- `_module_dirs_by_display_name(repo).get(name)`. -/
def dirsOf (name : String) : List String :=
  ((l.poms.filter (·.1 = name)).map Prod.snd).dedup

/-- The directories of a name that Maven may have appended the version to. -/
def candidates (name : String) : List String :=
  if l.dirsOf name = [] ∧ ' ' ∈ name.toList then
    l.dirsOf (String.ofList ([' '].intercalate (parts ' ' name).dropLast))
  else l.dirsOf name

/-- The test classes under a directory that Surefire runs by default. -/
def defaultTests (letter : Char → Bool) (includeTestsSuffix : Bool) (module : String) :
    List String :=
  ((l.tests.filter (·.1 = module)).map (·.2.1)).filter fun c =>
    isDefaultTestClass letter includeTestsSuffix (simpleName c)

/-- `_declared_test_classes_by_module`. -/
def declaredTestClassesByModule (letter : Char → Bool) (names : List String)
    (includeTestsSuffix : Bool) : Option Inventory :=
  if names.filter (· ≠ "") = [] then none
  else
    ((names.filter (· ≠ "")).mapM fun name =>
      match l.candidates name with
      | [module] => some (module, l.defaultTests letter includeTestsSuffix module)
      | _ => none).map List.dedup

/-- `_test_module(path)`, for each of `_java_test_paths_for_fqn(repo, name)`. -/
def modulesOf (name : String) : List String := (l.tests.filter (·.2.1 = name)).map Prod.fst

end Layout

/-- `_surefire_defaults_include_tests_suffix`. -/
def defaultsIncludeTestsSuffix (versions : Versions) : Bool :=
  decide (versions ≠ []) && versions.all fun v => decide ([3, 0] ≤ v)

/-! The invocation. -/

/-- What is fixed for one invocation: the runner's options, the quarantine store's active classes
(none without a store), the change, and the repository. -/
structure Setting where
  fullRun : Bool
  excludeUnrelatedFailingTests : Bool
  stallDetectionEnabled : Bool
  stallRetries : ℕ
  hangingTestQuarantineEnabled : Bool
  active : List TestClass
  change : Change
  letter : Char → Bool
  layout : Layout

/-- What the workspace and the output say when a command is built: the Surefire versions, the
reports on disk, and whether the inventory can be written. -/
structure Scene where
  versions : Versions := []
  reports : List SurefireReport
  writes : Bool

structure HangingRun where
  named : List TestClass := []
  quarantined : List TestClass := []
  retained : List TestClass := []
  pre : List String := []
  retries : ℕ := 0
  reason : String := ""

namespace Setting
variable (w : Setting)

/-- `HangingRun.partition`. -/
def partition (names : List String) : FailingTestPartition :=
  w.change.partitionFailingTests w.letter names

/-- The inventory of `HangingRun.command`: what the sources declare and the reports name, and the
names themselves. -/
def inventory (declared : Inventory) (scene : Scene) (names : List String) : Inventory :=
  merge (merge declared (surefireTestClassesByModule scene.reports))
    (names.flatMap fun name => (w.layout.modulesOf name).map fun module => (module, [name]))

/-- The partition of `HangingRun.command`, once there is an inventory. -/
def narrowedPartition (declared : Inventory) (scene : Scene) (names : List String) :
    FailingTestPartition :=
  (w.partition names).narrowed (w.inventory declared scene names)

/-- The command and what it leaves out. -/
def select (cmd : List Arg) (modules : Inventory) (scene : Scene) (excluded : List String) :
    List Arg × List String × String :=
  let selected := excludingTestClasses w.letter cmd excluded scene.versions scene.writes modules
  (selected.1, if selected.1 ≠ cmd then excluded else [], selected.2)

/-- What the sources of all modules declare. -/
def declared (scene : Scene) : Option Inventory :=
  w.layout.declaredTestClassesByModule w.letter (w.layout.poms.map Prod.fst).dedup
    (defaultsIncludeTestsSuffix scene.versions)

/-- `HangingRun.command`. -/
def command (cmd : List Arg) (names : List String) (scene : Scene) :
    List Arg × List String × String :=
  match w.declared scene with
  | none => (cmd, [], "incomplete-test-inventory")
  | some declared =>
    if names.any (w.layout.modulesOf · = []) then (cmd, [], "test-source-unavailable")
    else if (w.narrowedPartition declared scene names).allExcluded = [] then
      (cmd, [], (w.narrowedPartition declared scene names).reason)
    else
      w.select cmd (w.inventory declared scene names) scene
        (w.narrowedPartition declared scene names).allExcluded

/-- `HangingRun.preexclude`: the command, and `pre`. -/
def preexclude (cmd : List Arg) (scene : Scene) : List Arg × List String :=
  if !w.hangingTestQuarantineEnabled || w.active = [] then (cmd, [])
  else
    let selected := w.command cmd (w.active.map Subtype.val) { scene with versions := [] }
    (selected.1, selected.2.1)

/-- The reason that `HangingRun.detect` gives for a class. -/
def reasonFor (h : HangingRun) (name : TestClass) : String :=
  if name.1 ∈ (w.partition [name.1]).retained then "related-to-change"
  else if name ∈ h.named ∨ name.1 ∈ h.pre then "repeated-hanging-class"
  else if w.stallRetries ≤ h.retries then "stall-retries-exhausted"
  else ""

/-- `HangingRun.detect`. -/
def detect (h : HangingRun) : Option TestClass → HangingRun
  | none => { h with reason := "no-unfinished-test" }
  | some name =>
    { h with
      named := if name ∈ h.named then h.named else h.named ++ [name]
      retained := if name.1 ∈ (w.partition [name.1]).retained then h.retained ++ [name]
        else h.retained
      reason := w.reasonFor h name }

end Setting

namespace HangingRun
variable (h : HangingRun)

/-- `hanging.pre + hanging.quarantined`. -/
def listed : List String := h.pre ++ h.quarantined.map Subtype.val

/-- The class is quarantined for a retry. -/
def quarantine (name : TestClass) : HangingRun :=
  { h with quarantined := h.quarantined ++ [name], retries := h.retries + 1 }

end HangingRun

end Uta.JavaGate
