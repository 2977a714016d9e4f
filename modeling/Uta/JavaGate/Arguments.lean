/- The options that the runner replaces in a Maven command line, and what Maven reads in one. -/
import Uta.JavaGate.Scope
import Uta.Lib.Percent
import Uta.Lib.Skipping
import Uta.Operations.Rows

namespace Uta.JavaGate.Arguments
open Uta.Lib
open Uta.Operations (PyFloat)

abbrev Token := List Char

/-! The removers. -/

/-- `f"-D{property_name}"`. -/
def definition (name : Token) : Token := '-' :: 'D' :: name

/-- `f"-D{property_name}="`. -/
def assigned (name : Token) : Token := definition name ++ ['=']

inductive Subject where
  | property (name : Token)
  | projects
  deriving DecidableEq

namespace Subject

def remover : Subject → Remover Token
  | .property name => ⟨fun t => decide (t = definition name), fun t => (assigned name).isPrefixOf t⟩
  | .projects =>
    ⟨fun t => decide (t = "-pl".toList) || decide (t = "--projects".toList),
      fun t => "-pl=".toList.isPrefixOf t || "--projects=".toList.isPrefixOf t⟩

/-- The arguments that give a subject a value. -/
def written : Subject → Token → List Token
  | .property name, value => [assigned name ++ value]
  | .projects, names => ["-pl".toList, names]

end Subject

/-- `_without_maven_property`. -/
def withoutMavenProperty (cmd : List Token) (name : Token) : List Token :=
  (Subject.property name).remover.without false cmd

/-- `_without_maven_project_selector`. -/
def withoutMavenProjectSelector (cmd : List Token) : List Token :=
  Subject.projects.remover.without false cmd

/-- `_maven_property_value`. -/
def mavenPropertyValue (cmd : List Token) (name : Token) : Token :=
  (cmd.findSome? (assigned name).isPrefixOf?).getD []

/-! The texts of numbers. -/

/-- A number of so many decimals, without the zeros that end it. -/
def decimal (n decimals : ℕ) : Token :=
  ((Nat.toDigits 10 (n / 10 ^ decimals) ++
    '.' :: (Nat.toDigits 10 (n % 10 ^ decimals)).leftpad decimals '0').rdropWhile
      (· = '0')).rdropWhile (· = '.')

def sign (negative : Bool) : Token := if negative then ['-'] else []

/-- `f"{q:g}"`. -/
def general (q : ℚ) : Token :=
  let e := Int.log 10 |q|
  let m := (roundHalfEven (|q| * 10 ^ (5 - e))).toNat
  let (m, e) := if m = 10 ^ 6 then (10 ^ 5, e + 1) else (m, e)
  sign (decide (q < 0)) ++
    if -4 ≤ e ∧ e < 6 then decimal m (5 - e).toNat
    else decimal m 5 ++ 'e' :: (if e < 0 then '-' else '+') ::
      (Nat.toDigits 10 e.natAbs).leftpad 2 '0'

/-- What every format writes of a float that is not finite. -/
def special (negative : Bool) : Token := sign negative ++ "inf".toList

/-- `_coverage_gate_ratio_value`. -/
def coverageGateRatioValue : PyFloat → Token
  | .finite gate =>
    let ratio := if 1 < gate then binary64 (gate / 100) else gate
    sign (decide (ratio < 0)) ++ decimal (roundHalfEven (|ratio| * 10000)).toNat 4
  | .infinite negative => special negative
  | .nan => "nan".toList

/-- `_gate_percent_value`. -/
def gatePercentValue : PyFloat → Token
  | .finite value =>
    if value.isInt then sign (decide (value < 0)) ++ Nat.toDigits 10 value.num.natAbs
    else general value
  | .infinite negative => special negative
  | .nan => "nan".toList

example : coverageGateRatioValue (.finite 95) = "0.95".toList ∧
    gatePercentValue (.finite (175 / 2)) = "87.5".toList := by decide +kernel

/-! The properties. -/

def coverageGateProperty : Token := "test.enforcement.diff.coverage.minLines".toList
def mutationGateProperty : Token := "test.enforcement.pitest.testStrengthThreshold".toList
def targetSource : Token := "test.enforcement.targetSource".toList
def targetSources : Token := "test.enforcement.targetSources".toList
def test : Token := "test".toList
def includes : Token := "surefire.includes".toList
def includesFile : Token := "surefire.includesFile".toList
def excludedTestClasses : Token := "excludedTestClasses".toList
def failIfNoTests : Token := "failIfNoTests".toList
def failIfNoSpecifiedTests : Token := "surefire.failIfNoSpecifiedTests".toList

/-- `",".join(items)`. -/
def joined (items : List Token) : Token := [','].intercalate items

/-- The items of a comma-separated text. -/
def csvItems (text : Token) : List String :=
  (((text.splitOn ',').map PyText.strip).filter (· ≠ [])).map String.ofList

/-- `_merged_csv`. -/
def mergedCsvText (existing : Token) (additions : List String) : Token :=
  joined ((mergedCsv (csvItems existing) additions).map String.toList)

/-- `f"-D{name}=false"`, unless the property has a value. -/
def unlessAssigned (name : Token) : Default Token where
  present t := (assigned name).isPrefixOf t
  token := assigned name ++ "false".toList

def alsoMake : Default Token where
  present t := decide (t = "-am".toList) || decide (t = "--also-make".toList)
  token := "-am".toList

/-! The operations. -/

/-- `_with_ci_gate_properties`. -/
def withCiGateProperties (cmd : List Token) (coverageGate mutationGate : PyFloat) : List Token :=
  let updated := withoutMavenProperty cmd coverageGateProperty
  let updated := withoutMavenProperty updated mutationGateProperty
  let updated := updated ++ [assigned coverageGateProperty ++ coverageGateRatioValue coverageGate]
  updated ++ [assigned mutationGateProperty ++ gatePercentValue mutationGate]

/-- `_with_target_sources`. -/
def withTargetSources (cmd sources : List Token) : List Token :=
  if sources = [] then cmd
  else
    let updated := withoutMavenProperty cmd targetSource
    let updated := withoutMavenProperty updated targetSources
    updated ++ [assigned targetSources ++ joined sources]

/-- `_with_changed_modules`. -/
def withChangedModules (cmd changedModules : List Token) : List Token :=
  if changedModules = [] then cmd
  else alsoMake.add (withoutMavenProjectSelector cmd ++ ["-pl".toList, joined changedModules])

/-- What the selections of tests write of the excluded classes. -/
def withExcludedClasses (updated : List Token) (drop : List String) : List Token :=
  let existing := mavenPropertyValue updated excludedTestClasses
  withoutMavenProperty updated excludedTestClasses ++
    [assigned excludedTestClasses ++ mergedCsvText existing drop]

section Selected
variable (letter : Char → Bool)

/-- The words of `-Dtest`. -/
def selector (kept : List String) : List String := surefireTestSelector (excludable letter kept)

/-- `-Dtest` can carry the selection. -/
def carries (kept excluded : List String) : Bool :=
  decide (excludable letter kept ≠ []) && decide (excludable letter excluded ≠ []) &&
    decide (selectorBytes (selector letter kept) ≤ maxSurefireTestSelectorBytes)

/-- `_with_selected_test_classes`. -/
def withSelectedTestClasses (cmd : List Token) (kept excluded : List String) : List Token :=
  if carries letter kept excluded then
    let updated := withoutMavenProperty cmd test
    let updated := updated ++ [assigned test ++ joined ((selector letter kept).map String.toList)]
    let updated := withExcludedClasses updated (excludable letter excluded)
    (unlessAssigned failIfNoTests).add updated
  else cmd

/-- `_with_selected_test_file`. -/
def withSelectedTestFile (cmd : List Token) (inventoryFile : Token) (excluded : List String) :
    List Token :=
  if excludable letter excluded = [] then cmd
  else
    let updated := withoutMavenProperty cmd test
    let updated := withoutMavenProperty updated includes
    let updated := withoutMavenProperty updated includesFile
    let updated := updated ++ [assigned includes ++ "__uta_no_test_matches__".toList]
    let updated := updated ++ [assigned includesFile ++ inventoryFile]
    let updated := withExcludedClasses updated (excludable letter excluded)
    let updated := (unlessAssigned failIfNoTests).add updated
    (unlessAssigned failIfNoSpecifiedTests).add updated

end Selected

inductive Operation where
  | ciGates (coverageGate mutationGate : PyFloat)
  | targetSources (sources : List Token)
  | changedModules (modules : List Token)
  | selectedTestClasses (kept excluded : List String)
  | selectedTestFile (inventoryFile : Token) (excluded : List String)

def Operation.apply (letter : Char → Bool) : Operation → List Token → List Token
  | .ciGates coverageGate mutationGate, cmd => withCiGateProperties cmd coverageGate mutationGate
  | .targetSources sources, cmd => withTargetSources cmd sources
  | .changedModules modules, cmd => withChangedModules cmd modules
  | .selectedTestClasses kept excluded, cmd => withSelectedTestClasses letter cmd kept excluded
  | .selectedTestFile inventoryFile excluded, cmd =>
    withSelectedTestFile letter cmd inventoryFile excluded

/-! What Maven reads. -/

inductive Role where
  | define
  | select
  | plain
  deriving DecidableEq

/-- How an argument is read: by itself, or as an option ahead of its argument. -/
inductive Form where
  | alone (role : Role) (text : Token)
  | ahead (role : Role)
  deriving DecidableEq

/-- A name of letters and dots. -/
def clean (name : Token) : Bool := decide (name ≠ []) && name.all fun c => c.isAlpha || c = '.'

/-- Maven's command line: its options and goals, and the property that the text of a definition
sets. -/
structure Maven where
  form : Token → Option Form
  argument : Token → Bool
  name : Token → Token
  value : Token → Token
  form_definition : ∀ text ≠ [], form (definition text) = some (.alone .define text)
  form_define : ∀ t ∈ ["-D".toList, "--define".toList], form t = some (.ahead .define)
  form_select : ∀ t ∈ ["-pl".toList, "--projects".toList], form t = some (.ahead .select)
  form_selected : ∀ text, ∀ head ∈ ["-pl=".toList, "--projects=".toList],
    form (head ++ text) = some (.alone .select text)
  form_also : ∀ t, alsoMake.present t = true → form t = some (.alone .plain t)
  argument_form : ∀ t, argument t = true → form t = none ∨ form t = some (.alone .plain t)
  argument_also : ∀ t, alsoMake.present t = true → argument t = false
  name_value : ∀ p, clean p = true → ∀ text,
    name (p ++ '=' :: text) = p ∧ value (p ++ '=' :: text) = text
  name_clean : ∀ p, clean p = true → name p = p ∧ value p = "true".toList

/-- An argument with what it takes: a definition, a project selector, or another option, flag
or goal. -/
structure Item where
  head : Token
  tail : Option Token
  role : Role
  text : Token
  deriving DecidableEq

namespace Item

def tokens (i : Item) : List Token := i.head :: i.tail.toList

variable (m : Maven)

def subject (i : Item) : Option Subject :=
  match i.role with
  | .define => some (.property (m.name i.text))
  | .select => some .projects
  | .plain => none

/-- The value that the item gives its subject. -/
def given (i : Item) : Token := if i.role = .define then m.value i.text else i.text

end Item

namespace Maven
variable (m : Maven)

/-- The items of a command line that Maven accepts, after an option that waits for its
argument. -/
def read : Option (Token × Role) → List Token → Option (List Item)
  | none, [] => some []
  | some _, [] => none
  | none, t :: ts =>
    match m.form t with
    | none => none
    | some (.alone role text) => (read none ts).map (⟨t, none, role, text⟩ :: ·)
    | some (.ahead role) => read (some (t, role)) ts
  | some (t, role), x :: ts =>
    if m.argument x then (read none ts).map (⟨t, some x, role, x⟩ :: ·) else none

/-- The values that the items give a subject. -/
def valuesOf (s : Subject) (items : List Item) : List Token :=
  (items.filter fun i => decide (i.subject m = some s)).map (·.given m)

end Maven

/-! What an operation is for. -/

/-- A subject whose options are removed, and what is written after that. -/
structure Step where
  subject : Subject
  sets : List (Subject × (List Token → Token))

structure Plan where
  steps : List Step
  defaults : List (Default Token)

def Step.values (s : Step) (cmd : List Token) : List (Subject × Token) :=
  s.sets.map fun x => (x.1, x.2 cmd)

def Step.stage (s : Step) : Stage Token where
  remover := s.subject.remover
  fresh cmd := (s.values cmd).flatMap fun x => x.1.written x.2

namespace Plan
variable (plan : Plan)

def subjects : List Subject := plan.steps.map (·.subject)

/-- The values that the subjects are to have. -/
def settings (cmd : List Token) : List (Subject × Token) := plan.steps.flatMap (·.values cmd)

/-- The values that are written, each computed of the command line of its step. -/
def writtenBy : List Step → List Token → List (Subject × Token)
  | [], _ => []
  | s :: rest, cmd => s.values cmd ++ writtenBy rest (s.stage.run cmd)

def stages : List (Stage Token) := plan.steps.map (·.stage)

def apply (cmd : List Token) : List Token :=
  Default.addAll plan.defaults (Stage.runAll plan.stages cmd)

variable (m : Maven)

/-- The item is replaced. -/
def replaces (i : Item) : Bool := (i.subject m).any fun s => decide (s ∈ plan.subjects)

end Plan

/-- The excluded classes, with those that the command line names already. -/
def excludedStep (drop : List String) : Step :=
  ⟨.property excludedTestClasses, [(.property excludedTestClasses,
    fun cmd => mergedCsvText (mavenPropertyValue cmd excludedTestClasses) drop)]⟩

namespace Operation
variable (letter : Char → Bool)

def plan : Operation → Plan
  | .ciGates coverageGate mutationGate =>
    ⟨[⟨.property coverageGateProperty, []⟩,
      ⟨.property mutationGateProperty,
        [(.property coverageGateProperty, fun _ => coverageGateRatioValue coverageGate),
          (.property mutationGateProperty, fun _ => gatePercentValue mutationGate)]⟩], []⟩
  | .targetSources sources =>
    if sources = [] then ⟨[], []⟩
    else
      ⟨[⟨.property targetSource, []⟩,
        ⟨.property Arguments.targetSources,
          [(.property Arguments.targetSources, fun _ => joined sources)]⟩], []⟩
  | .changedModules modules =>
    if modules = [] then ⟨[], []⟩
    else ⟨[⟨.projects, [(.projects, fun _ => joined modules)]⟩], [alsoMake]⟩
  | .selectedTestClasses kept excluded =>
    if carries letter kept excluded then
      ⟨[⟨.property test,
          [(.property test, fun _ => joined ((selector letter kept).map String.toList))]⟩,
        excludedStep (excludable letter excluded)], [unlessAssigned failIfNoTests]⟩
    else ⟨[], []⟩
  | .selectedTestFile inventoryFile excluded =>
    if excludable letter excluded = [] then ⟨[], []⟩
    else
      ⟨[⟨.property test, []⟩, ⟨.property includes, []⟩,
        ⟨.property includesFile,
          [(.property includes, fun _ => "__uta_no_test_matches__".toList),
            (.property includesFile, fun _ => inventoryFile)]⟩,
        excludedStep (excludable letter excluded)],
        [unlessAssigned failIfNoTests, unlessAssigned failIfNoSpecifiedTests]⟩

end Operation

section Claims
variable (m : Maven) (plan : Plan) (cmd : List Token) (items : List Item)

/-- What Maven reads of the rewritten command line: each subject has its value and no other, and
the rest is as it was; the rewriting changes nothing the second time. -/
structure Rewritten (rewrite : List Token → List Token) (out : List Item) : Prop where
  once : ∀ s x, (s, x) ∈ plan.settings cmd → m.valuesOf s out = [x]
  dropped : ∀ s ∈ plan.subjects, s ∉ (plan.settings cmd).map Prod.fst → m.valuesOf s out = []
  kept : out.filter (!plan.replaces m ·) = items.filter (!plan.replaces m ·)
  again : rewrite (rewrite cmd) = rewrite cmd

/-- Every definition of a replaced property is one that its remover knows. -/
def Spelled : Prop :=
  ∀ i ∈ items, ∀ s ∈ plan.subjects, i.subject m = some s → s.remover.owns i.head = true

/-- The removers know the options that they are to remove and skip nothing else, and what the
operation would otherwise add is there. -/
structure Legible : Prop where
  spelled : Spelled m plan items
  spared : Subject.projects ∉ plan.subjects → Stage.Spared plan.stages cmd
  merged : Plan.writtenBy plan.steps cmd = plan.settings cmd
  present : ∀ d ∈ plan.defaults, cmd.any d.present = true
  argument : ∀ x, (Subject.projects, x) ∈ plan.settings cmd → m.argument x = true

/-- No `-Dname` stands beside a definition that its remover does not know. -/
def Unmixed : Prop :=
  (∀ p, Subject.property p ∈ plan.subjects → definition p ∉ cmd) ∨ Spelled m plan items

end Claims

/-- The rewritten command line is what the operation is for. -/
def Operation.Right (letter : Char → Bool) (op : Operation) (m : Maven) (cmd : List Token)
    (items : List Item) : Prop :=
  ∃ out, m.read none (op.apply letter cmd) = some out ∧
    Rewritten m (op.plan letter) cmd items (op.apply letter) out

end Uta.JavaGate.Arguments
