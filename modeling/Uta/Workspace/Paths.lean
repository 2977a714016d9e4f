/- The paths that the code of a mutation workspace names: literal ones, those beside its
own files, and the fixtures that its tests ask for. -/
import Uta.Workspace.Scan

namespace Uta.Workspace
open Uta.Lib

/-! Literal paths. -/

/-- Neither empty, nor of several lines, nor a URL. -/
def plainPath (raw : List Char) : Bool :=
  !raw.isEmpty && !decide ('\n' ∈ raw) && !decide ("://".toList <:+: raw)

section Literal
variable (repo : Repo)

/-- `_literal_repo_path`. -/
def literalRepoPath (value : List Char) : Option RelPath :=
  let raw := normalizeRelpath value
  let candidate := pathOf raw
  if !plainPath raw then none
  else if raw.head? = some '/' ∨ "..".toList ∈ candidate then none
  else if '/' ∉ raw ∧ suffix candidate = [] then none
  else if repo.present candidate then some candidate else none

/-- A value as it stands, and else beside the file that holds it; an absolute value stays so. -/
def literalDependency (codePath : RelPath) (value : List Char) : Option RelPath :=
  (literalRepoPath repo value).or <|
    if value.head? = some '/' then none
    else literalRepoPath repo (asPosix (parent codePath ++ pathOf value))

/-- `_path_expression_parts`. -/
def pathExpressionParts : Expr → List (List Char)
  | .div left right => pathExpressionParts left ++ pathExpressionParts right
  | .const (.str text) =>
    let value := normalizeRelpath text
    if plainPath value then
      (if value.head? = some '/' then [['/']] else []) ++ pathOf value
    else []
  | _ => []

def literalValues : Item → List (List Char)
  | .expr (.const (.str value)) => [value]
  | .expr (.div left right) =>
    let parts := pathExpressionParts (.div left right)
    if parts = [] then [] else [List.intercalate ['/'] parts]
  | _ => []

/-- `_project_literal_path_dependencies`. -/
def projectLiteralPathDependencies (codePaths : List RelPath) : List RelPath :=
  (codePaths.flatMap fun path =>
    ((repo.tree path).map fun tree =>
      (tree.walk.flatMap literalValues).filterMap (literalDependency repo path)).getD []).eraseDups

/-! Paths beside a file. -/

/-- `_norm_join`. -/
def normJoin (base : RelPath) (parts : List (List Char)) : RelPath :=
  (parts.flatMap fun part => (forwardSlashes part).splitOn '/').foldl (fun current segment =>
    if segment = [] ∨ segment = ['.'] then current
    else if segment = "..".toList then current.dropLast
    else current ++ [segment]) base

/-- `_static_string`. -/
def staticString : Expr → Option (List Char)
  | .const (.str value) => some value
  | _ => none

/-- `_call_leaf`. -/
def callLeaf : Expr → List Char
  | .name id => id
  | .attribute _ attr => attr
  | _ => []

/-- The value of an attribute: that of the function of `path.resolve()`. -/
def attributeValue : Expr → Option Expr
  | .attribute value _ => some value
  | _ => none

def wrappers : List (List Char) := ["abspath", "realpath", "normpath", "resolve"].map String.toList

def pathClasses : List (List Char) := ["Path", "PurePath", "PurePosixPath"].map String.toList

abbrev Env := List (List Char × RelPath)

/-- `_file_relative_origin`. -/
def fileRelativeOrigin (env : Env) (codePath : RelPath) : Expr → Option RelPath
  | .name id => if id = "__file__".toList then some codePath else env.lookup id
  | .attribute value attr =>
    if attr = "parent".toList then (fileRelativeOrigin env codePath value).map parent else none
  | .call func (first :: rest) _ =>
    let leaf := callLeaf func
    if leaf ∈ wrappers then fileRelativeOrigin env codePath first
    else if leaf = "dirname".toList then (fileRelativeOrigin env codePath first).map parent
    else if leaf ∈ pathClasses then fileRelativeOrigin env codePath first
    else if leaf = "join".toList then
      (fileRelativeOrigin env codePath first).bind fun origin =>
        (rest.mapM staticString).map (normJoin origin)
    else none
  | .call (.attribute value attr) [] _ =>
    if attr = "resolve".toList then fileRelativeOrigin env codePath value else none
  | .call _ [] _ => none
  | .div left right | .add left right =>
    (fileRelativeOrigin env codePath left).bind fun origin =>
      (staticString right).map fun suffix => normJoin origin [suffix]
  | .joined (.formatted value :: rest) =>
    (fileRelativeOrigin env codePath value).bind fun origin =>
      (rest.mapM staticString).map fun parts => if parts = [] then origin else normJoin origin parts
  | _ => none

/-- `_file_relative_names`. -/
def fileRelativeNames (tree : Tree) (codePath : RelPath) : Env :=
  tree.walk.foldl (fun env item =>
    match item with
    | .assign targets value =>
      match fileRelativeOrigin env codePath value with
      | none => env
      | some origin => targets.foldl (fun env target =>
          match target with
          | .name id => (id, origin) :: env
          | _ => env) env
    | .annAssign (.name id) (some value) =>
      match fileRelativeOrigin env codePath value with
      | none => env
      | some origin => (id, origin) :: env
    | _ => env) []

/-- The parts of a path with each `..` resolved; `none` where one leads out of the repository. -/
def resolveParts : RelPath → RelPath → Option RelPath
  | parts, [] => some parts
  | parts, part :: rest =>
    if part = [] ∨ part = ['.'] then resolveParts parts rest
    else if part = "..".toList then
      if parts = [] then none else resolveParts parts.dropLast rest
    else resolveParts (parts ++ [part]) rest

/-- `_existing_repo_path`. -/
def existingRepoPath (relative : RelPath) : Option RelPath :=
  (resolveParts [] relative).filter fun parts => !parts.isEmpty && repo.present parts

/-- `_file_relative_path_dependencies`. -/
def fileRelativePathDependencies (codePaths : List RelPath) : List RelPath :=
  (codePaths.flatMap fun path =>
    ((repo.tree path).map fun tree =>
      tree.walk.filterMap fun
        | .expr e =>
          (fileRelativeOrigin (fileRelativeNames tree path) path e).bind (existingRepoPath repo)
        | _ => none).getD []).eraseDups

/-! Resources. -/

/-- `_EXCLUDED_ROOTS`. -/
def excludedRoots : List (List Char) :=
  [".git", ".mypy_cache", ".pytest_cache", ".tox", ".uta_cache", ".venv", "__pycache__", "build",
    "dist", "mutants", "test", "tests", "venv"].map String.toList

/-- The first part of a literal that may be a path in the repository. -/
def referencedRoot (value : List Char) : Option (List Char) :=
  let normalized := forwardSlashes (PyText.strip value)
  if normalized = [] ∨ "://".toList <:+: normalized ∨ normalized.head? = some '/' then none
  else some ((dropDotSlash normalized).takeWhile (· ≠ '/'))

/-- `_referenced_project_resource_roots`. -/
def referencedProjectResourceRoots (codePaths : List RelPath) : List RelPath :=
  let referenced := codePaths.flatMap fun path =>
    ((repo.tree path).map fun tree => tree.walk.filterMap fun
      | .expr (.const (.str value)) => referencedRoot value
      | _ => none).getD []
  (sortPaths (repo.dirs.filter fun dir => decide (dir.length = 1))).filter fun dir =>
    !decide (dir.headD [] ∈ excludedRoots) && decide (dir.headD [] ∈ referenced) &&
      !repo.containsPythonSources dir

/-! Fixtures. -/

/-- `_dotted_name`. -/
def dottedName : Expr → List Char
  | .name id => id
  | .attribute value attr =>
    let front := dottedName value
    if front = [] then attr else front ++ '.' :: attr
  | _ => []

/-- `_usefixtures_names`. -/
def usefixturesNames (f : FunctionDef) : List (List Char) :=
  f.decorators.flatMap fun
    | .call func args _ => if "usefixtures".toList <:+ dottedName func then args.filterMap staticString else []
    | _ => []

/-- The name and the `autouse` that the keywords of a fixture give it. -/
def fixtureKeywords (keywords : List (Option (List Char) × Expr)) (name : List Char) : List Char × Bool :=
  keywords.foldl (fun found keyword =>
    match keyword with
    | (some arg, .const c) =>
      let named := match c with
        | .str value => if arg = "name".toList then value else found.1
        | _ => found.1
      let auto := if arg = "autouse".toList then (match c with | .bool value => value | _ => false) else found.2
      (named, auto)
    | _ => found) (name, false)

/-- `_pytest_fixture_metadata`. -/
def pytestFixtureMetadata (f : FunctionDef) : Option (List Char × Bool) :=
  f.decorators.findSome? fun
    | .call func _ keywords =>
      if "fixture".toList <:+ dottedName func then some (fixtureKeywords keywords f.name) else none
    | target => if "fixture".toList <:+ dottedName target then some (f.name, false) else none

/-- The fixtures of the conftests, a later one in the place of an earlier of its name. -/
abbrev Fixtures := List (List Char × List (List Char))

def conftestFunctions (conftests : List RelPath) : List FunctionDef :=
  conftests.flatMap fun path => ((repo.tree path).map Tree.functions).getD []

def fixturesOf (functions : List FunctionDef) : Fixtures :=
  (functions.filterMap fun f => (pytestFixtureMetadata f).map fun data => (data.1, f.args)).reverse

/-- What the tests and the automatic fixtures ask for. -/
def initiallyRequested (tests conftests : List RelPath) : List (List Char) :=
  (tests.flatMap fun path => ((repo.tree path).map fun tree => tree.walk.flatMap fun
    | .function f => if "test".toList <+: f.name then f.args ++ usefixturesNames f else []
    | _ => []).getD []) ++
  (conftestFunctions repo conftests).filterMap fun f =>
    (pytestFixtureMetadata f).bind fun data => if data.2 then some data.1 else none

/-- The fixtures that the requested ones ask for in turn, each once. -/
def requestAll (fixtures : Fixtures) : ℕ → List (List Char) → List (List Char) → List (List Char)
  | 0, requested, _ => requested
  | _ + 1, requested, [] => requested
  | fuel + 1, requested, name :: pending =>
    match fixtures.lookup name with
    | none => requestAll fixtures fuel requested pending
    | some dependencies =>
      let new := (dependencies.filter (· ∉ requested)).dedup
      requestAll fixtures fuel (requested ++ new) (new ++ pending)

/-- `_selected_tests_need_conftest`. -/
def selectedTestsNeedConftest (tests conftests : List RelPath) : Bool :=
  let fixtures := fixturesOf (conftestFunctions repo conftests)
  let requested := (initiallyRequested repo tests conftests).dedup
  let fuel := requested.length + (fixtures.map fun f => f.2.length).sum
  (requestAll fixtures fuel requested requested).any fun name => (fixtures.lookup name).isSome

/-- Following the fixtures never changes the answer: what is not a fixture of a conftest asks for
nothing. -/
theorem requestAll_any (fixtures : Fixtures) (fuel : ℕ) (requested pending : List (List Char))
    (listed : ∀ name ∈ pending, name ∈ requested) :
    ((requestAll fixtures fuel requested pending).any fun name => (fixtures.lookup name).isSome) =
      requested.any fun name => (fixtures.lookup name).isSome := by
  induction fuel generalizing requested pending with
  | zero => rfl
  | succ fuel ih =>
      cases pending with
      | nil => rfl
      | cons name pending =>
          have rest : ∀ name ∈ pending, name ∈ requested := fun other member =>
            listed other (List.mem_cons_of_mem name member)
          unfold requestAll
          cases found : fixtures.lookup name with
          | none => exact ih requested pending rest
          | some dependencies =>
              dsimp only
              rw [ih]
              · rw [List.any_append]
                have asked : requested.any (fun name => (fixtures.lookup name).isSome) = true :=
                  List.any_eq_true.mpr ⟨name, listed name List.mem_cons_self, by rw [found]; rfl⟩
                rw [asked, Bool.true_or]
              · intro other member
                rcases List.mem_append.mp member with new | later
                · exact List.mem_append_right _ new
                · exact List.mem_append_left _ (rest other later)

/-- The conftests are needed where a test asks for one of their fixtures, or one is automatic. -/
theorem selectedTestsNeedConftest_iff (tests conftests : List RelPath) :
    selectedTestsNeedConftest repo tests conftests = true ↔
      ∃ name ∈ initiallyRequested repo tests conftests,
        ((fixturesOf (conftestFunctions repo conftests)).lookup name).isSome = true := by
  rw [selectedTestsNeedConftest, requestAll_any _ _ _ _ fun _ member => member, List.any_eq_true]
  simp only [List.mem_dedup]

/-! Conftests. -/

def conftestName : List Char := "conftest.py".toList

/-- `_pytest_conftest_paths`. -/
def pytestConftestPaths (tests : List RelPath) : List RelPath :=
  sortPaths ((tests.flatMap fun test => (ancestry (parent test)).map (· ++ [conftestName])).filter
    fun p => repo.isFile p)

/-- A test that mutmut copies itself. -/
def inTestRoot (p : RelPath) : Bool := p.head? == some "test".toList || p.head? == some "tests".toList

/-- `_active_pytest_conftest_paths`. -/
def activePytestConftestPaths (tests : List RelPath) : List RelPath :=
  let conftests := pytestConftestPaths repo tests
  if conftests = [] then []
  else if tests.any inTestRoot then conftests
  else if selectedTestsNeedConftest repo tests conftests then conftests else []

end Literal
end Uta.Workspace
