/- The repository that a mutation workspace is cut out of: its paths, and what is read
from the syntax of its files. -/
import Mathlib
import Uta.Lib.PyText

namespace Uta.Workspace
open Uta.Lib

/-! Paths. -/

/-- The parts of a path relative to the repository. -/
abbrev RelPath := List (List Char)

/-- Paths are compared by their parts. -/
instance lawfulPath : LawfulBEq RelPath := inferInstance

/-- `Path(text)`. -/
def pathOf (text : List Char) : RelPath :=
  (text.splitOn '/').filter fun part => !part.isEmpty && part != ['.']

/-- `path.as_posix()`. -/
def asPosix (path : RelPath) : List Char :=
  if path = [] then ['.'] else List.intercalate ['/'] path

/-- `path.parent`. -/
def parent (path : RelPath) : RelPath := path.dropLast

/-- A path and its parents, up to the repository. -/
def ancestry (path : RelPath) : List RelPath := path.inits.reverse

def dropDotSlash : List Char → List Char
  | '.' :: '/' :: rest => dropDotSlash rest
  | text => text

def forwardSlashes (text : List Char) : List Char := text.map fun c => if c = '\\' then '/' else c

/-- `normalize_relpath`. -/
def normalizeRelpath (path : List Char) : List Char :=
  dropDotSlash (forwardSlashes (PyText.strip path))

/-- The stem and the suffix of a file name. -/
def splitName (name : List Char) : List Char × List Char :=
  let after := (name.reverse.takeWhile (· ≠ '.')).reverse
  let dot := name.length - after.length - 1
  if '.' ∈ name ∧ 0 < dot ∧ after ≠ [] then (name.take dot, '.' :: after) else (name, [])

/-- `path.suffix`. -/
def suffix (path : RelPath) : List Char := (path.getLast?.map fun name => (splitName name).2).getD []

/-- `path.with_suffix(suffix)`, which raises on a path without a name. -/
def withSuffix (path : RelPath) (suffix : List Char) : Option RelPath :=
  path.getLast?.map fun name => path.dropLast ++ [(splitName name).1 ++ suffix]

/-- `path_contains`. -/
def pathContains (parent child : RelPath) : Bool := decide (parent <+: child)

def sortPaths (paths : List RelPath) : List RelPath :=
  paths.dedup.mergeSort fun p q => decide (p ≤ q)

/-! Syntax. -/

inductive Const where
  | str (value : List Char)
  | bool (value : Bool)
  | other

/-- The expressions that are looked into; a call has its keywords with their names. -/
inductive Expr where
  | name (id : List Char)
  | attribute (value : Expr) (attr : List Char)
  | call (func : Expr) (args : List Expr) (keywords : List (Option (List Char) × Expr))
  | div (left right : Expr)
  | add (left right : Expr)
  | joined (values : List Expr)
  | formatted (value : Expr)
  | const (value : Const)
  | other

/-- A function with its positional and keyword-only parameters. -/
structure FunctionDef where
  name : List Char
  args : List (List Char)
  decorators : List Expr

inductive Item where
  | imports (names : List (List Char))
  | importFrom (module : List Char) (level : ℕ) (names : List (List Char))
  | function (f : FunctionDef)
  | assign (targets : List Expr) (value : Expr)
  | annAssign (target : Expr) (value : Option Expr)
  | expr (e : Expr)

/-- A parsed file: what `ast.walk` yields, in its order, and the functions of the module's body. -/
structure Tree where
  walk : List Item
  functions : List FunctionDef

/-- A repository; a file that cannot be read or parsed has no tree. -/
structure Repo where
  files : List RelPath
  dirs : List RelPath
  tree : RelPath → Option Tree
  parsed : ∀ p, tree p ≠ none → p ∈ files

namespace Repo
variable (repo : Repo)

def isFile (p : RelPath) : Bool := decide (p ∈ repo.files)

def isDir (p : RelPath) : Bool := p.isEmpty || decide (p ∈ repo.dirs)

def present (p : RelPath) : Bool := repo.isFile p || repo.isDir p

/-- `_contains_python_sources`. -/
def containsPythonSources (p : RelPath) : Bool :=
  repo.files.any fun file => pathContains p file && decide (file ≠ p) && suffix file == ".py".toList

end Repo

/-! Imports. -/

/-- `_imported_modules`. -/
def importedModules (tree : Tree) : List (List Char × ℕ) :=
  tree.walk.flatMap fun
    | .imports names => names.map fun name => (name, 0)
    | .importFrom module level names =>
      (module, level) :: (names.filter fun name => decide (name ≠ ['*'])).map fun name =>
        (if module = [] then name else module ++ '.' :: name, level)
    | _ => []

def moduleParts (name : List Char) : List (List Char) :=
  (name.splitOn '.').filter fun part => !part.isEmpty

/-- `_literal_module_names`; `isIdentifier` is `str.isidentifier`. -/
def literalModuleNames (isIdentifier : List Char → Bool) (tree : Tree) : List (List Char) :=
  tree.walk.filterMap fun
    | .expr (.const (.str text)) =>
      let value := PyText.strip text
      let parts := value.splitOn '.'
      if 1 < parts.length ∧ parts.all isIdentifier then some value else none
    | _ => none

section Resolve
variable (repo : Repo)

def initName : List Char := "__init__.py".toList

/-- The first of the candidates that is a module or a package. -/
def firstModule : List RelPath → Option (Option RelPath)
  | [] => some none
  | candidate :: rest =>
    match withSuffix candidate ".py".toList with
    | none => none
    | some file =>
      if repo.isFile file then some (some file)
      else if repo.isFile (candidate ++ [initName]) then some (some (candidate ++ [initName]))
      else firstModule rest

/-- The places where a module is looked for. -/
def candidates (importer : RelPath) (parts : List (List Char)) (level : ℕ) : List RelPath :=
  let package := parent importer
  if level ≠ 0 then
    if level - 1 ≤ package.length then [package.take (package.length - (level - 1)) ++ parts] else []
  else
    ((List.range package.length).reverse.map fun depth => package.take (depth + 1) ++ parts) ++
      [parts, "src".toList :: parts]

/-- `_resolve_project_module`; the outer `none` is a `ValueError`, for a relative import of
nothing from the repository itself. -/
def resolveProjectModule (importer : RelPath) (name : List Char) (level : ℕ) :
    Option (Option RelPath) :=
  firstModule repo (candidates importer (moduleParts name) level)

/-- `_resolve_literal_project_module`: the longest front of the name that is a module. -/
def resolveLiteral (importer : RelPath) (parts : List (List Char)) : ℕ → Option (Option RelPath)
  | 0 => some none
  | length + 1 =>
    match firstModule repo (candidates importer (parts.take (length + 1)) 0) with
    | some none => resolveLiteral importer parts length
    | resolved => resolved

/-- `_package_initializers`. -/
def packageInitializers (path : RelPath) : List RelPath :=
  ((ancestry (parent path)).filter (· ≠ [])).filterMap fun dir =>
    if repo.isFile (dir ++ [initName]) then some (dir ++ [initName]) else none

variable (isIdentifier : List Char → Bool)

/-- The project modules that a file names, in the order in which they are looked up. -/
def targets (path : RelPath) (tree : Tree) : Option (List RelPath) := do
  let imported ← (importedModules tree).mapM fun m => resolveProjectModule repo path m.1 m.2
  let literal ← (literalModuleNames isIdentifier tree).mapM fun name =>
    resolveLiteral repo path (moduleParts name) (moduleParts name).length
  pure (imported ++ literal).reduceOption

/-- What is put in line for a module: the module, and the initializers of its packages. -/
def withInitializers (path : RelPath) : List RelPath := path :: packageInitializers repo path

end Resolve
end Uta.Workspace
