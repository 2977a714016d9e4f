/- The files that are copied into a mutation workspace: all that the selected code can
import, and never the target of the mutation. -/
import Uta.Workspace.Paths
import Uta.Lib.Search

namespace Uta.Workspace
open Uta.Lib

/-! The closure of the imports. -/

section Closure
variable (repo : Repo) (isIdentifier : List Char → Bool)

/-- The project modules that a file names, if it can be read. -/
def named (path : RelPath) : Option (List RelPath) :=
  match repo.tree path with
  | none => some []
  | some tree => targets repo isIdentifier path tree

/-- What is put in line at a file: the modules that have not been visited, with their initializers. -/
def linedUp (visited : List RelPath) (path : RelPath) : List RelPath :=
  (((named repo isIdentifier path).getD []).filter (· ∉ visited)).flatMap (withInitializers repo)

/-- The dependencies, with the new ones among the resolved modules. -/
def noted (dependencies fresh : List RelPath) : List RelPath :=
  fresh.foldl (fun known p => if p ∈ known then known else known ++ [p]) dependencies

structure Closure where
  search : Search RelPath
  dependencies : List RelPath

/-- A turn of the loop; `none` is a `ValueError`. -/
def Closure.step (c : Closure) : Option Closure :=
  match c.search.pending with
  | [] => some c
  | current :: rest =>
    if current ∈ c.search.visited then some { c with search := ⟨rest, c.search.visited⟩ }
    else
      let visited := c.search.visited ++ [current]
      (named repo isIdentifier current).map fun resolved =>
        let fresh := resolved.filter (· ∉ visited)
        { search := ⟨rest ++ fresh.flatMap (withInitializers repo), visited⟩
          dependencies := noted c.dependencies fresh }

def Closure.run : ℕ → Closure → Option Closure
  | 0, c => some c
  | fuel + 1, c => (c.step repo isIdentifier).bind (Closure.run fuel)

/-- The most that a file puts in line. -/
def degree (path : RelPath) : ℕ :=
  (((named repo isIdentifier path).getD []).flatMap (withInitializers repo)).length

/-- `_project_import_closure`. -/
def projectImportClosure (roots : List RelPath) : Option (List RelPath) :=
  let start : Search RelPath := ⟨roots.flatMap (withInitializers repo), []⟩
  (Closure.run repo isIdentifier (start.cost (degree repo isIdentifier) repo.files) ⟨start, []⟩).map
    Closure.dependencies

/-- A file imports a module of the project, by a statement or by a literal, or a package above it. -/
def Imports (p q : RelPath) : Prop :=
  ∃ r ∈ (named repo isIdentifier p).getD [], q ∈ withInitializers repo r

/-! What the closure finds. -/

theorem mem_packageInitializers {path q : RelPath} : q ∈ packageInitializers repo path ↔
    ∃ dir, dir <+: parent path ∧ dir ≠ [] ∧ repo.isFile (dir ++ [initName]) = true ∧
      q = dir ++ [initName] := by
  simp only [packageInitializers, ancestry, List.mem_filterMap, List.mem_filter, List.mem_reverse,
    List.mem_inits, decide_eq_true_eq, Option.ite_none_right_eq_some, Option.some.injEq]
  constructor
  · rintro ⟨dir, ⟨above, some_⟩, file, rfl⟩
    exact ⟨dir, above, some_, file, rfl⟩
  · rintro ⟨dir, above, some_, file, rfl⟩
    exact ⟨dir, ⟨above, some_⟩, file, rfl⟩

theorem packageInitializers_mono {p q : RelPath} (above : parent p <+: parent q) {z : RelPath}
    (member : z ∈ packageInitializers repo p) : z ∈ packageInitializers repo q := by
  obtain ⟨dir, front, rest⟩ := (mem_packageInitializers repo).mp member
  exact (mem_packageInitializers repo).mpr ⟨dir, front.trans above, rest⟩

/-- The initializers of a file's initializers are its own. -/
theorem packageInitializers_trans {path q z : RelPath} (first : q ∈ packageInitializers repo path)
    (second : z ∈ packageInitializers repo q) : z ∈ packageInitializers repo path := by
  obtain ⟨dir, front, -, -, rfl⟩ := (mem_packageInitializers repo).mp first
  refine packageInitializers_mono repo ?_ second
  rwa [parent, List.dropLast_concat]

theorem mem_withInitializers {path q : RelPath} :
    q ∈ withInitializers repo path ↔ q = path ∨ q ∈ packageInitializers repo path := List.mem_cons

theorem withInitializers_closed {paths : List RelPath} {q : RelPath}
    (member : q ∈ paths.flatMap (withInitializers repo)) {z : RelPath}
    (joined : z ∈ packageInitializers repo q) : z ∈ paths.flatMap (withInitializers repo) := by
  obtain ⟨path, listed, inside⟩ := List.mem_flatMap.mp member
  refine List.mem_flatMap.mpr ⟨path, listed, (mem_withInitializers repo).mpr (.inr ?_)⟩
  rcases (mem_withInitializers repo).mp inside with rfl | above
  · exact joined
  · exact packageInitializers_trans repo above joined

theorem linedUp_follows : Search.Follows (linedUp repo isIdentifier) (Imports repo isIdentifier)
    (packageInitializers repo) where
  sound := by
    intro visited p q member
    obtain ⟨r, fresh, inside⟩ := List.mem_flatMap.mp member
    exact ⟨r, (List.mem_filter.mp fresh).1, inside⟩
  complete := by
    rintro visited p q ⟨r, member, inside⟩
    by_cases known : r ∈ visited
    · exact .inr ⟨r, known, (mem_withInitializers repo).mp inside⟩
    · exact .inl (List.mem_flatMap.mpr ⟨r, List.mem_filter.mpr ⟨member, by simpa using known⟩, inside⟩)
  together := fun _ _ _ member _ joined => withInitializers_closed repo member joined

theorem linedUp_length (visited : List RelPath) (path : RelPath) :
    (linedUp repo isIdentifier visited path).length ≤ degree repo isIdentifier path :=
  (List.filter_sublist.flatMap _).length_le

/-- A file outside the repository puts nothing in line. -/
theorem degree_outside {path : RelPath} (outside : path ∉ repo.files) :
    degree repo isIdentifier path = 0 := by
  have unread : repo.tree path = none := by
    by_contra read
    exact outside (repo.parsed path read)
  have nothing : named repo isIdentifier path = some [] := by rw [named, unread]
  rw [degree, nothing]
  rfl

theorem Closure.step_search {c c' : Closure} (stepped : c.step repo isIdentifier = some c') :
    c'.search = c.search.step (linedUp repo isIdentifier) := by
  unfold Closure.step at stepped
  unfold Search.step
  cases line : c.search.pending with
  | nil =>
      rw [line] at stepped
      cases stepped
      rfl
  | cons current rest =>
      rw [line] at stepped
      dsimp only at stepped ⊢
      by_cases seen : current ∈ c.search.visited
      · rw [if_pos seen] at stepped ⊢
        cases stepped
        rfl
      · rw [if_neg seen] at stepped ⊢
        obtain ⟨resolved, found, rfl⟩ := Option.map_eq_some_iff.mp stepped
        rw [linedUp, found]
        rfl

theorem Closure.run_search {fuel : ℕ} {c c' : Closure}
    (ran : Closure.run repo isIdentifier fuel c = some c') :
    c'.search = (Search.step (linedUp repo isIdentifier))^[fuel] c.search := by
  induction fuel generalizing c with
  | zero =>
      cases ran
      rfl
  | succ fuel ih =>
      obtain ⟨middle, stepped, later⟩ := Option.bind_eq_some_iff.mp ran
      rw [ih later, Function.iterate_succ_apply, Closure.step_search repo isIdentifier stepped]

theorem mem_noted {known fresh : List RelPath} {p : RelPath} :
    p ∈ noted known fresh ↔ p ∈ known ∨ p ∈ fresh := by
  induction fresh generalizing known with
  | nil => simp [noted]
  | cons q fresh ih =>
      rw [noted, List.foldl_cons, ← noted, ih, List.mem_cons]
      by_cases before : q ∈ known
      · rw [if_pos before]
        refine ⟨Or.imp id .inr, ?_⟩
        rintro (old | rfl | new)
        · exact .inl old
        · exact .inl before
        · exact .inr new
      · rw [if_neg before, List.mem_append, List.mem_singleton, or_assoc]

theorem firstModule_file {candidates : List RelPath} {p : RelPath}
    (found : firstModule repo candidates = some (some p)) : repo.isFile p = true := by
  induction candidates with
  | nil => cases found
  | cons candidate rest ih =>
      rw [firstModule] at found
      split at found
      · cases found
      · split_ifs at found
        · next here =>
            cases found
            exact here
        · next here =>
            cases found
            exact here
        · exact ih found

theorem resolveLiteral_file {importer : RelPath} {parts : List (List Char)} {length : ℕ} {p : RelPath}
    (found : resolveLiteral repo importer parts length = some (some p)) : repo.isFile p = true := by
  induction length with
  | zero => cases found
  | succ length ih =>
      rw [resolveLiteral] at found
      split at found
      · exact ih found
      · exact firstModule_file repo found

theorem resolved_file {β : Type} {f : β → Option (Option RelPath)}
    (each : ∀ b p, f b = some (some p) → repo.isFile p = true) (l : List β)
    {found : List (Option RelPath)} (all : l.mapM f = some found) :
    ∀ p, some p ∈ found → repo.isFile p = true := by
  induction l generalizing found with
  | nil =>
      cases all
      exact fun _ none_ => absurd none_ List.not_mem_nil
  | cons b l ih =>
      rw [List.mapM_cons] at all
      obtain ⟨first, head, all⟩ := Option.bind_eq_some_iff.mp all
      obtain ⟨later, tail, all⟩ := Option.bind_eq_some_iff.mp all
      cases all
      intro p member
      rcases List.mem_cons.mp member with rfl | member
      · exact each b p head
      · exact ih tail p member

/-- The modules that a file names are files. -/
theorem named_files {path : RelPath} {modules : List RelPath}
    (found : named repo isIdentifier path = some modules) : ∀ p ∈ modules, repo.isFile p = true := by
  unfold named at found
  split at found
  · cases found
    exact fun _ none_ => absurd none_ List.not_mem_nil
  · obtain ⟨imported, first, found⟩ := Option.bind_eq_some_iff.mp found
    obtain ⟨literal, second, found⟩ := Option.bind_eq_some_iff.mp found
    cases found
    intro p member
    rcases List.mem_append.mp (List.reduceOption_mem_iff.mp member) with early | late
    · exact resolved_file repo (fun _ _ resolved => firstModule_file repo resolved) _ first p early
    · exact resolved_file repo (fun _ _ resolved => resolveLiteral_file repo resolved) _ second p late

/-- The files in the search are the roots and the dependencies, with their initializers. -/
structure Accounts (roots : List RelPath) (c : Closure) : Prop where
  known : ∀ p, p ∈ c.search.visited ∨ p ∈ c.search.pending →
    p ∈ (roots ++ c.dependencies).flatMap (withInitializers repo)
  kept : ∀ p ∈ c.dependencies, p ∈ c.search.visited ∨ p ∈ c.search.pending
  files : ∀ p ∈ c.dependencies, repo.isFile p = true

theorem accounts_start (roots : List RelPath) :
    Accounts repo roots ⟨⟨roots.flatMap (withInitializers repo), []⟩, []⟩ where
  known := by
    intro p member
    rw [List.append_nil]
    exact member.resolve_left List.not_mem_nil
  kept := fun _ none_ => absurd none_ List.not_mem_nil
  files := fun _ none_ => absurd none_ List.not_mem_nil

theorem Accounts.step {roots : List RelPath} {c c' : Closure} (accounts : Accounts repo roots c)
    (stepped : c.step repo isIdentifier = some c') : Accounts repo roots c' := by
  obtain ⟨⟨pending, visited⟩, dependencies⟩ := c
  cases pending with
  | nil =>
      cases stepped
      exact accounts
  | cons current rest =>
      by_cases seen : current ∈ visited
      · have same : c' = ⟨⟨rest, visited⟩, dependencies⟩ := by
          rw [Closure.step] at stepped
          dsimp only at stepped
          rw [if_pos seen] at stepped
          exact (Option.some.inj stepped).symm
        subst same
        refine ⟨fun p member => accounts.known p (member.imp id (List.mem_cons_of_mem _)), ?_,
          accounts.files⟩
        intro p member
        rcases accounts.kept p member with before | later
        · exact .inl before
        · rcases List.mem_cons.mp later with rfl | later
          · exact .inl seen
          · exact .inr later
      · rw [Closure.step] at stepped
        dsimp only at stepped
        rw [if_neg seen] at stepped
        obtain ⟨resolved, found, rfl⟩ := Option.map_eq_some_iff.mp stepped
        have more : ∀ {p q : RelPath}, q ∈ withInitializers repo p →
            p ∈ roots ++ dependencies ∨ p ∈ resolved.filter (· ∉ visited ++ [current]) →
            q ∈ (roots ++ noted dependencies (resolved.filter (· ∉ visited ++ [current]))).flatMap
              (withInitializers repo) := by
          intro p q inside listed
          refine List.mem_flatMap.mpr ⟨p, List.mem_append.mpr ?_, inside⟩
          rcases listed with old | new
          · exact (List.mem_append.mp old).imp id fun old => mem_noted.mpr (.inl old)
          · exact .inr (mem_noted.mpr (.inr new))
        have old : ∀ {p : RelPath}, p ∈ visited ∨ p ∈ current :: rest →
            p ∈ (roots ++ noted dependencies (resolved.filter (· ∉ visited ++ [current]))).flatMap
              (withInitializers repo) := by
          intro p member
          obtain ⟨q, listed, inside⟩ := List.mem_flatMap.mp (accounts.known p member)
          exact more inside (.inl listed)
        constructor
        · rintro p (before | later)
          · rcases List.mem_append.mp before with before | here
            · exact old (.inl before)
            · exact old (.inr (List.mem_singleton.mp here ▸ List.mem_cons_self))
          · rcases List.mem_append.mp later with later | new
            · exact old (.inr (List.mem_cons_of_mem _ later))
            · obtain ⟨q, fresh, inside⟩ := List.mem_flatMap.mp new
              exact more inside (.inr fresh)
        · intro p member
          rcases mem_noted.mp member with known | fresh
          · rcases accounts.kept p known with before | later
            · exact .inl (List.mem_append_left _ before)
            · rcases List.mem_cons.mp later with rfl | later
              · exact .inl (List.mem_append_right _ (List.mem_singleton_self _))
              · exact .inr (List.mem_append_left _ later)
          · exact .inr (List.mem_append_right _ (List.mem_flatMap.mpr
              ⟨p, fresh, (mem_withInitializers repo).mpr (.inl rfl)⟩))
        · intro p member
          rcases mem_noted.mp member with known | fresh
          · exact accounts.files p known
          · exact named_files repo isIdentifier found p (List.mem_filter.mp fresh).1

theorem Accounts.run {roots : List RelPath} {fuel : ℕ} {c c' : Closure}
    (accounts : Accounts repo roots c) (ran : Closure.run repo isIdentifier fuel c = some c') :
    Accounts repo roots c' := by
  induction fuel generalizing c with
  | zero =>
      cases ran
      exact accounts
  | succ fuel ih =>
      obtain ⟨middle, stepped, later⟩ := Option.bind_eq_some_iff.mp ran
      exact ih (accounts.step repo isIdentifier stepped) later

/-- The closure ends with all that the roots import, however far: what is reached is the roots and
the dependencies, and the initializers of their packages. -/
theorem projectImportClosure_reaches {roots dependencies : List RelPath}
    (closed : projectImportClosure repo isIdentifier roots = some dependencies) (p : RelPath) :
    Reached (Imports repo isIdentifier) (roots.flatMap (withInitializers repo)) p ↔
      p ∈ (roots ++ dependencies).flatMap (withInitializers repo) := by
  obtain ⟨c, ran, rfl⟩ := Option.map_eq_some_iff.mp closed
  have search := Closure.run_search repo isIdentifier ran
  have started : Search.Going (Imports repo isIdentifier) (packageInitializers repo)
      (roots.flatMap (withInitializers repo)) ⟨roots.flatMap (withInitializers repo), []⟩ :=
    Search.going_start fun r root y joined => withInitializers_closed repo root joined
  have going : Search.Going (Imports repo isIdentifier) (packageInitializers repo)
      (roots.flatMap (withInitializers repo)) c.search := by
    rw [search]
    exact started.steps (linedUp_follows repo isIdentifier) _
  have done : c.search.pending = [] := by
    rw [search]
    exact Search.steps_done (linedUp_length repo isIdentifier)
      (fun x outside => degree_outside repo isIdentifier outside) _ _ le_rfl
  have accounts : Accounts repo roots c := (accounts_start repo roots).run repo isIdentifier ran
  rw [← going.visited_iff done p]
  have stay : ∀ {q : RelPath}, q ∈ c.search.visited ∨ q ∈ c.search.pending → q ∈ c.search.visited :=
    fun member => member.resolve_right (done ▸ List.not_mem_nil)
  refine ⟨fun visited => accounts.known p (.inl visited), fun member => ?_⟩
  obtain ⟨q, listed, inside⟩ := List.mem_flatMap.mp member
  have here : q ∈ c.search.visited := by
    rcases List.mem_append.mp listed with root | dependency
    · exact stay (going.rooted q (List.mem_flatMap.mpr ⟨q, root, (mem_withInitializers repo).mpr (.inl rfl)⟩))
    · exact stay (accounts.kept q dependency)
  rcases (mem_withInitializers repo).mp inside with rfl | above
  · exact here
  · exact stay (going.together q (.inl here) p above)

theorem projectImportClosure_files {roots dependencies : List RelPath}
    (closed : projectImportClosure repo isIdentifier roots = some dependencies) :
    ∀ p ∈ dependencies, repo.isFile p = true := by
  obtain ⟨c, ran, rfl⟩ := Option.map_eq_some_iff.mp closed
  exact ((accounts_start repo roots).run repo isIdentifier ran).files

end Closure

def inPackage (name : String) : RelPath := ["pkg".toList, name.toList]

/-- A target that imports a module beside it, in a package. -/
def pairRepo : Repo where
  files := [inPackage "__init__.py", inPackage "a.py", inPackage "b.py"]
  dirs := [["pkg".toList]]
  tree := fun p => if p = inPackage "a.py" then some ⟨[.imports ["pkg.b".toList]], []⟩ else none
  parsed := by
    intro p read
    split at read
    next same => exact same ▸ .tail _ (.head _)
    next => exact absurd rfl read

/-! The copied files. -/

/-- The selected code: the target, and its tests as a set, listed in some order of its own. -/
structure Selection where
  source : RelPath
  tests : List RelPath
  enumerated : List RelPath
  same : ∀ p, p ∈ enumerated ↔ p ∈ tests

section Copy
variable (repo : Repo) (isIdentifier : List Char → Bool) (sel : Selection)

/-- `Path(normalize_relpath(path.as_posix()))`. -/
def normal (path : RelPath) : RelPath := pathOf (normalizeRelpath (asPosix path))

/-- `add` takes a path, after it has been normalized. -/
def Takes (path : RelPath) (allowSelectedTest : Bool) : Prop :=
  path ≠ [] ∧ path.headD [] ∉ excludedRoots ∧ path ≠ [initName] ∧ path ≠ sel.source ∧
    (path ∈ sel.tests → allowSelectedTest = true) ∧ pathContains path sel.source = false

instance (path : RelPath) (allow : Bool) : Decidable (Takes sel path allow) :=
  inferInstanceAs (Decidable (_ ∧ _ ∧ _ ∧ _ ∧ _ ∧ _))

/-- `add`. -/
def add (result : List (List Char)) (request : RelPath × Bool) : List (List Char) :=
  let path := normal request.1
  if Takes sel path request.2 ∧ asPosix path ∉ result then result ++ [asPosix path] else result

def sortedTests : List RelPath := sortPaths sel.tests

/-- The code that is looked into for paths. -/
def codePaths (dependencies : List RelPath) : List RelPath :=
  sel.source :: sortedTests sel ++ dependencies

/-- A path named in the code, unless it is a directory of Python sources. -/
def pathRequests (dependencies : List RelPath) : List RelPath :=
  ((projectLiteralPathDependencies repo (codePaths sel dependencies) ++
    fileRelativePathDependencies repo (codePaths sel dependencies)).filter fun p =>
      !(repo.isDir p && repo.containsPythonSources p)).flatMap (withInitializers repo)

/-- The paths that are handed to `add`, in their order, with `allow_selected_test`. -/
def requests (conftests dependencies : List RelPath) : List (RelPath × Bool) :=
  conftests.map (·, false) ++
  ((sortedTests sel).filter fun test => !test.isEmpty && !inTestRoot test).map (·, true) ++
  (dependencies.flatMap (withInitializers repo) ++
    pathRequests repo sel dependencies ++
    packageInitializers repo sel.source ++
    sel.enumerated.flatMap (packageInitializers repo) ++
    referencedProjectResourceRoots repo (codePaths sel dependencies)).map (·, false)

def importRoots : List RelPath :=
  sel.source :: sortedTests sel ++ activePytestConftestPaths repo sel.tests

/-- `mutation_support_copy_paths`. -/
def mutationSupportCopyPaths : Option (List (List Char)) :=
  (projectImportClosure repo isIdentifier (importRoots repo sel)).map fun dependencies =>
    (requests repo sel (activePytestConftestPaths repo sel.tests) dependencies).foldl (add sel) []

/-! What is copied. -/

theorem mem_add {result : List (List Char)} {r : RelPath × Bool} {v : List Char} :
    v ∈ add sel result r ↔ v ∈ result ∨ Takes sel (normal r.1) r.2 ∧ v = asPosix (normal r.1) := by
  unfold add
  dsimp only
  by_cases taken : Takes sel (normal r.1) r.2
  · by_cases known : asPosix (normal r.1) ∈ result
    · rw [if_neg fun both => both.2 known]
      refine ⟨.inl, ?_⟩
      rintro (old | ⟨-, rfl⟩)
      · exact old
      · exact known
    · rw [if_pos ⟨taken, known⟩, List.mem_append, List.mem_singleton]
      exact or_congr_right ⟨fun new => ⟨taken, new⟩, And.right⟩
  · rw [if_neg fun both => taken both.1]
    exact ⟨.inl, fun either => either.resolve_right fun both => taken both.1⟩

theorem mem_foldl_add {asked : List (RelPath × Bool)} {result : List (List Char)} {v : List Char} :
    v ∈ asked.foldl (add sel) result ↔
      v ∈ result ∨ ∃ r ∈ asked, Takes sel (normal r.1) r.2 ∧ v = asPosix (normal r.1) := by
  induction asked generalizing result with
  | nil => simp
  | cons r asked ih => rw [List.foldl_cons, ih, mem_add, List.exists_mem_cons_iff, or_assoc]

theorem add_nodup {result : List (List Char)} (distinct : result.Nodup) (r : RelPath × Bool) :
    (add sel result r).Nodup := by
  unfold add
  dsimp only
  split
  next fresh =>
    refine List.nodup_append.mpr ⟨distinct, List.nodup_singleton _, ?_⟩
    rintro v old w new rfl
    exact fresh.2 (List.mem_singleton.mp new ▸ old)
  next => exact distinct

theorem foldl_add_nodup {asked : List (RelPath × Bool)} {result : List (List Char)}
    (distinct : result.Nodup) : (asked.foldl (add sel) result).Nodup := by
  induction asked generalizing result with
  | nil => exact distinct
  | cons r asked ih => exact ih (add_nodup sel distinct r)

theorem mem_sortPaths {paths : List RelPath} {p : RelPath} : p ∈ sortPaths paths ↔ p ∈ paths :=
  List.mem_mergeSort.trans List.mem_dedup

/-- A conftest stands above one of the tests. -/
theorem conftest_above {tests : List RelPath} {p : RelPath}
    (active : p ∈ activePytestConftestPaths repo tests) :
    repo.isFile p = true ∧ ∃ test ∈ tests, parent p <+: parent test := by
  have listed : p ∈ pytestConftestPaths repo tests := by
    unfold activePytestConftestPaths at active
    dsimp only at active
    split_ifs at active
    · exact absurd active List.not_mem_nil
    · exact active
    · exact active
    · exact absurd active List.not_mem_nil
  obtain ⟨somewhere, file⟩ := List.mem_filter.mp (mem_sortPaths.mp listed)
  obtain ⟨test, member, inside⟩ := List.mem_flatMap.mp somewhere
  obtain ⟨dir, above, rfl⟩ := List.mem_map.mp inside
  refine ⟨file, test, member, ?_⟩
  rw [parent, List.dropLast_concat]
  exact List.mem_inits _ _ |>.mp (List.mem_reverse.mp above)

/-- A file that the code reaches by imports is asked for, unless it is the target or a test. -/
theorem reached_requested {dependencies : List RelPath}
    (closed : projectImportClosure repo isIdentifier (importRoots repo sel) = some dependencies)
    {p : RelPath} (reached : Reached (Imports repo isIdentifier)
      ((importRoots repo sel).flatMap (withInitializers repo)) p)
    (target : p ≠ sel.source) (test : p ∉ sel.tests) :
    (p, false) ∈ requests repo sel (activePytestConftestPaths repo sel.tests) dependencies := by
  obtain ⟨q, listed, inside⟩ :=
    List.mem_flatMap.mp ((projectImportClosure_reaches repo isIdentifier closed p).mp reached)
  have late : p ∈ dependencies.flatMap (withInitializers repo) ∨
      p ∈ packageInitializers repo sel.source ∨
      p ∈ sel.enumerated.flatMap (packageInitializers repo) →
      (p, false) ∈ requests repo sel (activePytestConftestPaths repo sel.tests) dependencies := by
    intro place
    refine List.mem_append_right _ (List.mem_map.mpr ⟨p, ?_, rfl⟩)
    simp only [List.mem_append]
    tauto
  have beside : ∀ t ∈ sel.tests, p ∈ packageInitializers repo t →
      (p, false) ∈ requests repo sel (activePytestConftestPaths repo sel.tests) dependencies :=
    fun t member above =>
      late (.inr (.inr (List.mem_flatMap.mpr ⟨t, (sel.same t).mpr member, above⟩)))
  rcases List.mem_append.mp listed with root | dependency
  · rcases List.mem_append.mp root with code | conftest
    · rcases List.mem_cons.mp code with rfl | sorted
      · exact late (.inr (.inl (((mem_withInitializers repo).mp inside).resolve_left target)))
      · have member : q ∈ sel.tests := mem_sortPaths.mp sorted
        refine beside q member (((mem_withInitializers repo).mp inside).resolve_left ?_)
        rintro rfl
        exact test member
    · rcases (mem_withInitializers repo).mp inside with rfl | above
      · exact List.mem_append_left _ (List.mem_append_left _ (List.mem_map.mpr ⟨p, conftest, rfl⟩))
      · obtain ⟨-, t, member, front⟩ := conftest_above repo conftest
        exact beside t member (packageInitializers_mono repo front above)
  · exact late (.inl (List.mem_flatMap.mpr ⟨q, dependency, inside⟩))

/-- All that the target, the tests and the active conftests import, however far, is copied, but for
what must not be. -/
theorem imports_copied {copied : List (List Char)}
    (found : mutationSupportCopyPaths repo isIdentifier sel = some copied) {p : RelPath}
    (reached : Reached (Imports repo isIdentifier)
      ((importRoots repo sel).flatMap (withInitializers repo)) p)
    (target : p ≠ sel.source) (test : p ∉ sel.tests) (taken : Takes sel (normal p) false) :
    asPosix (normal p) ∈ copied := by
  obtain ⟨dependencies, closed, rfl⟩ := Option.map_eq_some_iff.mp found
  exact (mem_foldl_add sel).mpr (.inr
    ⟨_, reached_requested repo isIdentifier sel closed reached target test, taken, rfl⟩)

theorem packageInitializers_present {path p : RelPath} (member : p ∈ packageInitializers repo path) :
    repo.present p = true := by
  obtain ⟨dir, -, -, file, rfl⟩ := (mem_packageInitializers repo).mp member
  exact Bool.or_eq_true_iff.mpr (.inl file)

theorem withInitializers_present {path p : RelPath} (here : repo.present path = true)
    (member : p ∈ withInitializers repo path) : repo.present p = true := by
  rcases (mem_withInitializers repo).mp member with rfl | above
  · exact here
  · exact packageInitializers_present repo above

theorem literalRepoPath_present {value : List Char} {p : RelPath}
    (found : literalRepoPath repo value = some p) : repo.present p = true := by
  unfold literalRepoPath at found
  dsimp only at found
  split_ifs at found with _ _ _ here
  cases found
  exact here

theorem literalDependency_present {code p : RelPath} {value : List Char}
    (found : literalDependency repo code value = some p) : repo.present p = true := by
  unfold literalDependency at found
  rcases Option.or_eq_some_iff.mp found with direct | ⟨-, beside⟩
  · exact literalRepoPath_present repo direct
  · split_ifs at beside
    exact literalRepoPath_present repo beside

theorem existingRepoPath_present {relative p : RelPath} (found : existingRepoPath repo relative = some p) :
    repo.present p = true :=
  (Bool.and_eq_true_iff.mp (Option.filter_eq_some_iff.mp found).2).2

theorem projectLiteralPathDependencies_present {codes : List RelPath} {p : RelPath}
    (member : p ∈ projectLiteralPathDependencies repo codes) : repo.present p = true := by
  obtain ⟨code, -, inside⟩ := List.mem_flatMap.mp (List.mem_eraseDups.mp member)
  cases read : repo.tree code with
  | none =>
      rw [read] at inside
      exact absurd inside List.not_mem_nil
  | some tree =>
      rw [read] at inside
      obtain ⟨value, -, found⟩ := List.mem_filterMap.mp inside
      exact literalDependency_present repo found

theorem fileRelativePathDependencies_present {codes : List RelPath} {p : RelPath}
    (member : p ∈ fileRelativePathDependencies repo codes) : repo.present p = true := by
  obtain ⟨code, -, inside⟩ := List.mem_flatMap.mp (List.mem_eraseDups.mp member)
  cases read : repo.tree code with
  | none =>
      rw [read] at inside
      exact absurd inside List.not_mem_nil
  | some tree =>
      rw [read] at inside
      obtain ⟨item, -, found⟩ := List.mem_filterMap.mp inside
      split at found
      · obtain ⟨relative, -, existing⟩ := Option.bind_eq_some_iff.mp found
        exact existingRepoPath_present repo existing
      · cases found

theorem resourceRoots_present {codes : List RelPath} {p : RelPath}
    (member : p ∈ referencedProjectResourceRoots repo codes) : repo.present p = true := by
  have listed : p ∈ repo.dirs :=
    (List.mem_filter.mp (mem_sortPaths.mp (List.mem_filter.mp member).1)).1
  refine Bool.or_eq_true_iff.mpr (.inr (Bool.or_eq_true_iff.mpr (.inr ?_)))
  exact decide_eq_true listed

/-- Only what is there is asked for, and the selected tests outside the test roots. -/
theorem requests_present {dependencies : List RelPath}
    (files : ∀ p ∈ dependencies, repo.isFile p = true) {r : RelPath × Bool}
    (member : r ∈ requests repo sel (activePytestConftestPaths repo sel.tests) dependencies) :
    repo.present r.1 = true ∧ r.2 = false ∨ r.1 ∈ sel.tests ∧ inTestRoot r.1 = false := by
  rcases List.mem_append.mp member with early | late
  · rcases List.mem_append.mp early with conftest | test
    · obtain ⟨p, active, rfl⟩ := List.mem_map.mp conftest
      exact .inl ⟨Bool.or_eq_true_iff.mpr (.inl (conftest_above repo active).1), rfl⟩
    · obtain ⟨p, listed, rfl⟩ := List.mem_map.mp test
      obtain ⟨sorted, outside⟩ := List.mem_filter.mp listed
      have apart := (Bool.and_eq_true_iff.mp outside).2
      exact .inr ⟨mem_sortPaths.mp sorted, by simpa using apart⟩
  · obtain ⟨p, listed, rfl⟩ := List.mem_map.mp late
    refine .inl ⟨?_, rfl⟩
    simp only [List.mem_append, or_assoc] at listed
    rcases listed with dependency | path | above | above | resource
    · obtain ⟨q, known, inside⟩ := List.mem_flatMap.mp dependency
      exact withInitializers_present repo (Bool.or_eq_true_iff.mpr (.inl (files q known))) inside
    · obtain ⟨q, kept, inside⟩ := List.mem_flatMap.mp path
      refine withInitializers_present repo ?_ inside
      rcases List.mem_append.mp (List.mem_filter.mp kept).1 with literal | relative
      · exact projectLiteralPathDependencies_present repo literal
      · exact fileRelativePathDependencies_present repo relative
    · exact packageInitializers_present repo above
    · obtain ⟨test, -, above⟩ := List.mem_flatMap.mp above
      exact packageInitializers_present repo above
    · exact resourceRoots_present repo resource

/-- Nothing is copied twice, and nothing over the target: what is copied is there, or is a selected
test that mutmut does not copy itself; it is not the target, nor above it, nor the marker of the
repository's own package, nor in an excluded directory. -/
theorem mutationSupportCopyPaths_safe {copied : List (List Char)}
    (found : mutationSupportCopyPaths repo isIdentifier sel = some copied) :
    copied.Nodup ∧ ∀ v ∈ copied, ∃ p, v = asPosix (normal p) ∧
      (repo.present p = true ∧ normal p ∉ sel.tests ∨ p ∈ sel.tests ∧ inTestRoot p = false) ∧
      normal p ≠ [] ∧ (normal p).headD [] ∉ excludedRoots ∧ normal p ≠ [initName] ∧
      ¬ normal p <+: sel.source := by
  obtain ⟨dependencies, closed, rfl⟩ := Option.map_eq_some_iff.mp found
  refine ⟨foldl_add_nodup sel List.nodup_nil, fun v member => ?_⟩
  have files := projectImportClosure_files repo isIdentifier closed
  obtain ⟨⟨p, allowed⟩, asked, taken, rfl⟩ :=
    ((mem_foldl_add sel).mp member).resolve_left List.not_mem_nil
  obtain ⟨some_, root, marker, -, tests, apart⟩ := taken
  refine ⟨p, rfl, ?_, some_, root, marker, of_decide_eq_false apart⟩
  refine (requests_present repo sel files asked).imp (fun ⟨here, unselected⟩ => ⟨here, fun test => ?_⟩) id
  exact Bool.noConfusion (unselected.symm.trans (tests test))

end Copy

def pairSelection : Selection := ⟨inPackage "a.py", [], [], fun _ => Iff.rfl⟩

theorem pair_copied : mutationSupportCopyPaths pairRepo (fun _ => true) pairSelection =
    some ["pkg/b.py".toList, "pkg/__init__.py".toList] := by decide +kernel

theorem imports_copied_pair :
    asPosix (normal (inPackage "b.py")) ∈ ["pkg/b.py".toList, "pkg/__init__.py".toList] := by
  have imports : Imports pairRepo (fun _ => true) (inPackage "a.py") (inPackage "b.py") :=
    ⟨inPackage "b.py", by decide +kernel, List.mem_cons_self⟩
  exact imports_copied pairRepo (fun _ => true) pairSelection pair_copied
    ⟨inPackage "a.py", by decide +kernel, .single imports⟩ (by decide) (by decide) (by decide +kernel)

theorem mutationSupportCopyPaths_safe_pair :
    ["pkg/b.py".toList, "pkg/__init__.py".toList].Nodup ∧
      ∀ v ∈ ["pkg/b.py".toList, "pkg/__init__.py".toList], ∃ p, v = asPosix (normal p) ∧
        (pairRepo.present p = true ∧ normal p ∉ pairSelection.tests ∨
          p ∈ pairSelection.tests ∧ inTestRoot p = false) ∧
        normal p ≠ [] ∧ (normal p).headD [] ∉ excludedRoots ∧ normal p ≠ [initName] ∧
        ¬ normal p <+: pairSelection.source :=
  mutationSupportCopyPaths_safe pairRepo (fun _ => true) pairSelection pair_copied

end Uta.Workspace
