/- What the publisher of an RDC repair hands to the Git publisher: the test paths to commit, and
the roots to clean up before that. -/
import Uta.Lib.Lines
import Mathlib.Data.List.Sort
import Mathlib.Data.String.Basic
import Mathlib.Tactic.Common

namespace Uta.Delivery

/-- A path relative to the repository, as Git prints it. -/
abbrev RepoPath := List Char

structure RdcDeliveryContext where
  branchName : String
  repoTaskId : Option ℤ
  rdcTaskId : String
  rdcRecordId : String
  jiraKey : String
  classFqns : Option (List String)
  commitPaths : Option (List RepoPath)

structure RdcPublishResult where
  commitSha : String
  remoteRef : String
  pushedAt : String
  changedPaths : List RepoPath
  reused : Bool

/-- `value or default`, of a text. -/
def textOr (value default : String) : String := if value = "" then default else value

/-- `_commit_message`. -/
def commitMessage (context : RdcDeliveryContext) : String :=
  let jira := textOr (textOr context.jiraKey context.rdcTaskId) "rdc"
  let classFqns := ", ".intercalate (context.classFqns.getD [])
  let trailers := [
    "Generated-by: unit-test-agent",
    "RDC-Task-Id: " ++ textOr context.rdcTaskId "-",
    "RDC-Record-Id: " ++ textOr context.rdcRecordId "-",
    "Jira: " ++ textOr context.jiraKey "-",
    "UTA-Repo-Task-Id: " ++ (context.repoTaskId.elim "-" toString),
    "UTA-Classes: " ++ textOr classFqns "-"]
  "uta: repair unit tests for " ++ jira ++ "\n\n" ++ "\n".intercalate trailers

/-! Paths. -/

/-- `_normalize_path`. -/
def normalizePath (path : RepoPath) : RepoPath :=
  (path.map fun c => if c = '\\' then '/' else c).dropWhile (· = '/')

/-- The directories of a run's own files, in the order in which they are looked for. -/
def runtimeDirs : List RepoPath :=
  [".sisyphus".toList, ".uta_cache".toList, ".uta_reports".toList,
    ".tmp_train_server_test".toList, "target".toList, "build".toList, ".gradle".toList,
    "mutants".toList]

/-- The root of one path in `_cleanup_roots`. -/
def cleanupRoot (path : RepoPath) : RepoPath :=
  let parts := (normalizePath path).splitOn '/'
  match runtimeDirs.find? fun marker => decide (marker ∈ parts) with
  | some marker => ['/'].intercalate (parts.take (parts.idxOf marker + 1))
  | none => normalizePath path

/-- `_cleanup_roots`. -/
def cleanupRoots (paths : List RepoPath) : List RepoPath := (paths.map cleanupRoot).eraseDups

/-- `_contains_segment_sequence`. -/
def containsSegmentSequence (parts expected : List RepoPath) : Bool :=
  (List.range (parts.length + 1 - expected.length)).any fun index =>
    (parts.drop index).take expected.length = expected

/-- `_is_package_local_python_test_path`. -/
def isPackageLocalPythonTestPath (parts : List RepoPath) : Bool :=
  if parts.dropLast.any fun part => part = "test".toList ∨ part = "tests".toList then
    let filename := parts.getLast?.getD []
    decide (filename = "conftest.py".toList ∨
      (".py".toList <:+ filename ∧
        ("test_".toList <+: filename ∨ "_test.py".toList <:+ filename)))
  else false

/-- `is_allowed_rdc_test_path`. -/
def isAllowedRdcTestPath (path : RepoPath) : Bool :=
  let normalized := normalizePath path
  let parts := normalized.splitOn '/'
  if normalized = "pom.xml".toList ∨ "/pom.xml".toList <:+ normalized then true
  else if normalized = "pyproject.toml".toList then true
  else if ['.'] <+: normalized then false
  else if containsSegmentSequence parts ["src".toList, "test".toList] then true
  else if parts.head? = some "tests".toList ∨ parts.head? = some "test".toList then true
  else isPackageLocalPythonTestPath parts

/-- `is_ignored_rdc_runtime_artifact`. -/
def isIgnoredRdcRuntimeArtifact (path : RepoPath) : Bool :=
  let normalized := normalizePath path
  ((normalized.splitOn '/').any fun part => decide (part ∈ runtimeDirs)) ||
    decide (normalized = ".coverage".toList ∨ normalized = ".uta_summary.md".toList ∨
      normalized = "opencode.json".toList)

/-! Publishing. -/

structure BotIdentity where
  name : String
  email : String

structure GitPublishRequest where
  branch : String
  paths : List RepoPath
  cleanupPaths : List RepoPath
  message : String
  identity : BotIdentity
  allowPath : RepoPath → Bool
  publicationId : String

/-- What the Git publisher answers. -/
inductive PublicationOutcome where
  | noPublicationChanges
  | pushedPublication (commitSha remoteSha committedAt : String) (changedPaths : List RepoPath)
  | reusedPublication (remoteSha : String)
  | other (typeName : String)

inductive PublishError where
  | pushPolicy (message : String)
  | pushConflict (message : String)
  | type (message : String)

/-- The Git publisher of a checkout: what it sees changed there, and what it makes of a request. -/
structure GitScopedPublisher where
  changedPaths : List RepoPath
  publish : GitPublishRequest → Except PublishError PublicationOutcome

/-- `hashlib.sha256(text.encode("utf-8")).hexdigest()`, and the time of the publication. -/
structure PublishEnv where
  sha256 : String → String
  now : String

structure RdcRepairPublisher where
  identity : BotIdentity
  publisher : GitScopedPublisher

/-- What a publication leaves behind: the request it handed over, if any, and how it ended. -/
structure Publication where
  handed : Option GitPublishRequest
  result : Except PublishError RdcPublishResult

/-- `_publication_id`. -/
def publicationId (env : PublishEnv) (context : RdcDeliveryContext) : String :=
  let taskId := match context.repoTaskId with
    | none => ""
    | some id => if id = 0 then "" else toString id
  env.sha256 ("\x00".intercalate
    ([context.branchName, context.rdcTaskId, context.rdcRecordId, context.jiraKey, taskId] ++
      (context.classFqns.getD []).insertionSort (· ≤ ·)))

namespace RdcDeliveryContext
variable (context : RdcDeliveryContext)

def requestedPaths : List RepoPath :=
  ((context.commitPaths.getD []).filter (· ≠ [])).map normalizePath

end RdcDeliveryContext

def ignoredPaths (changed : List RepoPath) : List RepoPath :=
  changed.filter isIgnoredRdcRuntimeArtifact

def committableCandidates (changed : List RepoPath) : List RepoPath :=
  changed.filter (· ∉ ignoredPaths changed)

def committablePaths (context : RdcDeliveryContext) (changed : List RepoPath) : List RepoPath :=
  if context.commitPaths.isSome then
    (committableCandidates changed).filter (normalizePath · ∈ context.requestedPaths)
  else committableCandidates changed

def cleanupPaths (context : RdcDeliveryContext) (changed : List RepoPath) : List RepoPath :=
  if context.commitPaths.isSome then
    (committableCandidates changed).filter (normalizePath · ∉ context.requestedPaths)
  else []

namespace RdcRepairPublisher

def noTestChanges : PublishError :=
  .pushPolicy "RDC repair delivery found no test changes to commit"

/-- What is made of the answer of the Git publisher. -/
def publishResult (env : PublishEnv) :
    Except PublishError PublicationOutcome → Except PublishError RdcPublishResult
  | .error e => .error e
  | .ok .noPublicationChanges => .error noTestChanges
  | .ok (.pushedPublication commitSha remoteSha committedAt changedPaths) =>
    .ok {
      commitSha := commitSha
      remoteRef := remoteSha
      pushedAt := committedAt
      changedPaths := changedPaths
      reused := false }
  | .ok (.reusedPublication remoteSha) =>
    .ok {
      commitSha := remoteSha
      remoteRef := remoteSha
      pushedAt := env.now
      changedPaths := []
      reused := true }
  | .ok (.other typeName) => .error (.type ("unexpected Git publication outcome: " ++ typeName))

/-- `RdcRepairPublisher.publish`. -/
def publish (self : RdcRepairPublisher) (env : PublishEnv) (context : RdcDeliveryContext) :
    Publication :=
  let changed := self.publisher.changedPaths
  let committable := committablePaths context changed
  let disallowed := committable.filter fun path => !isAllowedRdcTestPath path
  if disallowed ≠ [] then
    { handed := none
      result := .error (.pushPolicy
        ("RDC repair delivery refused non-test or UTA artifact diffs: " ++
          ", ".intercalate (disallowed.map String.ofList))) }
  else if committable = [] then { handed := none, result := .error noTestChanges }
  else
    let request : GitPublishRequest := {
      branch := context.branchName
      paths := committable
      cleanupPaths := cleanupRoots (ignoredPaths changed ++ cleanupPaths context changed)
      message := commitMessage context
      identity := self.identity
      allowPath := isAllowedRdcTestPath
      publicationId := publicationId env context }
    { handed := some request, result := publishResult env (self.publisher.publish request) }

end RdcRepairPublisher

/-! Segments of paths. -/

/-- The names along a path. -/
def segments (path : RepoPath) : List RepoPath := (path.splitOn '/').filter (· ≠ [])

/-- A root takes in a path: it names the path, or a directory above it. -/
def Covers (root path : RepoPath) : Prop := segments root <+: segments path

instance (root path : RepoPath) : Decidable (Covers root path) :=
  inferInstanceAs (Decidable (_ <+: _))

theorem splitOn_map_intercalate {f : Char → Char} (slash : f '/' = '/') {parts : List RepoPath}
    (full : parts ≠ []) : ((['/'].intercalate parts).map f).splitOn '/' =
      parts.flatMap fun part => (part.map f).splitOn '/' := by
  induction parts with
  | nil => exact absurd rfl full
  | cons part rest ih =>
      cases rest with
      | nil => rw [List.intercalate_singleton, List.flatMap_singleton]
      | cons next rest =>
          rw [List.intercalate_cons_cons, List.append_assoc, List.map_append, List.singleton_append,
            List.map_cons, slash, List.splitOn_append_cons_self, ih (by simp)]
          rfl

/-- Cutting a text at more places leaves a part whole that none of them lies in. -/
theorem mem_splitOn_map {f : Char → Char} (slash : f '/' = '/') {path part : RepoPath}
    (kept : part.map f = part) (solid : '/' ∉ part) (member : part ∈ path.splitOn '/') :
    part ∈ (path.map f).splitOn '/' := by
  have cut := splitOn_map_intercalate slash (List.splitOn_ne_nil '/' path)
  rw [List.intercalate_splitOn] at cut
  rw [cut]
  exact List.mem_flatMap.mpr ⟨part, member, by rw [kept, List.splitOn_eq_singleton solid]; simp⟩

theorem mem_splitOn_dropWhile {path part : RepoPath} (full : part ≠ [])
    (member : part ∈ path.splitOn '/') : part ∈ (path.dropWhile (· = '/')).splitOn '/' := by
  induction path with
  | nil => exact member
  | cons c rest ih =>
      by_cases slash : c = '/'
      · rw [List.splitOn_cons_eq_if_modifyHead, if_pos (by simp [slash])] at member
        rw [List.dropWhile_cons_of_pos (by simp [slash])]
        exact ih ((List.mem_cons.mp member).resolve_left full)
      · rw [List.dropWhile_cons_of_neg (by simp [slash])]
        exact member

/-- A directory of a run is a name: not empty, and with no separator in it. -/
theorem runtimeDirs_plain {marker : RepoPath} (own : marker ∈ runtimeDirs) :
    marker ≠ [] ∧ '/' ∉ marker ∧ '\\' ∉ marker := by
  have all : runtimeDirs.all fun m => decide (m ≠ [] ∧ '/' ∉ m ∧ '\\' ∉ m) := by decide
  simpa using List.all_eq_true.mp all marker own

theorem mem_splitOn_normalizePath {path marker : RepoPath} (own : marker ∈ runtimeDirs)
    (member : marker ∈ path.splitOn '/') : marker ∈ (normalizePath path).splitOn '/' := by
  obtain ⟨full, solid, plain⟩ := runtimeDirs_plain own
  have kept : marker.map (fun c => if c = '\\' then '/' else c) = marker := by
    conv_rhs => rw [← List.map_id marker]
    refine List.map_congr_left fun c there => if_neg ?_
    rintro rfl
    exact plain there
  exact mem_splitOn_dropWhile full (mem_splitOn_map rfl kept solid member)

/-- A path that has a directory of a run among its names is ignored. -/
theorem isIgnored_of_mem {path marker : RepoPath} (own : marker ∈ runtimeDirs)
    (member : marker ∈ segments path) : isIgnoredRdcRuntimeArtifact path = true := by
  have part := mem_splitOn_normalizePath own (List.mem_filter.mp member).1
  unfold isIgnoredRdcRuntimeArtifact
  rw [Bool.or_eq_true]
  exact .inl (List.any_eq_true.mpr ⟨marker, part, decide_eq_true own⟩)

/-- The cleanup of a path is cut at a directory of a run if the path has one. -/
def Cut (path : RepoPath) : Prop := ∃ marker ∈ runtimeDirs, marker ∈ (normalizePath path).splitOn '/'

instance (path : RepoPath) : Decidable (Cut path) := inferInstanceAs (Decidable (∃ _ ∈ _, _))

theorem cleanupRoot_of_not_cut {path : RepoPath} (whole : ¬ Cut path) :
    cleanupRoot path = normalizePath path := by
  have none_ : (runtimeDirs.find? fun m => decide (m ∈ (normalizePath path).splitOn '/')) = none := by
    rw [List.find?_eq_none]
    intro m own there
    exact whole ⟨m, own, of_decide_eq_true there⟩
  rw [cleanupRoot, none_]

/-- The parts of a root that was cut. -/
theorem splitOn_intercalate_take (path : RepoPath) (n : ℕ) :
    (['/'].intercalate ((path.splitOn '/').take (n + 1))).splitOn '/' =
      (path.splitOn '/').take (n + 1) := by
  refine List.splitOn_intercalate '/' ?_ ?_
  · intro part member
    exact (Lib.PyText.mem_splitOn (List.mem_of_mem_take member)).1
  · rw [Ne, List.take_eq_nil_iff]
    rintro (none_ | none_)
    · omega
    · exact List.splitOn_ne_nil '/' path none_

/-- A root that was cut ends in a directory of a run. -/
theorem segments_cleanupRoot {path : RepoPath} (cut : Cut path) :
    ∃ marker ∈ runtimeDirs, marker ∈ segments (cleanupRoot path) := by
  obtain ⟨m, own, there⟩ := cut
  cases found : runtimeDirs.find? fun m => decide (m ∈ (normalizePath path).splitOn '/') with
  | none => exact absurd (decide_eq_true there) (List.find?_eq_none.mp found m own)
  | some marker =>
      have own := List.mem_of_find?_eq_some found
      have there := List.find?_some found
      have there : marker ∈ (normalizePath path).splitOn '/' := of_decide_eq_true there
      refine ⟨marker, own, List.mem_filter.mpr ⟨?_, decide_eq_true (runtimeDirs_plain own).1⟩⟩
      rw [cleanupRoot, found]
      show marker ∈ (['/'].intercalate _).splitOn '/'
      rw [splitOn_intercalate_take]
      exact List.mem_take_iff_getElem.mpr
        ⟨_, by have := List.idxOf_lt_length_of_mem there; omega, List.getElem_idxOf _⟩

/-- A root that was cut takes in paths of a run only. -/
theorem isIgnored_of_covers {left path : RepoPath} (cut : Cut left)
    (covers : Covers (cleanupRoot left) path) : isIgnoredRdcRuntimeArtifact path = true := by
  obtain ⟨marker, own, member⟩ := segments_cleanupRoot cut
  exact isIgnored_of_mem own (covers.subset member)

/-! What a publication commits, and what it cleans up. -/

/-- The delivery asks for a path: by name, or without naming any. -/
def RdcDeliveryContext.Requests (context : RdcDeliveryContext) (path : RepoPath) : Prop :=
  ∀ named, context.commitPaths = some named → ∃ p ∈ named, p ≠ [] ∧ normalizePath p = normalizePath path

/-- A request that commits what was asked for and allowed, and cleans up none of it. -/
structure GitPublishRequest.Safe (context : RdcDeliveryContext) (request : GitPublishRequest) :
    Prop where
  requested : ∀ p ∈ request.paths, context.Requests p
  allowed : ∀ p ∈ request.paths, isAllowedRdcTestPath p = true
  committable : ∀ p ∈ request.paths, isIgnoredRdcRuntimeArtifact p = false
  kept : ∀ root ∈ request.cleanupPaths, ∀ p ∈ request.paths, ¬ Covers root p

section Paths
variable {context : RdcDeliveryContext} {changed : List RepoPath} {path : RepoPath}

theorem mem_committableCandidates : path ∈ committableCandidates changed ↔
    path ∈ changed ∧ isIgnoredRdcRuntimeArtifact path = false := by
  unfold committableCandidates ignoredPaths
  rw [List.mem_filter, decide_eq_true_eq, List.mem_filter]
  constructor
  · rintro ⟨member, kept⟩
    exact ⟨member, Bool.eq_false_iff.mpr fun ignored => kept ⟨member, ignored⟩⟩
  · rintro ⟨member, kept⟩
    exact ⟨member, fun ignored => by rw [kept] at ignored; cases ignored.2⟩

theorem requests_iff : context.Requests path ↔
    context.commitPaths.isSome = true → normalizePath path ∈ context.requestedPaths := by
  unfold RdcDeliveryContext.Requests RdcDeliveryContext.requestedPaths
  cases context.commitPaths with
  | none => simp
  | some named => simp [and_assoc]

theorem mem_committablePaths : path ∈ committablePaths context changed ↔
    path ∈ changed ∧ isIgnoredRdcRuntimeArtifact path = false ∧ context.Requests path := by
  unfold committablePaths
  rw [requests_iff]
  split
  · next named => rw [List.mem_filter, mem_committableCandidates]; simp [named, and_assoc]
  · next open_ => rw [mem_committableCandidates]; simp [open_]

/-- What is cleaned up is what changed and is not committed. -/
theorem mem_cleaned : path ∈ ignoredPaths changed ++ cleanupPaths context changed ↔
    path ∈ changed ∧ path ∉ committablePaths context changed := by
  have ignored : path ∈ ignoredPaths changed ↔
      path ∈ changed ∧ isIgnoredRdcRuntimeArtifact path = true := List.mem_filter
  have cleaned : path ∈ cleanupPaths context changed ↔
      path ∈ changed ∧ isIgnoredRdcRuntimeArtifact path = false ∧ ¬ context.Requests path := by
    unfold cleanupPaths
    rw [requests_iff]
    split
    · next named => rw [List.mem_filter, mem_committableCandidates]; simp [named, and_assoc]
    · next open_ => simp [open_]
  rw [List.mem_append, ignored, cleaned, mem_committablePaths]
  cases isIgnoredRdcRuntimeArtifact path
  · simp
    tauto
  · simp

theorem mem_cleanupRoots {root : RepoPath} {paths : List RepoPath} :
    root ∈ cleanupRoots paths ↔ ∃ p ∈ paths, cleanupRoot p = root := by
  rw [cleanupRoots, List.mem_eraseDups, List.mem_map]

/-- A committed path lies under a root only where the root is a path left out in full. -/
theorem covered_iff : (∃ root ∈ cleanupRoots (ignoredPaths changed ++ cleanupPaths context changed),
      Covers root path) ∧ path ∈ committablePaths context changed ↔
    (∃ left ∈ changed, left ∉ committablePaths context changed ∧ ¬ Cut left ∧
      Covers (normalizePath left) path) ∧ path ∈ committablePaths context changed := by
  refine and_congr_left fun committed => ?_
  have notIgnored := (mem_committablePaths.mp committed).2.1
  constructor
  · rintro ⟨root, isRoot, covers⟩
    obtain ⟨left, cleaned, rfl⟩ := mem_cleanupRoots.mp isRoot
    obtain ⟨member, out⟩ := mem_cleaned.mp cleaned
    by_cases cut : Cut left
    · rw [isIgnored_of_covers cut covers] at notIgnored
      cases notIgnored
    · rw [cleanupRoot_of_not_cut cut] at covers
      exact ⟨left, member, out, cut, covers⟩
  · rintro ⟨left, member, out, whole, covers⟩
    refine ⟨_, mem_cleanupRoots.mpr ⟨left, mem_cleaned.mpr ⟨member, out⟩, rfl⟩, ?_⟩
    rw [cleanupRoot_of_not_cut whole]
    exact covers

end Paths

namespace RdcRepairPublisher
variable (self : RdcRepairPublisher) (env : PublishEnv) (context : RdcDeliveryContext)

/-- The delivery is refused: it would commit a path that is no test path. -/
def Refuses : Prop :=
  ∃ p ∈ committablePaths context self.publisher.changedPaths, isAllowedRdcTestPath p = false

/-- No path that is left out in full names a path to commit, or a directory above it. -/
def Apart : Prop :=
  ∀ left ∈ self.publisher.changedPaths,
    left ∉ committablePaths context self.publisher.changedPaths → ¬ Cut left →
      ∀ p ∈ committablePaths context self.publisher.changedPaths, ¬ Covers (normalizePath left) p

variable {self env context} in
/-- The request that a publication hands over, unless it is refused. -/
theorem handed_cases :
    ((self.publish env context).handed = none ∧ (self.Refuses context ∨
      committablePaths context self.publisher.changedPaths = [])) ∨
    ∃ request, (self.publish env context).handed = some request ∧ ¬ self.Refuses context ∧
      request.paths = committablePaths context self.publisher.changedPaths ∧
      request.cleanupPaths = cleanupRoots (ignoredPaths self.publisher.changedPaths ++
        cleanupPaths context self.publisher.changedPaths) := by
  unfold publish
  dsimp only
  split
  · next refused =>
      obtain ⟨p, member⟩ := List.exists_mem_of_ne_nil _ refused
      obtain ⟨member, other⟩ := List.mem_filter.mp member
      exact .inl ⟨rfl, .inl ⟨p, member, by simpa using other⟩⟩
  · next allowed =>
      split
      · next none_ => exact .inl ⟨rfl, .inr none_⟩
      · refine .inr ⟨_, rfl, ?_, rfl, rfl⟩
        rintro ⟨p, member, other⟩
        rw [not_not, List.filter_eq_nil_iff] at allowed
        exact allowed p member (by rw [other]; rfl)

/-- A publication is safe exactly where it is refused, or no path that it leaves out in full
is a directory above a path that it commits. -/
theorem publish_safe_iff :
    (∀ request, (self.publish env context).handed = some request → request.Safe context) ↔
      self.Refuses context ∨ self.Apart context := by
  rcases handed_cases with ⟨nothing, why⟩ | ⟨request, handed, allowed, paths, roots⟩
  · refine iff_of_true (fun request handed => by rw [nothing] at handed; cases handed) ?_
    refine why.imp_right fun empty left member out whole p committed => ?_
    rw [empty] at committed
    cases committed
  · constructor
    · intro safe
      refine .inr fun left member out whole p committed covers => ?_
      obtain ⟨⟨root, isRoot, under⟩, -⟩ := covered_iff.mpr
        ⟨⟨left, member, out, whole, covers⟩, committed⟩
      refine (safe request handed).kept root ?_ p ?_ under
      · rw [roots]
        exact isRoot
      · rw [paths]
        exact committed
    · intro apart request' handed'
      obtain rfl : request = request' := Option.some.inj (handed.symm.trans handed')
      have apart := apart.resolve_left allowed
      constructor
      · intro p member
        rw [paths] at member
        exact (mem_committablePaths.mp member).2.2
      · intro p member
        rw [paths] at member
        exact Bool.not_eq_false _ ▸ fun other => allowed ⟨p, member, other⟩
      · intro p member
        rw [paths] at member
        exact (mem_committablePaths.mp member).2.1
      · intro root isRoot p member under
        rw [roots] at isRoot
        rw [paths] at member
        obtain ⟨⟨left, changed, out, whole, covers⟩, -⟩ :=
          covered_iff.mp ⟨⟨root, isRoot, under⟩, member⟩
        exact apart left changed out whole p member covers

/-- A file that became a directory: the file is left out, a test below the directory committed. -/
def replacedCheckout : RdcRepairPublisher where
  identity := { name := "uta", email := "uta@example.test" }
  publisher := {
    changedPaths := ["tests/a".toList, "tests/a/test_b.py".toList]
    publish := fun _ => .ok (.pushedPublication "c1" "c1" "now" ["tests/a/test_b.py".toList]) }

def replacedDelivery : RdcDeliveryContext where
  branchName := "main"
  repoTaskId := none
  rdcTaskId := "t"
  rdcRecordId := "r"
  jiraKey := ""
  classFqns := none
  commitPaths := some ["tests/a/test_b.py".toList]

theorem replaced_file_covers : ∃ request,
    (replacedCheckout.publish { sha256 := id, now := "" } replacedDelivery).handed = some request ∧
      request.cleanupPaths = ["tests/a".toList] ∧
      request.paths = ["tests/a/test_b.py".toList] ∧ ¬ request.Safe replacedDelivery := by
  refine ⟨_, rfl, by decide +kernel, by decide +kernel, fun safe => ?_⟩
  refine safe.kept "tests/a".toList ?_ "tests/a/test_b.py".toList ?_ (by decide +kernel)
  · show _ ∈ cleanupRoots _
    decide +kernel
  · show _ ∈ committablePaths replacedDelivery replacedCheckout.publisher.changedPaths
    decide +kernel

end RdcRepairPublisher

end Uta.Delivery
