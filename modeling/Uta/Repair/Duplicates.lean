/- Creators of the same repair task, and the duplicates that they look for. -/
import Mathlib.Data.List.Sort
import Uta.Lib.PyText
import Uta.Lib.Run
import Uta.Tasks.Rows

namespace Uta.Repair.Duplicates
open Uta.Lib Uta.Tasks

/-! The rows that are looked through. -/

/-- The selection of a task, as far as its identity reads it. -/
structure Selection where
  qualityMode : String
  qualityGateBackend : String
  targetIds : List String

/-- The pipeline names of `rdc_context_json`. -/
structure Pipeline where
  gitUrl : String := ""
  git_url : String := ""
  appName : String := ""

/-- The columns of a `repo_tasks` row that the duplicate queries read. -/
structure RepoRow where
  status : RepoStatus
  createdAt : ℕ
  language : String
  branchName : String
  baseRef : String
  moduleFilter : String
  repoSlug : String
  selection : Selection
  pipeline : Pipeline

/-- `status IN ('CREATED', 'QUEUED', 'RUNNING', 'STOP_REQUESTED')`. -/
def RepoRow.active (row : RepoRow) : Bool :=
  match row.status with
  | .created | .queued | .running | .stopRequested => true
  | _ => false

def strip (text : String) : String := String.ofList (PyText.strip text.toList)

/-- `a or b`. -/
def either (a b : String) : String := if a = "" then b else a

/-- `_repair_selection_target_ids`, without its order. -/
def targetIdsOf (ids : List String) : List String := ((ids.map strip).filter (· ≠ "")).eraseDups

section Identity
variable (normalize : String → String)

/-- `_repair_base_identity`. -/
def baseIdentity (repoIdentity branchName baseRef language backend moduleFilter : String) :
    List String :=
  ["ci-incremental-repair", normalize repoIdentity, branchName, baseRef, either language "java",
    backend, moduleFilter]

/-- `_repair_task_identity_parts`. -/
def identityParts (row : RepoRow) : Option (List String × List String) :=
  let repoIdentity := normalize (either (strip row.pipeline.gitUrl)
    (either (strip row.pipeline.git_url) (either (strip row.repoSlug) (strip row.pipeline.appName))))
  let targetIds := targetIdsOf row.selection.targetIds
  if row.selection.qualityMode ≠ "ci_incremental" then none
  else if repoIdentity = "" ∨ targetIds = [] then none
  else some (baseIdentity normalize repoIdentity row.branchName row.baseRef row.language
    row.selection.qualityGateBackend row.moduleFilter, targetIds)

/-- The row is for the same work, and for all the targets. -/
def covers (base targets : List String) (row : RepoRow) : Bool :=
  match identityParts normalize row with
  | none => false
  | some (otherBase, otherTargets) =>
    decide (otherBase = base) && targets.all fun target => decide (target ∈ otherTargets)

/-- `ORDER BY created_at ASC, id ASC`. -/
def ordered (rows : List RepoRow) : List (RepoRow × ℕ) :=
  rows.zipIdx.insertionSort fun a b =>
    a.1.createdAt < b.1.createdAt ∨ a.1.createdAt = b.1.createdAt ∧ a.2 ≤ b.2

/-- The first id of the query whose row passes. -/
def firstId (rows : List RepoRow) (passes : RepoRow → ℕ → Bool) : Option ℕ :=
  ((ordered rows).find? fun entry => passes entry.1 entry.2).map Prod.snd

/-- What one creator asks for. -/
structure Request where
  repoIdentity : String
  branchName : String
  baseRef : String
  language : String
  backend : String
  targetIds : List String

/-- The row passes the query of `find_active_duplicate_repair_task_for_targets`. -/
def Request.finds (r : Request) (row : RepoRow) : Bool :=
  row.active && decide (row.language = either r.language "java") &&
    decide (row.branchName = r.branchName) && decide (row.baseRef = r.baseRef) &&
    covers normalize (baseIdentity normalize (normalize r.repoIdentity) r.branchName r.baseRef
      r.language r.backend "") (targetIdsOf r.targetIds) row

/-- `find_active_duplicate_repair_task_for_targets`. -/
def findForTargets (r : Request) (rows : List RepoRow) : Option ℕ :=
  if normalize r.repoIdentity = "" ∨ targetIdsOf r.targetIds = [] then none
  else firstId rows fun row _ => r.finds normalize row

/-- The row passes the query of `find_active_duplicate_repair_task`, apart from its id. -/
def duplicates (task row : RepoRow) : Bool :=
  match identityParts normalize task with
  | none => false
  | some (base, targets) =>
    row.active && decide (row.language = task.language) &&
      decide (row.branchName = task.branchName) && decide (row.baseRef = task.baseRef) &&
      covers normalize base targets row

/-- `find_active_duplicate_repair_task`. -/
def findDuplicate (rows : List RepoRow) (taskId : ℕ) : Option ℕ :=
  match rows[taskId]? with
  | none => none
  | some task => firstId rows fun row id => decide (id ≠ taskId) && duplicates normalize task row

/-- The creations of one repair: the request, and the row that the handler writes for it. The
handler raises where there is no target. -/
structure Creation where
  request : Request
  draft : RepoRow
  identified : identityParts normalize draft ≠ none

end Identity

/-! The creators. -/

/-- Where a creator is in `_create_repair_task`. -/
inductive Phase where
  | looking
  | creating
  | checking (own : ℕ)
  | cancelling (own other : ℕ)
  | kept (own : ℕ)
  | cancelled (own other : ℕ)
  | reused (task : ℕ)
  deriving DecidableEq

/-- The task that the creator has created. -/
def Phase.own : Phase → Option ℕ
  | .looking | .creating | .reused _ => none
  | .checking own | .cancelling own _ | .kept own | .cancelled own _ => some own

/-- The creator has returned: the session names a task. -/
def Phase.done : Phase → Bool
  | .kept _ | .cancelled .. | .reused _ => true
  | _ => false

structure State where
  rows : List RepoRow
  creators : List Phase

/-- The next statement of a creator, at the time `now`. -/
structure Turn where
  creator : ℕ
  now : ℕ

namespace State
variable {normalize : String → String} (c : Creation normalize) (s : State)

def move (n : ℕ) (p : Phase) : State := { s with creators := s.creators.set n p }

/-- The row that a creation inserts. -/
def inserted (now : ℕ) : RepoRow := { c.draft with status := .created, createdAt := now }

/-- The creator's own task is cancelled. -/
def cancel (n own other : ℕ) : State :=
  { s with rows := s.rows.modify own fun row => { row with status := .cancelled } }.move n
    (.cancelled own other)

/-- The statement of creator `n`. -/
def call (n now : ℕ) : Phase → State
  | .looking =>
    match findForTargets normalize c.request s.rows with
    | some task => s.move n (.reused task)
    | none => s.move n .creating
  | .creating =>
    { s with rows := s.rows ++ [inserted c now] }.move n (.checking s.rows.length)
  | .checking own =>
    match findDuplicate normalize s.rows own with
    | some other => s.move n (.cancelling own other)
    | none => s.move n (.kept own)
  | .cancelling own other => s.cancel n own other
  | .kept _ => s
  | .cancelled .. => s
  | .reused _ => s

def step (t : Turn) : State :=
  match s.creators[t.creator]? with
  | some p => s.call c t.creator t.now p
  | none => s

/-- The task is active. -/
def Active (id : ℕ) : Prop := ∃ row, s.rows[id]? = some row ∧ row.active = true

/-- Some creator has created the task. -/
def Created (id : ℕ) : Prop := ∃ (n : ℕ) (p : Phase), s.creators[n]? = some p ∧ p.own = some id

/-- A creator has found a duplicate of the task, and is about to cancel it. -/
def Doomed (id : ℕ) : Prop := ∃ (n other : ℕ), s.creators[n]? = some (.cancelling id other)

def Done : Prop := ∀ p ∈ s.creators, p.done = true

variable (normalize) in
/-- Among the tasks that the second look finds there is one that is not itself about to
be cancelled. -/
def Considerate (t : Turn) : Prop := ∀ own, s.creators[t.creator]? = some (.checking own) →
  findDuplicate normalize s.rows own ≠ none →
  ∃ id row, s.rows[id]? = some row ∧ id ≠ own ∧ row.active = true ∧ s.Created id ∧ ¬ s.Doomed id

end State

/-! What the queries find. -/

theorem mem_ordered {rows : List RepoRow} {row : RepoRow} {id : ℕ} :
    (row, id) ∈ ordered rows ↔ rows[id]? = some row := by
  rw [ordered, List.mem_insertionSort, List.mk_mem_zipIdx_iff_getElem?]

theorem firstId_some {rows : List RepoRow} {passes : RepoRow → ℕ → Bool} {id : ℕ}
    (found : firstId rows passes = some id) :
    ∃ row, rows[id]? = some row ∧ passes row id = true := by
  obtain ⟨⟨row, _⟩, first, rfl⟩ := Option.map_eq_some_iff.mp found
  have passed := List.find?_some first
  exact ⟨row, mem_ordered.mp (List.mem_of_find?_eq_some first), passed⟩

theorem firstId_none {rows : List RepoRow} {passes : RepoRow → ℕ → Bool}
    (missed : firstId rows passes = none) {id : ℕ} {row : RepoRow} (there : rows[id]? = some row) :
    passes row id = false := by
  have absent := List.find?_eq_none.mp (Option.map_eq_none_iff.mp missed) (row, id)
    (mem_ordered.mpr there)
  exact Bool.eq_false_iff.mpr absent

section Draft
variable {normalize : String → String} (c : Creation normalize)

/-- The row is one that a creation inserted. -/
def Copy (row : RepoRow) : Prop :=
  row = { c.draft with status := row.status, createdAt := row.createdAt }

variable {c}

theorem copy_inserted (now : ℕ) : Copy c (State.inserted c now) := rfl

theorem copy_cancelled {row : RepoRow} (copy : Copy c row) :
    Copy c { row with status := .cancelled } := by
  rw [Copy] at copy ⊢
  rw [copy]

theorem identityParts_copy {row : RepoRow} (copy : Copy c row) :
    identityParts normalize row = identityParts normalize c.draft := by
  rw [copy]
  rfl

/-- Two copies are duplicates of each other while the second is active. -/
theorem duplicates_copy {task row : RepoRow} (copy : Copy c task) (copy' : Copy c row)
    (active : row.active = true) : duplicates normalize task row = true := by
  obtain ⟨⟨base, targets⟩, identity⟩ := Option.ne_none_iff_exists'.mp c.identified
  have language : row.language = task.language := by rw [copy, copy']
  have branch : row.branchName = task.branchName := by rw [copy, copy']
  have ref : row.baseRef = task.baseRef := by rw [copy, copy']
  simp [duplicates, covers, identityParts_copy copy, identityParts_copy copy', identity, active,
    language, branch, ref]

end Draft

/-! The invariant. -/

namespace State
variable {normalize : String → String} (c : Creation normalize)

/-- No row that was there before is active and found by one of the two looks. -/
def Unrivalled (rows : List RepoRow) : Prop := ∀ row ∈ rows, row.active = true →
  c.request.finds normalize row = false ∧ duplicates normalize c.draft row = false

structure Sound (s : State) : Prop where
  /-- A created task is a copy of the draft, and only its creator's cancellation ends it. -/
  copies : ∀ (n id : ℕ) (p : Phase), s.creators[n]? = some p → p.own = some id →
    ∃ row, s.rows[id]? = some row ∧ Copy c row ∧
      (row.active = true ↔ ∀ other, p ≠ .cancelled id other)
  /-- Each created task has one creator. -/
  single : ∀ (m n id : ℕ) (p q : Phase), s.creators[m]? = some p → s.creators[n]? = some q →
    p.own = some id → q.own = some id → m = n
  /-- What the looks find was created. -/
  created : ∀ (id : ℕ) (row : RepoRow), s.rows[id]? = some row → row.active = true →
    c.request.finds normalize row = true ∨ duplicates normalize c.draft row = true → s.Created id
  /-- At most one creator has kept its task. -/
  lone : ∀ (m n a b : ℕ), s.creators[m]? = some (.kept a) → s.creators[n]? = some (.kept b) → a = b

/-- Once a task was created, some active one is not about to be cancelled. -/
def Survived (s : State) : Prop := (∃ p ∈ s.creators, p ≠ .looking ∧ p ≠ .creating) →
  ∃ id, s.Active id ∧ s.Created id ∧ ¬ s.Doomed id

variable {c}

theorem creators_move {s : State} {n : ℕ} {p : Phase} (there : s.creators[n]? = some p) (m : ℕ)
    (q : Phase) : (s.move n q).creators[m]? = if m = n then some q else s.creators[m]? := by
  have inRange : n < s.creators.length := (List.getElem?_eq_some_iff.mp there).1
  rw [move, List.getElem?_set]
  by_cases same : m = n
  · rw [if_pos same.symm, if_pos same, if_pos (same ▸ inRange)]
  · rw [if_neg (Ne.symm same), if_neg same]

/-- A move that keeps the creator's own task, and does not end it. -/
theorem Sound.move {s : State} (sound : Sound c s) {n : ℕ} {p q : Phase}
    (there : s.creators[n]? = some p) (own : q.own = p.own)
    (alive : (∀ id other, p ≠ .cancelled id other) ∧ ∀ id other, q ≠ .cancelled id other)
    (alone : ∀ a, q = .kept a → ∀ m b : ℕ, s.creators[m]? ≠ some (Phase.kept b)) :
    Sound c (s.move n q) := by
  have keeps : ∀ (m : ℕ) (r : Phase) (id : ℕ), (s.move n q).creators[m]? = some r →
      r.own = some id → ∃ r' : Phase, s.creators[m]? = some r' ∧ r'.own = some id ∧
        ((∀ other, r ≠ .cancelled id other) ↔ ∀ other, r' ≠ .cancelled id other) := by
    intro m r id found owned
    rw [creators_move there] at found
    split at found
    · next same =>
      obtain rfl := Option.some.inj found
      exact ⟨p, same ▸ there, own ▸ owned, iff_of_true (alive.2 id) (alive.1 id)⟩
    · exact ⟨r, found, owned, Iff.rfl⟩
  refine ⟨?_, ?_, ?_, ?_⟩
  · intro m id r found owned
    obtain ⟨r', found', owned', same⟩ := keeps m r id found owned
    obtain ⟨row, row', copy, active⟩ := sound.copies m id r' found' owned'
    exact ⟨row, row', copy, active.trans same.symm⟩
  · intro l m id r r' found found' owned owned'
    obtain ⟨_, before, mine, -⟩ := keeps l r id found owned
    obtain ⟨_, before', yours, -⟩ := keeps m r' id found' owned'
    exact sound.single l m id _ _ before before' mine yours
  · intro id row there' active looked
    obtain ⟨m, r, found, owned⟩ := sound.created id row there' active looked
    by_cases same : m = n
    · subst same
      obtain rfl := Option.some.inj (there.symm.trans found)
      exact ⟨m, q, by rw [creators_move there, if_pos rfl], own.trans owned⟩
    · exact ⟨m, r, by rw [creators_move there, if_neg same, found], owned⟩
  · intro l m a b first second
    rw [creators_move there] at first second
    split at first <;> split at second
    · exact Phase.kept.inj (Option.some.inj (first.symm.trans second)) 
    · exact absurd second (alone a (Option.some.inj first) m b)
    · exact absurd first (alone b (Option.some.inj second) l a)
    · exact sound.lone l m a b first second

/-- A row is inserted, and is the creator's. -/
theorem Sound.insert {s : State} (sound : Sound c s) {n : ℕ} (now : ℕ)
    (there : s.creators[n]? = some .creating) :
    Sound c ({ s with rows := s.rows ++ [inserted c now] }.move n (.checking s.rows.length)) := by
  have others : ∀ (m : ℕ) (r : Phase) (id : ℕ),
      ({ s with rows := s.rows ++ [inserted c now] }.move n (.checking s.rows.length)).creators[m]?
        = some r → r.own = some id →
      m = n ∧ r = .checking s.rows.length ∧ id = s.rows.length ∨
        m ≠ n ∧ s.creators[m]? = some r ∧ id < s.rows.length := by
    intro m r id found owned
    rw [creators_move (s := { s with rows := s.rows ++ [inserted c now] }) there] at found
    split at found
    · next same =>
      obtain rfl := Option.some.inj found
      exact .inl ⟨same, rfl, (Option.some.inj owned).symm⟩
    · next other =>
      obtain ⟨row, present, -⟩ := sound.copies m id r found owned
      exact .inr ⟨other, found, (List.getElem?_eq_some_iff.mp present).1⟩
  refine ⟨?_, ?_, ?_, ?_⟩
  · intro m id r found owned
    rcases others m r id found owned with ⟨-, rfl, rfl⟩ | ⟨-, before, inside⟩
    · exact ⟨inserted c now, List.getElem?_concat_length, copy_inserted now,
        iff_of_true rfl fun other => Phase.noConfusion⟩
    · obtain ⟨row, present, rest⟩ := sound.copies m id r before owned
      exact ⟨row, (List.getElem?_append_left inside).trans present, rest⟩
  · intro l m id r r' found found' owned owned'
    rcases others l r id found owned with ⟨rfl, -, rfl⟩ | ⟨-, before, inside⟩ <;>
      rcases others m r' _ found' owned' with ⟨rfl, -, new⟩ | ⟨-, before', inside'⟩
    · rfl
    · exact absurd inside' (Nat.lt_irrefl _)
    · exact absurd (new ▸ inside) (Nat.lt_irrefl _)
    · exact sound.single l m id r r' before before' owned owned'
  · intro id row present active looked
    rcases Nat.lt_or_ge id s.rows.length with inside | outside
    · have before : s.rows[id]? = some row :=
        (List.getElem?_append_left inside).symm.trans present
      obtain ⟨m, r, found, owned⟩ := sound.created id row before active looked
      have other : m ≠ n := by
        rintro rfl
        obtain rfl := Option.some.inj (there.symm.trans found)
        cases owned
      exact ⟨m, r, by
        rw [creators_move (s := { s with rows := s.rows ++ [inserted c now] }) there, if_neg other,
          found], owned⟩
    · have last : id = s.rows.length := by
        have bound : id < (s.rows ++ [inserted c now]).length :=
          (List.getElem?_eq_some_iff.mp present).1
        rw [List.length_append, List.length_singleton] at bound
        omega
      exact ⟨n, .checking s.rows.length, by
        rw [creators_move (s := { s with rows := s.rows ++ [inserted c now] }) there, if_pos rfl],
        congrArg some last.symm⟩
  · intro l m a b first second
    rcases others l _ a first rfl with ⟨-, absurd, -⟩ | ⟨-, before, -⟩
    · cases absurd
    rcases others m _ b second rfl with ⟨-, absurd, -⟩ | ⟨-, before', -⟩
    · cases absurd
    · exact sound.lone l m a b before before'

theorem rows_cancel (s : State) (n own other id : ℕ) : (s.cancel n own other).rows[id]? =
    if own = id then s.rows[id]?.map fun row => { row with status := .cancelled }
    else s.rows[id]? := by
  rw [cancel, move, List.getElem?_modify]
  split <;> cases s.rows[id]? <;> rfl

theorem creators_cancel {s : State} {n : ℕ} {own other : ℕ}
    (there : s.creators[n]? = some (.cancelling own other)) (m : ℕ) :
    (s.cancel n own other).creators[m]? =
      if m = n then some (.cancelled own other) else s.creators[m]? :=
  creators_move (s := { s with rows := _ }) there m _

theorem Sound.cancel {s : State} (sound : Sound c s) {n own other : ℕ}
    (there : s.creators[n]? = some (.cancelling own other)) : Sound c (s.cancel n own other) := by
  have others : ∀ (m : ℕ) (r : Phase), (s.cancel n own other).creators[m]? = some r →
      m = n ∧ r = .cancelled own other ∨ m ≠ n ∧ s.creators[m]? = some r := by
    intro m r found
    rw [creators_cancel there] at found
    split at found
    · next same => exact .inl ⟨same, (Option.some.inj found).symm⟩
    · next differs => exact .inr ⟨differs, found⟩
  have distinct : ∀ (m : ℕ) (r : Phase) (id : ℕ), m ≠ n → s.creators[m]? = some r →
      r.own = some id → own ≠ id := by
    rintro m r id differs found owned rfl
    exact differs (sound.single m n own r _ found there owned rfl)
  refine ⟨?_, ?_, ?_, ?_⟩
  · intro m id r found owned
    rcases others m r found with ⟨-, rfl⟩ | ⟨differs, before⟩
    · obtain rfl := Option.some.inj owned
      obtain ⟨row, present, copy, -⟩ := sound.copies n own _ there rfl
      refine ⟨{ row with status := .cancelled }, ?_, copy_cancelled copy, ?_⟩
      · rw [rows_cancel, if_pos rfl, present]
        rfl
      · exact iff_of_false Bool.false_ne_true fun never => never other rfl
    · obtain ⟨row, present, rest⟩ := sound.copies m id r before owned
      refine ⟨row, ?_, rest⟩
      rw [rows_cancel, if_neg (distinct m r id differs before owned), present]
  · intro l m id r r' found found' owned owned'
    have own_of : ∀ (k : ℕ) (q : Phase), (s.cancel n own other).creators[k]? = some q →
        q.own = some id → ∃ q' : Phase, s.creators[k]? = some q' ∧ q'.own = some id := by
      intro k q present holds
      rcases others k q present with ⟨rfl, rfl⟩ | ⟨-, before⟩
      · exact ⟨_, there, holds⟩
      · exact ⟨q, before, holds⟩
    obtain ⟨_, before, mine⟩ := own_of l r found owned
    obtain ⟨_, before', yours⟩ := own_of m r' found' owned'
    exact sound.single l m id _ _ before before' mine yours
  · intro id row present active looked
    rw [rows_cancel] at present
    split at present
    · obtain ⟨row', -, rfl⟩ := Option.map_eq_some_iff.mp present
      cases active
    · obtain ⟨m, r, found, owned⟩ := sound.created id row present active looked
      by_cases same : m = n
      · subst same
        obtain rfl := Option.some.inj (there.symm.trans found)
        exact ⟨m, .cancelled own other, by rw [creators_cancel there, if_pos rfl], owned⟩
      · exact ⟨m, r, by rw [creators_cancel there, if_neg same, found], owned⟩
  · intro l m a b first second
    rcases others l _ first with ⟨-, absurd⟩ | ⟨-, before⟩
    · cases absurd
    rcases others m _ second with ⟨-, absurd⟩ | ⟨-, before'⟩
    · cases absurd
    · exact sound.lone l m a b before before'

/-- One statement. -/
theorem Sound.step {s : State} (sound : Sound c s) (t : Turn) : Sound c (s.step c t) := by
  unfold State.step
  cases there : s.creators[t.creator]? with
  | none => exact sound
  | some p =>
    cases p with
    | looking =>
      simp only [call]
      split
      · exact sound.move there rfl ⟨nofun, nofun⟩ nofun
      · exact sound.move there rfl ⟨nofun, nofun⟩ nofun
    | creating => exact sound.insert t.now there
    | checking own =>
      simp only [call]
      split
      · exact sound.move there rfl ⟨nofun, nofun⟩ nofun
      · next missed =>
        refine sound.move there rfl ⟨nofun, nofun⟩ fun a _ m b kept => ?_
        -- A task that is kept is active, so the second look would have found it.
        obtain ⟨task, present, copy, -⟩ := sound.copies _ own _ there rfl
        obtain ⟨row, present', copy', active⟩ := sound.copies m b _ kept rfl
        have alive : row.active = true := active.mpr nofun
        rw [findDuplicate, present] at missed
        have passed := firstId_none missed present'
        rw [duplicates_copy copy copy' alive, Bool.and_true, decide_eq_false_iff_not, not_not]
          at passed
        subst passed
        obtain rfl := sound.single m _ b _ _ kept there rfl rfl
        cases there.symm.trans kept
    | cancelling own other => exact sound.cancel there
    | kept own => exact sound
    | cancelled own other => exact sound
    | reused task => exact sound

/-! Somebody survives. -/

/-- A witness of survival that the move neither ends nor dooms. -/
theorem survivor_move {s : State} {n : ℕ} {p : Phase} (there : s.creators[n]? = some p) (q : Phase)
    (own : q.own = p.own) {id : ℕ} (active : s.Active id) (created : s.Created id)
    (spared : ¬ s.Doomed id) (calm : ∀ other, q ≠ .cancelling id other) :
    (s.move n q).Active id ∧ (s.move n q).Created id ∧ ¬ (s.move n q).Doomed id := by
  refine ⟨active, ?_, ?_⟩
  · obtain ⟨m, r, found, owned⟩ := created
    by_cases same : m = n
    · subst same
      obtain rfl := Option.some.inj (there.symm.trans found)
      exact ⟨m, q, by rw [creators_move there, if_pos rfl], own.trans owned⟩
    · exact ⟨m, r, by rw [creators_move there, if_neg same, found], owned⟩
  · rintro ⟨m, other, found⟩
    rw [creators_move there] at found
    split at found
    · exact calm other (Option.some.inj found)
    · exact spared ⟨m, other, found⟩

theorem Survived.step {s : State} (sound : Sound c s) (survived : Survived s) (t : Turn)
    (considerate : s.Considerate normalize t) : Survived (s.step c t) := by
  unfold State.step
  cases there : s.creators[t.creator]? with
  | none => exact survived
  | some p =>
    have member : p ∈ s.creators := List.mem_of_getElem? there
    cases p with
    | looking =>
      simp only [call]
      split
      · next task found =>
        -- What the first look finds was created, so somebody had begun before.
        intro _
        unfold findForTargets at found
        split at found
        · cases found
        obtain ⟨row, present, passed⟩ := firstId_some found
        have active : row.active = true := by
          simp only [Request.finds, Bool.and_eq_true] at passed
          exact passed.1.1.1.1
        obtain ⟨m, r, found', owned⟩ := sound.created task row present active (.inl passed)
        obtain ⟨id, alive, created, spared⟩ := survived ⟨r, List.mem_of_getElem? found', by
          constructor <;> rintro rfl <;> cases owned⟩
        exact ⟨id, survivor_move there (.reused task) rfl alive created spared nofun⟩
      · intro ⟨r, among, begun, inserted⟩
        rcases List.mem_or_eq_of_mem_set among with before | rfl
        · obtain ⟨id, alive, created, spared⟩ := survived ⟨r, before, begun, inserted⟩
          exact ⟨id, survivor_move there .creating rfl alive created spared nofun⟩
        · exact absurd rfl inserted
    | creating =>
      intro _
      refine ⟨s.rows.length, ⟨_, List.getElem?_concat_length, rfl⟩,
        ⟨t.creator, .checking s.rows.length, ?_, rfl⟩, ?_⟩
      · simp only [call]
        rw [creators_move (s := { s with rows := s.rows ++ [inserted c t.now] }) there, if_pos rfl]
      · rintro ⟨m, other, found⟩
        simp only [call] at found
        rw [creators_move (s := { s with rows := s.rows ++ [inserted c t.now] }) there] at found
        split at found
        · cases found
        · obtain ⟨row, present, -⟩ := sound.copies m s.rows.length _ found rfl
          exact absurd (List.getElem?_eq_some_iff.mp present).1 (Nat.lt_irrefl _)
    | checking own =>
      simp only [call]
      split
      · next other found =>
        intro _
        obtain ⟨id, row, present, differs, active, created, spared⟩ :=
          considerate own there (by rw [found]; exact nofun)
        exact ⟨id, survivor_move there (.cancelling own other) rfl ⟨row, present, active⟩ created
          spared fun _ same => differs (Phase.cancelling.inj same).1.symm⟩
      · intro _
        obtain ⟨id, alive, created, spared⟩ := survived ⟨_, member, nofun, nofun⟩
        exact ⟨id, survivor_move there (.kept own) rfl alive created spared nofun⟩
    | cancelling own other =>
      intro _
      obtain ⟨id, ⟨row, present, alive⟩, ⟨m, r, found, owned⟩, spared⟩ :=
        survived ⟨_, member, nofun, nofun⟩
      have differs : own ≠ id := by
        rintro rfl
        exact spared ⟨t.creator, other, there⟩
      have elsewhere : m ≠ t.creator := by
        rintro rfl
        obtain rfl := Option.some.inj (there.symm.trans found)
        exact differs (Option.some.inj owned)
      refine ⟨id, ⟨row, ?_, alive⟩, ⟨m, r, ?_, owned⟩, ?_⟩
      · simp only [call]
        rw [rows_cancel, if_neg differs, present]
      · simp only [call]
        rw [creators_cancel there, if_neg elsewhere, found]
      · rintro ⟨k, other', doomed⟩
        simp only [call] at doomed
        rw [creators_cancel there] at doomed
        split at doomed
        · cases doomed
        · exact spared ⟨k, other', doomed⟩
    | kept own => exact survived
    | cancelled own other => exact survived
    | reused task => exact survived

end State

/-! The outcome. -/

open State

/-- `count` creators, over rows that none of their looks would find. -/
def start (rows : List RepoRow) (count : ℕ) : State := ⟨rows, List.replicate count .looking⟩

section Outcome
variable {normalize : String → String} (c : Creation normalize)

theorem length_step (s : State) (t : Turn) :
    (s.step c t).creators.length = s.creators.length := by
  unfold State.step
  split
  · next p _ =>
    cases p <;> simp only [call] <;> (try split) <;> simp [move, State.cancel]
  · rfl

theorem start_sound {rows : List RepoRow} (unrivalled : Unrivalled c rows) (count : ℕ) :
    Sound c (start rows count) := by
  have looking : ∀ (n : ℕ) (p : Phase), (start rows count).creators[n]? = some p → p = .looking :=
    fun n p found => List.eq_of_mem_replicate (List.mem_of_getElem? found)
  refine ⟨?_, ?_, ?_, ?_⟩
  · intro n id p found owned
    rw [looking n p found] at owned
    cases owned
  · intro m n id p q found _ owned
    rw [looking m p found] at owned
    cases owned
  · intro id row present active looked
    have clear := unrivalled row (List.mem_of_getElem? present) active
    rw [clear.1, clear.2] at looked
    exact absurd looked (by decide)
  · intro m n a b found
    cases looking m _ found

theorem start_survived (rows : List RepoRow) (count : ℕ) : Survived (start rows count) := by
  rintro ⟨p, member, begun, -⟩
  exact absurd (List.eq_of_mem_replicate member) begun

/-- A created task that is active when all creators have returned is one that was kept. -/
theorem kept_of_done {s : State} (sound : Sound c s) (done : s.Done) {id : ℕ} (active : s.Active id)
    (created : s.Created id) : ∃ n : ℕ, s.creators[n]? = some (.kept id) := by
  obtain ⟨n, p, found, owned⟩ := created
  obtain ⟨row, present, -, alive⟩ := sound.copies n id p found owned
  obtain ⟨row', present', active⟩ := active
  obtain rfl := Option.some.inj (present.symm.trans present')
  have returned := done p (List.mem_of_getElem? found)
  cases p with
  | kept own =>
    obtain rfl := Option.some.inj owned
    exact ⟨n, found⟩
  | cancelled own other =>
    obtain rfl := Option.some.inj owned
    exact absurd rfl (alive.mp active other)
  | reused task => cases owned
  | looking => cases returned
  | creating => cases returned
  | checking own => cases returned
  | cancelling own other => cases returned

/-- Of the tasks of any number of creators exactly one is active once all have returned, if
no second look finds only tasks that are about to be cancelled. -/
theorem one_survivor {rows : List RepoRow} (unrivalled : Unrivalled c rows) (count : ℕ)
    (turns : List Turn)
    (considerate : Meets (State.step c) (State.Considerate normalize)
      (start rows (count + 1)) turns)
    (done : (run (State.step c) (start rows (count + 1)) turns).Done) :
    ∃! id, (run (State.step c) (start rows (count + 1)) turns).Active id ∧
      (run (State.step c) (start rows (count + 1)) turns).Created id := by
  have both := always_of_meets (State.step c) (P := fun s => Sound c s ∧ Survived s)
    (fun s t h fair => ⟨h.1.step t, h.2.step h.1 t fair⟩) _ turns
    ⟨start_sound c unrivalled (count + 1), start_survived rows (count + 1)⟩ considerate
  obtain ⟨sound, survived⟩ := ((always_iff_reached _ _ _).mp both) turns [] (List.append_nil _).symm
  have lengths : (run (State.step c) (start rows (count + 1)) turns).creators.length = count + 1 :=
    run_invariant (State.step c) (fun s t => (length_step c s t).trans) _ turns
      (List.length_replicate ..)
  generalize run (State.step c) (start rows (count + 1)) turns = s at done sound survived lengths
  have some : 0 < s.creators.length := lengths ▸ Nat.succ_pos count
  have returned := done _ (List.getElem_mem some)
  obtain ⟨id, active, created, -⟩ := survived ⟨_, List.getElem_mem some, by
    constructor <;> intro same <;> rw [same] at returned <;> cases returned⟩
  refine ⟨id, ⟨active, created⟩, fun other ⟨active', created'⟩ => ?_⟩
  obtain ⟨n, kept⟩ := kept_of_done c sound done active created
  obtain ⟨m, kept'⟩ := kept_of_done c sound done active' created'
  exact sound.lone m n other id kept' kept

end Outcome

/-! Two creators. -/

/-- The row of a repair of one target of one repository. -/
def draft : RepoRow where
  status := .created
  createdAt := 0
  language := "python"
  branchName := "feature"
  baseRef := "origin/master"
  moduleFilter := ""
  repoSlug := "app"
  selection := ⟨"ci_incremental", "python_enforcer", ["pyfile:jobs/run.py"]⟩
  pipeline := { gitUrl := "host:team/app" }

/-- A repair whose names are in normal form already. -/
def creation : Creation fun name => name where
  request :=
    ⟨"host:team/app", "feature", "origin/master", "python", "python_enforcer",
      ["pyfile:jobs/run.py"]⟩
  draft
  identified := by decide +kernel

/-- The second look, if this is one, finds nothing. -/
def Alone (s : State) (t : Turn) : Prop :=
  match s.creators[t.creator]? with
  | some (.checking own) => findDuplicate (fun name => name) s.rows own = none
  | _ => True

instance (s : State) (t : Turn) : Decidable (Alone s t) := by
  unfold Alone
  split <;> infer_instance

theorem considerate_of_alone (s : State) (t : Turn) (alone : Alone s t) :
    s.Considerate (fun name => name) t := by
  intro own there found
  rw [Alone, there] at alone
  exact absurd alone found

/-- The second creator begins when the first has returned. -/
def inTurn : List Turn := [⟨0, 1⟩, ⟨0, 1⟩, ⟨0, 1⟩, ⟨1, 2⟩]

theorem inTurn_survivor : ∃! id,
    (run (State.step creation) (start [] 2) inTurn).Active id ∧
      (run (State.step creation) (start [] 2) inTurn).Created id := by
  refine one_survivor creation (fun row member => absurd member List.not_mem_nil) 1 inTurn ?_ ?_
  · have alone : Meets (State.step creation) Alone (start [] 2) inTurn := by decide +kernel
    exact meets_mono _ considerate_of_alone _ _ alone
  · exact show ∀ p ∈ (run (State.step creation) (start [] 2) inTurn).creators, p.done = true by
      decide +kernel

/-- Each sees the other's task at its second look. -/
def abreast : List Turn := [⟨0, 1⟩, ⟨1, 1⟩, ⟨0, 2⟩, ⟨1, 2⟩, ⟨0, 3⟩, ⟨1, 3⟩, ⟨0, 4⟩, ⟨1, 4⟩]

theorem abreast_none : (run (State.step creation) (start [] 2) abreast).Done ∧
    (∃ id, (run (State.step creation) (start [] 2) abreast).Created id) ∧
    ¬ ∃ id, (run (State.step creation) (start [] 2) abreast).Active id := by
  have done : ∀ p ∈ (run (State.step creation) (start [] 2) abreast).creators, p.done = true := by
    decide +kernel
  have first : (run (State.step creation) (start [] 2) abreast).creators[0]? =
      some (.cancelled 0 1) := by decide +kernel
  have ended : ∀ row ∈ (run (State.step creation) (start [] 2) abreast).rows,
      row.active = false := by decide +kernel
  refine ⟨done, ⟨0, 0, _, first, rfl⟩, ?_⟩
  rintro ⟨id, row, present, active⟩
  rw [ended row (List.mem_of_getElem? present)] at active
  cases active

end Uta.Repair.Duplicates
