/- The deferred creation of the repair task of one fix session: polls and retries with
their own copies of the record, and the registry of creation threads. -/
import Mathlib.Logic.Function.Basic
import Uta.Lib.Run
import Uta.Repair.Sessions

namespace Uta.Repair.Deferred
open Uta.Lib Uta.Tasks

/-- The session in one copy of the record; `attempt` numbers the request and its retries. -/
structure Session where
  attempt : ℕ
  status : SessionStatus
  repoTaskId : Option ℕ := none
  alreadyGreenAfterRefresh : Bool := false
  deriving DecidableEq

/-- A repair task, of an attempt of this session or of somebody else. -/
structure Task where
  attempt : Option ℕ
  active : Bool
  deriving DecidableEq

/-- Where a thread is in `_run_deferred_repair_task_creation`; `own` is the task that it
has created. -/
inductive Phase where
  | begun
  | marked
  | looking
  | ending (green : Bool)
  | checking (own : ℕ)
  | saving (own : Option ℕ)
  | leaving
  deriving DecidableEq

structure Thread where
  copy : ℕ
  phase : Phase
  deriving DecidableEq

/-- The operations of a request on its copy. -/
inductive Op where
  | ensure
  | materialize
  | follow
  | retry
  | save
  | launch
  deriving DecidableEq

/-- A request under way: its copy, and what it has still to do. -/
structure Visit where
  copy : ℕ
  todo : List Op

/-- `_refresh_repair_sessions`. -/
def refresh : List Op := [.ensure, .materialize, .follow]

/-- `retry_report_fix_session`. -/
def retryRoute : List Op := refresh ++ [.retry, .materialize, .save]

structure State where
  saved : Session
  copies : ℕ → Session
  loaded : ℕ
  visits : List Visit
  thread : Option Thread
  tasks : List Task
  attempts : ℕ

/-- What a creation meets: an exception, a refused workspace, a workspace that has become
green, an active task with the same targets, or none. -/
inductive Answer where
  | raised
  | refused
  | green
  | found (task : ℕ)
  | absent
  deriving DecidableEq

/-- A poll or a retry that comes in, the next operation of a request (with the status that
it finds for its task, if that has changed), the next statement of the thread, a task that
ends, and a task of another session. -/
inductive Turn where
  | poll
  | retry
  | go (visit : ℕ) (verdict : Option SessionStatus)
  | thread (answer : Answer)
  | finish (task : ℕ)
  | foreign

namespace State
variable (s : State)

def active (task : ℕ) : Bool := s.tasks[task]?.any (·.active)

def edit (copy : ℕ) (x : Session) : State := { s with copies := Function.update s.copies copy x }

/-- `record_store.save` of a copy. -/
def save (copy : ℕ) : State := { s with saved := s.copies copy }

def withTodo (visit : ℕ) (todo : List Op) : State :=
  { s with visits := s.visits.modify visit fun w => { w with todo } }

def enter (copy : ℕ) (phase : Phase) : State := { s with thread := some (Thread.mk copy phase) }

/-- A copy is loaded for a request. -/
def load (todo : List Op) : State :=
  { s with
    copies := Function.update s.copies s.loaded s.saved
    loaded := s.loaded + 1
    visits := s.visits ++ [⟨s.loaded, todo⟩] }

/-- The guard of `_ensure_deferred_repair_task_creation`. -/
def uncreated (x : Session) : Bool :=
  decide (x.repoTaskId = none) && !x.alreadyGreenAfterRefresh &&
    decide (x.status = .creatingRepairTask)

/-- `_start_deferred_repair_task_creation`, under the lock of the registry. -/
def launch (copy : ℕ) : State :=
  match s.thread with
  | none => s.enter copy .begun
  | some _ => s

/-- `retry_session`. -/
def retry (copy : ℕ) : State :=
  { s.edit copy { s.copies copy with attempt := s.attempts, status := .retryRequested } with
    attempts := s.attempts + 1 }

/-- An operation of a request, and what it has to do then. -/
def perform (copy : ℕ) (rest : List Op) (verdict : Option SessionStatus) : Op → State × List Op
  | .ensure => (s, if uncreated (s.copies copy) then .launch :: rest else rest)
  | .materialize =>
    let x := s.copies copy
    if x.status ≠ .retryRequested then (s, rest)
    else if x.repoTaskId.any s.active then
      (s.edit copy { x with status := .repairTaskCreated }, .save :: rest)
    else
      (s.edit copy { x with status := .creatingRepairTask, repoTaskId := none },
        .save :: .launch :: rest)
  | .follow =>
    match verdict with
    | some status =>
      if (s.copies copy).repoTaskId.isSome then
        (s.edit copy { s.copies copy with status }, .save :: .follow :: rest)
      else (s, rest)
    | none => (s, rest)
  | .retry => (s.retry copy, rest)
  | .save => (s.save copy, rest)
  | .launch => (s.launch copy, rest)

/-- The session names the task of its creation. -/
def attach (copy task : ℕ) (own : Option ℕ) : State :=
  (s.edit copy { s.copies copy with
    status := .repairTaskCreated, repoTaskId := some task }).enter copy (.saving own)

/-- The handler's task is inserted. -/
def insert (copy : ℕ) : State :=
  { s with tasks := s.tasks ++ [Task.mk (some (s.copies copy).attempt) true] }.enter copy
    (.checking s.tasks.length)

/-- The creation ends without a task; `_create_repair_task` has saved its verdict, unless it
raised. -/
def giveUp (copy : ℕ) (status : SessionStatus) (phase : Phase) : State :=
  (s.edit copy { s.copies copy with status }).enter copy phase

/-- A statement of the creation thread. -/
def resume (copy : ℕ) (answer : Answer) : Phase → State
  | .begun =>
    let x := s.copies copy
    if x.repoTaskId.isSome || x.alreadyGreenAfterRefresh then s.enter copy .leaving
    else (s.edit copy { x with status := .creatingRepairTask }).enter copy .marked
  | .marked => (s.save copy).enter copy .looking
  | .looking =>
    match answer with
    | .raised => s.giveUp copy .repairTaskCreateFailed (.saving none)
    | .refused => s.giveUp copy .repairTaskCreateFailed (.ending false)
    | .green => s.giveUp copy .green (.ending true)
    | .found task => if s.active task then s.attach copy task none else s.insert copy
    | .absent => s.insert copy
  | .ending green =>
    ((s.save copy).edit copy { s.copies copy with
      alreadyGreenAfterRefresh := (s.copies copy).alreadyGreenAfterRefresh || green }).enter copy
        (.saving none)
  | .checking own =>
    match answer with
    | .raised => s.giveUp copy .repairTaskCreateFailed (.saving none)
    | .found task =>
      if s.active task && decide (task ≠ own) then
        ({ s with tasks := s.tasks.modify own fun t => { t with active := false } }).attach
          copy task none
      else s.attach copy own (some own)
    | _ => s.attach copy own (some own)
  | .saving _ => (s.save copy).enter copy .leaving
  | .leaving => { s with thread := none }

def step : Turn → State
  | .poll => s.load refresh
  | .retry => s.load retryRoute
  | .go visit verdict =>
    match s.visits[visit]? with
    | some ⟨copy, op :: rest⟩ =>
      (s.perform copy rest verdict op).1.withTodo visit (s.perform copy rest verdict op).2
    | _ => s
  | .thread answer =>
    match s.thread with
    | some ⟨copy, phase⟩ => s.resume copy answer phase
    | none => s
  | .finish task => { s with tasks := s.tasks.modify task fun t => { t with active := false } }
  | .foreign => { s with tasks := s.tasks ++ [⟨none, true⟩] }

/-! What a run promises. -/

/-- The attempt that a task was created for. -/
def attemptOf (task : ℕ) : Option ℕ := s.tasks[task]?.bind (·.attempt)

/-- The thread has created the task, and has yet to save the copy that names it. -/
def Unsaved (task : ℕ) : Prop := ∃ copy,
  s.thread = some ⟨copy, .checking task⟩ ∨ s.thread = some ⟨copy, .saving (some task)⟩

/-- There is one task for each attempt, and the saved session names it until a later
attempt is saved. -/
structure Faithful : Prop where
  single : ∀ i j a, s.attemptOf i = some a → s.attemptOf j = some a → i = j
  named : ∀ i a, s.attemptOf i = some a →
    s.Unsaved i ∨ s.saved.repoTaskId = some i ∨ a < s.saved.attempt

/-- No task was created for the attempt. -/
def Untouched (attempt : ℕ) : Prop := ∀ task, s.attemptOf task ≠ some attempt

/-- The copy is of the saved session's attempt, and names its task, or is of a later one. -/
def NotOlder (copy : ℕ) : Prop := s.saved.attempt ≤ (s.copies copy).attempt ∧
  (s.saved.attempt = (s.copies copy).attempt → s.saved.repoTaskId ≠ none →
    (s.copies copy).repoTaskId = s.saved.repoTaskId)

/-- No thread is running on the copy. -/
def Idle (copy : ℕ) : Prop := ∀ t ∈ s.thread, t.copy ≠ copy

/-- What an operation of a request should find. -/
def CarefulOp (copy : ℕ) : Op → Prop
  | .launch => s.thread = none → s.NotOlder copy
  | .save => s.NotOlder copy
  | .retry => s.Idle copy
  | .materialize => (s.copies copy).status = .retryRequested → s.Idle copy
  | .ensure | .follow => True

/-- What a statement of the thread should find. -/
def CarefulPhase (copy : ℕ) (answer : Answer) : Phase → Prop
  | .marked | .ending _ | .saving _ => s.NotOlder copy
  | .checking _ => answer = .absent
  | .begun | .looking | .leaving => True

/-- No thread is started on a copy older than the saved session and no such copy is saved, a
retry is made on a copy without a thread, and the second look finds nothing. -/
def Careful : Turn → Prop
  | .go visit _ => ∀ w ∈ s.visits[visit]?, ∀ op ∈ w.todo.head?, s.CarefulOp w.copy op
  | .thread answer => ∀ t ∈ s.thread, s.CarefulPhase t.copy answer t.phase
  | _ => True

instance (copy : ℕ) : Decidable (s.NotOlder copy) := by unfold NotOlder; infer_instance

instance (copy : ℕ) : Decidable (s.Idle copy) := by unfold Idle; infer_instance

instance (copy : ℕ) (op : Op) : Decidable (s.CarefulOp copy op) := by
  cases op <;> unfold CarefulOp <;> infer_instance

instance (copy : ℕ) (answer : Answer) (phase : Phase) :
    Decidable (s.CarefulPhase copy answer phase) := by
  cases phase <;> unfold CarefulPhase <;> infer_instance

instance (turn : Turn) : Decidable (s.Careful turn) := by
  cases turn <;> unfold Careful <;> infer_instance

end State

/-- `create_fix_session` has saved the session, and is about to start its thread. -/
def requested (tasks : List Task) : State where
  saved := ⟨0, .creatingRepairTask, none, false⟩
  copies _ := ⟨0, .creatingRepairTask, none, false⟩
  loaded := 1
  visits := [⟨0, [.launch]⟩]
  thread := none
  tasks := tasks.map fun t => { t with attempt := none }
  attempts := 1

/-! The invariant. -/

namespace State

/-- What holds of the thread's copy, by the statement that comes next. -/
def Fits (s : State) (copy : ℕ) : Phase → Prop
  | .begun => (s.copies copy).repoTaskId ≠ none ∨ s.Untouched (s.copies copy).attempt
  | .marked | .looking => s.Untouched (s.copies copy).attempt
  | .checking own => s.attemptOf own = some (s.copies copy).attempt
  | .saving (some own) => s.attemptOf own = some (s.copies copy).attempt ∧
    (s.copies copy).repoTaskId = some own
  | .ending _ | .saving none | .leaving => True

/-- A session names a task that was created, and for no later attempt than its own and the
saved one. -/
def Dated (s : State) (x : Session) : Prop := x.attempt < s.attempts ∧
  ∀ task, x.repoTaskId = some task → task < s.tasks.length ∧
    ∀ a, s.attemptOf task = some a → a ≤ x.attempt ∨ a ≤ s.saved.attempt

structure Sound (s : State) : Prop extends Faithful s where
  running : ∀ copy phase, s.thread = some ⟨copy, phase⟩ → copy < s.loaded ∧ s.Fits copy phase
  saved : s.Dated s.saved
  copies : ∀ copy, s.Dated (s.copies copy)
  visits : ∀ w ∈ s.visits, w.copy < s.loaded
  fresh : ∀ task a, s.attemptOf task = some a → a < s.attempts

variable {s : State}

theorem copies_edit_self (copy : ℕ) (x : Session) : (s.edit copy x).copies copy = x :=
  Function.update_self ..

theorem copies_edit_of_ne {copy copy' : ℕ} (other : copy' ≠ copy) (x : Session) :
    (s.edit copy x).copies copy' = s.copies copy' := Function.update_of_ne other ..

/-- `Fits` reads the copy's attempt, the task that it names, and the attempts of the tasks. -/
theorem Fits.of_same {t : State} {copy : ℕ} {phase : Phase}
    (attempt : (t.copies copy).attempt = (s.copies copy).attempt)
    (names : (t.copies copy).repoTaskId = (s.copies copy).repoTaskId)
    (made : ∀ task, t.attemptOf task = s.attemptOf task) (fits : s.Fits copy phase) :
    t.Fits copy phase := by
  cases phase with
  | begun | marked | looking | checking _ =>
    simpa only [Fits, Untouched, attempt, names, made] using fits
  | saving own =>
    cases own with
    | none => trivial
    | some own => simpa only [Fits, attempt, names, made] using fits
  | ending _ | leaving => trivial

/-- The thread enters a phase that fits, and leaves no task that it has created unnamed. -/
theorem Sound.enter (sound : s.Sound) {copy : ℕ} {phase : Phase} (bound : copy < s.loaded)
    (fits : s.Fits copy phase) (keeps : ∀ i a, s.attemptOf i = some a → s.Unsaved i →
      (s.enter copy phase).Unsaved i ∨ s.saved.repoTaskId = some i ∨ a < s.saved.attempt) :
    (s.enter copy phase).Sound where
  single := sound.single
  named i a made := by
    rcases sound.named i a made with unsaved | named
    · exact keeps i a made unsaved
    · exact .inr named
  running := by
    intro copy' phase' running
    obtain ⟨rfl, rfl⟩ := Thread.mk.inj (Option.some.inj running)
    exact ⟨bound, fits⟩
  saved := sound.saved
  copies := sound.copies
  visits := sound.visits
  fresh := sound.fresh

/-- A task that the thread has created is not yet saved in two phases only. -/
theorem unsaved_iff {copy : ℕ} {phase : Phase} (running : s.thread = some ⟨copy, phase⟩) (i : ℕ) :
    s.Unsaved i ↔ phase = .checking i ∨ phase = .saving (some i) := by
  simp only [Unsaved, running, Option.some.injEq, Thread.mk.injEq]
  constructor
  · rintro ⟨_, ⟨-, h⟩ | ⟨-, h⟩⟩
    · exact .inl h
    · exact .inr h
  · rintro (h | h)
    · exact ⟨copy, .inl ⟨rfl, h⟩⟩
    · exact ⟨copy, .inr ⟨rfl, h⟩⟩

theorem not_unsaved_of_none (idle : s.thread = none) (i : ℕ) : ¬ s.Unsaved i := by
  rintro ⟨copy, h | h⟩ <;> exact absurd (idle.symm.trans h) (Option.some_ne_none _).symm

/-- A copy is edited; a thread on it keeps its attempt and the task it names. -/
theorem Sound.edit (sound : s.Sound) {copy : ℕ} {x : Session} (dated : s.Dated x)
    (idle : s.Idle copy ∨ x.attempt = (s.copies copy).attempt ∧
      x.repoTaskId = (s.copies copy).repoTaskId) : (s.edit copy x).Sound where
  single := sound.single
  named := sound.named
  running := by
    intro copy' phase running
    obtain ⟨bound, fits⟩ := sound.running copy' phase running
    refine ⟨bound, ?_⟩
    have same : ((s.edit copy x).copies copy').attempt = (s.copies copy').attempt ∧
        ((s.edit copy x).copies copy').repoTaskId = (s.copies copy').repoTaskId := by
      rcases eq_or_ne copy' copy with rfl | other
      · rw [copies_edit_self]
        exact idle.resolve_left fun idle => idle _ running rfl
      · rw [copies_edit_of_ne other]
        exact ⟨rfl, rfl⟩
    exact fits.of_same same.1 same.2 fun _ => rfl
  saved := sound.saved
  copies := by
    intro copy'
    rcases eq_or_ne copy' copy with rfl | other
    · rw [copies_edit_self]
      exact dated
    · rw [copies_edit_of_ne other]
      exact sound.copies copy'
  visits := sound.visits
  fresh := sound.fresh

theorem Dated.save {x : Session} (dated : s.Dated x) {copy : ℕ} (newer : s.NotOlder copy) :
    (s.save copy).Dated x := by
  refine ⟨dated.1, fun task named => ⟨(dated.2 task named).1, fun a made => ?_⟩⟩
  exact ((dated.2 task named).2 a made).imp_right fun before => Nat.le_trans before newer.1

theorem Sound.dated_saved (sound : s.Sound) {i a : ℕ} (named : s.saved.repoTaskId = some i)
    (made : s.attemptOf i = some a) : a ≤ s.saved.attempt :=
  ((sound.saved.2 i named).2 a made).elim id id

/-- A copy is saved over a session that is not newer. -/
theorem Sound.save (sound : s.Sound) {copy : ℕ} (newer : s.NotOlder copy) :
    (s.save copy).Sound where
  single := sound.single
  named i a made := by
    rcases sound.named i a made with unsaved | named | older
    · exact .inl unsaved
    · have dated := sound.dated_saved named made
      rcases Nat.lt_or_eq_of_le newer.1 with later | same
      · exact .inr (.inr (Nat.lt_of_le_of_lt dated later))
      · exact .inr (.inl ((newer.2 same (named ▸ Option.some_ne_none i)).trans named))
    · exact .inr (.inr (Nat.lt_of_lt_of_le older newer.1))
  running := sound.running
  saved := (sound.copies copy).save newer
  copies copy' := (sound.copies copy').save newer
  visits := sound.visits
  fresh := sound.fresh

/-- Tasks end, and others come that are for no attempt. -/
theorem Sound.withTasks (sound : s.Sound) {tasks : List Task}
    (same : ∀ i, { s with tasks }.attemptOf i = s.attemptOf i)
    (grown : s.tasks.length ≤ tasks.length) : { s with tasks }.Sound where
  single i j a first second :=
    sound.single i j a ((same i).symm.trans first) ((same j).symm.trans second)
  named i a made := sound.named i a ((same i).symm.trans made)
  running := by
    intro copy phase running
    obtain ⟨bound, fits⟩ := sound.running copy phase running
    exact ⟨bound, fits.of_same (s := s) rfl rfl same⟩
  saved := ⟨sound.saved.1, fun task named =>
    ⟨Nat.lt_of_lt_of_le (sound.saved.2 task named).1 grown, fun a made =>
      (sound.saved.2 task named).2 a ((same task).symm.trans made)⟩⟩
  copies copy := ⟨(sound.copies copy).1, fun task named =>
    ⟨Nat.lt_of_lt_of_le ((sound.copies copy).2 task named).1 grown, fun a made =>
      ((sound.copies copy).2 task named).2 a ((same task).symm.trans made)⟩⟩
  visits := sound.visits
  fresh task a made := sound.fresh task a ((same task).symm.trans made)

/-- A request loads its copy. -/
theorem Sound.load (sound : s.Sound) (todo : List Op) : (s.load todo).Sound where
  single := sound.single
  named := sound.named
  running := by
    intro copy phase running
    obtain ⟨bound, fits⟩ := sound.running copy phase running
    refine ⟨Nat.lt_succ_of_lt bound, ?_⟩
    have same : (s.load todo).copies copy = s.copies copy :=
      Function.update_of_ne (Nat.ne_of_lt bound) _ _
    exact fits.of_same (congrArg _ same) (congrArg _ same) fun _ => rfl
  saved := sound.saved
  copies := by
    intro copy
    change s.Dated (Function.update s.copies s.loaded s.saved copy)
    rcases eq_or_ne copy s.loaded with rfl | other
    · rw [Function.update_self]
      exact sound.saved
    · rw [Function.update_of_ne other]
      exact sound.copies copy
  visits := by
    intro w mem
    rcases List.mem_append.mp mem with mem | mem
    · exact Nat.lt_succ_of_lt (sound.visits w mem)
    · rw [List.mem_singleton.mp mem]
      exact Nat.lt_succ_self _
  fresh := sound.fresh

theorem Sound.withTodo (sound : s.Sound) (visit : ℕ) (todo : List Op) :
    (s.withTodo visit todo).Sound where
  single := sound.single
  named := sound.named
  running := sound.running
  saved := sound.saved
  copies := sound.copies
  visits := by
    intro w mem
    obtain ⟨n, found⟩ := List.getElem?_of_mem mem
    rw [State.withTodo, List.getElem?_modify] at found
    obtain ⟨w', before, rfl⟩ := Option.map_eq_some_iff.mp found
    have bound := sound.visits w' (List.mem_of_getElem? before)
    by_cases same : visit = n
    · rw [if_pos same]
      exact bound
    · rw [if_neg same]
      exact bound
  fresh := sound.fresh

/-- A new attempt is numbered. -/
theorem Sound.numbered (sound : s.Sound) : { s with attempts := s.attempts + 1 }.Sound where
  single := sound.single
  named := sound.named
  running := by
    intro copy phase running
    obtain ⟨bound, fits⟩ := sound.running copy phase running
    exact ⟨bound, fits.of_same rfl rfl fun _ => rfl⟩
  saved := ⟨Nat.lt_succ_of_lt sound.saved.1, sound.saved.2⟩
  copies copy := ⟨Nat.lt_succ_of_lt (sound.copies copy).1, (sound.copies copy).2⟩
  visits := sound.visits
  fresh task a made := Nat.lt_succ_of_lt (sound.fresh task a made)

/-- The handler's task is the first of its attempt. -/
theorem Sound.insert (sound : s.Sound) {copy : ℕ} (running : s.thread = some ⟨copy, .looking⟩) :
    (s.insert copy).Sound := by
  obtain ⟨bound, untouched⟩ := sound.running copy .looking running
  have old : ∀ i, i < s.tasks.length → (s.insert copy).attemptOf i = s.attemptOf i := by
    intro i inside
    rw [attemptOf, attemptOf, State.insert, State.enter, List.getElem?_append_left inside]
  have new : (s.insert copy).attemptOf s.tasks.length = some (s.copies copy).attempt := by
    rw [attemptOf, State.insert, State.enter, List.getElem?_concat_length]
    rfl
  have cases_made : ∀ i a, (s.insert copy).attemptOf i = some a →
      i < s.tasks.length ∧ s.attemptOf i = some a ∨
        i = s.tasks.length ∧ a = (s.copies copy).attempt := by
    intro i a made
    rcases Nat.lt_trichotomy i s.tasks.length with inside | rfl | beyond
    · exact .inl ⟨inside, (old i inside).symm.trans made⟩
    · exact .inr ⟨rfl, Option.some.inj (made.symm.trans new)⟩
    · have outside : (s.insert copy).tasks.length ≤ i := by
        rw [State.insert, State.enter, List.length_append, List.length_singleton]
        exact beyond
      rw [attemptOf, List.getElem?_eq_none outside] at made
      exact absurd made (Option.some_ne_none _).symm
  have keeps : ∀ x, s.Dated x → (s.insert copy).Dated x := by
    intro x dated
    refine ⟨dated.1, fun task named => ?_⟩
    obtain ⟨inside, before⟩ := dated.2 task named
    refine ⟨?_, fun a made => before a ((old task inside).symm.trans made)⟩
    rw [State.insert, State.enter, List.length_append]
    exact Nat.lt_add_right _ inside
  refine ⟨⟨?_, ?_⟩, ?_, keeps _ sound.saved, fun c => keeps _ (sound.copies c), sound.visits, ?_⟩
  · intro i j a first second
    rcases cases_made i a first with ⟨-, first⟩ | ⟨rfl, rfl⟩ <;>
      rcases cases_made j _ second with ⟨-, second⟩ | ⟨rfl, same⟩
    · exact sound.single i j a first second
    · exact absurd (same ▸ first) (untouched i)
    · exact absurd second (untouched j)
    · rfl
  · intro i a made
    rcases cases_made i a made with ⟨-, made⟩ | ⟨rfl, -⟩
    · rcases sound.named i a made with unsaved | named
      · rcases (unsaved_iff running i).mp unsaved with h | h <;> cases h
      · exact .inr named
    · exact .inl ⟨copy, .inl rfl⟩
  · intro copy' phase now
    obtain ⟨rfl, rfl⟩ := Thread.mk.inj (Option.some.inj now)
    exact ⟨bound, new⟩
  · intro i a made
    rcases cases_made i a made with ⟨-, made⟩ | ⟨-, rfl⟩
    · exact sound.fresh i a made
    · exact (sound.copies copy).1

/-! The steps. -/

/-- A thread starts on a copy that names the task of its attempt, or for an attempt without
one. -/
theorem Sound.launch (sound : s.Sound) {copy : ℕ} (bound : copy < s.loaded)
    (careful : s.CarefulOp copy .launch) : (s.launch copy).Sound := by
  unfold State.launch
  split
  · next idle =>
    have newer := careful idle
    refine sound.enter bound ?_ fun i a made unsaved =>
      absurd unsaved (not_unsaved_of_none idle i)
    by_cases touched : s.Untouched (s.copies copy).attempt
    · exact .inr touched
    · refine .inl ?_
      simp only [Untouched, not_forall, not_not] at touched
      obtain ⟨task, made⟩ := touched
      rcases sound.named task _ made with unsaved | named | older
      · exact absurd unsaved (not_unsaved_of_none idle task)
      · have dated := sound.dated_saved named made
        have same : s.saved.attempt = (s.copies copy).attempt := Nat.le_antisymm newer.1 dated
        have names : s.saved.repoTaskId ≠ none := named ▸ Option.some_ne_none task
        exact (newer.2 same names).symm ▸ names
      · exact absurd newer.1 (Nat.not_le_of_lt older)
  · exact sound

theorem Sound.perform (sound : s.Sound) {copy : ℕ} (bound : copy < s.loaded) (rest : List Op)
    (verdict : Option SessionStatus) {op : Op} (careful : s.CarefulOp copy op) :
    (s.perform copy rest verdict op).1.Sound := by
  have dated := sound.copies copy
  cases op with
  | ensure => exact sound
  | materialize =>
    simp only [State.perform]
    split
    · exact sound
    · next requested =>
      have idle := careful (not_not.mp requested)
      split
      · exact sound.edit dated (.inr ⟨rfl, rfl⟩)
      · exact sound.edit ⟨dated.1, fun _ named => absurd named (Option.some_ne_none _).symm⟩
          (.inl idle)
  | follow =>
    simp only [State.perform]
    split
    · split
      · exact sound.edit dated (.inr ⟨rfl, rfl⟩)
      · exact sound
    · exact sound
  | retry =>
    refine sound.numbered.edit ⟨Nat.lt_succ_self _, fun task named => ?_⟩ (.inl careful)
    obtain ⟨inside, before⟩ := dated.2 task named
    refine ⟨inside, fun a made => (before a made).imp_left fun before => ?_⟩
    exact Nat.le_trans before (Nat.le_of_lt dated.1)
  | save => exact sound.save careful
  | launch => exact sound.launch bound careful

/-- The thread enters a phase in which no task is unsaved, as none was before. -/
theorem Sound.enter_of (sound : s.Sound) {copy : ℕ} {phase next : Phase}
    (running : s.thread = some ⟨copy, phase⟩) (fits : s.Fits copy next)
    (quiet : ∀ i, phase ≠ .checking i ∧ phase ≠ .saving (some i)) : (s.enter copy next).Sound := by
  refine sound.enter (sound.running copy phase running).1 fits fun i a made unsaved => ?_
  rcases (unsaved_iff running i).mp unsaved with h | h
  · exact absurd h (quiet i).1
  · exact absurd h (quiet i).2

/-- The thread's copy names a task: its own one, or one that it has found. -/
theorem Sound.attach (sound : s.Sound) {copy task : ℕ} {phase : Phase} {own : Option ℕ}
    (running : s.thread = some ⟨copy, phase⟩) (inside : task < s.tasks.length)
    (dated : ∀ a, s.attemptOf task = some a → a ≤ (s.copies copy).attempt ∨ a ≤ s.saved.attempt)
    (mine : ∀ i, own = some i → i = task ∧ s.attemptOf i = some (s.copies copy).attempt)
    (quiet : ∀ i, s.Unsaved i → own = some i) : (s.attach copy task own).Sound where
  single := sound.single
  named i a made := by
    rcases sound.named i a made with unsaved | named
    · exact .inl ⟨copy, .inr (by rw [quiet i unsaved]; rfl)⟩
    · exact .inr named
  running := by
    intro copy' phase' now
    obtain ⟨rfl, rfl⟩ := Thread.mk.inj (Option.some.inj now)
    refine ⟨(sound.running copy phase running).1, ?_⟩
    cases own with
    | none => trivial
    | some i =>
      obtain ⟨rfl, made⟩ := mine i rfl
      refine ⟨?_, congrArg Session.repoTaskId (copies_edit_self ..)⟩
      change s.attemptOf i = some ((s.edit copy _).copies copy).attempt
      rw [copies_edit_self]
      exact made
  saved := sound.saved
  copies := by
    intro copy'
    change s.Dated ((s.edit copy _).copies copy')
    rcases eq_or_ne copy' copy with rfl | other
    · rw [copies_edit_self]
      refine ⟨(sound.copies copy').1, fun task' named => ?_⟩
      obtain rfl := Option.some.inj named
      exact ⟨inside, dated⟩
    · rw [copies_edit_of_ne other]
      exact sound.copies copy'
  visits := sound.visits
  fresh := sound.fresh

/-- A statement that only gives the thread's copy a status. -/
theorem Sound.edit_enter (sound : s.Sound) {copy : ℕ} {phase next : Phase} {x : Session}
    (running : s.thread = some ⟨copy, phase⟩)
    (same : x.attempt = (s.copies copy).attempt ∧ x.repoTaskId = (s.copies copy).repoTaskId)
    (fits : s.Fits copy next) (quiet : ∀ i, phase ≠ .checking i ∧ phase ≠ .saving (some i)) :
    ((s.edit copy x).enter copy next).Sound := by
  have dated : s.Dated x := by
    obtain ⟨bound, names⟩ := sound.copies copy
    rw [← same.1, ← same.2] at names
    exact ⟨same.1 ▸ bound, names⟩
  refine (sound.edit dated (.inr same)).enter_of running ?_ quiet
  exact fits.of_same (s := s) (by rw [copies_edit_self, same.1])
    (by rw [copies_edit_self, same.2]) fun _ => rfl

theorem Sound.resume (sound : s.Sound) {copy : ℕ} {phase : Phase} {answer : Answer}
    (running : s.thread = some ⟨copy, phase⟩) (careful : s.CarefulPhase copy answer phase) :
    (s.resume copy answer phase).Sound := by
  obtain ⟨bound, fits⟩ := sound.running copy phase running
  cases phase with
  | begun =>
    simp only [State.resume]
    split
    · exact sound.enter_of running trivial fun i => ⟨Phase.noConfusion, Phase.noConfusion⟩
    · next going =>
      simp only [Bool.or_eq_true, not_or, Option.not_isSome_iff_eq_none] at going
      refine sound.edit_enter running ⟨rfl, rfl⟩ (fits.resolve_left fun named => named going.1)
        fun i => ⟨Phase.noConfusion, Phase.noConfusion⟩
  | marked =>
    exact (sound.save careful).enter_of running fits
      fun i => ⟨Phase.noConfusion, Phase.noConfusion⟩
  | looking =>
    have quiet : ∀ i, Phase.looking ≠ .checking i ∧ Phase.looking ≠ .saving (some i) :=
      fun i => ⟨Phase.noConfusion, Phase.noConfusion⟩
    cases answer with
    | raised | refused | green => exact sound.edit_enter running ⟨rfl, rfl⟩ trivial quiet
    | absent => exact sound.insert running
    | found task =>
      simp only [State.resume]
      split
      · next active =>
        obtain ⟨row, there, -⟩ := (Option.any_eq_true _ _).mp active
        have silent : ∀ i, ¬ s.Unsaved i := fun i unsaved =>
          ((unsaved_iff running i).mp unsaved).elim (quiet i).1 (quiet i).2
        refine sound.attach running (List.getElem?_eq_some_iff.mp there).1 (fun a made => ?_)
          (fun i other => absurd other (Option.some_ne_none i).symm)
          fun i unsaved => absurd unsaved (silent i)
        rcases sound.named task a made with unsaved | named | older
        · exact absurd unsaved (silent task)
        · exact .inr (sound.dated_saved named made)
        · exact .inr (Nat.le_of_lt older)
      · exact sound.insert running
  | ending green =>
    have saved := sound.save careful
    exact saved.edit_enter running ⟨rfl, rfl⟩ trivial fun i => ⟨Phase.noConfusion, Phase.noConfusion⟩
  | checking own =>
    obtain rfl : answer = .absent := careful
    have inside : own < s.tasks.length := by
      obtain ⟨row, there, -⟩ := Option.bind_eq_some_iff.mp fits
      exact (List.getElem?_eq_some_iff.mp there).1
    refine sound.attach running inside (fun a made => .inl ?_) (fun i same => ?_) fun i unsaved => ?_
    · exact Nat.le_of_eq (Option.some.inj (made.symm.trans fits))
    · obtain rfl := Option.some.inj same
      exact ⟨rfl, fits⟩
    · rcases (unsaved_iff running i).mp unsaved with h | h
      · exact congrArg some (Phase.checking.inj h)
      · cases h
  | saving own =>
    have saved := sound.save careful
    refine saved.enter bound trivial fun i a made unsaved => .inr (.inl ?_)
    rcases (unsaved_iff (s := s.save copy) running i).mp unsaved with h | h
    · cases h
    · obtain rfl := Phase.saving.inj h
      exact fits.2
  | leaving =>
    refine ⟨⟨sound.single, fun i a made => ?_⟩, fun _ _ now => absurd now (Option.some_ne_none _).symm,
      sound.saved, sound.copies, sound.visits, sound.fresh⟩
    rcases sound.named i a made with unsaved | named
    · rcases (unsaved_iff running i).mp unsaved with h | h <;> cases h
    · exact .inr named

/-- What one turn preserves. -/
theorem Sound.step (sound : s.Sound) {turn : Turn} (careful : s.Careful turn) :
    (s.step turn).Sound := by
  cases turn with
  | poll => exact sound.load refresh
  | retry => exact sound.load retryRoute
  | go visit verdict =>
    simp only [State.step]
    split
    · next copy op rest there =>
      have bound := sound.visits _ (List.mem_of_getElem? there)
      exact (sound.perform bound rest verdict (careful _ there op rfl)).withTodo visit _
    · exact sound
  | thread answer =>
    simp only [State.step]
    split
    · next copy phase running => exact sound.resume running (careful _ running)
    · exact sound
  | finish task =>
    refine sound.withTasks (fun i => ?_) (Nat.le_of_eq (List.length_modify ..).symm)
    simp only [attemptOf, List.getElem?_modify]
    cases s.tasks[i]? with
    | none => rfl
    | some t =>
      by_cases same : task = i
      · simp [same]
      · simp [same]
  | foreign =>
    refine sound.withTasks (fun i => ?_) (by rw [List.length_append]; exact Nat.le_add_right ..)
    simp only [attemptOf]
    rcases Nat.lt_trichotomy i s.tasks.length with inside | rfl | beyond
    · rw [List.getElem?_append_left inside]
    · rw [List.getElem?_concat_length, List.getElem?_eq_none (Nat.le_refl _)]
      rfl
    · rw [List.getElem?_eq_none (Nat.le_of_lt beyond), List.getElem?_eq_none]
      rw [List.length_append, List.length_singleton]
      exact beyond

end State

theorem sound_requested (tasks : List Task) : (requested tasks).Sound := by
  have none_made : ∀ i a, (requested tasks).attemptOf i ≠ some a := by
    intro i a made
    rw [State.attemptOf, requested, List.getElem?_map] at made
    cases h : tasks[i]? with
    | none => simp [h] at made
    | some t => simp [h] at made
  refine ⟨⟨?_, ?_⟩, ?_, ?_, ?_, ?_, ?_⟩
  · exact fun i _ a made => absurd made (none_made i a)
  · exact fun i a made => absurd made (none_made i a)
  · exact fun _ _ running => absurd running (Option.some_ne_none _).symm
  · exact ⟨Nat.zero_lt_one, fun _ named => absurd named (Option.some_ne_none _).symm⟩
  · exact fun _ => ⟨Nat.zero_lt_one, fun _ named => absurd named (Option.some_ne_none _).symm⟩
  · intro w mem
    rw [List.mem_singleton.mp mem]
    exact Nat.zero_lt_one
  · exact fun i a made => absurd made (none_made i a)

/-- Over every run of polls, retries and threads from a request, where no turn starts a thread
on a stale copy or saves one, each attempt has one task and the saved session names it. -/
theorem one_task (tasks : List Task) (turns : List Turn)
    (careful : Meets State.step State.Careful (requested tasks) turns) :
    Always State.step State.Faithful (requested tasks) turns :=
  always_mono _ (fun _ sound => sound.toFaithful) _ _
    (always_of_meets _ (fun _ _ sound careful => sound.step careful) _ _ (sound_requested tasks) careful)

/-- The statements of one creation that finds no other task. -/
def creation : List Turn := List.replicate 6 (.thread .absent)

/-- A request, and a retry after its task has failed. -/
def retriedTurns : List Turn :=
  .go 0 none :: creation ++ [.finish 0, .retry] ++
    [.go 1 none, .go 1 none, .go 1 (some .repairFailed)] ++ List.replicate 6 (.go 1 none) ++
    creation

theorem retried_one_task :
    Meets State.step State.Careful (requested []) retriedTurns ∧
      Always State.step State.Faithful (requested []) retriedTurns :=
  have careful : Meets State.step State.Careful (requested []) retriedTurns := by decide +kernel
  ⟨careful, one_task [] retriedTurns careful⟩

/-- A poll loads the session before its thread has run, and starts a second one after it. -/
def stalePoll : List Turn :=
  .poll :: .go 0 none :: creation ++ [.finish 0, .go 1 none, .go 1 none] ++ creation.take 3

/-- The second thread creates a second task for the same request. -/
theorem stale_poll_doubles :
    ¬ ∀ tasks turns, Always State.step State.Faithful (requested tasks) turns := by
  intro always
  have reached := (always_iff_reached _ _ _).mp (always [] stalePoll) stalePoll []
    (List.append_nil _).symm
  exact absurd (reached.single 0 1 0 (by decide +kernel) (by decide +kernel)) Nat.zero_ne_one

end Uta.Repair.Deferred
