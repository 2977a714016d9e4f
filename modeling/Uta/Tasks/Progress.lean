/- The bounded log of a task's progress, and the cursor that reads it. -/
import Uta.Lib.Json
import Uta.Lib.Run
import Uta.Lib.Table
import Mathlib.Algebra.GroupWithZero.Nat

namespace Uta.Tasks.Progress
open Uta.Lib

/-! The log. -/

/-- The progress columns of one row of `repo_tasks`. -/
structure ProgressTask where
  id : ℕ
  progressEventCount : ℕ := 0
  progressEventBytes : ℕ := 0
  progressTruncated : Bool := false
  updatedAt : ℕ := 0
  deriving DecidableEq

/-- The columns of a row of `task_events` but for its id. -/
structure EventArgs where
  repoTaskId : ℕ
  eventType : String
  severity : String
  stage : Option String
  message : String
  payloadJson : List Char
  createdAt : ℕ
  deriving DecidableEq

structure EventRow where
  id : ℕ
  args : EventArgs
  deriving DecidableEq

/-- The two tables; `sequence` is the last id that `task_events` has given. -/
structure Store where
  tasks : Table ProgressTask.id
  events : List EventRow
  sequence : ℕ
  ordered : (events.map EventRow.id).Pairwise (· < ·)
  issued : ∀ e ∈ events, 0 < e.id ∧ e.id ≤ sequence

namespace Store

/-- INSERT of one row of `task_events`, under the next id. -/
def insert (s : Store) (args : EventArgs) : Store where
  tasks := s.tasks
  events := s.events ++ [⟨s.sequence + 1, args⟩]
  sequence := s.sequence + 1
  ordered := by
    rw [List.map_append, List.pairwise_append]
    refine ⟨s.ordered, List.pairwise_singleton _ _, ?_⟩
    intro m old n new
    obtain ⟨e, member, rfl⟩ := List.mem_map.mp old
    rw [List.mem_singleton.mp new]
    exact Nat.lt_succ_of_le (s.issued e member).2
  issued := by
    intro e member
    rcases List.mem_append.mp member with old | new
    · exact ⟨(s.issued e old).1, Nat.le_succ_of_le (s.issued e old).2⟩
    · rw [List.mem_singleton.mp new]
      exact ⟨Nat.succ_pos _, le_rfl⟩

def insertAll (s : Store) (rows : List EventArgs) : Store := rows.foldl insert s

/-- UPDATE of one row of `repo_tasks`. -/
def updateTask (s : Store) (taskId : ℕ) (f : ProgressTask → ProgressTask)
    (same : ∀ r, (f r).id = r.id) : Store :=
  { s with tasks := s.tasks.modify taskId f same }

end Store

/-! Appending. -/

/-- One of the dictionaries that a caller appends. -/
structure ProgressEvent where
  eventType : Option String := none
  severity : Option String := none
  stage : Option String := none
  message : Option String := none
  payload : Json := .null

/-- `json_dumps`. -/
def jsonDumps : Json → List Char
  | .null => "\x7b\x7d".toList
  | value => Json.print true value.sortKeys

structure Prepared where
  event : ProgressEvent
  payloadJson : List Char
  serializedBytes : ℕ

def prepare (event : ProgressEvent) : Prepared :=
  let payloadJson := jsonDumps event.payload
  ⟨event, payloadJson, (payloadJson.map Char.utf8Size).sum⟩

/-- `value or default`. -/
def orElse (value : Option String) (default_ : String) : String :=
  match value with
  | none => default_
  | some s => if s = "" then default_ else s

def Prepared.args (item : Prepared) (repoTaskId now : ℕ) : EventArgs where
  repoTaskId := repoTaskId
  eventType := "agent_progress"
  severity := orElse item.event.severity "INFO"
  stage := item.event.stage
  message := orElse item.event.message "Agent progress"
  payloadJson := item.payloadJson
  createdAt := now

def markerArgs (repoTaskId maxRows maxBytes now : ℕ) : EventArgs where
  repoTaskId := repoTaskId
  eventType := "progress_truncated"
  severity := "WARNING"
  stage := none
  message := "Some agent progress updates were omitted"
  payloadJson := jsonDumps (.obj [("maxEvents", .int maxRows), ("maxSerializedBytes", .int maxBytes)])
  createdAt := now

/-- The items that still fit; `rows` and `bytes` are used before. -/
def admitItems (maxRows maxBytes : ℕ) : (rows bytes : ℕ) → List Prepared → List Prepared
  | _, _, [] => []
  | rows, bytes, item :: items =>
    if rows + 1 > maxRows then []
    else if bytes + item.serializedBytes > maxBytes then []
    else item :: admitItems maxRows maxBytes (rows + 1) (bytes + item.serializedBytes) items

structure Batch where
  repoTaskId : ℕ
  events : List ProgressEvent
  maxEvents : ℤ
  maxSerializedBytes : ℤ
  now : ℕ

namespace Batch

def isMarker (event : ProgressEvent) : Bool := event.eventType == some "progress_truncated"

def prepared (b : Batch) : List Prepared := (b.events.filter fun e => !isMarker e).map prepare

def markerRequested (b : Batch) : Bool := b.events.any isMarker

def maxRows (b : Batch) : ℕ := b.maxEvents.toNat

def maxBytes (b : Batch) : ℕ := b.maxSerializedBytes.toNat

/-- The items admitted beside what the task's row has counted. -/
def admitted (b : Batch) (task : ProgressTask) : List Prepared :=
  admitItems b.maxRows b.maxBytes task.progressEventCount task.progressEventBytes b.prepared

def truncated (b : Batch) (task : ProgressTask) : Bool :=
  b.markerRequested || decide ((b.admitted task).length < b.prepared.length)

/-- The rows that the batch inserts. -/
def rows (b : Batch) (task : ProgressTask) : List EventArgs :=
  (b.admitted task).map (fun item => item.args b.repoTaskId b.now) ++
    if b.truncated task && !task.progressTruncated then
      [markerArgs b.repoTaskId b.maxRows b.maxBytes b.now] else []

end Batch

def totalBytes (items : List Prepared) : ℕ := (items.map Prepared.serializedBytes).sum

/-- The UPDATE of the task's row. -/
def Batch.count (b : Batch) (task r : ProgressTask) : ProgressTask :=
  { r with
    progressEventCount := r.progressEventCount + (b.admitted task).length
    progressEventBytes := r.progressEventBytes + totalBytes (b.admitted task)
    progressTruncated := r.progressTruncated || (b.truncated task && !task.progressTruncated)
    updatedAt := b.now }

/-- The statements of the transaction. -/
def Batch.write (b : Batch) (task : ProgressTask) (s : Store) : Store :=
  (s.insertAll (b.rows task)).updateTask b.repoTaskId (b.count task) fun _ => rfl

structure AppendResult where
  admittedEvents : ℕ
  admittedSerializedBytes : ℕ
  truncated : Bool
  deriving DecidableEq

def appendProgressEventBatch (s : Store) (b : Batch) : Except String (AppendResult × Store) :=
  match s.tasks.find? b.repoTaskId with
  | none => .error ("Task " ++ toString b.repoTaskId ++ " not found")
  | some task =>
    let admitted := b.admitted task
    .ok (⟨admitted.length, totalBytes admitted, b.truncated task⟩, b.write task s)

/-! Reading. -/

/-- The events of a task after a cursor, oldest first. -/
def eventsSince (s : Store) (repoTaskId : ℕ) (afterId limit : ℤ) : List EventRow :=
  let cursor := afterId.toNat
  let boundedLimit := (min (max limit 1) 5000).toNat
  ((s.events.filter fun e => decide (e.args.repoTaskId = repoTaskId) && decide (cursor < e.id)).mergeSort
    fun a b => decide (a.id ≤ b.id)).take boundedLimit

/-- A store with one reader of a task's events, who pages through them. -/
structure Session where
  store : Store
  repoTaskId : ℕ
  cursor : ℕ := 0
  received : List EventRow := []

/-- A call of a writer, or the next page of the reader. -/
inductive Op where
  | append (batch : Batch)
  | page (limit : ℤ)

def Session.step (t : Session) : Op → Session
  | .append b =>
    match appendProgressEventBatch t.store b with
    | .ok (_, stored) => { t with store := stored }
    | .error _ => t
  | .page limit =>
    let rows := eventsSince t.store t.repoTaskId t.cursor limit
    { t with
      cursor := (rows.getLast?.map EventRow.id).getD t.cursor
      received := t.received ++ rows }

/-! What an append stores. -/

namespace Store

@[simp] theorem insertAll_nil (s : Store) : s.insertAll [] = s := rfl

@[simp] theorem insertAll_cons (s : Store) (a : EventArgs) (rows : List EventArgs) :
    s.insertAll (a :: rows) = (s.insert a).insertAll rows := rfl

theorem insertAll_tasks (s : Store) (rows : List EventArgs) : (s.insertAll rows).tasks = s.tasks := by
  induction rows generalizing s with
  | nil => rfl
  | cons a rows ih => exact ih (s.insert a)

theorem insertAll_args (s : Store) (rows : List EventArgs) :
    (s.insertAll rows).events.map EventRow.args = s.events.map EventRow.args ++ rows := by
  induction rows generalizing s with
  | nil => simp
  | cons a rows ih => simp [ih, insert]

/-- The rows that were there stay, and the new ones have later ids. -/
theorem insertAll_events (s : Store) (rows : List EventArgs) :
    ∃ new, (s.insertAll rows).events = s.events ++ new ∧ ∀ e ∈ new, s.sequence < e.id := by
  induction rows generalizing s with
  | nil => exact ⟨[], by simp, by simp⟩
  | cons a rows ih =>
      obtain ⟨new, events, later⟩ := ih (s.insert a)
      refine ⟨⟨s.sequence + 1, a⟩ :: new, ?_, ?_⟩
      · rw [insertAll_cons, events]
        simp [insert]
      · intro e member
        rcases List.mem_cons.mp member with rfl | member
        · exact Nat.lt_succ_self _
        · exact Nat.lt_of_succ_lt (later e member)

theorem insertAll_sequence (s : Store) (rows : List EventArgs) :
    s.sequence ≤ (s.insertAll rows).sequence := by
  induction rows generalizing s with
  | nil => exact le_rfl
  | cons a rows ih => exact (Nat.le_succ _).trans (ih (s.insert a))

/-- The rows of one task, without their ids. -/
def log (s : Store) (repoTaskId : ℕ) (eventType : String) : List EventArgs :=
  (s.events.map EventRow.args).filter fun a => a.repoTaskId = repoTaskId ∧ a.eventType = eventType

/-- The rows of one task. -/
def own (s : Store) (repoTaskId : ℕ) : List EventRow :=
  s.events.filter fun e => e.args.repoTaskId = repoTaskId

theorem log_insertAll (s : Store) (rows : List EventArgs) (repoTaskId : ℕ) (eventType : String) :
    (s.insertAll rows).log repoTaskId eventType = s.log repoTaskId eventType ++
      rows.filter fun a => a.repoTaskId = repoTaskId ∧ a.eventType = eventType := by
  rw [log, insertAll_args, List.filter_append]
  rfl

end Store

/-! What is admitted. -/

theorem admit_take (maxRows maxBytes rows bytes : ℕ) (items : List Prepared) :
    ∃ n, admitItems maxRows maxBytes rows bytes items = items.take n := by
  induction items generalizing rows bytes with
  | nil => exact ⟨0, rfl⟩
  | cons item items ih =>
      rw [admitItems]
      split
      · exact ⟨0, rfl⟩
      · split
        · exact ⟨0, rfl⟩
        · obtain ⟨n, taken⟩ := ih (rows + 1) (bytes + item.serializedBytes)
          exact ⟨n + 1, by rw [taken, List.take_succ_cons]⟩

/-- What is admitted stays within the caps. -/
theorem admit_within {maxRows maxBytes rows bytes R B : ℕ} (items : List Prepared)
    (rowsWithin : rows ≤ R) (bytesWithin : bytes ≤ B) (rowCap : maxRows ≤ R)
    (byteCap : maxBytes ≤ B) :
    rows + (admitItems maxRows maxBytes rows bytes items).length ≤ R ∧
      bytes + totalBytes (admitItems maxRows maxBytes rows bytes items) ≤ B := by
  induction items generalizing rows bytes with
  | nil => exact ⟨rowsWithin, bytesWithin⟩
  | cons item items ih =>
      rw [admitItems]
      split
      · exact ⟨rowsWithin, bytesWithin⟩
      · next room =>
        split
        · exact ⟨rowsWithin, bytesWithin⟩
        · next space =>
          have more := @ih (rows + 1) (bytes + item.serializedBytes) (by omega) (by omega)
          simp only [List.length_cons, totalBytes, List.map_cons, List.sum_cons] at more ⊢
          omega

theorem rowBytes (item : Prepared) (made : item = prepare item.event) (repoTaskId now : ℕ) :
    ((item.args repoTaskId now).payloadJson.map Char.utf8Size).sum = item.serializedBytes := by
  rw [made]
  rfl

namespace Batch
variable (b : Batch) (task : ProgressTask)

theorem admitted_prepared {item : Prepared} (member : item ∈ b.admitted task) :
    item = prepare item.event := by
  obtain ⟨n, taken⟩ := admit_take b.maxRows b.maxBytes task.progressEventCount
    task.progressEventBytes b.prepared
  rw [admitted, taken] at member
  obtain ⟨event, _, rfl⟩ := List.mem_map.mp (List.mem_of_mem_take member)
  rfl

/-- The progress rows of the batch. -/
theorem rows_progress : (b.rows task).filter
    (fun a => decide (a.repoTaskId = b.repoTaskId ∧ a.eventType = "agent_progress")) =
      (b.admitted task).map fun item => item.args b.repoTaskId b.now := by
  rw [rows, List.filter_append]
  have all : ((b.admitted task).map fun item => item.args b.repoTaskId b.now).filter
      (fun a => decide (a.repoTaskId = b.repoTaskId ∧ a.eventType = "agent_progress")) =
        (b.admitted task).map fun item => item.args b.repoTaskId b.now := by
    refine List.filter_eq_self.mpr fun a member => ?_
    obtain ⟨item, _, rfl⟩ := List.mem_map.mp member
    exact decide_eq_true ⟨rfl, rfl⟩
  have none_ : (if b.truncated task && !task.progressTruncated then
      [markerArgs b.repoTaskId b.maxRows b.maxBytes b.now] else []).filter
      (fun a => decide (a.repoTaskId = b.repoTaskId ∧ a.eventType = "agent_progress")) = [] := by
    split
    · simp [markerArgs]
    · rfl
  rw [all, none_, List.append_nil]

/-- The marker of the batch. -/
theorem rows_marker : (b.rows task).filter
    (fun a => decide (a.repoTaskId = b.repoTaskId ∧ a.eventType = "progress_truncated")) =
      if b.truncated task && !task.progressTruncated then
        [markerArgs b.repoTaskId b.maxRows b.maxBytes b.now] else [] := by
  rw [rows, List.filter_append]
  have none_ : ((b.admitted task).map fun item => item.args b.repoTaskId b.now).filter
      (fun a => decide (a.repoTaskId = b.repoTaskId ∧ a.eventType = "progress_truncated")) = [] := by
    refine List.filter_eq_nil_iff.mpr fun a member => ?_
    obtain ⟨item, _, rfl⟩ := List.mem_map.mp member
    simp [Prepared.args]
  rw [none_, List.nil_append]
  split
  · simp [markerArgs]
  · rfl

theorem rows_other {repoTaskId : ℕ} (other : b.repoTaskId ≠ repoTaskId) (eventType : String) :
    (b.rows task).filter (fun a => decide (a.repoTaskId = repoTaskId ∧ a.eventType = eventType)) =
      [] := by
  refine List.filter_eq_nil_iff.mpr fun a member => ?_
  have owned : a.repoTaskId = b.repoTaskId := by
    rw [rows, List.mem_append] at member
    rcases member with row | marker
    · obtain ⟨item, _, rfl⟩ := List.mem_map.mp row
      rfl
    · split at marker
      · rw [List.mem_singleton.mp marker]
        rfl
      · cases marker
  simp [owned, other]

end Batch

/-! The account of a task. -/

namespace Session

/-- The rows of the reader's task of one type. -/
def log (t : Session) (eventType : String) : List EventArgs := t.store.log t.repoTaskId eventType

/-- Something of the batch is left out, or the batch says that something was before. -/
def Lost (t : Session) : Op → Prop
  | .append b => b.repoTaskId = t.repoTaskId ∧ (b.markerRequested = true ∨
      ((t.step (.append b)).log "agent_progress").length <
        (t.log "agent_progress").length + b.prepared.length)
  | .page _ => False

/-- That happens somewhere along the run. -/
def EverLost (t : Session) : List Op → Prop
  | [] => False
  | op :: ops => Lost t op ∨ EverLost (t.step op) ops

/-- The bytes of the payloads of some rows. -/
def payloadBytes (rows : List EventArgs) : ℕ :=
  (rows.map fun a => (a.payloadJson.map Char.utf8Size).sum).sum

/-- The counters are those of the rows, within the caps, and there is one marker
once something was cut. -/
structure Counted (t : Session) (task : ProgressTask) (maxRows maxBytes : ℕ) (cut : Prop) : Prop where
  found : t.store.tasks.find? t.repoTaskId = some task
  rows : task.progressEventCount = (t.log "agent_progress").length
  bytes : task.progressEventBytes = payloadBytes (t.log "agent_progress")
  rowsWithin : task.progressEventCount ≤ maxRows
  bytesWithin : task.progressEventBytes ≤ maxBytes
  truncated : task.progressTruncated = true ↔ cut
  marker : (t.log "progress_truncated").length = if task.progressTruncated then 1 else 0

variable {t : Session} {task : ProgressTask} {b : Batch}

theorem step_append (found : t.store.tasks.find? b.repoTaskId = some task) :
    t.step (.append b) = { t with store := b.write task t.store } := by
  rw [step, appendProgressEventBatch, found]

/-- The row of a task after a batch. -/
theorem find_step (found : t.store.tasks.find? b.repoTaskId = some task) (repoTaskId : ℕ) :
    (t.step (.append b)).store.tasks.find? repoTaskId =
      if repoTaskId = b.repoTaskId then some (b.count task task)
      else t.store.tasks.find? repoTaskId := by
  have looked := Table.find?_modify (t.store.insertAll (b.rows task)).tasks b.repoTaskId
    (b.count task) (fun _ => rfl) repoTaskId
  rw [step_append found]
  refine looked.trans ?_
  rw [Store.insertAll_tasks, found]
  rfl

theorem step_missing (missing : t.store.tasks.find? b.repoTaskId = none) :
    t.step (.append b) = t := by
  rw [step, appendProgressEventBatch, missing]

theorem log_step (found : t.store.tasks.find? b.repoTaskId = some task) (eventType : String) :
    (t.step (.append b)).log eventType = t.log eventType ++ (b.rows task).filter
      fun a => a.repoTaskId = t.repoTaskId ∧ a.eventType = eventType := by
  rw [step_append found]
  exact Store.log_insertAll t.store (b.rows task) t.repoTaskId eventType

/-- The progress rows that a batch adds are those of a prefix of its events. -/
theorem log_progress (found : t.store.tasks.find? b.repoTaskId = some task)
    (own : b.repoTaskId = t.repoTaskId) : (t.step (.append b)).log "agent_progress" =
      t.log "agent_progress" ++ (b.admitted task).map fun item => item.args b.repoTaskId b.now := by
  rw [log_step found, ← own, Batch.rows_progress]

theorem lost_iff (found : t.store.tasks.find? b.repoTaskId = some task)
    (own : b.repoTaskId = t.repoTaskId) : Lost t (.append b) ↔ b.truncated task = true := by
  have grown : ((t.step (.append b)).log "agent_progress").length =
      (t.log "agent_progress").length + (b.admitted task).length := by
    rw [log_progress found own, List.length_append, List.length_map]
  rw [Lost, grown, Batch.truncated, Bool.or_eq_true, decide_eq_true_iff]
  constructor
  · rintro ⟨_, requested | fewer⟩
    · exact .inl requested
    · exact .inr (by omega)
  · rintro (requested | fewer)
    · exact ⟨own, .inl requested⟩
    · exact ⟨own, .inr (by omega)⟩

theorem payloadBytes_admitted (b : Batch) (task : ProgressTask) (repoTaskId now : ℕ) :
    payloadBytes ((b.admitted task).map fun item => item.args repoTaskId now) =
      totalBytes (b.admitted task) := by
  rw [payloadBytes, List.map_map, totalBytes]
  refine congrArg List.sum (List.map_congr_left fun item member => ?_)
  exact rowBytes item (b.admitted_prepared task member) repoTaskId now

/-- A batch of the task. -/
theorem counted_append {maxRows maxBytes : ℕ} {cut : Prop}
    (counted : Counted t task maxRows maxBytes cut) (own : b.repoTaskId = t.repoTaskId)
    (rowCap : b.maxRows ≤ maxRows) (byteCap : b.maxBytes ≤ maxBytes) :
    ∃ task, Counted (t.step (.append b)) task maxRows maxBytes (cut ∨ Lost t (.append b)) := by
  have found : t.store.tasks.find? b.repoTaskId = some task := own ▸ counted.found
  have within := admit_within b.prepared counted.rowsWithin counted.bytesWithin rowCap byteCap
  have grown := log_progress found own
  refine ⟨b.count task task, ?_⟩
  exact {
    found := by
      have row := find_step found (t.step (.append b)).repoTaskId
      rw [step_append found] at row ⊢
      exact row.trans (if_pos own.symm)
    rows := by
      rw [grown, List.length_append, List.length_map, ← counted.rows]
      rfl
    bytes := by
      rw [grown, payloadBytes, List.map_append, List.sum_append]
      exact congrArg₂ (· + ·) counted.bytes (payloadBytes_admitted b task _ _).symm
    rowsWithin := within.1
    bytesWithin := within.2
    truncated := by
      rw [lost_iff found own, ← counted.truncated, Batch.count]
      cases task.progressTruncated <;> simp
    marker := by
      rw [log_step found, ← own, Batch.rows_marker, List.length_append]
      have before := counted.marker
      rw [own, before, Batch.count]
      cases task.progressTruncated <;> cases b.truncated task <;> rfl }

/-- A batch of another task. -/
theorem counted_other {maxRows maxBytes : ℕ} {cut : Prop}
    (counted : Counted t task maxRows maxBytes cut) (other : b.repoTaskId ≠ t.repoTaskId) :
    Counted (t.step (.append b)) task maxRows maxBytes cut := by
  cases found : t.store.tasks.find? b.repoTaskId with
  | none => rwa [step_missing found]
  | some row =>
      have same : ∀ eventType, (t.step (.append b)).log eventType = t.log eventType := by
        intro eventType
        rw [log_step found, b.rows_other row other, List.append_nil]
      exact {
        found := by
          have row := find_step found (t.step (.append b)).repoTaskId
          rw [step_append found] at row ⊢
          exact row.trans ((if_neg other.symm).trans counted.found)
        rows := by rw [same]; exact counted.rows
        bytes := by rw [same]; exact counted.bytes
        rowsWithin := counted.rowsWithin
        bytesWithin := counted.bytesWithin
        truncated := counted.truncated
        marker := by rw [same]; exact counted.marker }

/-- One call. -/
theorem counted_step {maxRows maxBytes : ℕ} {cut : Prop}
    (counted : Counted t task maxRows maxBytes cut) (op : Op)
    (capped : ∀ b, op = .append b → b.maxRows ≤ maxRows ∧ b.maxBytes ≤ maxBytes) :
    ∃ task, Counted (t.step op) task maxRows maxBytes (cut ∨ Lost t op) := by
  cases op with
  | append b =>
      obtain ⟨rowCap, byteCap⟩ := capped b rfl
      by_cases own : b.repoTaskId = t.repoTaskId
      · exact counted_append counted own rowCap byteCap
      · have kept := counted_other counted own
        have lost : (cut ∨ Lost t (.append b)) = cut := by simp [Lost, own]
        exact ⟨task, lost.symm ▸ kept⟩
  | page limit =>
      have lost : (cut ∨ Lost t (.page limit)) = cut := by simp [Lost]
      exact ⟨task, lost.symm ▸ {
        found := counted.found
        rows := counted.rows
        bytes := counted.bytes
        rowsWithin := counted.rowsWithin
        bytesWithin := counted.bytesWithin
        truncated := counted.truncated
        marker := counted.marker }⟩

theorem counted_run {maxRows maxBytes : ℕ} {cut : Prop}
    (counted : Counted t task maxRows maxBytes cut) (ops : List Op)
    (capped : ∀ b, Op.append b ∈ ops → b.maxRows ≤ maxRows ∧ b.maxBytes ≤ maxBytes) :
    ∃ task, Counted (run step t ops) task maxRows maxBytes (cut ∨ EverLost t ops) := by
  induction ops generalizing t task cut with
  | nil =>
      have lost : (cut ∨ EverLost t []) = cut := by simp [EverLost]
      exact ⟨task, lost.symm ▸ counted⟩
  | cons op ops ih =>
      obtain ⟨next, stepped⟩ := counted_step counted op
        fun b same => capped b (same ▸ List.mem_cons_self)
      obtain ⟨last, ran⟩ := ih stepped fun b member => capped b (List.mem_cons_of_mem _ member)
      have lost : (cut ∨ EverLost t (op :: ops)) =
          ((cut ∨ Lost t op) ∨ EverLost (t.step op) ops) := by simp [EverLost, or_assoc]
      exact ⟨last, lost.symm ▸ ran⟩

/-! The reader. -/

/-- What the reader has received are the events of its task up to its cursor. -/
structure Paged (t : Session) : Prop where
  received : t.received = (t.store.own t.repoTaskId).filter fun e => e.id ≤ t.cursor
  cursor : t.cursor ≤ t.store.sequence

/-- The events that the reader has yet to receive. -/
def unread (t : Session) : List EventRow :=
  (t.store.own t.repoTaskId).filter fun e => t.cursor < e.id

theorem own_ordered (s : Store) (repoTaskId : ℕ) :
    (s.own repoTaskId).Pairwise fun a b => a.id < b.id := by
  have ordered := List.pairwise_map.mp s.ordered
  exact ordered.sublist List.filter_sublist

/-- A list in order is split in two by a bound. -/
theorem split_ordered {events : List EventRow} (ordered : events.Pairwise fun a b => a.id < b.id)
    (cursor : ℕ) : events = (events.filter fun e => e.id ≤ cursor) ++
      events.filter fun e => cursor < e.id := by
  induction events with
  | nil => rfl
  | cons e events ih =>
      obtain ⟨first, rest⟩ := List.pairwise_cons.mp ordered
      by_cases before : e.id ≤ cursor
      · have after : ¬ cursor < e.id := by omega
        rw [List.filter_cons_of_pos (by simpa using before),
          List.filter_cons_of_neg (by simpa using after), List.cons_append, ← ih rest]
      · have none_ : (e :: events).filter (fun e => decide (e.id ≤ cursor)) = [] := by
          refine List.filter_eq_nil_iff.mpr fun d member => ?_
          rcases List.mem_cons.mp member with rfl | later
          · simpa using before
          · have greater := first d later
            simp only [decide_eq_true_eq]
            omega
        have all : (e :: events).filter (fun e => decide (cursor < e.id)) = e :: events := by
          refine List.filter_eq_self.mpr fun d member => decide_eq_true ?_
          rcases List.mem_cons.mp member with rfl | later
          · omega
          · have greater := first d later
            omega
        rw [none_, all, List.nil_append]

theorem Paged.own_eq (paged : Paged t) : t.store.own t.repoTaskId = t.received ++ t.unread := by
  rw [paged.received]
  exact split_ordered (own_ordered _ _) _

/-- A page is the beginning of what is unread. -/
theorem page_eq (t : Session) (limit : ℤ) :
    eventsSince t.store t.repoTaskId t.cursor limit =
      t.unread.take (min (max limit 1) 5000).toNat := by
  have same : (t.store.events.filter fun e => decide (e.args.repoTaskId = t.repoTaskId) &&
      decide ((t.cursor : ℤ).toNat < e.id)) = t.unread := by
    rw [unread, Store.own, List.filter_filter]
    refine List.filter_congr fun e _ => ?_
    rw [Int.toNat_natCast, Bool.and_comm]
  rw [eventsSince]
  simp only [same]
  congr 1
  refine List.mergeSort_of_pairwise ?_
  have ordered := (own_ordered t.store t.repoTaskId).sublist
    (List.filter_sublist (p := fun e => decide (t.cursor < e.id)))
  exact ordered.imp fun less => decide_eq_true (Nat.le_of_lt less)

theorem paged_page (paged : Paged t) (limit : ℤ) : Paged (t.step (.page limit)) := by
  have whole := paged.own_eq
  have ordered := own_ordered t.store t.repoTaskId
  generalize pageSize : (min (max limit 1) 5000).toNat = n
  have page := page_eq t limit
  rw [pageSize] at page
  rcases List.eq_nil_or_concat (t.unread.take n) with none_ | ⟨front, last, split⟩
  · rw [none_] at page
    have same : t.step (.page limit) = t := by
      rw [step, page]
      simp
    rwa [same]
  · rw [List.concat_eq_append] at split
    have next : t.step (.page limit) =
        { t with cursor := last.id, received := t.received ++ (front ++ [last]) } := by
      rw [step, page, split]
      simp
    have parts : t.store.own t.repoTaskId = (t.received ++ (front ++ [last])) ++ t.unread.drop n := by
      rw [List.append_assoc, ← split, List.take_append_drop]
      exact whole
    have sorted := ordered
    rw [parts] at sorted
    obtain ⟨early, late, across⟩ := List.pairwise_append.mp sorted
    have within : ∀ e ∈ t.received ++ (front ++ [last]), e.id ≤ last.id := by
      rw [← List.append_assoc] at early
      intro e member
      rw [← List.append_assoc] at member
      rcases List.mem_append.mp member with before | here
      · exact Nat.le_of_lt ((List.pairwise_append.mp early).2.2 e before last List.mem_cons_self)
      · rw [List.mem_singleton.mp here]
    have beyond : ∀ e ∈ t.unread.drop n, ¬ e.id ≤ last.id := by
      intro e member
      have less := across last (by simp) e member
      omega
    rw [next]
    refine ⟨?_, ?_⟩
    · change t.received ++ (front ++ [last]) =
        (t.store.own t.repoTaskId).filter fun e => e.id ≤ last.id
      rw [parts, List.filter_append, List.filter_eq_self.mpr fun e member =>
        decide_eq_true (within e member), List.filter_eq_nil_iff.mpr fun e member => by
          simpa using beyond e member, List.append_nil]
    · have member : last ∈ t.store.own t.repoTaskId := by rw [parts]; simp
      exact (t.store.issued last (List.mem_filter.mp member).1).2

theorem paged_append (paged : Paged t) (b : Batch) : Paged (t.step (.append b)) := by
  cases found : t.store.tasks.find? b.repoTaskId with
  | none => rwa [step_missing found]
  | some task =>
      rw [step_append found]
      obtain ⟨new, events, later⟩ := Store.insertAll_events t.store (b.rows task)
      refine ⟨?_, paged.cursor.trans (Store.insertAll_sequence _ _)⟩
      change t.received = ((t.store.insertAll (b.rows task)).own t.repoTaskId).filter
        fun e => e.id ≤ t.cursor
      rw [Store.own, events, List.filter_append, List.filter_append, paged.received]
      have none_ : (new.filter fun e => decide (e.args.repoTaskId = t.repoTaskId)).filter
          (fun e => decide (e.id ≤ t.cursor)) = [] := by
        refine List.filter_eq_nil_iff.mpr fun e member => ?_
        have after := later e (List.mem_filter.mp member).1
        have bound := paged.cursor
        simp only [decide_eq_true_eq]
        omega
      rw [none_, List.append_nil]
      rfl

theorem paged_run (paged : Paged t) (ops : List Op) : Paged (run step t ops) :=
  run_invariant step (fun _ op paged => match op with
    | .append b => paged_append paged b
    | .page limit => paged_page paged limit) t ops paged

/-- An empty page is read only when nothing is unread. -/
theorem page_empty_iff (t : Session) (limit : ℤ) :
    eventsSince t.store t.repoTaskId t.cursor limit = [] ↔ t.unread = [] := by
  have positive : 0 < (min (max limit 1) 5000).toNat := by omega
  rw [page_eq]
  cases t.unread with
  | nil => simp
  | cons e rest =>
      obtain ⟨n, size⟩ := Nat.exists_eq_succ_of_ne_zero (Nat.pos_iff_ne_zero.mp positive)
      simp [size]

end Session

open Session

/-- A task without progress, and a reader at the beginning. -/
structure New (s : Store) (repoTaskId : ℕ) : Prop where
  task : s.tasks.find? repoTaskId = some { id := repoTaskId }
  log : ∀ eventType ∈ ["agent_progress", "progress_truncated"], s.log repoTaskId eventType = []

/-- After any calls: the counters are those of the rows and within the caps, a batch
adds the rows of a prefix of its events, there is one marker exactly if something
was cut, and the reader has received the events of the task in order up to its
cursor, all of them once a page is empty. -/
theorem progress_accounted {s : Store} {repoTaskId : ℕ} (new : New s repoTaskId) (ops : List Op)
    {maxRows maxBytes : ℕ}
    (capped : ∀ b, Op.append b ∈ ops → b.maxRows ≤ maxRows ∧ b.maxBytes ≤ maxBytes) :
    let start : Session := { store := s, repoTaskId }
    let t := run step start ops
    (∃ task, t.store.tasks.find? repoTaskId = some task ∧
      task.progressEventCount = (t.store.log repoTaskId "agent_progress").length ∧
      task.progressEventBytes = payloadBytes (t.store.log repoTaskId "agent_progress") ∧
      task.progressEventCount ≤ maxRows ∧ task.progressEventBytes ≤ maxBytes) ∧
    (∀ b : Batch, b.repoTaskId = repoTaskId → ∃ n,
      (t.step (.append b)).store.log repoTaskId "agent_progress" =
        t.store.log repoTaskId "agent_progress" ++
          (b.prepared.take n).map fun item => item.args repoTaskId b.now) ∧
    ((start.EverLost ops → (t.store.log repoTaskId "progress_truncated").length = 1) ∧
      (¬ start.EverLost ops → t.store.log repoTaskId "progress_truncated" = [])) ∧
    t.received <+: t.store.own repoTaskId ∧
    (∀ limit, eventsSince t.store repoTaskId t.cursor limit = [] →
      t.received = t.store.own repoTaskId) := by
  intro start t
  have owner : t.repoTaskId = repoTaskId := by
    have kept := run_invariant step (P := fun t : Session => t.repoTaskId = repoTaskId)
      (fun u op same => by
        cases op with
        | append b =>
            cases found : u.store.tasks.find? b.repoTaskId with
            | none => rwa [step_missing found]
            | some task => rwa [step_append found]
        | page limit => exact same) start ops rfl
    exact kept
  have counted : Counted start { id := repoTaskId } maxRows maxBytes False := {
    found := new.task
    rows := by
      change 0 = (s.log repoTaskId "agent_progress").length
      rw [new.log _ (by simp)]
      rfl
    bytes := by
      change 0 = payloadBytes (s.log repoTaskId "agent_progress")
      rw [new.log _ (by simp)]
      rfl
    rowsWithin := Nat.zero_le _
    bytesWithin := Nat.zero_le _
    truncated := by simp
    marker := by
      change (s.log repoTaskId "progress_truncated").length = 0
      rw [new.log _ (by simp)]
      rfl }
  obtain ⟨task, last⟩ := counted_run counted ops capped
  have paged : Paged t := by
    refine paged_run (t := start) ⟨?_, Nat.zero_le _⟩ ops
    have none_ : (s.own repoTaskId).filter (fun e => decide (e.id ≤ 0)) = [] := by
      refine List.filter_eq_nil_iff.mpr fun e member => ?_
      have positive := (s.issued e (List.mem_filter.mp member).1).1
      simp only [decide_eq_true_eq]
      omega
    exact none_.symm
  have whole := paged.own_eq
  have cut : task.progressTruncated = true ↔ start.EverLost ops := by
    rw [last.truncated, false_or]
  have marker := last.marker
  have rows := last.rows
  have bytes := last.bytes
  have found := last.found
  change t.store.tasks.find? t.repoTaskId = _ at found
  change (t.log "progress_truncated").length = _ at marker
  change _ = (t.log "agent_progress").length at rows
  change _ = payloadBytes (t.log "agent_progress") at bytes
  rw [log, owner] at marker rows bytes
  rw [owner] at found whole
  refine ⟨⟨task, found, rows, bytes, last.rowsWithin, last.bytesWithin⟩, ?_, ⟨?_, ?_⟩, ?_, ?_⟩
  · intro b own
    have there : t.store.tasks.find? b.repoTaskId = some task := own ▸ found
    have grown := log_progress there (own.trans owner.symm)
    obtain ⟨n, taken⟩ := admit_take b.maxRows b.maxBytes task.progressEventCount
      task.progressEventBytes b.prepared
    refine ⟨n, ?_⟩
    have kept : (t.step (.append b)).repoTaskId = repoTaskId := by
      rw [step_append there]
      exact owner
    rw [log, log, kept, owner, Batch.admitted, taken, own] at grown
    exact grown
  · intro lost
    rw [marker, if_pos (cut.mpr lost)]
  · intro kept
    rw [← List.length_eq_zero_iff, marker, if_neg fun truncated => kept (cut.mp truncated)]
  · exact ⟨_, whole.symm⟩
  · intro limit empty
    have finished := (page_empty_iff t limit).mp (owner.symm ▸ empty)
    rw [whole, finished, List.append_nil]

/-- Task 1, just created. -/
def created : Store where
  tasks := ⟨[{ id := 1 }], List.nodup_singleton _⟩
  events := []
  sequence := 0
  ordered := List.Pairwise.nil
  issued := by simp

/-- A runner's own marker comes before an update that fits. -/
def carried : Batch where
  repoTaskId := 1
  events := [{ eventType := some "progress_truncated" }, { message := some "Compiling" }]
  maxEvents := 500
  maxSerializedBytes := 100000
  now := 7

theorem progress_accounted_carried :
    let t := run step { store := created, repoTaskId := 1 } [.append carried, .page 1, .page 1]
    t.received <+: t.store.own 1 :=
  have new : New created 1 := ⟨rfl, by simp [Store.log, created]⟩
  (@progress_accounted _ _ new [.append carried, .page 1, .page 1] 500 100000
    (by simp [carried, Batch.maxRows, Batch.maxBytes])).2.2.2.1

/-- The rows of that batch are not those of a prefix of it, and there is a marker
though nothing was left out. -/
theorem carried_marker :
    let t := (Session.mk created 1 0 []).step (.append carried)
    (∀ n, t.log "agent_progress" ≠ (carried.events.take n).map fun e => (prepare e).args 1 7) ∧
      (appendProgressEventBatch created carried).map Prod.fst = .ok ⟨1, 2, true⟩ ∧
      carried.prepared.length = 1 ∧ (t.log "progress_truncated").length = 1 := by
  refine ⟨?_, by decide, by decide, by decide⟩
  intro n
  match n with
  | 0 => decide
  | 1 => decide
  | n + 2 =>
      have all : carried.events.take (n + 2) = carried.events := by simp [carried]
      rw [all]
      decide

end Uta.Tasks.Progress
