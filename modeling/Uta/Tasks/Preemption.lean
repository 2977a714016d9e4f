/- Tasks that make way for an urgent one: which of them are taken up again when it
has ended. -/
import Uta.Tasks.Resumption

namespace Uta.Tasks
open Uta.Lib

/-! Deeds. -/

/-- The phases of the daemon's loop that go over several tasks. -/
def Call.Compound : Call → Prop
  | .reap .. | .promote .. | .acquire .. => True
  | _ => False

/-- What one process does to one task. The phases that go over several tasks are
deeds too, one after the other: `startNext`, `launch` and `settle`. -/
inductive Deed where
  | call (c : Call) (single : ¬ c.Compound)
  | launch (runnerId : String) (runtimeError : Option String) (taskId retryCount : ℕ)
  | settle (runnerId : String) (slot : PoolSlot) (errorMessage : String)

def Deed.prog (settings : Settings) : Deed → TaskProg Unit
  | .call c _ => c.body settings
  | .launch runnerId runtimeError taskId retryCount =>
    Tasks.launch settings.quarantineThreshold runnerId runtimeError taskId retryCount
  | .settle runnerId slot errorMessage =>
    settleFailure settings.quarantineThreshold runnerId slot errorMessage

/-! Stops. -/

/-- What a task was told to stop for: an urgent task, or anything else. -/
inductive Cause where
  | asked
  | urgent (taskId : ℕ)
  deriving DecidableEq, Repr

/-- The task has been told to stop, or has stopped. -/
def Halted (w : World) (taskId : ℕ) : Prop :=
  w.statusOf taskId = some .stopRequested ∨ w.statusOf taskId = some .stopped

instance (w : World) (taskId : ℕ) : Decidable (Halted w taskId) := inferInstanceAs (Decidable (_ ∨ _))

/-- The stops that a deed brings about. A task that reports that it has stopped was
told so before, unless it is not halted. -/
def World.stopsOf (w : World) : Deed → List (ℕ × Cause)
  | .call (.stop taskId _) _ => [(taskId, .asked)]
  | .call (.markStopped taskId _ _) _ => if Halted w taskId then [] else [(taskId, .asked)]
  | .call (.preempt urgentTaskId) _ =>
    match w.tasks.find? urgentTaskId with
    | none => []
    | some urgent =>
      (w.runningSameRepo urgent.repoPath urgentTaskId).map fun taskId => (taskId, .urgent urgentTaskId)
  | _ => []

/-- The database, and every stop there has been, the first one first. -/
structure Desk where
  world : World
  stops : List (ℕ × Cause)

namespace Desk

def fresh (runnerIds : List String) : Desk := ⟨.fresh runnerIds, []⟩

/-- What the task was last told to stop for. -/
def lastStop (d : Desk) (taskId : ℕ) : Option Cause :=
  (d.stops.filter fun stop => stop.1 = taskId).getLast?.map Prod.snd

def step (settings : Settings) (d : Desk) (deed : Deed) : Desk :=
  ⟨((deed.prog settings).outcome Stmt.exec d.world).2, d.stops ++ d.world.stopsOf deed⟩

end Desk

/-- When a task enters a terminal status, the halted tasks that are put back in the
queue are those whose last stop was their preemption by it. -/
def Resumes (settings : Settings) (d : Desk) (deed : Deed) : Prop :=
  ∀ urgentTaskId, Entered d.world (d.step settings deed).world urgentTaskId →
    ∀ taskId, Halted d.world taskId →
      ((d.step settings deed).world.statusOf taskId = some .queued ↔
        d.lastStop taskId = some (.urgent urgentTaskId))

/-- The deeds that look for preempted tasks when they end a task. -/
def Deed.Heeds : Deed → Prop
  | .call (.markCompleted ..) _ | .call (.markFailed ..) _ | .call (.markBudgetExceeded ..) _
  | .call (.syncResults ..) _ | .launch .. | .settle .. => True
  | _ => False

/-- A task ends by a deed that looks for preempted tasks, at a time when all of these
have stopped, and none that it once preempted has been stopped for anything else. -/
def Resumable (settings : Settings) (d : Desk) (deed : Deed) : Prop :=
  ∀ urgentTaskId, Entered d.world (d.step settings deed).world urgentTaskId →
    ∀ taskId, Halted d.world taskId →
      (d.lastStop taskId = some (.urgent urgentTaskId) →
        deed.Heeds ∧ d.world.statusOf taskId = some .stopped) ∧
      (deed.Heeds → d.world.statusOf taskId = some .stopped →
        (taskId, .urgent urgentTaskId) ∈ d.stops → d.lastStop taskId = some (.urgent urgentTaskId))

/-! What a deed does. -/

/-- The deeds that end a task without looking for preempted tasks. -/
theorem heedless_deed (settings : Settings) {c : Call} {single : ¬ c.Compound} (closing : c.Closing)
    (heedless : ¬ (Deed.call c single).Heeds) :
    ∃ target, (c.body settings).Only (Keeps (· = target)) := by
  cases c with
  | cancel taskId reason => exact ⟨taskId, only_cancelTask taskId reason⟩
  | markPoisoned taskId message => exact ⟨taskId, only_finish taskId (by simp)⟩
  | recordPushVerified taskId branchName localHead remoteHead =>
      exact ⟨taskId, only_recordPushVerified taskId branchName localHead remoteHead⟩
  | recordPushFailed taskId branchName message classFqns =>
      exact ⟨taskId, only_recordPushFailed taskId branchName message classFqns⟩
  | reap => exact absurd trivial single
  | promote => exact absurd trivial single
  | acquire => exact absurd trivial single
  | markCompleted => exact absurd trivial heedless
  | markFailed => exact absurd trivial heedless
  | markBudgetExceeded => exact absurd trivial heedless
  | syncResults => exact absurd trivial heedless
  | _ => exact closing.elim

/-- A deed that looks for preempted tasks has one task that it may end. -/
theorem heeds_deed (settings : Settings) {w : World} {deed : Deed} (heeds : deed.Heeds) :
    ∃ target, HeedsAt target (deed.prog settings) w := by
  cases deed with
  | launch runnerId runtimeError taskId retryCount => exact ⟨taskId, heeds_launch _ _ _ _⟩
  | settle runnerId slot message => exact ⟨slot.taskId, heeds_settleFailure _ _ _ _⟩
  | call c single =>
      cases c with
      | markCompleted taskId message => exact ⟨taskId, heeds_finish (by simp)⟩
      | markFailed taskId message stage => exact ⟨taskId, heeds_markFailed _ _ _⟩
      | markBudgetExceeded taskId message => exact ⟨taskId, heeds_finish (by simp)⟩
      | syncResults taskId results finalError => exact ⟨taskId, heeds_syncResults _ _⟩
      | _ => exact heeds.elim

/-- What a deed does to the statuses. -/
theorem deed_cases (settings : Settings) {w : World} (durable : Durable w) (deed : Deed) :
    let v := ((deed.prog settings).outcome Stmt.exec w).2
    Unclosing w v ∨ (∃ target, ¬ deed.Heeds ∧ Within (· = target) w v) ∨
      ∃ target, deed.Heeds ∧ Released target w v := by
  by_cases heeds : deed.Heeds
  · obtain ⟨target, settled⟩ := heeds_deed (w := w) settings heeds
    rcases settled durable with unclosing | released
    · exact .inl unclosing
    · exact .inr (.inr ⟨target, heeds, released⟩)
  · cases deed with
    | launch => exact absurd trivial heeds
    | settle => exact absurd trivial heeds
    | call c single =>
        by_cases closing : c.Closing
        · obtain ⟨target, only⟩ := heedless_deed settings closing heeds
          exact .inr (.inl ⟨target, heeds, outcome_within only w⟩)
        · exact .inl (outcome_unclosing (opens_call settings closing) w)

/-- The engines are sound, and the events tell who was preempted by whom. -/
structure Recorded (d : Desk) : Prop where
  durable : Durable d.world
  events : ∀ taskId urgentTaskId, d.world.Preempted taskId urgentTaskId ↔
    (taskId, Cause.urgent urgentTaskId) ∈ d.stops
  apart : ∀ taskId urgentTaskId, (taskId, Cause.urgent urgentTaskId) ∈ d.stops → taskId ≠ urgentTaskId

theorem lastStop_mem {d : Desk} {taskId : ℕ} {cause : Cause} (last : d.lastStop taskId = some cause) :
    (taskId, cause) ∈ d.stops := by
  obtain ⟨stop, found, rfl⟩ := Option.map_eq_some_iff.mp last
  have member := List.mem_filter.mp (List.mem_of_getLast? found)
  obtain rfl : stop.1 = taskId := of_decide_eq_true member.2
  exact member.1

/-- A deed that enters one terminal status and keeps to its target. -/
theorem entered_target {w v : World} {target urgentTaskId : ℕ} (within : Within (· = target) w v)
    (entered : Entered w v urgentTaskId) : urgentTaskId = target := by
  by_contra other
  exact not_entered_of_same (within.statuses urgentTaskId other) entered

theorem not_queued_of_entered {w v : World} {taskId : ℕ} (entered : Entered w v taskId) :
    v.statusOf taskId ≠ some .queued := by
  intro queued
  unfold Entered at entered
  rw [queued] at entered
  exact absurd entered.1 (by decide)

theorem released_target {w v : World} {target urgentTaskId : ℕ} (released : Released target w v)
    (entered : Entered w v urgentTaskId) : urgentTaskId = target := by
  by_contra other
  have status := released urgentTaskId other
  split at status
  · exact not_queued_of_entered entered status
  · exact not_entered_of_same status entered

/-- The tasks that ought to be taken up again are, and no other, exactly when the deed
is of the right kind and in time. -/
theorem resumes_iff (settings : Settings) {d : Desk} (deed : Deed) (recorded : Recorded d) :
    Resumes settings d deed ↔ Resumable settings d deed := by
  have halted_not_queued : ∀ taskId, Halted d.world taskId → d.world.statusOf taskId ≠ some .queued := by
    rintro taskId (halted | halted) <;> rw [halted] <;> simp
  refine forall_congr' fun urgentTaskId => forall_congr' fun entered => forall_congr' fun taskId =>
    forall_congr' fun halted => ?_
  have never : taskId = urgentTaskId → d.lastStop taskId ≠ some (.urgent urgentTaskId) := by
    rintro rfl last
    exact recorded.apart _ _ (lastStop_mem last) rfl
  rcases deed_cases settings recorded.durable deed with
    unclosing | ⟨target, heedless, within⟩ | ⟨target, heeds, released⟩
  · exact absurd entered (unclosing.not_entered urgentTaskId)
  · obtain rfl := entered_target within entered
    have kept : (d.step settings deed).world.statusOf taskId ≠ some .queued := by
      by_cases same : taskId = urgentTaskId
      · rw [same]
        exact not_queued_of_entered entered
      · have status : (d.step settings deed).world.statusOf taskId = d.world.statusOf taskId :=
          within.statuses taskId same
        rw [status]
        exact halted_not_queued taskId halted
    constructor
    · intro agrees
      exact ⟨fun last => absurd (agrees.mpr last) kept, fun heeds => absurd heeds heedless⟩
    · intro resumable
      exact ⟨fun queued => absurd queued kept, fun last => absurd (resumable.1 last).1 heedless⟩
  · obtain rfl := released_target released entered
    by_cases same : taskId = urgentTaskId
    · constructor
      · exact fun _ => ⟨fun last => absurd last (never same), fun _ _ member =>
          absurd same (recorded.apart _ _ member)⟩
      · refine fun _ => ⟨fun queued => ?_, fun last => absurd last (never same)⟩
        rw [same] at queued
        exact absurd queued (not_queued_of_entered entered)
    · have status : (d.step settings deed).world.statusOf taskId = _ := released taskId same
      have queued_iff : (d.step settings deed).world.statusOf taskId = some .queued ↔
          d.world.statusOf taskId = some .stopped ∧ (taskId, Cause.urgent urgentTaskId) ∈ d.stops := by
        rw [← recorded.events, status]
        split
        next taken => exact iff_of_true rfl taken
        next left_ => exact iff_of_false (halted_not_queued taskId halted) left_
      rw [queued_iff]
      constructor
      · intro agrees
        exact ⟨fun last => ⟨heeds, (agrees.mpr last).1⟩, fun _ stopped once => agrees.mp ⟨stopped, once⟩⟩
      · rintro ⟨intime, alone⟩
        exact ⟨fun taken => alone heeds taken.1 taken.2,
          fun last => ⟨(intime last).2, lastStop_mem last⟩⟩

/-! The record. -/

/-- No statement of a failure tells a task to make way. -/
instance : Failing fun (_ : Unit) s => Unpreempting s where
  plain := by
    intro s plain _
    cases s <;> trivial
  event := fun other _ preempted => other (by rw [preempted]; decide)
  update := fun _ _ _ _ => trivial
  settle := fun _ _ _ _ => trivial
  finish := fun _ _ _ unmarked _ preempted => unmarked _ preempted (by decide)
  failed := fun failed _ => by simp [Unpreempting, failed]
  store := fun _ _ _ => trivial
  close := fun _ _ types _ => by
    rcases types with types | types <;> simp [Unpreempting, types]

/-- Only a preemption tells tasks to make way. -/
theorem unpreempting_deed (settings : Settings) (deed : Deed)
    (other : ∀ urgentTaskId single, deed ≠ .call (.preempt urgentTaskId) single) :
    (deed.prog settings).Only Unpreempting := by
  refine Prog.only_of_safe ?_
  cases deed with
  | launch => exact safe_launch (safe_markFailed _) _ _ _ _
  | settle => exact safe_settleFailure (safe_markFailed _) _ _ _
  | call c single =>
      refine safe_body (safe_markFailed _) safe_syncResults ?_ fun urgent here => ?_
      · exact fun taskId message k => guarded_finish (by simp [Unpreempting])
      · subst here
        exact absurd rfl (other urgent single)

theorem outcome_preemptions {p : TaskProg Unit} (only : p.Only Unpreempting) (w : World) :
    (p.outcome Stmt.exec w).2.preemptions = w.preemptions :=
  Prog.outcome_relates Stmt.exec (R := fun w v => v.preemptions = w.preemptions) (fun _ => rfl)
    (fun _ _ _ first second => Eq.trans second first) (fun _ => exec_preemptions) only w

/-- The events name the tasks that a deed preempts. -/
theorem deed_preempted (settings : Settings) {w : World} (durable : Durable w) (deed : Deed)
    (taskId byId : ℕ) :
    ((deed.prog settings).outcome Stmt.exec w).2.Preempted taskId byId ↔
      w.Preempted taskId byId ∨ (taskId, Cause.urgent byId) ∈ w.stopsOf deed := by
  by_cases preempts : ∃ urgentTaskId single, deed = .call (.preempt urgentTaskId) single
  · obtain ⟨urgentTaskId, single, rfl⟩ := preempts
    change (Prog.outcome Stmt.exec (match w.tasks.find? urgentTaskId with
      | none => _ | some urgent => _) w).2.Preempted taskId byId ↔ _
    cases found : w.tasks.find? urgentTaskId with
    | none =>
        have nobody : w.stopsOf (.call (.preempt urgentTaskId) single) = [] := by
          rw [World.stopsOf, found]
        rw [nobody]
        exact ⟨.inl, fun either => either.resolve_right fun member => nomatch member⟩
    | some urgent =>
        have stops : w.stopsOf (.call (.preempt urgentTaskId) single) =
            (w.runningSameRepo urgent.repoPath urgentTaskId).map
              fun id => (id, Cause.urgent urgentTaskId) := by
          rw [World.stopsOf, found]
        obtain ⟨v, returns, preempted⟩ :=
          preemptRounds_outcome (w.runningSameRepo urgent.repoPath urgentTaskId) urgentTaskId durable
            fun id member => (mem_runningSameRepo member).1
        change (Prog.outcome Stmt.exec ((w.runningSameRepo urgent.repoPath urgentTaskId).forM
          (preemptRound urgentTaskId)) w).2.Preempted taskId byId ↔ _
        rw [returns, preempted, stops]
        refine or_congr_right ⟨?_, ?_⟩
        · rintro ⟨member, rfl⟩
          exact List.mem_map.mpr ⟨taskId, member, rfl⟩
        · intro member
          obtain ⟨id, listed, same⟩ := List.mem_map.mp member
          obtain ⟨rfl, by_⟩ := Prod.mk.inj same
          exact ⟨listed, (Cause.urgent.inj by_).symm⟩
  · have same := (outcome_preemptions (unpreempting_deed settings deed fun urgent single here =>
      preempts ⟨urgent, single, here⟩) w)
    have nobody : (taskId, Cause.urgent byId) ∉ w.stopsOf deed := by
      unfold World.stopsOf
      split
      · simp
      · split <;> simp
      next urgent single => exact absurd ⟨urgent, single, rfl⟩ preempts
      · simp
    unfold World.Preempted
    rw [same]
    exact ⟨.inl, fun either => either.resolve_right nobody⟩

theorem Recorded.step (settings : Settings) {d : Desk} (deed : Deed) (recorded : Recorded d) :
    Recorded (d.step settings deed) where
  durable := outcome_durable _ recorded.durable
  events := by
    intro taskId byId
    refine (deed_preempted settings recorded.durable deed taskId byId).trans ?_
    rw [recorded.events]
    exact List.mem_append.symm
  apart := by
    intro taskId byId member
    rcases List.mem_append.mp member with old | new
    · exact recorded.apart taskId byId old
    · unfold World.stopsOf at new
      split at new
      · simp at new
      · split at new <;> simp at new
      next urgentTaskId _ =>
        split at new
        · cases new
        · obtain ⟨id, listed, same⟩ := List.mem_map.mp new
          obtain ⟨rfl, here⟩ := Prod.mk.inj same
          rw [← Cause.urgent.inj here]
          exact (mem_runningSameRepo listed).2
      · cases new

/-- In every sequence of deeds the tasks that made way for an urgent one are taken up
again when it ends, and no other, exactly when every deed that ends it is of the right
kind and in time. -/
theorem resumes_iff_resumable (settings : Settings) (runnerIds : List String) (deeds : List Deed) :
    Meets (Desk.step settings) (Resumes settings) (.fresh runnerIds) deeds ↔
      Meets (Desk.step settings) (Resumable settings) (.fresh runnerIds) deeds := by
  refine meets_iff _ (fun _ deed => resumes_iff settings deed)
    (fun _ deed recorded _ => recorded.step settings deed) _ deeds ⟨?_, ?_, ?_⟩
  · exact fun r member => nomatch member
  · intro taskId byId
    refine iff_of_false ?_ fun member => nomatch member
    rintro ⟨e, member, _⟩
    cases member
  · exact fun taskId byId member => nomatch member

/-- A batch task makes way for an urgent one, which is cancelled. -/
def cancelledDeeds : List Deed := [
  .call (.create "/srv/repo" 100 none []) id, .call (.startNext "daemon" false) id,
  .call (.create "/srv/repo" 1 none []) id, .call (.preempt 2) id,
  .call (.markStopped 1 none "stopped") id, .call (.cancel 2 none) id]

/-- The task stays stopped. -/
theorem cancelled_strands :
    ¬ Meets (Desk.step ⟨3, 120000000⟩) (Resumes ⟨3, 120000000⟩) (.fresh ["daemon"]) cancelledDeeds := by
  rintro ⟨_, _, _, _, _, resumes, _⟩
  have queued := (resumes 2 (by decide +kernel) 1 (by decide +kernel)).mpr (by decide +kernel)
  revert queued
  decide +kernel

end Uta.Tasks
