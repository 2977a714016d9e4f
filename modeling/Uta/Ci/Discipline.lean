/- The discipline of the service's threads: a check is worked on between its claim
and its release, and a status that was decided on is written next. -/
import Uta.Ci.Service
import Uta.Lib.Permits

namespace Uta.Ci
open Uta.Lib

inductive Stage where
  | claimed
  | deciding
  | started
  | ran
  deriving DecidableEq, Repr

/-- What a thread has in hand: nothing, the claim of a record, or a running record
that it takes for an orphan, once it has found no worker of it. -/
inductive Permit where
  | idle
  | holds (a : ℕ) (stage : Stage)
  | judging (a : ℕ)
  | orphaned (a : ℕ)
  deriving DecidableEq, Repr

namespace Permit

def Allows : Permit → Stmt → Prop
  | .idle, s =>
    match s with
    | .draw .. | .lookup _ | .load _ | .hasManager | .hasRunner _ | .statusActive _ => True
    | .cache r => r.status.Active
    | .write _ | .replace _ => True
    | .statusWaiting _ | .statusRunning _ | .claim .. | .claimNext _ | .stop _ => True
    | _ => False
  | .holds a stage, s =>
    match s with
    | .write _ | .replace _ => stage ≠ .deciding
    | .hasRunner b | .giveBack b | .mark b => b = a ∧ stage = .claimed
    | .stopRequested b => b = a ∧ (stage = .claimed ∨ stage = .started)
    | .setRunning b => b = a ∧ stage = .deciding
    | .setWorkspace b _ | .runs b => b = a ∧ stage = .started
    | .returns b | .finish b .. => b = a ∧ stage = .ran
    | .crash b _ => b = a ∧ (stage = .started ∨ stage = .ran)
    | .unmark b | .release b => b = a ∧ stage ≠ .deciding
    | _ => False
  | .judging a, s =>
    match s with
    | .isActive b | .isLive b => b = a
    | _ => False
  | .orphaned a, s =>
    match s with
    | .setInterrupted b => b = a
    | _ => False

/-- The write of a decided status is the next statement. -/
def Decides (p : Permit) (a : ℕ) : Prop := p = .holds a .deciding ∨ p = .orphaned a

def after : Permit → (s : Stmt) → s.Answer → Permit
  | .idle, .claim a _, true => .holds a .claimed
  | .idle, .claimNext _, some a => .holds a .claimed
  | .idle, .statusRunning a, true => .judging a
  | .holds a .claimed, .stopRequested _, false => .holds a .deciding
  | .holds a _, .setRunning _, _ => .holds a .started
  | .holds a _, .runs _, _ => .holds a .ran
  | .holds _ _, .giveBack _, _ => .idle
  | .holds _ _, .release _, _ => .idle
  | .judging _, .isActive _, true => .idle
  | .judging _, .isLive _, true => .idle
  | .judging a, .isLive _, false => .orphaned a
  | .orphaned _, .setInterrupted _, _ => .idle
  | p, _, _ => p

theorem after_release (a b : ℕ) (stage : Stage) (answer : Unit) :
    (holds a stage).after (.release b) answer = .idle := by
  cases stage <;> rfl

end Permit

/-- The discipline of the service. -/
def discipline : Discipline Stmt Stmt.Answer Permit where
  start := .idle
  Allows := Permit.Allows
  after := Permit.after
  Ends p := p = .idle

/-! Programs. -/

abbrev Keeps {α : Type} (p : Permit) (x : CiProg α) (Q : Permit → α → Prop) : Prop :=
  x.Follows discipline Q p

theorem keeps_bind {α β : Type} {p : Permit} {x : CiProg α} {f : α → CiProg β} {Q : Permit → β → Prop} :
    Keeps p (x >>= f) Q ↔ Keeps p x fun p a => Keeps p (f a) Q := Prog.follows_bind x p

/-- A statement that is allowed, and what follows with the permit that its answer leaves. -/
theorem keeps_step {α : Type} {p : Permit} {s : Stmt} {f : s.Answer → CiProg α} {Q : Permit → α → Prop}
    (allowed : p.Allows s) (rest : ∀ a, Keeps (p.after s a) (f a) Q) : Keeps p (ask s >>= f) Q :=
  ⟨allowed, rest⟩

/-- A program that leaves one permit, and what follows with it. -/
theorem keeps_then {α β : Type} {p q : Permit} {x : CiProg α} {f : α → CiProg β} {Q : Permit → β → Prop}
    (first : Keeps p x fun r _ => r = q) (rest : ∀ a, Keeps q (f a) Q) : Keeps p (x >>= f) Q := by
  apply keeps_bind.mpr
  refine first.mono fun r a same => ?_
  subst same
  exact rest a

theorem keeps_save (a : ℕ) : Keeps .idle (save a) fun q _ => q = .idle :=
  ⟨trivial, fun _ => ⟨trivial, fun _ => rfl⟩⟩

/-- A worker saves its record, unless it is about to write a decided status. -/
theorem keeps_workerSave {b : ℕ} {stage : Stage} (settled : stage ≠ .deciding) (a : ℕ) :
    Keeps (.holds b stage) (save a) fun q _ => q = .holds b stage := by
  refine keeps_step settled fun temp => ?_
  cases stage with
  | deciding => exact absurd rfl settled
  | claimed => exact ⟨settled, fun _ => rfl⟩
  | started => exact ⟨settled, fun _ => rfl⟩
  | ran => exact ⟨settled, fun _ => rfl⟩

theorem keeps_loadRecord (id : ℕ) : Keeps .idle (loadRecord id) fun q _ => q = .idle := by
  refine keeps_step trivial fun found => ?_
  cases found with
  | some a => rfl
  | none =>
      refine keeps_step trivial fun loaded => ?_
      cases loaded with
      | none => rfl
      | some r =>
          change Keeps _ (if r.status.Active then _ else _) _
          split
          · next active => exact ⟨active, fun a => rfl⟩
          · rfl

theorem keeps_settle (a : ℕ) (passed : Bool) (summary : String) (callback : Callback) :
    Keeps (.holds a .ran) (settle a passed summary callback) fun q _ => q = .holds a .ran := by
  refine keeps_step ⟨rfl, rfl⟩ fun stopped => ?_
  have saved := @keeps_workerSave a .ran (by decide) a
  cases stopped with
  | true => rfl
  | false =>
      cases callback with
      | none =>
          exact keeps_then saved fun _ => rfl
      | reported =>
          refine keeps_then saved fun _ => ?_
          exact keeps_then saved fun _ => rfl
      | raises error => rfl

/-- The work on a claimed record ends with the claim in hand, nothing decided, and
an exception only once the check has started. -/
def Worked (a : ℕ) (q : Permit) (raised : Option String) : Prop :=
  ∃ stage, q = .holds a stage ∧ stage ≠ .deciding ∧ (raised ≠ none → stage = .started ∨ stage = .ran)

theorem keeps_runPrepared {a : ℕ} {workspace : String} {settled : CiProg (Option String)}
    (works : Keeps (.holds a .ran) settled fun q _ => q = .holds a .ran) :
    Keeps (.holds a .started) (runPrepared a workspace settled) (Worked a) := by
  refine keeps_step ⟨rfl, rfl⟩ fun _ => ?_
  apply keeps_bind.mpr
  have saved := @keeps_workerSave a .started (by decide) a
  refine saved.mono fun q _ same => ?_
  subst same
  refine keeps_step ⟨rfl, .inr rfl⟩ fun stopped => ?_
  cases stopped with
  | true => exact ⟨.started, rfl, by decide, fun h => absurd rfl h⟩
  | false =>
      refine ⟨⟨rfl, rfl⟩, fun _ => ⟨⟨rfl, rfl⟩, fun _ => ?_⟩⟩
      exact works.mono fun q _ same => ⟨.ran, same, by decide, fun _ => .inr rfl⟩

theorem keeps_runStarted (a : ℕ) (outcome : Outcome) :
    Keeps (.holds a .deciding) (runStarted a outcome) (Worked a) := by
  refine keeps_step ⟨rfl, rfl⟩ fun _ => ?_
  apply keeps_bind.mpr
  have saved := @keeps_workerSave a .started (by decide) a
  refine saved.mono fun q _ same => ?_
  subst same
  cases outcome with
  | unprepared error => exact ⟨.started, rfl, by decide, fun _ => .inl rfl⟩
  | crashed workspace error => exact keeps_runPrepared rfl
  | finished workspace passed summary callback =>
      exact keeps_runPrepared (keeps_settle a passed summary callback)

theorem keeps_runCheckBody (a : ℕ) (outcome : Outcome) :
    Keeps (.holds a .claimed) (runCheckBody a outcome) (Worked a) := by
  refine keeps_step ⟨rfl, .inl rfl⟩ fun stopped => ?_
  cases stopped with
  | true => exact ⟨.claimed, rfl, by decide, fun h => absurd rfl h⟩
  | false => exact keeps_runStarted a outcome

theorem keeps_handleRaise {a : ℕ} {p : Permit} {raised : Option String} (worked : Worked a p raised) :
    Keeps p (handleRaise a raised) fun q _ => q = p := by
  obtain ⟨stage, rfl, settled, begun⟩ := worked
  cases raised with
  | none => rfl
  | some error =>
      have stages := begun (by simp)
      refine keeps_step ⟨rfl, stages⟩ fun stopped => ?_
      have same : (Permit.holds a stage).after (.crash a error) stopped = .holds a stage := by
        rcases stages with rfl | rfl <;> rfl
      change Keeps ((Permit.holds a stage).after (.crash a error) stopped) _ _
      rw [same]
      cases stopped with
      | true => rfl
      | false => exact keeps_workerSave settled a

theorem keeps_runClaimed (a : ℕ) (outcome : Outcome) :
    Keeps (.holds a .claimed) (runClaimed a outcome) fun q _ => q = .idle := by
  refine keeps_step ⟨rfl, rfl⟩ fun _ => ?_
  apply keeps_bind.mpr
  refine (keeps_runCheckBody a outcome).mono fun q raised worked => ?_
  apply keeps_bind.mpr
  refine (keeps_handleRaise worked).mono fun q' _ same => ?_
  subst same
  obtain ⟨stage, rfl, settled, _⟩ := worked
  refine keeps_step ⟨rfl, settled⟩ fun _ => ?_
  have same : (Permit.holds a stage).after (.unmark a) () = .holds a stage := by
    cases stage <;> rfl
  change Keeps ((Permit.holds a stage).after (.unmark a) ()) _ _
  rw [same]
  refine keeps_step ⟨rfl, settled⟩ fun _ => ?_
  cases stage <;> rfl

theorem keeps_drain (scans : List Scan) : Keeps .idle (drain scans) fun q _ => q = .idle := by
  induction scans with
  | nil => rfl
  | cons scan scans ih =>
      refine keeps_step trivial fun claimed => ?_
      cases claimed with
      | none => rfl
      | some a =>
          refine keeps_then (keeps_runClaimed a scan.outcome) fun _ => ?_
          exact ih

theorem keeps_runCheckAndDrain (a : ℕ) (outcome : Outcome) (scans : List Scan) :
    Keeps (.holds a .claimed) (runCheckAndDrain a outcome scans) fun q _ => q = .idle := by
  refine keeps_then (keeps_runClaimed a outcome) fun _ => ?_
  exact keeps_drain scans

theorem keeps_startPending (scans : List Scan) :
    Keeps .idle (startPending scans) fun q _ => q = .idle := by
  cases scans with
  | nil => rfl
  | cons scan scans =>
      refine keeps_step trivial fun managed => ?_
      cases managed with
      | false => rfl
      | true =>
          refine keeps_step trivial fun claimed => ?_
          cases claimed with
          | none => rfl
          | some a =>
              refine keeps_step ⟨rfl, rfl⟩ fun runner => ?_
              cases runner with
              | false => exact ⟨⟨rfl, rfl⟩, fun _ => rfl⟩
              | true => exact keeps_runCheckAndDrain a scan.outcome scans

theorem keeps_runCheck (id : ℕ) (listed : List ℕ) (outcome : Outcome) (scans : List Scan) :
    Keeps .idle (runCheck id listed outcome scans) fun q _ => q = .idle := by
  refine keeps_then (keeps_loadRecord id) fun loaded => ?_
  cases loaded with
  | missing => rfl
  | settled r => rfl
  | shared a =>
      refine keeps_step trivial fun managed => ?_
      cases managed with
      | false => rfl
      | true =>
          refine keeps_step trivial fun runner => ?_
          cases runner with
          | false => rfl
          | true =>
              refine keeps_step trivial fun live => ?_
              cases live with
              | false => rfl
              | true =>
                  refine keeps_step trivial fun claimed => ?_
                  cases claimed with
                  | false => rfl
                  | true => exact keeps_runCheckAndDrain a outcome scans

theorem keeps_markOrphaned (a : ℕ) : Keeps .idle (markOrphaned a) fun q _ => q = .idle := by
  refine keeps_step trivial fun running => ?_
  cases running with
  | false => rfl
  | true =>
      refine keeps_step rfl fun active => ?_
      cases active with
      | true => rfl
      | false =>
          refine keeps_step rfl fun live => ?_
          cases live with
          | true => rfl
          | false => exact ⟨rfl, fun _ => keeps_save a⟩

/-- Every call of the service keeps to the discipline. -/
theorem keeps_body (c : Call) : Keeps .idle c.body fun q _ => q = .idle := by
  cases c with
  | submit language createdAt inline_ =>
      refine keeps_step trivial fun drawn => ?_
      refine keeps_then (keeps_save drawn.2) fun _ => ?_
      cases inline_ with
      | none => rfl
      | some plan => exact keeps_runCheck drawn.1 plan.2.1 plan.1 plan.2.2
  | runCheck id listed outcome scans => exact keeps_runCheck id listed outcome scans
  | get id scans =>
      refine keeps_then (keeps_loadRecord id) fun loaded => ?_
      cases loaded with
      | missing => rfl
      | settled r => rfl
      | shared a =>
          refine keeps_then (keeps_markOrphaned a) fun _ => ?_
          refine keeps_step trivial fun waiting => ?_
          cases waiting with
          | false => rfl
          | true => exact keeps_startPending scans
  | stopCiTask id scans =>
      refine keeps_then (keeps_loadRecord id) fun loaded => ?_
      cases loaded with
      | missing => rfl
      | settled r => rfl
      | shared a =>
          refine keeps_step trivial fun stopped => ?_
          cases stopped with
          | false => rfl
          | true => exact keeps_startPending scans
  | recoverCiQueue scans => exact keeps_startPending scans

end Uta.Ci
