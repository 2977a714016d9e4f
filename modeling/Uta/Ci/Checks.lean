/- When every check is run at most once, and how many checks are under way. -/
import Uta.Ci.Discipline
import Uta.Ci.Queue

namespace Uta.Ci
open Uta.Lib

/-- A claim by `run_check` does not find its record running, unless it is left over
from another process, and a lookup does not cache a second object for a record. -/
def Unraced (_ : Call) (s : Stmt) (st : Service) : Prop :=
  match s with
  | .claim a _ =>
    ∀ r ∈ st.at? a, r.status = .running →
      r.taskId ∉ st.active ∧ r.taskId ∉ st.stopRequested ∧ r.taskId ∉ st.runs
  | .cache r => st.cached r.taskId = none
  | _ => True

instance (c : Call) (s : Stmt) (st : Service) : Decidable (Unraced c s st) := by
  cases s <;> unfold Unraced <;> infer_instance

namespace Permit

/-- The record that is claimed. -/
def held : Permit → Option ℕ
  | .holds a _ => some a
  | _ => none

/-- The claimed record whose check was not run yet. -/
def unrun : Permit → Option ℕ
  | .holds _ .ran => none
  | .holds a _ => some a
  | _ => none

/-- A statement that neither takes a claim, nor runs its check, nor gives it up. -/
def Neutral : Stmt → Prop
  | .claim .. | .claimNext _ | .giveBack _ | .runs _ | .release _ => False
  | _ => True

theorem after_neutral {p : Permit} {s : Stmt} (allowed : p.Allows s) (neutral : Neutral s)
    (answer : s.Answer) : (p.after s answer).held = p.held ∧ (p.after s answer).unrun = p.unrun := by
  cases p with
  | idle => cases s <;> first | exact neutral.elim | exact allowed.elim | exact ⟨rfl, rfl⟩ |
      (cases answer <;> exact ⟨rfl, rfl⟩)
  | judging a => cases s <;> first | exact allowed.elim | exact ⟨rfl, rfl⟩ |
      (cases answer <;> exact ⟨rfl, rfl⟩)
  | orphaned a => cases s <;> first | exact allowed.elim | exact ⟨rfl, rfl⟩
  | holds a stage =>
      cases stage <;> cases s <;> first | exact neutral.elim | exact allowed.elim | exact ⟨rfl, rfl⟩ |
        (cases answer <;> exact ⟨rfl, rfl⟩) | exact absurd allowed.2 (by decide)

theorem held_of_unrun {permits : List Permit} {a : ℕ} (member : a ∈ permits.filterMap unrun) :
    a ∈ permits.filterMap held := by
  obtain ⟨p, inside, same⟩ := List.mem_filterMap.mp member
  refine List.mem_filterMap.mpr ⟨p, inside, ?_⟩
  cases p with
  | idle => cases same
  | judging b => cases same
  | orphaned b => cases same
  | holds b stage => cases stage <;> first | exact same | cases same

end Permit

/-- The claims that the permits stand for are sound. -/
def Good (st : Service) (permits : List Permit) : Prop :=
  Sound st (permits.filterMap Permit.held) (permits.filterMap Permit.unrun)

section Exchange
variable {st : Service} {permits : List Permit} {n a : ℕ} {p q : Permit} {r : CiTaskRecord}

theorem Good.swap (good : Good st permits) (here : permits[n]? = some p) (held : q.held = p.held)
    (unrun : q.unrun = p.unrun) : Good st (permits.set n q) := by
  have holders := System.filterMap_set_perm (f := Permit.held) here q
  have rest := System.filterMap_set_perm (f := Permit.unrun) here q
  rw [held] at holders
  rw [unrun] at rest
  exact good.perm ((List.perm_append_left_iff _).mp holders).symm
    ((List.perm_append_left_iff _).mp rest).symm

theorem Good.claimed (here : permits[n]? = some .idle)
    (sound : Sound st (a :: permits.filterMap Permit.held) (a :: permits.filterMap Permit.unrun)) :
    Good st (permits.set n (.holds a .claimed)) := by
  have holders := System.filterMap_set_perm (f := Permit.held) here (.holds a .claimed)
  have rest := System.filterMap_set_perm (f := Permit.unrun) here (.holds a .claimed)
  exact sound.perm holders.symm rest.symm

theorem Good.ran (good : Good st permits) (here : permits[n]? = some (.holds a .started))
    (object : st.at? a = some r) :
    Good { st with runs := st.runs ++ [r.taskId] } (permits.set n (.holds a .ran)) := by
  have holders := System.filterMap_set_perm (f := Permit.held) here (.holds a .ran)
  have rest := System.filterMap_set_perm (f := Permit.unrun) here (.holds a .ran)
  have kept := (List.perm_append_left_iff _).mp holders
  exact (good.perm kept.symm rest.symm).run object

/-- No other thread holds the claim. -/
theorem Good.alone (good : Good st permits) {stage : Stage} (here : permits[n]? = some (.holds a stage)) :
    a ∉ (permits.set n .idle).filterMap Permit.held := by
  have holders := System.filterMap_set_perm (f := Permit.held) here .idle
  exact (List.nodup_cons.mp (holders.nodup_iff.mp good.heldNodup)).1

theorem Good.dropped {stage : Stage} (good : Good st permits) (here : permits[n]? = some (.holds a stage))
    (object : st.at? a = some r) {stopped : Finset ℕ}
    (others : ∀ id ∈ st.stopRequested, id ≠ r.taskId → id ∈ stopped) :
    Good { st with active := st.active.erase r.taskId, stopRequested := stopped,
                   checks := st.checks.erase r.taskId } (permits.set n .idle) := by
  have holders := System.filterMap_set_perm (f := Permit.held) here .idle
  have rest := System.filterMap_set_perm (f := Permit.unrun) here .idle
  have before := good.perm holders.symm rest.symm
  apply before.drop object (List.sublist_append_right _ _) _ others
  exact fun waiting => good.alone here (Permit.held_of_unrun waiting)

/-- The object of a claim. -/
theorem Good.object (good : Good st permits) {stage : Stage} (here : permits[n]? = some (.holds a stage)) :
    a ∈ permits.filterMap Permit.held ∧ ∃ r, st.at? a = some r ∧ ¬ r.status.Waiting := by
  have claimed : a ∈ permits.filterMap Permit.held :=
    List.mem_filterMap.mpr ⟨_, List.mem_of_getElem? here, rfl⟩
  exact ⟨claimed, good.busy a claimed⟩

end Exchange

/-! Blocks under the lock. -/

theorem running_settled : ¬ CiTaskStatus.running.Waiting := by decide

theorem stopped_settled : ¬ CiTaskStatus.stopped.Waiting := by decide

theorem failed_settled : ¬ CiTaskStatus.failed.Waiting := by decide

theorem success_settled : ¬ CiTaskStatus.success.Waiting := by decide

section Blocks
variable {st : Service} {held unrun : List ℕ} {a : ℕ} {r : CiTaskRecord}

/-- A free record is claimed. -/
theorem Sound.claimAt (sound : Sound st held unrun) (here : st.at? a = some r)
    (free : a ∉ held ∧ r.taskId ∉ st.active ∧ r.taskId ∉ st.runs)
    (room : 0 < st.parallelLimit → (st.active.card : ℤ) < st.parallelLimit) :
    Sound (st.claimAt a r.taskId) (a :: held) (a :: unrun) := by
  obtain ⟨unclaimed, inactive, fresh⟩ := free
  have updated : Sound (st.update a CiTaskRecord.markRunning) held unrun :=
    sound.update (fun _ => rfl) fun _ _ _ _ => running_settled
  have marked := updated.saveNow a
  obtain ⟨heap, _, active, _, runs, checks, limit⟩ :=
    Service.saveNow_rest (st.update a CiTaskRecord.markRunning) a
  have object : ((st.update a CiTaskRecord.markRunning).saveNow a).at? a =
      some (CiTaskRecord.markRunning r) := by
    rw [Service.at?, heap]
    refine (Service.at?_update st a a _).trans ?_
    rw [if_pos rfl, here]
    rfl
  have taken := marked.take object running_settled unclaimed (by rw [active]; exact inactive)
    (by rw [runs]; exact fresh) (by rw [active, limit]; exact room)
  rw [active, checks] at taken
  exact taken

theorem Sound.markPending (sound : Sound st held unrun) (here : st.at? a = some r)
    (free : a ∉ held ∧ r.taskId ∉ st.runs) :
    Sound ((st.update a CiTaskRecord.markPending).saveNow a) held unrun := by
  have updated : Sound (st.update a CiTaskRecord.markPending) held unrun := by
    refine sound.update (fun _ => rfl) ?_
    intro x there bound _
    obtain rfl := Option.some.inj (here.symm.trans there)
    exact absurd bound (not_or.mpr free)
  exact updated.saveNow a

/-- What `run_check` claims is free, unless it races. -/
theorem Sound.free (sound : Sound st held unrun) (here : st.at? a = some r) (active : r.status.Active)
    (unraced : r.status = .running →
      r.taskId ∉ st.active ∧ r.taskId ∉ st.stopRequested ∧ r.taskId ∉ st.runs) :
    a ∉ held ∧ r.taskId ∉ st.active ∧ r.taskId ∉ st.runs := by
  by_cases running : r.status = .running
  · obtain ⟨inactive, unstopped, fresh⟩ := unraced running
    refine ⟨fun claimed => ?_, inactive, fresh⟩
    exact (sound.slots a claimed r here).elim inactive unstopped
  · apply sound.waiting here
    revert active running
    cases r.status <;> decide

theorem Sound.claimed (sound : Sound st held unrun) (listed : List ℕ)
    (unraced : ∀ r ∈ st.at? a, r.status = .running →
      r.taskId ∉ st.active ∧ r.taskId ∉ st.stopRequested ∧ r.taskId ∉ st.runs) :
    ((st.claim a listed).1 = true → Sound (st.claim a listed).2 (a :: held) (a :: unrun)) ∧
      ((st.claim a listed).1 = false → Sound (st.claim a listed).2 held unrun) := by
  unfold Service.claim
  cases here : st.at? a with
  | none => exact ⟨fun h => (nomatch h), fun _ => sound⟩
  | some r =>
      dsimp only
      by_cases active : r.status.Active
      · have free := sound.free here active (unraced r here)
        rw [if_neg (not_not_intro active)]
        by_cases full : st.LimitReached listed (some r.taskId)
        · rw [if_pos full]
          exact ⟨fun h => (nomatch h), fun _ => sound.markPending here ⟨free.1, free.2.2⟩⟩
        · rw [if_neg full]
          refine ⟨fun _ => sound.claimAt here free (sound.room full ?_), fun h => (nomatch h)⟩
          intro id member same
          exact free.2.1 (Option.some.inj same ▸ member)
      · rw [if_pos active]
        exact ⟨fun h => (nomatch h), fun _ => sound⟩

theorem Sound.claimedNext (sound : Sound st held unrun) (listed : List ℕ) :
    (∀ a, (st.claimNext listed).1 = some a → Sound (st.claimNext listed).2 (a :: held) (a :: unrun)) ∧
      ((st.claimNext listed).1 = none → Sound (st.claimNext listed).2 held unrun) := by
  unfold Service.claimNext
  by_cases full : st.LimitReached listed none
  · rw [if_pos full]
    exact ⟨fun _ h => (nomatch h), fun _ => sound⟩
  rw [if_neg full]
  have room := sound.room full fun _ _ => Option.some_ne_none _
  rcases first : st.firstPending listed with _ | ⟨_ | b, r⟩
  · exact ⟨fun _ h => (nomatch h), fun _ => sound⟩
  · refine ⟨?_, fun h => (nomatch h)⟩
    rintro a same
    obtain rfl := Option.some.inj same
    obtain ⟨member, waits⟩ := Service.firstPending_mem first
    have absent := (Service.queueRecords_summary member).1
    have fresh : st.cached r.taskId = none := by
      cases cached : st.cached r.taskId with
      | none => rfl
      | some b =>
          obtain ⟨x, there, _⟩ := sound.tasked _ b cached
          rw [cached, Option.bind_some, there] at absent
          cases absent
    have object : (st.cache r).at? st.heap.length = some r := by
      rw [Service.at?_cache, if_pos rfl]
    have cached := sound.cache fresh
    exact cached.claimAt object (cached.waiting object waits) room
  · refine ⟨?_, fun h => (nomatch h)⟩
    rintro a same
    obtain rfl := Option.some.inj same
    obtain ⟨member, waits⟩ := Service.firstPending_mem first
    have object := Service.queueRecords_object member
    exact sound.claimAt object (sound.waiting object waits) room

theorem Sound.stopped (sound : Sound st held unrun) (a : ℕ) : Sound (st.stop a).2 held unrun := by
  unfold Service.stop
  cases here : st.at? a with
  | none => exact sound
  | some r =>
      dsimp only
      split
      · exact sound
      · have updated : Sound (st.update a CiTaskRecord.markStopped) held unrun :=
          sound.update (fun _ => rfl) fun _ _ _ _ => stopped_settled
        have saved := (updated.saveNow a).stop r.taskId
        obtain ⟨_, _, active, stopRequested, _⟩ :=
          Service.saveNow_rest (st.update a CiTaskRecord.markStopped) a
        rw [active, stopRequested] at saved
        exact saved

theorem Sound.unlessStopped (sound : Sound st held unrun) (a : ℕ) {f : CiTaskRecord → CiTaskRecord}
    (same : ∀ r, (f r).taskId = r.taskId) (settled : ∀ r, ¬ (f r).status.Waiting) :
    Sound (st.unlessStopped a f).2 held unrun := by
  unfold Service.unlessStopped
  cases st.at? a with
  | none => exact sound
  | some r =>
      dsimp only
      split
      · exact sound
      · exact sound.update same fun x _ _ _ => settled x

theorem Sound.replaced (sound : Sound st held unrun) (temp : ℕ) : Sound (st.replace temp) held unrun := by
  unfold Service.replace
  split
  · exact sound.congr rfl rfl rfl rfl rfl rfl rfl
  · exact sound

end Blocks

/-! Statements. -/

section Statements
variable {st : Service} {held unrun : List ℕ}

theorem Sound.neutral (sound : Sound st held unrun) {s : Stmt} (neutral : Permit.Neutral s)
    {c : Call}
    (unraced : Unraced c s st) : Sound (s.exec st).2 held unrun := by
  cases s with
  | draw language createdAt => exact sound.cache (Service.cached_freshId sound.tasked)
  | cache r => exact sound.cache unraced
  | setInterrupted a =>
      exact sound.update (f := CiTaskRecord.markInterrupted) (fun _ => rfl) fun _ _ _ _ => failed_settled
  | setRunning a =>
      exact sound.update (f := CiTaskRecord.markRunning) (fun _ => rfl) fun _ _ _ _ => running_settled
  | setWorkspace a workspace =>
      exact sound.update (f := CiTaskRecord.inWorkspace workspace) (fun _ => rfl) fun _ _ _ waits => waits
  | finish a passed summary =>
      refine sound.unlessStopped a (f := CiTaskRecord.markFinished passed summary) (fun _ => rfl) ?_
      intro r
      cases passed with
      | true => exact success_settled
      | false => exact failed_settled
  | crash a error =>
      exact sound.unlessStopped a (f := CiTaskRecord.markCrashed error) (fun _ => rfl)
        fun _ => failed_settled
  | stop a => exact sound.stopped a
  | replace temp => exact sound.replaced temp
  | write a => exact sound.congr rfl rfl rfl rfl rfl rfl rfl
  | mark a =>
      change Sound (st.ofRecord a st _) held unrun
      unfold Service.ofRecord
      split
      · exact sound
      · split
        · exact sound.congr rfl rfl rfl rfl rfl rfl rfl
        · exact sound
  | unmark a =>
      change Sound (st.ofRecord a st _) held unrun
      unfold Service.ofRecord
      split
      · exact sound
      · exact sound.congr rfl rfl rfl rfl rfl rfl rfl
  | claim a listed => exact neutral.elim
  | claimNext listed => exact neutral.elim
  | giveBack a => exact neutral.elim
  | runs a => exact neutral.elim
  | release a => exact neutral.elim
  | _ => exact sound

theorem Good.givenBack {permits : List Permit} {n a : ℕ} (good : Good st permits)
    (here : permits[n]? = some (.holds a .claimed)) : Good (st.giveBack a) (permits.set n .idle) := by
  obtain ⟨claimed, r, object, _⟩ := good.object here
  have unrun : a ∈ permits.filterMap Permit.unrun :=
    List.mem_filterMap.mpr ⟨_, List.mem_of_getElem? here, rfl⟩
  have fresh := good.unran a unrun r object
  have others : ∀ id ∈ st.stopRequested, id ≠ r.taskId → id ∈ st.stopRequested :=
    fun _ member _ => member
  have dropped := good.dropped here object others
  have waits := Sound.markPending dropped object ⟨good.alone here, fresh⟩
  unfold Service.giveBack
  rw [object]
  refine waits.congr ?_ ?_ ?_ ?_ ?_ ?_ ?_ <;> simp [Service.saveNow_rest, Service.update]

/-- What a thread executes under its permit keeps the claims sound. -/
theorem Good.exec {permits : List Permit} {n : ℕ} {p : Permit} {s : Stmt} (good : Good st permits)
    (here : permits[n]? = some p) (allowed : p.Allows s) {c : Call}
    (unraced : Unraced c s st) :
    Good (s.exec st).2 (permits.set n (p.after s (s.exec st).1)) := by
  by_cases neutral : Permit.Neutral s
  · obtain ⟨held, unrun⟩ := Permit.after_neutral allowed neutral (s.exec st).1
    have kept : Good (s.exec st).2 permits := Sound.neutral good neutral unraced
    exact kept.swap here held unrun
  cases s with
  | claim a listed =>
      cases p with
      | holds b stage => exact allowed.elim
      | judging b => exact allowed.elim
      | orphaned b => exact allowed.elim
      | idle =>
          have block := Sound.claimed good listed unraced
          change Good (st.claim a listed).2 
            (permits.set n (Permit.idle.after (.claim a listed) (st.claim a listed).1))
          cases answer : (st.claim a listed).1 with
          | true => exact Good.claimed here (block.1 answer)
          | false => exact Good.swap (block.2 answer) here rfl rfl
  | claimNext listed =>
      cases p with
      | holds b stage => exact allowed.elim
      | judging b => exact allowed.elim
      | orphaned b => exact allowed.elim
      | idle =>
          have block := Sound.claimedNext good listed
          change Good (st.claimNext listed).2
            (permits.set n (Permit.idle.after (.claimNext listed) (st.claimNext listed).1))
          cases answer : (st.claimNext listed).1 with
          | some a => exact Good.claimed here (block.1 a answer)
          | none => exact Good.swap (block.2 answer) here rfl rfl
  | giveBack a =>
      cases p with
      | idle => exact allowed.elim
      | judging b => exact allowed.elim
      | orphaned b => exact allowed.elim
      | holds b stage =>
          obtain ⟨rfl, rfl⟩ := allowed
          exact good.givenBack here
  | runs a =>
      cases p with
      | idle => exact allowed.elim
      | judging b => exact allowed.elim
      | orphaned b => exact allowed.elim
      | holds b stage =>
          obtain ⟨rfl, rfl⟩ := allowed
          obtain ⟨_, r, object, _⟩ := good.object here
          change Good (st.ofRecord a st _) _
          unfold Service.ofRecord
          rw [object]
          exact good.ran here object
  | release a =>
      cases p with
      | idle => exact allowed.elim
      | judging b => exact allowed.elim
      | orphaned b => exact allowed.elim
      | holds b stage =>
          obtain ⟨rfl, _⟩ := allowed
          obtain ⟨_, r, object, _⟩ := good.object here
          rw [Permit.after_release]
          change Good (st.release a) _
          unfold Service.release
          rw [object]
          exact good.dropped here object fun id member other => Finset.mem_erase.mpr ⟨other, member⟩
  | _ => exact absurd trivial neutral

end Statements

/-! Runs. -/

/-- The service as it starts, over the files that it finds. -/
def Service.boot (parallelLimit : ℤ) (managed : Bool) (handled : String → Bool) (marked : Bool)
    (foreign : Finset ℕ) (files : List CiTaskRecord) : Service :=
  { parallelLimit, managed, handled, marked, foreign, files }

section Runs
variable (parallelLimit : ℤ) (managed : Bool) (handled : String → Bool) (marked : Bool)
  (foreign : Finset ℕ) (files : List CiTaskRecord)

theorem good_boot : Good (Service.boot parallelLimit managed handled marked foreign files) [] where
  objects _ _ here := nomatch here
  tasked _ _ cached := nomatch cached
  heldNodup := List.nodup_nil
  unrunNodup := List.nodup_nil
  unrunHeld _ member := nomatch member
  busy _ member := nomatch member
  ran _ member := nomatch member
  unran _ member := nomatch member
  runsNodup := List.nodup_nil
  active _ member := nomatch member
  slots _ member := nomatch member
  bounded positive := positive.le
  checks := .nil

/-- A new thread holds no claim. -/
theorem good_open {st : Service} {permits : List Permit} (good : Good st permits) :
    Good st (permits ++ [.idle]) := by
  unfold Good
  rw [List.filterMap_append, List.filterMap_append]
  change Sound st (_ ++ []) (_ ++ [])
  rw [List.append_nil, List.append_nil]
  exact good

/-- In every state of an unraced run the claims are sound. -/
theorem always_good (turns : List (Turn Call))
    (unraced : Meets CiSystem.next (System.Allowed Unraced)
      (System.idle (Service.boot parallelLimit managed handled marked foreign files)) turns) :
    Always CiSystem.next (fun sys => ∃ permits, sys.Disciplined discipline permits ∧
        Good sys.store permits)
      (System.idle (Service.boot parallelLimit managed handled marked foreign files)) turns := by
  refine System.always_disciplined (d := discipline) keeps_body ?_ ?_ turns
    (good_boot parallelLimit managed handled marked foreign files) unraced
  · exact fun st permits good => good_open good
  · intro sys permits n c s next p _ thread here allowed unraced good
    exact good.exec here allowed (System.allowed_go thread unraced)

end Runs

/-! Every check at most once. -/

/-- Every check was run at most once, and no record is claimed while it is worked on. -/
def Service.RunsOnce (st : Service) : Prop := st.runs.Nodup ∧ st.checks.Nodup

instance (st : Service) : Decidable st.RunsOnce := inferInstanceAs (Decidable (_ ∧ _))

theorem Sound.checks_nodup {st : Service} {held unrun : List ℕ} (sound : Sound st held unrun) :
    st.checks.Nodup := by
  refine sound.checks.nodup_iff.mpr (sound.heldNodup.filterMap ?_)
  intro a b id first second
  obtain ⟨r, here, own⟩ := Option.map_eq_some_iff.mp first
  obtain ⟨x, there, same⟩ := Option.map_eq_some_iff.mp second
  exact sound.same_object there here (own.trans same.symm)

/-- In any interleaving without such a race every check is run at most once. -/
theorem runs_once (parallelLimit : ℤ) (managed : Bool) (handled : String → Bool) (marked : Bool)
    (foreign : Finset ℕ) (files : List CiTaskRecord) (turns : List (Turn Call))
    (unraced : Meets CiSystem.next (System.Allowed Unraced)
      (System.idle (.boot parallelLimit managed handled marked foreign files)) turns) :
    Always CiSystem.next (fun sys => sys.store.RunsOnce)
      (System.idle (.boot parallelLimit managed handled marked foreign files)) turns := by
  have good := always_good parallelLimit managed handled marked foreign files turns unraced
  refine always_mono _ ?_ _ turns good
  rintro sys ⟨permits, _, sound⟩
  exact ⟨Sound.runsNodup sound, Sound.checks_nodup sound⟩

/-- A check that passes. -/
def passing : Outcome := .finished "/work/1" true "All checks passed." .none

/-- The check is left to the background, which runs it once. -/
theorem background_runs_once :
    Always CiSystem.next (fun sys => sys.store.RunsOnce)
      (System.idle (.boot 1 true (fun _ => true) true ∅ []))
      (Turn.inOrder 24 [.submit "python" 0 none, .runCheck 1 [1] passing [], .get 1 []]) :=
  runs_once 1 true (fun _ => true) true ∅ [] _ (by decide)

/-- A submitted record is looked up, which claims it, before the check that its
submission left to the background is run. -/
def backgroundTurns : List (Turn Call) :=
  .call (.submit "python" 0 none) :: List.replicate 3 (.go 0) ++
  .call (.get 1 [⟨[1], passing⟩]) :: List.replicate 16 (.go 1) ++
  .call (.runCheck 1 [1] passing []) :: List.replicate 15 (.go 2)

/-- The background run claims the running record again, and runs its check again. -/
theorem background_runs_again :
    ¬ Always CiSystem.next (fun sys => sys.store.RunsOnce)
      (System.idle (.boot 1 true (fun _ => true) true ∅ [])) backgroundTurns := by
  rw [always_iff_reached]
  intro once
  have final := once backgroundTurns [] (List.append_nil _).symm
  revert final
  decide

end Uta.Ci
