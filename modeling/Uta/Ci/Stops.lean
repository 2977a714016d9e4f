/- How long a stored stop lasts: until a status that was decided on before the stop,
or a save that was under way, is written over it. -/
import Uta.Ci.ParallelLimit

namespace Uta.Ci
open Uta.Lib

/-- The stored record is stopped. -/
def Service.Stopped (st : Service) (id : ℕ) : Prop := ∃ r ∈ st.load id, r.status = .stopped

instance (st : Service) (id : ℕ) : Decidable (st.Stopped id) := by
  unfold Service.Stopped
  infer_instance

/-- The record that the turn stops, if it stops one. -/
def CiSystem.stops (sys : CiSystem) (t : Turn Call) : Option ℕ :=
  match System.executes sys t with
  | some (_, .stop a) =>
    (sys.store.at? a).bind fun r => if r.status.Active then some r.taskId else none
  | _ => none

/-- Every stored stop lasts to the end of the run. -/
def StopsStay : CiSystem → List (Turn Call) → Prop
  | _, [] => True
  | sys, t :: turns =>
    (∀ id ∈ CiSystem.stops sys t,
      Always CiSystem.next (fun later => later.store.Stopped id) (CiSystem.next sys t) turns) ∧
    StopsStay (CiSystem.next sys t) turns

/-- A stopped object, under the only id it has, with its file and the saves under way. -/
structure Halted (st : Service) (a id : ℕ) : Prop where
  object : ∃ r, st.at? a = some r ∧ r.taskId = id ∧ r.status = .stopped
  sole : ∀ b r, st.at? b = some r → r.taskId = id → b = a
  stored : st.Stopped id
  saves : ∀ r, some r ∈ st.temps → r.taskId = id → r.status = .stopped

namespace Service
variable {st : Service} {a b id : ℕ} {r : CiTaskRecord} {f : CiTaskRecord → CiTaskRecord}

theorem load_put (st : Service) (r : CiTaskRecord) (id : ℕ) :
    (st.put r).load id = if r.taskId = id then some r else st.load id := by
  unfold load put
  dsimp only
  rw [List.find?_append]
  by_cases own : r.taskId = id
  · subst own
    have gone : (st.files.filter fun x => x.taskId ≠ r.taskId).find? (fun x => x.taskId = r.taskId) =
        none := by
      rw [List.find?_eq_none]
      intro x member
      simpa using (List.mem_filter.mp member).2
    rw [gone, if_pos rfl]
    simp
  · have last : [r].find? (fun x => x.taskId = id) = none := by simp [own]
    rw [last, Option.or_none, if_neg own, List.find?_filter]
    congr 1
    funext x
    by_cases same : x.taskId = id
    · have other : id ≠ r.taskId := fun here => own here.symm
      simp [same, other]
    · simp [same]

end Service

theorem ne_stopped_of_active {s : CiTaskStatus} (active : s.Active) : s ≠ .stopped := by
  revert active
  cases s <;> decide

theorem ne_stopped_of_waiting {s : CiTaskStatus} (waits : s.Waiting) : s ≠ .stopped := by
  revert waits
  cases s <;> decide

namespace Halted
variable {st other : Service} {a b id : ℕ} {f : CiTaskRecord → CiTaskRecord}

theorem congr (halted : Halted st a id) (heap : other.heap = st.heap) (files : other.files = st.files)
    (temps : other.temps = st.temps) : Halted other a id where
  object := by simpa only [Service.at?, heap] using halted.object
  sole := by simpa only [Service.at?, heap] using halted.sole
  stored := by simpa only [Service.Stopped, Service.load, files] using halted.stored
  saves := by simpa only [temps] using halted.saves

theorem put (halted : Halted st a id) {r : CiTaskRecord} (keeps : r.taskId = id → r.status = .stopped) :
    Halted (st.put r) a id where
  object := halted.object
  sole := halted.sole
  stored := by
    unfold Service.Stopped
    rw [Service.load_put]
    split
    · next own => exact ⟨r, rfl, keeps own⟩
    · exact halted.stored
  saves := halted.saves

/-- The object of the id is the stopped one. -/
theorem own (halted : Halted st a id) {r : CiTaskRecord} (here : st.at? b = some r)
    (same : r.taskId = id) : r.status = .stopped := by
  obtain ⟨x, there, _, stopped⟩ := halted.object
  rw [halted.sole b r here same, there] at here
  rw [← Option.some.inj here]
  exact stopped

theorem saveNow (halted : Halted st a id) (b : ℕ) : Halted (st.saveNow b) a id := by
  unfold Service.saveNow
  cases here : st.at? b with
  | none => exact halted
  | some r => exact halted.put (halted.own here)

theorem update (halted : Halted st a id) (same : ∀ r, (f r).taskId = r.taskId)
    (spares : b = a → ∀ r, r.status = .stopped → (f r).status = .stopped) :
    Halted (st.update b f) a id where
  object := by
    obtain ⟨r, here, own, stopped⟩ := halted.object
    rw [Service.at?_update]
    split
    · next target => exact ⟨f r, by rw [here]; rfl, (same r).trans own, spares target r stopped⟩
    · exact ⟨r, here, own, stopped⟩
  sole := by
    intro c x there own
    rw [Service.at?_update] at there
    split at there
    · obtain ⟨r, here, rfl⟩ := Option.map_eq_some_iff.mp there
      exact halted.sole c r here ((same r).symm.trans own)
    · exact halted.sole c x there own
  stored := halted.stored
  saves := halted.saves

theorem cache (halted : Halted st a id) {r : CiTaskRecord} (other : r.taskId ≠ id) :
    Halted (st.cache r) a id where
  object := by
    obtain ⟨x, here, own, stopped⟩ := halted.object
    refine ⟨x, ?_, own, stopped⟩
    rw [Service.at?_cache, if_neg]
    · exact here
    · rintro rfl
      rw [Service.at?, List.getElem?_eq_none le_rfl] at here
      cases here
  sole := by
    intro c x there own
    rw [Service.at?_cache] at there
    split at there
    · obtain rfl := Option.some.inj there
      exact absurd own other
    · exact halted.sole c x there own
  stored := halted.stored
  saves := halted.saves

theorem write (halted : Halted st a id) (b : ℕ) :
    Halted { st with temps := st.temps ++ [st.at? b] } a id where
  object := halted.object
  sole := halted.sole
  stored := halted.stored
  saves := by
    intro r member same
    rcases List.mem_append.mp member with old | last
    · exact halted.saves r old same
    · exact halted.own (List.mem_singleton.mp last).symm same

theorem replace (halted : Halted st a id) (temp : ℕ) : Halted (st.replace temp) a id := by
  unfold Service.replace
  split
  · next r here =>
    have saved := halted.put (halted.saves r (List.mem_of_getElem? here))
    refine ⟨saved.object, saved.sole, saved.stored, ?_⟩
    intro x member same
    rcases List.mem_or_eq_of_mem_set member with old | new
    · exact halted.saves x old same
    · cases new
  · exact halted

theorem claimAt (halted : Halted st a id) {b : ℕ} (other : b ≠ a) (own : ℕ) :
    Halted (st.claimAt b own) a id := by
  have running : Halted (st.update b CiTaskRecord.markRunning) a id :=
    halted.update (fun _ => rfl) fun same => absurd same other
  exact (running.saveNow b).congr rfl rfl rfl

/-- What is active or waits is another object. -/
theorem elsewhere (halted : Halted st a id) {r : CiTaskRecord} (here : st.at? b = some r)
    (live : r.status ≠ .stopped) : b ≠ a := by
  rintro rfl
  obtain ⟨x, there, _, stopped⟩ := halted.object
  obtain rfl := Option.some.inj (here.symm.trans there)
  exact live stopped

theorem claim (halted : Halted st a id) (b : ℕ) (listed : List ℕ) : Halted (st.claim b listed).2 a id := by
  unfold Service.claim
  cases here : st.at? b with
  | none => exact halted
  | some r =>
      dsimp only
      by_cases active : r.status.Active
      · have other : b ≠ a := halted.elsewhere here (ne_stopped_of_active active)
        rw [if_neg (not_not_intro active)]
        split
        · have pending : Halted (st.update b CiTaskRecord.markPending) a id :=
            halted.update (fun _ => rfl) fun same => absurd same other
          exact pending.saveNow b
        · exact halted.claimAt other r.taskId
      · rw [if_pos active]
        exact halted

theorem claimNext (halted : Halted st a id) (cached : st.cached id = some a) (listed : List ℕ) :
    Halted (st.claimNext listed).2 a id := by
  unfold Service.claimNext
  split
  · exact halted
  rcases first : st.firstPending listed with _ | ⟨_ | b, r⟩
  · exact halted
  · obtain ⟨member, waits⟩ := Service.firstPending_mem first
    have absent := (Service.queueRecords_summary member).1
    obtain ⟨x, here, _⟩ := halted.object
    have new : r.taskId ≠ id := by
      rintro rfl
      rw [cached, Option.bind_some, here] at absent
      cases absent
    have beyond : st.heap.length ≠ a := by
      rintro rfl
      rw [Service.at?, List.getElem?_eq_none le_rfl] at here
      cases here
    exact (halted.cache new).claimAt beyond r.taskId
  · obtain ⟨member, waits⟩ := Service.firstPending_mem first
    have here := Service.queueRecords_object member
    exact halted.claimAt (halted.elsewhere here (ne_stopped_of_waiting waits)) r.taskId

theorem giveBack (halted : Halted st a id) {b : ℕ} (other : b ≠ a) : Halted (st.giveBack b) a id := by
  unfold Service.giveBack
  cases st.at? b with
  | none => exact halted
  | some r =>
      have pending : Halted (st.update b CiTaskRecord.markPending) a id :=
        halted.update (fun _ => rfl) fun same => absurd same other
      exact (pending.saveNow b).congr rfl rfl rfl

theorem stop (halted : Halted st a id) (b : ℕ) : Halted (st.stop b).2 a id := by
  unfold Service.stop
  cases here : st.at? b with
  | none => exact halted
  | some r =>
      dsimp only
      split
      · exact halted
      · have stopped : Halted (st.update b CiTaskRecord.markStopped) a id :=
          halted.update (fun _ => rfl) fun _ _ _ => rfl
        exact (stopped.saveNow b).congr rfl rfl rfl

theorem unlessStopped (halted : Halted st a id) {b : ℕ} {f : CiTaskRecord → CiTaskRecord}
    (same : ∀ r, (f r).taskId = r.taskId) (requested : b = a → id ∈ st.stopRequested) :
    Halted (st.unlessStopped b f).2 a id := by
  unfold Service.unlessStopped
  cases here : st.at? b with
  | none => exact halted
  | some r =>
      dsimp only
      split
      · exact halted
      · next free =>
        refine halted.update same fun target => ?_
        subst target
        obtain ⟨x, there, own, _⟩ := halted.object
        obtain rfl := Option.some.inj (here.symm.trans there)
        exact absurd (own ▸ requested rfl) free

end Halted

/-! Statements. -/

/-- The statements that write over a stopped object. -/
def Overwrites (a : ℕ) (id : ℕ) (st : Service) : Stmt → Prop
  | .setRunning b | .setInterrupted b | .giveBack b => b = a
  | .finish b .. | .crash b _ => b = a ∧ id ∉ st.stopRequested
  | .cache r => r.taskId = id
  | _ => False

theorem Halted.exec {st : Service} {a id : ℕ} (halted : Halted st a id) (cached : st.cached id = some a)
    (fresh : st.freshId ≠ id) {s : Stmt} (spares : ¬ Overwrites a id st s) :
    Halted (s.exec st).2 a id := by
  cases s with
  | draw language createdAt => exact halted.cache fresh
  | cache r => exact halted.cache spares
  | setInterrupted b =>
      exact halted.update (f := CiTaskRecord.markInterrupted) (fun _ => rfl) fun same => absurd same spares
  | setRunning b =>
      exact halted.update (f := CiTaskRecord.markRunning) (fun _ => rfl) fun same => absurd same spares
  | setWorkspace b workspace =>
      exact halted.update (f := CiTaskRecord.inWorkspace workspace) (fun _ => rfl) fun _ _ stopped => stopped
  | write b => exact halted.write b
  | replace temp => exact halted.replace temp
  | claim b listed => exact halted.claim b listed
  | claimNext listed => exact halted.claimNext cached listed
  | giveBack b => exact halted.giveBack spares
  | stop b => exact halted.stop b
  | finish b passed summary =>
      refine halted.unlessStopped (f := CiTaskRecord.markFinished passed summary) (fun _ => rfl) ?_
      intro same
      by_contra free
      exact spares ⟨same, free⟩
  | crash b error =>
      refine halted.unlessStopped (f := CiTaskRecord.markCrashed error) (fun _ => rfl) ?_
      intro same
      by_contra free
      exact spares ⟨same, free⟩
  | mark b =>
      change Halted (st.ofRecord b st _) a id
      unfold Service.ofRecord
      split
      · exact halted
      · split
        · exact halted.congr rfl rfl rfl
        · exact halted
  | unmark b =>
      change Halted (st.ofRecord b st _) a id
      unfold Service.ofRecord
      split
      · exact halted
      · exact halted.congr rfl rfl rfl
  | runs b =>
      change Halted (st.ofRecord b st _) a id
      unfold Service.ofRecord
      split
      · exact halted
      · exact halted.congr rfl rfl rfl
  | release b =>
      change Halted (st.release b) a id
      unfold Service.release
      split
      · exact halted
      · exact halted.congr rfl rfl rfl
  | _ => exact halted

/-- No object is stopped that was not stopped before. -/
def Origin (st other : Service) : Prop :=
  ∀ a x, other.at? a = some x → x.status = .stopped →
    ∃ r, st.at? a = some r ∧ r.status = .stopped ∧ r.taskId = x.taskId

namespace Origin
variable {st other next : Service} {a b : ℕ} {f : CiTaskRecord → CiTaskRecord}

theorem of_heap (heap : other.heap = st.heap) : Origin st other := by
  intro a x here stopped
  refine ⟨x, ?_, stopped, rfl⟩
  rw [Service.at?, ← heap]
  exact here

theorem trans (first : Origin st other) (second : Origin other next) : Origin st next := by
  intro a x here stopped
  obtain ⟨y, there, before, same⟩ := second a x here stopped
  obtain ⟨r, origin, earlier, own⟩ := first a y there before
  exact ⟨r, origin, earlier, own.trans same⟩

theorem update (same : ∀ r, (f r).taskId = r.taskId)
    (live : ∀ r, (f r).status = .stopped → r.status = .stopped) : Origin st (st.update b f) := by
  intro a x here stopped
  rw [Service.at?_update] at here
  split at here
  · obtain ⟨r, before, rfl⟩ := Option.map_eq_some_iff.mp here
    exact ⟨r, before, live r stopped, (same r).symm⟩
  · exact ⟨x, here, stopped, rfl⟩

theorem cache {r : CiTaskRecord} (live : r.status ≠ .stopped) : Origin st (st.cache r) := by
  intro a x here stopped
  rw [Service.at?_cache] at here
  split at here
  · obtain rfl := Option.some.inj here
    exact absurd stopped live
  · exact ⟨x, here, stopped, rfl⟩

theorem saveNow (origin : Origin st other) (b : ℕ) : Origin st (other.saveNow b) :=
  origin.trans (of_heap (Service.saveNow_rest other b).1)

theorem claimAt (b own : ℕ) : Origin st (st.claimAt b own) := by
  have running : Origin st (st.update b CiTaskRecord.markRunning) :=
    update (fun _ => rfl) fun _ stopped => nomatch stopped
  exact (running.saveNow b).trans (of_heap rfl)

theorem pending (b : ℕ) : Origin st ((st.update b CiTaskRecord.markPending).saveNow b) := by
  have waits : Origin st (st.update b CiTaskRecord.markPending) :=
    update (fun _ => rfl) fun _ stopped => nomatch stopped
  exact waits.saveNow b

theorem unlessStopped (same : ∀ r, (f r).taskId = r.taskId)
    (live : ∀ r, (f r).status = .stopped → r.status = .stopped) :
    Origin st (st.unlessStopped b f).2 := by
  unfold Service.unlessStopped
  split
  · exact of_heap rfl
  · split
    · exact of_heap rfl
    · exact update same live

theorem claim (b : ℕ) (listed : List ℕ) : Origin st (st.claim b listed).2 := by
  unfold Service.claim
  split
  · exact of_heap rfl
  · split
    · exact of_heap rfl
    · split
      · exact pending b
      · exact claimAt b _

theorem claimNext (listed : List ℕ) : Origin st (st.claimNext listed).2 := by
  unfold Service.claimNext
  split
  · exact of_heap rfl
  rcases first : st.firstPending listed with _ | ⟨_ | b, r⟩
  · exact of_heap rfl
  · obtain ⟨_, waits⟩ := Service.firstPending_mem first
    exact (cache (ne_stopped_of_waiting waits)).trans (claimAt _ _)
  · exact claimAt b r.taskId

/-- Only a stop stops an object. -/
theorem exec {s : Stmt} {p : Permit} (allowed : p.Allows s) (different : ∀ b, s ≠ .stop b) :
    Origin st (s.exec st).2 := by
  cases s with
  | draw language createdAt =>
      have live : CiTaskStatus.queued ≠ .stopped := by decide
      exact cache live
  | cache r =>
      cases p with
      | idle => exact cache (ne_stopped_of_active allowed)
      | holds b stage => exact allowed.elim
      | judging b => exact allowed.elim
      | orphaned b => exact allowed.elim
  | setInterrupted b =>
      exact update (f := CiTaskRecord.markInterrupted) (fun _ => rfl) fun _ stopped => nomatch stopped
  | setRunning b =>
      exact update (f := CiTaskRecord.markRunning) (fun _ => rfl) fun _ stopped => nomatch stopped
  | setWorkspace b workspace =>
      exact update (f := CiTaskRecord.inWorkspace workspace) (fun _ => rfl) fun _ stopped => stopped
  | replace temp =>
      change Origin st (st.replace temp)
      unfold Service.replace
      split
      · exact of_heap rfl
      · exact of_heap rfl
  | claim b listed => exact claim b listed
  | claimNext listed => exact claimNext listed
  | giveBack b =>
      change Origin st (st.giveBack b)
      unfold Service.giveBack
      split
      · exact of_heap rfl
      · exact (pending b).trans (of_heap rfl)
  | stop b => exact absurd rfl (different b)
  | finish b passed summary =>
      refine unlessStopped (f := CiTaskRecord.markFinished passed summary) (fun _ => rfl) ?_
      intro r stopped
      cases passed <;> cases stopped
  | crash b error =>
      exact unlessStopped (f := CiTaskRecord.markCrashed error) (fun _ => rfl) fun _ stopped => nomatch stopped
  | mark b =>
      change Origin st (st.ofRecord b st _)
      unfold Service.ofRecord
      split
      · exact of_heap rfl
      · split
        · exact of_heap rfl
        · exact of_heap rfl
  | unmark b =>
      change Origin st (st.ofRecord b st _)
      unfold Service.ofRecord
      split
      · exact of_heap rfl
      · exact of_heap rfl
  | runs b =>
      change Origin st (st.ofRecord b st _)
      unfold Service.ofRecord
      split
      · exact of_heap rfl
      · exact of_heap rfl
  | release b =>
      change Origin st (st.release b)
      unfold Service.release
      split
      · exact of_heap rfl
      · exact of_heap rfl
  | _ => exact of_heap rfl

end Origin
/-! Permits. -/

namespace Permit
variable {st : Service} {p : Permit} {s : Stmt} {a : ℕ}

/-- A write is decided on by one of two answers. -/
theorem decides_by (allowed : p.Allows s) (answer : s.Answer) (decides : (p.after s answer).Decides a) :
    p = .holds a .claimed ∧ s = .stopRequested a ∨ p = .judging a ∧ s = .isLive a := by
  cases p with
  | idle =>
      cases s <;> first | (rcases decides with same | same <;> cases same) |
        (cases answer <;> rcases decides with same | same <;> cases same)
  | orphaned b =>
      cases s <;> first | exact allowed.elim | (rcases decides with same | same <;> cases same)
  | judging b =>
      cases s <;> try exact allowed.elim
      · cases answer <;> rcases decides with same | same <;> cases same
      · obtain rfl := allowed
        cases answer with
        | true => rcases decides with same | same <;> cases same
        | false =>
            rcases decides with same | same
            · cases same
            · cases same
              exact .inr ⟨rfl, rfl⟩
  | holds b stage =>
      cases s <;> try exact allowed.elim
      case stopRequested c =>
        obtain ⟨rfl, rfl | rfl⟩ := allowed
        · cases answer with
          | true => rcases decides with same | same <;> cases same
          | false =>
              rcases decides with same | same
              · cases same
                exact .inl ⟨rfl, rfl⟩
              · cases same
        · rcases decides with same | same <;> cases same
      all_goals
        cases stage <;> first | exact absurd rfl allowed | exact absurd allowed.2 (by decide) |
          (rcases decides with same | same <;> cases same)

/-- A claim is kept, or it is what a block under the lock answers. -/
theorem held_by (allowed : p.Allows s) (answer : s.Answer) (held : (p.after s answer).held = some a) :
    p.held = some a ∨ p = .idle ∧ ((∃ listed, s = .claim a listed) ∨ ∃ listed, s = .claimNext listed) := by
  cases p with
  | idle =>
      right
      cases s <;> try cases held
      case claim b listed =>
        cases answer with
        | true =>
            cases held
            exact ⟨rfl, .inl ⟨listed, rfl⟩⟩
        | false => cases held
      case claimNext listed => exact ⟨rfl, .inr ⟨listed, rfl⟩⟩
      case statusRunning b => cases answer <;> cases held
  | orphaned b => cases s <;> first | exact allowed.elim | cases held
  | judging b => cases s <;> first | exact allowed.elim | cases held | (cases answer <;> cases held)
  | holds b stage =>
      left
      cases stage <;> cases s <;> first | exact allowed.elim | exact held | cases held |
        (cases answer <;> exact held)

end Permit

/-! The condition. -/

/-- The thread writes a status next that it decided on earlier. -/
def Writing (a : ℕ) (t : Thread Stmt Stmt.Answer CiError Call) : Prop :=
  match t.rest with
  | .stmt (.setRunning b) _ => b = a
  | .stmt (.setInterrupted b) _ => b = a
  | _ => False

instance (a : ℕ) (t : Thread Stmt Stmt.Answer CiError Call) : Decidable (Writing a t) := by
  unfold Writing
  split <;> infer_instance

/-- No write of a status of the record is under way. -/
def CiSystem.Quiet (sys : CiSystem) (a id : ℕ) : Prop :=
  (∀ t ∈ sys.threads, ¬ Writing a t) ∧ ∀ temp ∈ sys.store.temps, ∀ r ∈ temp, r.taskId ≠ id

instance (sys : CiSystem) (a id : ℕ) : Decidable (CiSystem.Quiet sys a id) :=
  inferInstanceAs (Decidable (_ ∧ _))

/-- A stop finds no write under way, no claim of a stopped record is given back,
and a record that was stopped in the meantime is not taken for an orphan. -/
def Undisturbed (sys : CiSystem) (t : Turn Call) : Prop :=
  System.Allowed Unraced sys t ∧
  match System.executes sys t with
  | some (_, .stop a) => ∀ r ∈ sys.store.at? a, r.status.Active → CiSystem.Quiet sys a r.taskId
  | some (_, .giveBack a) => ∀ r ∈ sys.store.at? a, r.status ≠ .stopped
  | some (_, .isLive a) => ∀ r ∈ sys.store.at? a, r.status = .stopped → r.taskId ∈ sys.store.live
  | _ => True

instance (sys : CiSystem) (t : Turn Call) : Decidable (Undisturbed sys t) := by
  unfold Undisturbed
  refine @instDecidableAnd _ _ _ ?_
  split <;> infer_instance

/-! Stopped objects. -/

/-- A stopped object that no thread is going to write over. -/
structure Spared (st : Service) (permits : List Permit) (a id : ℕ) : Prop where
  halted : Halted st a id
  undecided : ∀ p ∈ permits, ¬ p.Decides a
  requested : a ∈ permits.filterMap Permit.held → id ∈ st.stopRequested

/-- Every stopped object is spared. -/
def Steady (st : Service) (permits : List Permit) : Prop :=
  ∀ a r, st.at? a = some r → r.status = .stopped → Spared st permits a r.taskId

section Steps
variable {sys : CiSystem} {st : Service} {permits : List Permit} {n a id : ℕ} {p : Permit} {s : Stmt}

/-- What a stopped object needs of a statement. -/
def Heeds (a : ℕ) (st : Service) : Stmt → Prop
  | .cache r => st.cached r.taskId = none
  | .giveBack b => b ≠ a
  | .isLive b => b = a → st.ofRecord a true (fun r => r.taskId ∈ st.live) = true
  | _ => True

theorem Spared.cached (spared : Spared st permits a id) (good : Good st permits) :
    st.cached id = some a := by
  obtain ⟨r, object, rfl, _⟩ := spared.halted.object
  exact good.objects a r object

theorem Spared.not_overwrites (spared : Spared st permits a id) (good : Good st permits)
    (here : permits[n]? = some p) (allowed : p.Allows s) (heeds : Heeds a st s) :
    ¬ Overwrites a id st s := by
  have member := List.mem_of_getElem? here
  cases s <;> try exact fun overwrites => overwrites.elim
  case cache r =>
    rintro rfl
    rw [Heeds, spared.cached good] at heeds
    cases heeds
  case giveBack b => exact heeds
  case setRunning b =>
    rintro rfl
    cases p <;> first | exact allowed.elim | skip
    obtain ⟨rfl, rfl⟩ := allowed
    exact spared.undecided _ member (.inl rfl)
  case setInterrupted b =>
    rintro rfl
    cases p <;> first | exact allowed.elim | skip
    obtain rfl := allowed
    exact spared.undecided _ member (.inr rfl)
  case finish b passed summary =>
    rintro ⟨rfl, free⟩
    cases p <;> first | exact allowed.elim | skip
    obtain ⟨rfl, _⟩ := allowed
    exact free (spared.requested (List.mem_filterMap.mpr ⟨_, member, rfl⟩))
  case crash b error =>
    rintro ⟨rfl, free⟩
    cases p <;> first | exact allowed.elim | skip
    obtain ⟨rfl, _⟩ := allowed
    exact free (spared.requested (List.mem_filterMap.mpr ⟨_, member, rfl⟩))

theorem Spared.undecided_after (spared : Spared st permits a id) (here : permits[n]? = some p)
    (allowed : p.Allows s) (heeds : Heeds a st s) :
    ∀ q ∈ permits.set n (p.after s (s.exec st).1), ¬ q.Decides a := by
  intro q member decides
  rcases List.mem_or_eq_of_mem_set member with old | rfl
  · exact spared.undecided q old decides
  obtain ⟨r, object, own, _⟩ := spared.halted.object
  rcases Permit.decides_by allowed _ decides with ⟨rfl, rfl⟩ | ⟨rfl, rfl⟩
  · have claimed : a ∈ permits.filterMap Permit.held :=
      List.mem_filterMap.mpr ⟨_, List.mem_of_getElem? here, rfl⟩
    have answer : ((Stmt.stopRequested a).exec st).1 = true := by
      change st.ofRecord a true _ = true
      rw [Service.ofRecord, object]
      exact decide_eq_true (own ▸ spared.requested claimed)
    rw [answer] at decides
    rcases decides with same | same <;> cases same
  · have answer : ((Stmt.isLive a).exec st).1 = true := heeds rfl
    rw [answer] at decides
    rcases decides with same | same <;> cases same

/-- Only a release takes a stop request back. -/
theorem exec_stopRequested (other : ∀ b, s ≠ .release b) (requested : id ∈ st.stopRequested) :
    id ∈ (s.exec st).2.stopRequested := by
  have saved : ∀ (now : Service) (b : ℕ), (now.saveNow b).stopRequested = now.stopRequested :=
    fun now b => (Service.saveNow_rest now b).2.2.2.1
  cases s with
  | claim b listed =>
      change id ∈ (st.claim b listed).2.stopRequested
      unfold Service.claim
      split
      · exact requested
      · split
        · exact requested
        · split
          · exact (saved _ b).symm ▸ requested
          · exact (saved _ b).symm ▸ requested
  | claimNext listed =>
      change id ∈ (st.claimNext listed).2.stopRequested
      unfold Service.claimNext
      split
      · exact requested
      · split
        · exact requested
        · exact (saved _ _).symm ▸ requested
        · exact (saved _ _).symm ▸ requested
  | giveBack b =>
      change id ∈ (st.giveBack b).stopRequested
      unfold Service.giveBack
      split
      · exact requested
      · exact (saved _ b).symm ▸ requested
  | stop b =>
      change id ∈ (st.stop b).2.stopRequested
      unfold Service.stop
      split
      · exact requested
      · split
        · exact requested
        · exact Finset.mem_insert_of_mem requested
  | replace temp =>
      change id ∈ (st.replace temp).stopRequested
      unfold Service.replace
      split <;> exact requested
  | release b => exact absurd rfl (other b)
  | finish b passed summary =>
      change id ∈ (st.unlessStopped b _).2.stopRequested
      unfold Service.unlessStopped
      split
      · exact requested
      · split <;> exact requested
  | crash b error =>
      change id ∈ (st.unlessStopped b _).2.stopRequested
      unfold Service.unlessStopped
      split
      · exact requested
      · split <;> exact requested
  | mark b =>
      change id ∈ (st.ofRecord b st _).stopRequested
      unfold Service.ofRecord
      split
      · exact requested
      · split <;> exact requested
  | unmark b =>
      change id ∈ (st.ofRecord b st _).stopRequested
      unfold Service.ofRecord
      split <;> exact requested
  | runs b =>
      change id ∈ (st.ofRecord b st _).stopRequested
      unfold Service.ofRecord
      split <;> exact requested
  | _ => exact requested

/-- What a block claims was not stopped. -/
theorem claim_live {b : ℕ} {listed : List ℕ} (claimed : (st.claim b listed).1 = true)
    {r : CiTaskRecord} (object : st.at? b = some r) : r.status ≠ .stopped := by
  unfold Service.claim at claimed
  rw [object] at claimed
  dsimp only at claimed
  split at claimed
  · cases claimed
  · next active => exact ne_stopped_of_active (not_not.mp active)

theorem claimNext_live {listed : List ℕ} (claimed : (st.claimNext listed).1 = some a)
    {r : CiTaskRecord} (object : st.at? a = some r) : r.status ≠ .stopped := by
  unfold Service.claimNext at claimed
  split at claimed
  · cases claimed
  rcases first : st.firstPending listed with _ | ⟨_ | b, x⟩
  · rw [first] at claimed
    cases claimed
  · rw [first] at claimed
    obtain rfl := Option.some.inj claimed
    rw [Service.at?, List.getElem?_eq_none le_rfl] at object
    cases object
  · rw [first] at claimed
    obtain rfl := Option.some.inj claimed
    obtain ⟨member, waits⟩ := Service.firstPending_mem first
    have here := Service.queueRecords_object member
    obtain rfl := Option.some.inj (object.symm.trans here)
    exact ne_stopped_of_waiting waits

theorem Spared.requested_after (spared : Spared st permits a id) (good : Good st permits)
    (here : permits[n]? = some p) (allowed : p.Allows s) :
    a ∈ (permits.set n (p.after s (s.exec st).1)).filterMap Permit.held →
      id ∈ (s.exec st).2.stopRequested := by
  intro member
  obtain ⟨r, object, own, stopped⟩ := spared.halted.object
  have before : a ∈ permits.filterMap Permit.held := by
    obtain ⟨q, inside, held⟩ := List.mem_filterMap.mp member
    rcases List.mem_or_eq_of_mem_set inside with old | rfl
    · exact List.mem_filterMap.mpr ⟨q, old, held⟩
    rcases Permit.held_by allowed _ held with same | ⟨rfl, ⟨listed, rfl⟩ | ⟨listed, rfl⟩⟩
    · exact List.mem_filterMap.mpr ⟨p, List.mem_of_getElem? here, same⟩
    · change (Permit.idle.after (.claim a listed) (st.claim a listed).1).held = some a at held
      cases answer : (st.claim a listed).1 with
      | true => exact absurd stopped (claim_live answer object)
      | false =>
          rw [answer] at held
          cases held
    · change (Permit.idle.after (.claimNext listed) (st.claimNext listed).1).held = some a at held
      cases answer : (st.claimNext listed).1 with
      | none =>
          rw [answer] at held
          cases held
      | some b =>
          rw [answer] at held
          obtain rfl : b = a := Option.some.inj held
          exact absurd stopped (claimNext_live answer object)
  have requested := spared.requested before
  by_cases released : ∃ b, s = .release b
  · obtain ⟨b, rfl⟩ := released
    change id ∈ (st.release b).stopRequested
    unfold Service.release
    cases there : st.at? b with
    | none => exact requested
    | some x =>
        refine Finset.mem_erase.mpr ⟨?_, requested⟩
        rintro rfl
        obtain rfl := spared.halted.sole b x there rfl
        cases p <;> first | exact allowed.elim | skip
        obtain ⟨rfl, _⟩ := allowed
        rw [Permit.after_release] at member
        exact good.alone here member
  · exact exec_stopRequested (fun b same => released ⟨b, same⟩) requested

theorem Spared.step (spared : Spared st permits a id) (good : Good st permits)
    (here : permits[n]? = some p) (allowed : p.Allows s) (heeds : Heeds a st s) :
    Spared (s.exec st).2 (permits.set n (p.after s (s.exec st).1)) a id where
  halted := by
    have cached := spared.cached good
    have fresh : st.freshId ≠ id := by
      rintro rfl
      rw [Service.cached_freshId good.tasked] at cached
      cases cached
    exact spared.halted.exec cached fresh (spared.not_overwrites good here allowed heeds)
  undecided := spared.undecided_after here allowed heeds
  requested := spared.requested_after good here allowed

/-- What an undisturbed turn executes heeds the stopped objects. -/
theorem heeds_of_undisturbed {c : Call} {next : s.Answer → CiProg Unit} {r : CiTaskRecord}
    (thread : sys.threads[n]? = some ⟨c, .stmt s next⟩) (undisturbed : Undisturbed sys (.go n))
    (object : sys.store.at? a = some r) (stopped : r.status = .stopped) : Heeds a sys.store s := by
  obtain ⟨unraced, quiet⟩ := undisturbed
  have allowed := System.allowed_go thread unraced
  simp only [System.executes, System.pending, thread] at quiet
  cases s <;> try trivial
  case giveBack b =>
    rintro rfl
    exact quiet r object stopped
  case isLive b =>
    rintro rfl
    rw [Service.ofRecord, object]
    exact decide_eq_true (quiet r object stopped)

/-- A thread that has decided on a write executes it next. -/
theorem writing_of_decides (disciplined : sys.Disciplined discipline permits) {q : Permit}
    (member : q ∈ permits) (decides : q.Decides a) : ∃ t ∈ sys.threads, Writing a t := by
  obtain ⟨⟨c, rest⟩, inside, follows⟩ := disciplined.thread member
  refine ⟨⟨c, rest⟩, inside, ?_⟩
  cases rest with
  | ret _ => rcases decides with rfl | rfl <;> cases follows
  | raise e => rcases decides with rfl | rfl <;> cases follows
  | stmt s next =>
      have allowed : q.Allows s := follows.1
      rcases decides with rfl | rfl
      · cases s <;> first | exact allowed.elim | exact allowed.1 | exact absurd rfl allowed |
          exact absurd allowed.2 (by decide)
      · cases s <;> first | exact allowed.elim | exact allowed

theorem object_stop {r : CiTaskRecord} (object : st.at? a = some r) (active : r.status.Active) :
    (st.stop a).2.at? a = some (CiTaskRecord.markStopped r) := by
  unfold Service.stop
  rw [object]
  dsimp only
  rw [if_neg (not_not_intro active)]
  refine (congrArg (·[a]?) (Service.saveNow_rest (st.update a CiTaskRecord.markStopped) a).1).trans ?_
  refine (Service.at?_update st a a CiTaskRecord.markStopped).trans ?_
  rw [if_pos rfl, object]
  rfl

/-- A stop that takes effect halts its object. -/
theorem halted_stop {r : CiTaskRecord} (good : Good st permits) (object : st.at? a = some r)
    (active : r.status.Active) (saves : ∀ temp ∈ st.temps, ∀ x ∈ temp, x.taskId ≠ r.taskId) :
    Halted (st.stop a).2 a r.taskId := by
  have stopped : (st.update a CiTaskRecord.markStopped).at? a = some (CiTaskRecord.markStopped r) := by
    rw [Service.at?_update, if_pos rfl, object]
    rfl
  have sole : ∀ b x, (st.update a CiTaskRecord.markStopped).at? b = some x → x.taskId = r.taskId →
      b = a := by
    intro b x there same
    rw [Service.at?_update] at there
    split at there
    · next own => exact own.symm
    · exact good.same_object object there same
  unfold Service.stop
  rw [object]
  dsimp only
  rw [if_neg (not_not_intro active), Service.saveNow, stopped]
  refine ⟨⟨_, stopped, rfl, rfl⟩, sole, ⟨CiTaskRecord.markStopped r, ?_, rfl⟩, ?_⟩
  · exact (Service.load_put _ _ _).trans (if_pos rfl)
  · intro x member same
    exact absurd same (saves (some x) member x rfl)

theorem stop_requests {r : CiTaskRecord} (object : st.at? a = some r) (active : r.status.Active) :
    r.taskId ∈ (st.stop a).2.stopRequested := by
  unfold Service.stop
  rw [object]
  dsimp only
  rw [if_neg (not_not_intro active)]
  exact Finset.mem_insert_self _ _

/-- What is stopped after a stop was stopped before, or is its object. -/
theorem origin_stop {b : ℕ} {x : CiTaskRecord} (object : (st.stop b).2.at? a = some x)
    (stopped : x.status = .stopped) :
    (∃ r, st.at? a = some r ∧ r.status = .stopped ∧ r.taskId = x.taskId) ∨
      ∃ r, b = a ∧ st.at? a = some r ∧ r.status.Active ∧ r.taskId = x.taskId := by
  unfold Service.stop at object
  cases here : st.at? b with
  | none =>
      rw [here] at object
      exact .inl ⟨x, object, stopped, rfl⟩
  | some r =>
      rw [here] at object
      dsimp only at object
      split at object
      · exact .inl ⟨x, object, stopped, rfl⟩
      · next active =>
        have heap := (Service.saveNow_rest (st.update b CiTaskRecord.markStopped) b).1
        have after : (st.update b CiTaskRecord.markStopped).at? a = some x := by
          rw [Service.at?, ← heap]
          exact object
        rw [Service.at?_update] at after
        split at after
        · next same =>
          subst same
          rw [here] at after
          obtain rfl := Option.some.inj after
          exact .inr ⟨r, rfl, here, not_not.mp active, rfl⟩
        · exact .inl ⟨x, after, stopped, rfl⟩

/-- One statement of an undisturbed run keeps every stopped object spared. -/
theorem Steady.step {c : Call} {next : s.Answer → CiProg Unit}
    (steady : Steady sys.store permits) (good : Good sys.store permits)
    (disciplined : sys.Disciplined discipline permits)
    (thread : sys.threads[n]? = some ⟨c, .stmt s next⟩) (here : permits[n]? = some p)
    (allowed : p.Allows s) (undisturbed : Undisturbed sys (.go n)) :
    Steady (s.exec sys.store).2 (permits.set n (p.after s (s.exec sys.store).1)) := by
  have kept : ∀ a r, sys.store.at? a = some r → r.status = .stopped →
      Spared (s.exec sys.store).2 (permits.set n (p.after s (s.exec sys.store).1)) a r.taskId := by
    intro a r object stopped
    have heeds := heeds_of_undisturbed thread undisturbed object stopped
    exact (steady a r object stopped).step good here allowed heeds
  intro a x object stopped
  by_cases stop : ∃ b, s = .stop b
  · obtain ⟨b, rfl⟩ := stop
    rcases origin_stop object stopped with ⟨r, before, earlier, own⟩ | ⟨r, rfl, before, active, own⟩
    · exact own ▸ kept a r before earlier
    · have quiet := undisturbed.2
      simp only [System.executes, System.pending, thread] at quiet
      obtain ⟨unwritten, saves⟩ := quiet r before active
      refine own ▸ ⟨halted_stop good before active saves, ?_, fun _ => ?_⟩
      · intro q member decides
        cases p <;> first | exact allowed.elim | skip
        rcases List.mem_or_eq_of_mem_set member with old | rfl
        · obtain ⟨t, inside, writing⟩ := writing_of_decides disciplined old decides
          exact unwritten t inside writing
        · rcases decides with same | same <;> cases same
      · exact stop_requests before active
  · have origin : Origin sys.store (s.exec sys.store).2 :=
      Origin.exec allowed fun b same => stop ⟨b, same⟩
    obtain ⟨r, before, earlier, own⟩ := origin a x object stopped
    exact own ▸ kept a r before earlier

end Steps
/-! Runs. -/

/-- The claims are sound, and every stopped object is spared. -/
def Settled (st : Service) (permits : List Permit) : Prop := Good st permits ∧ Steady st permits

/-- A settled service, with an object that was stopped. -/
def SettledWith (a id : ℕ) (st : Service) (permits : List Permit) : Prop :=
  Settled st permits ∧ ∃ r, st.at? a = some r ∧ r.taskId = id ∧ r.status = .stopped

theorem opens_settled (st : Service) (permits : List Permit) (settled : Settled st permits) :
    Settled st (permits ++ [.idle]) := by
  refine ⟨good_open settled.1, fun a r object stopped => ?_⟩
  have spared := settled.2 a r object stopped
  refine ⟨spared.halted, ?_, ?_⟩
  · intro p member decides
    rcases List.mem_append.mp member with old | new
    · exact spared.undecided p old decides
    · obtain rfl := List.mem_singleton.mp new
      rcases decides with same | same <;> cases same
  · rw [List.filterMap_append]
    intro member
    rcases List.mem_append.mp member with old | new
    · exact spared.requested old
    · cases new

theorem keeps_settled (sys : CiSystem) (permits : List Permit) (n : ℕ) (c : Call) (s : Stmt)
    (next : s.Answer → CiProg Unit) (p : Permit) (disciplined : sys.Disciplined discipline permits)
    (thread : sys.threads[n]? = some ⟨c, .stmt s next⟩) (here : permits[n]? = some p)
    (allowed : p.Allows s) (undisturbed : Undisturbed sys (.go n)) (settled : Settled sys.store permits) :
    Settled (s.exec sys.store).2 (permits.set n (p.after s (s.exec sys.store).1)) :=
  ⟨settled.1.exec here allowed (System.allowed_go thread undisturbed.1),
    settled.2.step settled.1 disciplined thread here allowed undisturbed⟩

theorem keeps_settledWith (a id : ℕ) (sys : CiSystem) (permits : List Permit) (n : ℕ) (c : Call)
    (s : Stmt) (next : s.Answer → CiProg Unit) (p : Permit)
    (disciplined : sys.Disciplined discipline permits)
    (thread : sys.threads[n]? = some ⟨c, .stmt s next⟩) (here : permits[n]? = some p)
    (allowed : p.Allows s) (undisturbed : Undisturbed sys (.go n))
    (settled : SettledWith a id sys.store permits) :
    SettledWith a id (s.exec sys.store).2 (permits.set n (p.after s (s.exec sys.store).1)) := by
  refine ⟨keeps_settled sys permits n c s next p disciplined thread here allowed undisturbed settled.1, ?_⟩
  obtain ⟨⟨good, steady⟩, r, object, rfl, stopped⟩ := settled
  have heeds := heeds_of_undisturbed thread undisturbed object stopped
  exact ((steady a r object stopped).step good here allowed heeds).halted.object

/-- What was stopped stays stored as stopped. -/
theorem always_stopped {a id : ℕ} {sys : CiSystem} (turns : List (Turn Call))
    (settled : ∃ permits, sys.Disciplined discipline permits ∧ SettledWith a id sys.store permits)
    (undisturbed : Meets CiSystem.next Undisturbed sys turns) :
    Always CiSystem.next (fun later => later.store.Stopped id) sys turns := by
  have opens : ∀ st permits, SettledWith a id st permits → SettledWith a id st (permits ++ [.idle]) :=
    fun st permits before => ⟨opens_settled st permits before.1, before.2⟩
  have always := always_of_meets CiSystem.next
    (System.turn_disciplined (d := discipline) keeps_body opens (keeps_settledWith a id)) sys turns
    settled undisturbed
  refine always_mono _ ?_ sys turns always
  rintro later ⟨permits, _, ⟨_, steady⟩, r, object, rfl, stopped⟩
  exact (steady a r object stopped).halted.stored

/-- The object of a stop is stopped after it. -/
theorem stops_object {sys : CiSystem} {t : Turn Call} {id : ℕ} (stops : id ∈ CiSystem.stops sys t) :
    ∃ a r, (CiSystem.next sys t).store.at? a = some r ∧ r.taskId = id ∧ r.status = .stopped := by
  unfold CiSystem.stops at stops
  split at stops
  · next c a executed =>
    obtain ⟨r, object, own⟩ := Option.bind_eq_some_iff.mp stops
    split at own
    · next active =>
      obtain rfl := Option.some.inj own
      refine ⟨a, CiTaskRecord.markStopped r, ?_, rfl, rfl⟩
      unfold CiSystem.next
      rw [System.turn_store, executed]
      exact object_stop object active
    · cases own
  · cases stops

/-- In an undisturbed run from a settled state every stored stop lasts. -/
theorem stops_stay_from (sys : CiSystem) (turns : List (Turn Call))
    (settled : ∃ permits, sys.Disciplined discipline permits ∧ Settled sys.store permits)
    (undisturbed : Meets CiSystem.next Undisturbed sys turns) : StopsStay sys turns := by
  induction turns generalizing sys with
  | nil => trivial
  | cons t turns ih =>
      have after := System.turn_disciplined (d := discipline) keeps_body opens_settled keeps_settled
        sys t settled undisturbed.1
      refine ⟨fun id stops => ?_, ih _ after undisturbed.2⟩
      obtain ⟨a, object⟩ := stops_object stops
      obtain ⟨permits, disciplined, steady⟩ := after
      exact always_stopped turns ⟨permits, disciplined, steady, object⟩ undisturbed.2

instance decidableStopsStay : ∀ sys turns, Decidable (StopsStay sys turns)
  | _, [] => inferInstanceAs (Decidable True)
  | sys, t :: turns =>
    have := decidableStopsStay (CiSystem.next sys t) turns
    inferInstanceAs (Decidable ((∀ id ∈ CiSystem.stops sys t, _) ∧ _))

/-- A check is stopped between its first look at the stop requests and its first
write of the status. -/
def lateTurns : List (Turn Call) :=
  Turn.inOrder 3 [.submit "python" 0 none] ++
  .call (.runCheck 1 [] passing []) :: List.replicate 7 (.go 1) ++
  .call (.stopCiTask 1 []) :: List.replicate 2 (.go 2) ++ List.replicate 3 (.go 1)

end Uta.Ci
