/- One live session for each fingerprint, and the session that a request gets. -/
import Mathlib.Data.List.Pairwise
import Uta.Lib.Run
import Uta.Repair.Keeping
import Uta.Repair.Reports

namespace Uta.Repair
open Uta.Lib Uta.Ci Uta.Tasks

abbrev Session.Passed (s : Session) : Prop := s.status.Passed

/-- No two sessions of one fingerprint have the property. -/
def Distinct (P : Session → Prop) (l : List Session) : Prop :=
  l.Pairwise fun s t => s.fingerprint = t.fingerprint → P s → ¬ P t

instance (P : Session → Prop) [DecidablePred P] (l : List Session) : Decidable (Distinct P l) :=
  inferInstanceAs (Decidable (List.Pairwise _ l))

/-- A session that is live, or that a refresh may bring back: given up while its repair
task is under way or completed, or without a task of its own making and a completed one. -/
def Wakes (tasks : List RepoStatus) (s : Session) : Prop :=
  s.Live ∨ ∃ id ∈ s.repoTaskId,
    (s.status = .repairFailed ∧ ∀ t ∈ tasks[id]?, ¬ FailedRepo t) ∨
    (s.status = .repairTaskCreateFailed ∧ ∀ t ∈ tasks[id]?, t = .completed)

instance (tasks : List RepoStatus) (s : Session) : Decidable (Wakes tasks s) :=
  inferInstanceAs (Decidable (_ ∨ ∃ id ∈ s.repoTaskId, _ ∨ _))

/-! Properties of steps. -/

/-- The answer to a request is a session of its fingerprint with the property, if there
is one, and nothing else happens. -/
def Returned (P : Session → Prop) (fingerprint : Fingerprint) (st : State)
    (answered : State.Answer × State) : Prop :=
  (∃ s ∈ st.sessions, s.fingerprint = some fingerprint ∧ P s) →
    ∃ (n : ℕ) (s : Session), st.sessions[n]? = some s ∧ s.fingerprint = some fingerprint ∧ P s ∧
      answered = (.session n, st)

/-- A request that is admitted gets back the live session of its fingerprint and the
passed one, and one that is refused opens no session. -/
def Answers (cfg : Config) (st : State) : Step → Prop
  | .request targetIds o m now invalid c =>
    if State.CanCreateFixSession st.record ∧ (st.refresh cfg o m).1 = none then
      Returned Session.Live (State.repairFingerprint (st.refresh cfg o m).2.record targetIds)
          (st.refresh cfg o m).2 (st.createFixSession cfg targetIds o m now invalid c) ∧
        Returned Session.Passed (State.repairFingerprint (st.refresh cfg o m).2.record targetIds)
          (st.refresh cfg o m).2 (st.createFixSession cfg targetIds o m now invalid c)
    else
      (st.createFixSession cfg targetIds o m now invalid c).2.sessions.length = st.sessions.length ∧
        ∀ n, (st.createFixSession cfg targetIds o m now invalid c).1 ≠ .session n
  | _ => True

/-! Conditions. -/

/-- The session that is found for the fingerprint is live if any of its sessions is,
and passed if any is. -/
def Represents (st : State) (fingerprint : Fingerprint) : Prop :=
  ∀ n ∈ st.findSessionByFingerprint fingerprint, ∀ first ∈ st.sessions[n]?, ∀ s ∈ st.sessions,
    s.fingerprint = some fingerprint → (s.Live → first.Live) ∧ (s.Passed → first.Passed)

instance (st : State) (fingerprint : Fingerprint) : Decidable (Represents st fingerprint) :=
  inferInstanceAs (Decidable (∀ n ∈ st.findSessionByFingerprint fingerprint,
    ∀ first ∈ st.sessions[n]?, ∀ s ∈ st.sessions, s.fingerprint = some fingerprint →
      (s.Live → first.Live) ∧ (s.Passed → first.Passed)))

/-- No refresh finds two sessions of one fingerprint that are live or may come back, no
request one that hides another, and no retry a live one beside the session. -/
def Orderly (cfg : Config) (st : State) : Step → Prop
  | .request targetIds o m _ _ _ =>
    State.CanCreateFixSession st.record →
      Distinct (Wakes st.tasks) st.sessions ∧
      ((st.refresh cfg o m).1 = none →
        Represents (st.refresh cfg o m).2
          (State.repairFingerprint (st.refresh cfg o m).2.record targetIds))
  | .retry n _ _ =>
    ∀ s ∈ st.sessions[n]?, ∀ t ∈ st.sessions.eraseIdx n, t.fingerprint = s.fingerprint → ¬ t.Live
  | .refresh _ _ => Distinct (Wakes st.tasks) st.sessions
  | _ => True

instance (cfg : Config) (st : State) (step : Step) : Decidable (Orderly cfg st step) := by
  apply Step.casesOn (motive := fun step => Decidable (Orderly cfg st step)) step <;> intros <;>
    unfold Orderly <;> infer_instance

/-! Distinct sessions. -/

theorem distinct_iff {P : Session → Prop} {l : List Session} :
    Distinct P l ↔ ∀ (i j : ℕ) (s t : Session), l[i]? = some s → l[j]? = some t →
      s.fingerprint = t.fingerprint → P s → P t → i = j := by
  unfold Distinct
  rw [List.pairwise_iff_getElem]
  constructor
  · intro apart i j s t first second same ps pt
    obtain ⟨hi, rfl⟩ := List.getElem?_eq_some_iff.mp first
    obtain ⟨hj, rfl⟩ := List.getElem?_eq_some_iff.mp second
    rcases Nat.lt_trichotomy i j with below | rfl | above
    · exact absurd pt (apart i j hi hj below same ps)
    · rfl
    · exact absurd ps (apart j i hj hi above same.symm pt)
  · intro unique i j hi hj below same ps pt
    exact absurd (unique i j _ _ (List.getElem?_eq_getElem hi) (List.getElem?_eq_getElem hj) same ps pt)
      (Nat.ne_of_lt below)

/-- Every session of the second list comes from the one in its place in the first, of
its fingerprint, and has the one property only if that one has the other. -/
def Follows (P Q : Session → Prop) (before after : List Session) : Prop :=
  ∀ (n : ℕ) (t : Session), after[n]? = some t →
    ∃ s, before[n]? = some s ∧ t.fingerprint = s.fingerprint ∧ (Q t → P s)

theorem Distinct.follows {P Q : Session → Prop} {before after : List Session}
    (distinct : Distinct P before) (follows : Follows P Q before after) : Distinct Q after := by
  rw [distinct_iff] at distinct ⊢
  intro i j s t first second same qs qt
  obtain ⟨s', first', own, ps⟩ := follows i s first
  obtain ⟨t', second', other, pt⟩ := follows j t second
  exact distinct i j s' t' first' second' (own.symm.trans (same.trans other)) (ps qs) (pt qt)

theorem follows_set {P : Session → Prop} {l : List Session} {n : ℕ} {s t : Session}
    (present : l[n]? = some s) (same : t.fingerprint = s.fingerprint) (keeps : P t → P s) :
    Follows P P l (l.set n t) := by
  intro k u found
  rw [List.getElem?_set] at found
  split at found
  next equal =>
    subst equal
    split at found
    · obtain rfl : t = u := Option.some.inj found
      exact ⟨s, present, same, keeps⟩
    · exact nomatch found
  next => exact ⟨u, found, rfl, id⟩

/-- A session may have any property where no other of its fingerprint has it. -/
theorem distinct_set {P : Session → Prop} {l : List Session} {n : ℕ} {s t : Session}
    (distinct : Distinct P l) (present : l[n]? = some s) (same : t.fingerprint = s.fingerprint)
    (alone : ∀ u ∈ l.eraseIdx n, u.fingerprint = s.fingerprint → ¬ P u) :
    Distinct P (l.set n t) := by
  rw [distinct_iff] at distinct ⊢
  have other : ∀ (k : ℕ) (u : Session), (l.set n t)[k]? = some u → k ≠ n → l[k]? = some u := by
    intro k u found differs
    rwa [List.getElem?_set_ne differs.symm] at found
  have own : ∀ u, (l.set n t)[n]? = some u → u = t := by
    intro u found
    rw [List.getElem?_set_self (List.getElem?_eq_some_iff.mp present).1] at found
    exact (Option.some.inj found).symm
  have lonely : ∀ (k : ℕ) (u : Session), k ≠ n → l[k]? = some u →
      u.fingerprint = t.fingerprint → ¬ P u := by
    intro k u differs found equal
    exact alone u (List.mem_eraseIdx_iff_getElem?.mpr ⟨k, differs, found⟩) (equal.trans same)
  intro i j u v first second equal pu pv
  by_cases hi : i = n
  · by_cases hj : j = n
    · rw [hi, hj]
    · rw [hi] at first
      obtain rfl := own u first
      exact absurd pv (lonely j v hj (other j v second hj) equal.symm)
  · by_cases hj : j = n
    · rw [hj] at second
      obtain rfl := own v second
      exact absurd pu (lonely i u hi (other i u first hi) equal)
    · exact distinct i j u v (other i u first hi) (other j v second hj) equal pu pv

theorem distinct_append {P : Session → Prop} {l : List Session} {t : Session}
    (distinct : Distinct P l) (alone : ∀ s ∈ l, s.fingerprint = t.fingerprint → ¬ P s) :
    Distinct P (l ++ [t]) := by
  refine List.pairwise_append.mpr ⟨distinct, List.pairwise_singleton _ _, ?_⟩
  intro s inside u last same ps
  rw [List.mem_singleton.mp last] at same
  exact absurd ps (alone s inside same)

/-! Refreshes. -/

section Round
variable {f : Focus} {cfg : Config} {o : Outcome} {m : Moment}

theorem not_live_of_mem {s : SessionStatus} (ended : s.Passed ∨ s.TerminalFailed) : ¬ s.Live :=
  fun live => ended.elim live.1 live.2

theorem ended_of_not_live {s : SessionStatus} (dead : ¬ s.Live) : s.Passed ∨ s.TerminalFailed := by
  by_contra open_
  rw [not_or] at open_
  exact dead open_

variable (cfg) in
theorem apply_ends (now : ℕ) (result : QualityGateResult) (grant : Option String) :
    ¬ (f.applyRepairEnforcementResult cfg now result grant).session.Live := by
  rcases apply_settles cfg (f := f) now result grant with passed | ⟨_, _, status, _⟩
  · exact not_live_of_mem (.inl passed)
  · refine not_live_of_mem (.inr ?_)
    rw [status]
    decide

/-- The verdict on a session whose rerun has failed leaves it failed or passed. -/
theorem judgeCompleted_ends (failed : f.session.status = .rerunFailed ∨
    f.session.status = .rerunUnavailable) : ¬ (f.judgeCompleted cfg o m).2.session.Live := by
  have ended : ¬ f.session.Live := by
    refine not_live_of_mem (.inr ?_)
    rcases failed with status | status
    all_goals
      rw [status]
      decide
  have rerun : f.session.status.FailedRerun := by
    rcases failed with status | status
    all_goals
      rw [status]
      decide
  unfold Focus.judgeCompleted
  generalize (if cfg.handler then o.taskResult else Except.ok none) = answer
  rcases answer with e | _ | result
  · exact ended
  · dsimp only
    rw [if_pos rerun]
    exact ended
  · exact apply_ends cfg _ _ _

variable (cfg) in
/-- A round brings back only a session that wakes. -/
theorem refreshSession_wakes (live : (f.refreshSession cfg o m).2.session.Live) :
    Wakes f.tasks f.session := by
  by_contra asleep
  unfold Wakes at asleep
  rw [not_or] at asleep
  obtain ⟨dead, asleep⟩ := asleep
  have found : f.found cfg m = (none, f) := found_of_dead dead
  refine absurd live ?_
  cases attached : f.session.repoTaskId with
  | none =>
      rw [refreshSession_detached found attached]
      exact dead
  | some id =>
      have given_up : f.session.status = .repairFailed → ∃ t ∈ f.tasks[id]?, FailedRepo t := by
        intro status
        by_contra none_
        exact asleep ⟨id, attached, .inl ⟨status, fun t present failed => none_ ⟨t, present, failed⟩⟩⟩
      have uncreated : f.session.status = .repairTaskCreateFailed →
          ∃ t ∈ f.tasks[id]?, t ≠ .completed := by
        intro status
        by_contra none_
        refine asleep ⟨id, attached, .inr ⟨status, fun t present => ?_⟩⟩
        by_contra unfinished
        exact none_ ⟨t, present, unfinished⟩
      cases present : f.tasks[id]? with
      | none =>
          rw [refreshSession_lost found attached present]
          exact dead
      | some task =>
          rw [present] at given_up uncreated
          rw [refreshSession_attached found attached present]
          have fixed : f.revive task = f := by
            unfold Focus.revive
            refine if_neg fun ⟨status, open_⟩ => ?_
            obtain ⟨t, equal, failed⟩ := given_up status
            exact open_ (Option.some.inj equal ▸ failed)
          unfold Focus.followRepairTask
          dsimp only
          rw [fixed]
          split
          · exact dead
          next unpassed =>
            split
            · rw [Session.Live, report_status]
              exact not_live_of_mem (.inr (by decide : SessionStatus.repairFailed.TerminalFailed))
            next open_ =>
              split
              · exact dead
              next done =>
                have failed : f.session.status ∈ [SessionStatus.repairFailed, .rerunFailed,
                    .rerunUnavailable, .repairTaskCreateFailed] :=
                  (ended_of_not_live dead).resolve_left unpassed
                have not_given : f.session.status ≠ .repairFailed := by
                  intro status
                  obtain ⟨t, equal, failed⟩ := given_up status
                  exact open_ (Option.some.inj equal ▸ failed)
                have not_uncreated : f.session.status ≠ .repairTaskCreateFailed := by
                  intro status
                  obtain ⟨t, equal, unfinished⟩ := uncreated status
                  exact done (Option.some.inj equal ▸ unfinished)
                simp only [List.mem_cons, List.not_mem_nil, or_false, not_given, not_uncreated,
                  false_or] at failed
                exact judgeCompleted_ends failed

/-- A session has a thread only while it is to be given a repair task. -/
def Threads (cfg : Config) (s : Session) : Prop :=
  s.creating = true → cfg.asyncRepairTaskCreation = true ∧ s.repoTaskId = none ∧
    (s.status = .creatingRepairTask ∨ s.status = .retryRequested)

theorem threads_of_idle {s : Session} (idle : s.creating = false) : Threads cfg s := by
  intro creating
  rw [idle] at creating
  exact nomatch creating

theorem Threads.live {s : Session} (threads : Threads cfg s) (creating : s.creating = true) :
    s.Live := by
  unfold Session.Live
  rcases (threads creating).2.2 with status | status
  all_goals
    rw [status]
    decide

theorem ensure_threads (threads : Threads cfg f.session) :
    Threads cfg (f.ensureDeferredRepairTaskCreation cfg).session := by
  unfold Focus.ensureDeferredRepairTaskCreation
  split
  next due => exact fun _ => ⟨due.1, due.2.1, .inl due.2.2.2⟩
  next => exact threads

theorem materializeRetryRequest_threads (now : ℕ) (c : Creation) (threads : Threads cfg f.session) :
    Threads cfg (f.materializeRetryRequest cfg now c).2.session := by
  unfold Focus.materializeRetryRequest
  split
  · exact threads
  · split
    · exact threads
    · split
      next live =>
        refine threads_of_idle (Bool.eq_false_iff.mpr fun creating => ?_)
        rw [(threads creating).2.1] at live
        exact live
      next =>
        dsimp only
        split
        next async => exact fun _ => ⟨async, rfl, .inl rfl⟩
        next inline_ =>
          refine threads_of_idle ((createRepairTask_holding now c).creating.trans ?_)
          exact Bool.eq_false_iff.mpr fun creating => inline_ (threads creating).1

theorem refreshSession_threads (threads : Threads cfg f.session) :
    Threads cfg (f.refreshSession cfg o m).2.session := by
  have found : Threads cfg ((f.ensureDeferredRepairTaskCreation cfg).materializeRetryRequest cfg
      m.now m.creation).2.session := materializeRetryRequest_threads _ _ (ensure_threads threads)
  unfold Focus.refreshSession
  split
  next seen => rwa [seen] at found
  next g seen =>
    rw [seen] at found
    split
    · exact found
    next id attached =>
      split
      · exact found
      · refine threads_of_idle ((followRepairTask_holding _).creating.trans ?_)
        refine Bool.eq_false_iff.mpr fun creating => ?_
        have detached := (found creating).2.1
        dsimp only at detached
        rw [attached] at detached
        exact nomatch detached

end Round

section Refresh
variable {cfg : Config}

theorem Wakes.before {before after : List RepoStatus} {s : Session} (kept : TasksKept before after)
    (wakes : Wakes after s) : Wakes before s := by
  rcases wakes with live | ⟨id, attached, ⟨status, open_⟩ | ⟨status, done⟩⟩
  · exact .inl live
  · refine .inr ⟨id, attached, .inl ⟨status, fun t present => ?_⟩⟩
    obtain ⟨u, later, failed, _⟩ := kept id t present
    exact fun failing => open_ u later (failed.mpr failing)
  · refine .inr ⟨id, attached, .inr ⟨status, fun t present => ?_⟩⟩
    obtain ⟨u, later, _, completed⟩ := kept id t present
    exact completed.mp (done u later)

theorem rounds_follow (l : List Session) (o : ℕ → Outcome) (m : ℕ → Moment) (sh : Shared) :
    Follows (Wakes sh.tasks) Session.Live l (refreshRepairSessions cfg o m l sh).2.1 := by
  induction l generalizing o m sh with
  | nil => exact fun n t found => nomatch found
  | cons s rest ih =>
      have wakes := refreshSession_wakes cfg (f := ⟨sh, s⟩) (o := o 0) (m := m 0)
      have kept : Keeping ⟨sh, s⟩ (Focus.refreshSession ⟨sh, s⟩ cfg (o 0) (m 0)).2 :=
        refreshSession_keeping
      unfold refreshRepairSessions
      generalize Focus.refreshSession ⟨sh, s⟩ cfg (o 0) (m 0) = round at wakes kept ⊢
      obtain ⟨_ | e, f⟩ := round
      · intro n t found
        cases n with
        | zero =>
            obtain rfl : f.session = t := Option.some.inj found
            exact ⟨s, rfl, kept.fingerprint, wakes⟩
        | succ n =>
            obtain ⟨u, present, same, later⟩ := ih (o ∘ Nat.succ) (m ∘ Nat.succ) f.toShared n t found
            exact ⟨u, present, same, fun live => (later live).before kept.tasks⟩
      · intro n t found
        cases n with
        | zero =>
            obtain rfl : f.session = t := Option.some.inj found
            exact ⟨s, rfl, kept.fingerprint, wakes⟩
        | succ n => exact ⟨t, found, rfl, .inl⟩

theorem rounds_length (l : List Session) (o : ℕ → Outcome) (m : ℕ → Moment) (sh : Shared) :
    (refreshRepairSessions cfg o m l sh).2.1.length = l.length := by
  induction l generalizing o m sh with
  | nil => rfl
  | cons s rest ih =>
      unfold refreshRepairSessions
      generalize Focus.refreshSession ⟨sh, s⟩ cfg (o 0) (m 0) = round
      obtain ⟨_ | e, f⟩ := round
      · exact congrArg (· + 1) (ih _ _ _)
      · rfl

theorem rounds_threads (l : List Session) (o : ℕ → Outcome) (m : ℕ → Moment) (sh : Shared)
    (threads : ∀ s ∈ l, Threads cfg s) :
    ∀ s ∈ (refreshRepairSessions cfg o m l sh).2.1, Threads cfg s := by
  induction l generalizing o m sh with
  | nil => exact threads
  | cons s rest ih =>
      have first := refreshSession_threads (f := ⟨sh, s⟩) (o := o 0) (m := m 0)
        (threads s List.mem_cons_self)
      have others : ∀ t ∈ rest, Threads cfg t :=
        fun t inside => threads t (List.mem_cons_of_mem s inside)
      unfold refreshRepairSessions
      generalize Focus.refreshSession ⟨sh, s⟩ cfg (o 0) (m 0) = round at first ⊢
      obtain ⟨_ | e, f⟩ := round
      · exact List.forall_mem_cons.mpr ⟨first, ih _ _ _ others⟩
      · exact List.forall_mem_cons.mpr ⟨first, others⟩

end Refresh

/-! Steps. -/

/-- What holds of the sessions throughout. -/
structure Sound (cfg : Config) (l : List Session) : Prop where
  distinct : Distinct Session.Live l
  threads : ∀ s ∈ l, Threads cfg s

section Steps
variable {cfg : Config} {st : State}

theorem refresh_sound (o : ℕ → Outcome) (m : ℕ → Moment) (sound : Sound cfg st.sessions)
    (distinct : Distinct (Wakes st.tasks) st.sessions) :
    Sound cfg (st.refresh cfg o m).2.sessions := by
  by_cases manager : cfg.taskManager = true
  · rw [refresh_of_manager manager]
    exact ⟨distinct.follows (rounds_follow _ _ _ _), rounds_threads _ _ _ _ sound.threads⟩
  · rw [State.refresh, if_pos manager]
    exact sound

variable (cfg st) in
theorem refresh_length (o : ℕ → Outcome) (m : ℕ → Moment) :
    (st.refresh cfg o m).2.sessions.length = st.sessions.length := by
  by_cases manager : cfg.taskManager = true
  · rw [refresh_of_manager manager]
    exact rounds_length ..
  · rw [State.refresh, if_pos manager]

variable (cfg st) in
/-- The sessions after a session has been opened: as they were, or with a new one. -/
theorem openSession_sessions (now : ℕ) (c : Creation) (fingerprint : Fingerprint) :
    (st.openSession cfg now c fingerprint).2.sessions = st.sessions ∨
      ∃ s, (st.openSession cfg now c fingerprint).2.sessions = st.sessions ++ [s] ∧
        s.fingerprint = some fingerprint ∧ Threads cfg s := by
  have stored : ∀ f : Focus,
      (st.sessions ++ [({ status := .created, fingerprint := some fingerprint } : Session)]).set
        st.sessions.length f.session = st.sessions ++ [f.session] := by
    intro f
    rw [List.set_append_right _ _ le_rfl, Nat.sub_self]
    rfl
  unfold State.openSession
  dsimp only
  split
  · exact .inr ⟨_, rfl, rfl, threads_of_idle rfl⟩
  · split
    next async =>
      exact .inr ⟨_, stored _, rfl, fun _ => ⟨async, rfl, .inl rfl⟩⟩
    next inline_ =>
      have holding : Holding ⟨st.toShared, { status := .created, fingerprint := some fingerprint }⟩
          (Focus.createRepairTask ⟨st.toShared, { status := .created, fingerprint := some fingerprint }⟩
            cfg now c).2 := createRepairTask_holding now c
      split
      next f made =>
        rw [made] at holding
        exact .inr ⟨_, stored f, holding.fingerprint, threads_of_idle holding.creating⟩
      next => exact .inl rfl
      next f made =>
        rw [made] at holding
        exact .inr ⟨_, stored f, holding.fingerprint, threads_of_idle holding.creating⟩

theorem openSession_sound (now : ℕ) (c : Creation) {fingerprint : Fingerprint}
    (sound : Sound cfg st.sessions)
    (alone : ∀ s ∈ st.sessions, s.fingerprint = some fingerprint → ¬ s.Live) :
    Sound cfg (st.openSession cfg now c fingerprint).2.sessions := by
  rcases openSession_sessions cfg st now c fingerprint with
    same | ⟨s, more, own, threads⟩
  · rw [same]
    exact sound
  · rw [more]
    refine ⟨distinct_append sound.distinct (own ▸ alone), fun t inside => ?_⟩
    rcases List.mem_append.mp inside with old | new
    · exact sound.threads t old
    · rw [List.mem_singleton.mp new]
      exact threads

theorem createSession_sound (now : ℕ) (invalid : Option Raised) (c : Creation)
    {fingerprint : Fingerprint} (sound : Sound cfg st.sessions)
    (alone : ∀ s ∈ st.sessions, s.fingerprint = some fingerprint → ¬ s.Live) :
    Sound cfg (st.createSession cfg fingerprint now invalid c).2.sessions := by
  unfold State.createSession
  split
  · exact sound
  · split
    · exact sound
    · exact sound
    · exact openSession_sound now c sound alone

theorem cancel_sessions (s : Session) :
    (st.cancelTerminalFailedLiveTask cfg s).sessions = st.sessions := by
  unfold State.cancelTerminalFailedLiveTask
  split
  · rfl
  · split <;> rfl

theorem absent_of_not_found {fingerprint : Fingerprint}
    (absent : st.findSessionByFingerprint fingerprint = none) :
    ∀ s ∈ st.sessions, s.fingerprint ≠ some fingerprint := by
  intro s inside same
  have other := List.findIdx?_eq_none_iff.mp absent s inside
  exact of_decide_eq_false other same

theorem fingerprint_of_found {fingerprint : Fingerprint} {n : ℕ}
    (found : st.findSessionByFingerprint fingerprint = some n) :
    ∃ first, st.sessions[n]? = some first ∧ first.fingerprint = some fingerprint := by
  obtain ⟨inside, same, _⟩ := List.findIdx?_eq_some_iff_getElem.mp found
  exact ⟨_, List.getElem?_eq_getElem inside, of_decide_eq_true same⟩

theorem admitRequest_sound (targetIds : List String) (now : ℕ) (invalid : Option Raised)
    (c : Creation) (sound : Sound cfg st.sessions)
    (represents : Represents st (State.repairFingerprint st.record targetIds)) :
    Sound cfg (st.admitRequest cfg targetIds now invalid c).2.sessions := by
  unfold State.admitRequest
  dsimp only
  cases found : st.findSessionByFingerprint (State.repairFingerprint st.record targetIds) with
  | none =>
      exact createSession_sound now invalid c sound fun s inside same =>
        absurd same (absent_of_not_found found s inside)
  | some n =>
      obtain ⟨first, present, _⟩ := fingerprint_of_found found
      dsimp only
      rw [present]
      dsimp only
      split
      next failed =>
        refine createSession_sound now invalid c ?_ ?_
        · rwa [cancel_sessions]
        · rw [cancel_sessions]
          intro s inside same live
          have alive := (represents n found first present s inside same).1 live
          exact alive.2 failed
      next => exact sound

/-- The session that is found stands for the live and the passed ones. -/
theorem admitRequest_returned (targetIds : List String) (now : ℕ) (invalid : Option Raised)
    (c : Creation) {P : Session → Prop} (unfailed : ∀ s, P s → ¬ s.status.TerminalFailed)
    (represented : ∀ n ∈ st.findSessionByFingerprint (State.repairFingerprint st.record targetIds),
      ∀ first ∈ st.sessions[n]?, ∀ s ∈ st.sessions,
        s.fingerprint = some (State.repairFingerprint st.record targetIds) → P s → P first) :
    Returned P (State.repairFingerprint st.record targetIds) st
      (st.admitRequest cfg targetIds now invalid c) := by
  rintro ⟨s, inside, same, holds⟩
  unfold State.admitRequest
  dsimp only
  cases found : st.findSessionByFingerprint (State.repairFingerprint st.record targetIds) with
  | none => exact absurd same (absent_of_not_found found s inside)
  | some n =>
      obtain ⟨first, present, own⟩ := fingerprint_of_found found
      have given := represented n found first present s inside same holds
      refine ⟨n, first, present, own, given, ?_⟩
      dsimp only
      rw [present]
      dsimp only
      rw [if_neg (unfailed first given)]

theorem createFixSession_sound (targetIds : List String) (o : ℕ → Outcome) (m : ℕ → Moment)
    (now : ℕ) (invalid : Option Raised) (c : Creation) (sound : Sound cfg st.sessions)
    (orderly : Orderly cfg st (.request targetIds o m now invalid c)) :
    Sound cfg (st.createFixSession cfg targetIds o m now invalid c).2.sessions := by
  unfold State.createFixSession
  split
  · exact sound
  next admitted =>
    obtain ⟨distinct, represents⟩ := orderly (not_not.mp admitted)
    have refreshed := refresh_sound o m sound distinct
    generalize st.refresh cfg o m = after at refreshed represents
    obtain ⟨_ | e, after⟩ := after
    · exact admitRequest_sound targetIds now invalid c refreshed (represents rfl)
    · exact refreshed

/-- A request gets the session that stands for its fingerprint, or opens none. -/
theorem request_answers (targetIds : List String) (o : ℕ → Outcome) (m : ℕ → Moment) (now : ℕ)
    (invalid : Option Raised) (c : Creation)
    (orderly : Orderly cfg st (.request targetIds o m now invalid c)) :
    Answers cfg st (.request targetIds o m now invalid c) := by
  unfold Answers
  dsimp only
  have length := refresh_length cfg st o m
  unfold State.createFixSession
  by_cases admitted : State.CanCreateFixSession st.record
  · rw [if_neg (not_not_intro admitted)]
    obtain ⟨_, represents⟩ := orderly admitted
    generalize st.refresh cfg o m = after at represents length ⊢
    obtain ⟨_ | e, after⟩ := after
    · rw [if_pos ⟨admitted, rfl⟩]
      have represents := represents rfl
      constructor
      · exact admitRequest_returned targetIds now invalid c (fun s live => live.2)
          fun n found first present s inside same =>
            (represents n found first present s inside same).1
      · refine admitRequest_returned targetIds now invalid c (fun s passed failed => ?_)
          fun n found first present s inside same =>
            (represents n found first present s inside same).2
        unfold Session.Passed at passed
        revert passed failed
        cases s.status <;> decide
    · rw [if_neg fun both => nomatch both.2]
      exact ⟨length, fun n => nofun⟩
  · rw [if_pos admitted, if_neg fun both => admitted both.1]
    exact ⟨rfl, fun n => nofun⟩

theorem threads_set {l : List Session} {n : ℕ} {t : Session} (others : ∀ s ∈ l, Threads cfg s)
    (own : Threads cfg t) : ∀ s ∈ l.set n t, Threads cfg s := by
  intro s inside
  rcases List.mem_or_eq_of_mem_set inside with old | rfl
  · exact others s old
  · exact own

theorem retrySession_sound (n now : ℕ) (c : Creation) (sound : Sound cfg st.sessions)
    (orderly : Orderly cfg st (.retry n now c)) :
    Sound cfg (st.retrySession cfg n now c).sessions := by
  unfold State.retrySession
  cases present : st.sessions[n]? with
  | none => exact sound
  | some s =>
      have keeping : Keeping ⟨st.toShared, { s with status := .retryRequested }⟩
          (Focus.materializeRetryRequest ⟨st.toShared, { s with status := .retryRequested }⟩ cfg
            now c).2 := materializeRetryRequest_keeping now c
      have own := sound.threads s (List.mem_of_getElem? present)
      refine ⟨distinct_set sound.distinct present keeping.fingerprint (orderly s present), ?_⟩
      refine threads_set sound.threads (materializeRetryRequest_threads now c fun creating => ?_)
      exact ⟨(own creating).1, (own creating).2.1, .inr rfl⟩

theorem runDeferred_sound (n now : ℕ) (c : Creation) (sound : Sound cfg st.sessions) :
    Sound cfg (st.runDeferredRepairTaskCreation cfg n now c).sessions := by
  unfold State.runDeferredRepairTaskCreation
  cases present : st.sessions[n]? with
  | none => exact sound
  | some s =>
      dsimp only
      split
      · exact sound
      next threaded =>
        have live := (sound.threads s (List.mem_of_getElem? present)).live (not_not.mp threaded)
        have stored : ∀ t : Session, t.fingerprint = s.fingerprint → t.creating = false →
            Sound cfg (st.sessions.set n t) := fun t same idle =>
          ⟨sound.distinct.follows (follows_set present same fun _ => live),
            threads_set sound.threads (threads_of_idle idle)⟩
        split
        · exact stored _ rfl rfl
        · have holding : Holding
              (Focus.markRepairTaskCreationStarted ⟨st.toShared, { s with creating := false }⟩)
              (Focus.createRepairTask (Focus.markRepairTaskCreationStarted
                ⟨st.toShared, { s with creating := false }⟩) cfg now c).2 :=
            createRepairTask_holding now c
          split
          next f made =>
            rw [made] at holding
            exact stored _ holding.fingerprint holding.creating
          next f made =>
            rw [made] at holding
            exact stored _ holding.fingerprint holding.creating

/-- An orderly step keeps the live sessions distinct. -/
theorem step_sound (step : Step) (sound : Sound cfg st.sessions) (orderly : Orderly cfg st step) :
    Sound cfg (st.step cfg step).sessions := by
  cases step with
  | request targetIds o m now invalid c => exact createFixSession_sound _ _ _ _ _ _ sound orderly
  | retry n now c => exact retrySession_sound n now c sound orderly
  | refresh o m => exact refresh_sound o m sound orderly
  | create n now c => exact runDeferred_sound n now c sound
  | task id status => exact sound

theorem step_answers (step : Step) (orderly : Orderly cfg st step) : Answers cfg st step := by
  cases step with
  | request targetIds o m now invalid c => exact request_answers _ _ _ _ _ _ orderly
  | _ => trivial

end Steps

/-! Runs. -/

/-- A failed record with a checkout. -/
def reported : Record := { status := .failed, workspacePath := some "checkout" }

/-- A session whose repair task fails, and the one that takes its place. -/
def replaced : List Step :=
  [.request ["a"] (fun _ => {}) (fun _ => {}) 0 none {}, .create 0 1 {}, .task 0 .failed,
    .request ["a"] (fun _ => {}) (fun _ => {}) 2 none {}, .create 1 3 {}]

end Uta.Repair
