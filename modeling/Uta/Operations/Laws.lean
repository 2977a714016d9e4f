/- The laws of the operation ledger: they hold after any sequence of calls on an
empty ledger, calls that raise included. -/
import Uta.Operations.Effects
import Uta.Lib.Run

namespace Uta.Operations
open Uta.Lib

/-- One call at one clock reading. A raise is an answer; the run goes on. -/
def ledgerStep (L : Ledger) (c : String × Call) : Ledger := Act.after (c.2.exec c.1) L

/-! What every run keeps. -/

theorem ledgerRun_extends (L : Ledger) (calls : List (String × Call)) :
    Book.Extends (· = "") (pages L) (pages (run ledgerStep L calls)) := by
  apply run_grows ledgerStep (R := fun L L' => Book.Extends (· = "") (pages L) (pages L'))
  · intro L
    exact Book.Extends.refl (pages L)
  · intro L L' L'' first second
    exact first.trans second
  · intro L c
    exact (c.2.effect c.1 L).step.extends

theorem ledgerRun_sound (repoTasks : List Int) (calls : List (String × Call)) :
    Book.Sound Retryable (pages (run ledgerStep (.fresh repoTasks) calls)) := by
  apply run_invariant ledgerStep (P := fun L => Book.Sound Retryable (pages L))
  · intro L c sound
    exact (c.2.effect c.1 L).step.sound sound
  · exact Book.sound_empty

theorem ledgerRun_openBlank (repoTasks : List Int) (calls : List (String × Call)) :
    OpenBlank (run ledgerStep (.fresh repoTasks) calls) := by
  apply run_invariant ledgerStep
  · intro L c blank
    exact (c.2.effect c.1 L).openBlank blank
  · intro k r found
    cases found

/-- A closed row keeps its status and evidence. -/
theorem evidence_of_extends {L L' : Ledger} {k : String} {r : OperationRow}
    (extends_ : Book.Extends (· = "") (pages L) (pages L'))
    (found : L.operations.find? k = some r) (terminal : r.status.Terminal) :
    ∃ s, L'.operations.find? k = some s ∧ s.evidence = r.evidence := by
  obtain ⟨f, hf, _, verdict, _⟩ := extends_ k r.entry (pages_some.mpr ⟨r, found, rfl⟩)
  obtain ⟨s, found', rfl⟩ := pages_some.mp hf
  have closed := verdict r.evidence (verdict_some.mpr ⟨terminal, rfl⟩)
  exact ⟨s, found', (verdict_some.mp closed).2⟩

/-! Closing calls and their repetition. -/

/-- The row a complete, fail or cancel is about. -/
def Call.target : Call → Option String
  | .complete k _ | .fail k _ _ | .cancel k _ => some k
  | .start .. | .retry .. | .cost .. => none

/-- The row holds what the closing call would record. -/
def Call.Recorded (r : OperationRow) : Call → Prop
  | .complete _ e => r.status = .completed ∧ e.Matches r ∧
      (e.sessionId ≠ none → r.sessionId = e.sessionId)
  | .fail _ errorKind error => r.status = .failed ∧ FinishArgs.Matches { errorKind, error } r
  | .cancel _ e => r.status = .cancelled ∧ e.Matches r
  | .start .. | .retry .. | .cost .. => False

theorem Call.Recorded.congr {c : Call} {r s : OperationRow} (h : c.Recorded r)
    (same : s.evidence = r.evidence) : c.Recorded s := by
  simp only [OperationRow.evidence, Verdict.mk.injEq] at same
  obtain ⟨status, workspace, path, sha, outputs, session, _, kind, error⟩ := same
  cases c with
  | complete k e =>
      simpa only [Recorded, CompleteArgs.Matches, status, workspace, path, sha, outputs, session] using h
  | fail k errorKind error' =>
      simpa only [Recorded, FinishArgs.Matches, status, workspace, path, sha, outputs, session,
        kind, error] using h
  | cancel k e =>
      simpa only [Recorded, FinishArgs.Matches, status, workspace, path, sha, outputs, session,
        kind, error] using h
  | start | retry | cost => exact h.elim

theorem Call.Recorded.terminal {c : Call} {r : OperationRow} (h : c.Recorded r) :
    r.status.Terminal := by
  cases c with
  | complete | fail | cancel => rw [h.1]; decide
  | start | retry | cost => exact h.elim

theorem completedRow_recorded {now k : String} {e : CompleteArgs} {r : OperationRow}
    (started : r.status = .started) : (Call.complete k e).Recorded (completedRow now e r) := by
  refine ⟨?_, ?_, ?_⟩
  · simp [completedRow, started]
  · simp [CompleteArgs.Matches, completedRow, started]
  · intro session
    obtain ⟨given, hs⟩ := Option.ne_none_iff_exists'.mp session
    simp [completedRow, started, hs]

/-- An open row is blank, so COALESCE leaves exactly what the call brought. -/
theorem finishedRow_matches {now : String} {status : Status} {e : FinishArgs} {r : OperationRow}
    (started : r.status = .started) (blank : r.resultingWorkspaceFingerprint = none ∧
      r.resultArtifactPath = none ∧ r.resultArtifactSha256 = none) :
    e.Matches (finishedRow now status e r) := by
  obtain ⟨workspace, path, sha⟩ := blank
  refine ⟨?_, ?_, ?_, ?_, ?_, ?_, ?_⟩
  · simp [finishedRow, started]
  · simp [finishedRow, started]
  · simp [finishedRow, started, workspace]
  · simp [finishedRow, started, path]
  · simp [finishedRow, started, sha]
  · intro outputs
    obtain ⟨given, ho⟩ := Option.ne_none_iff_exists'.mp outputs
    simp [finishedRow, started, ho]
  · intro session
    obtain ⟨given, hs⟩ := Option.ne_none_iff_exists'.mp session
    simp [finishedRow, started, hs]

theorem completeWorkflowOperation_replay {L : Ledger} {now k : String} {e : CompleteArgs}
    {r : OperationRow} (found : L.operations.find? k = some r)
    (recorded : (Call.complete k e).Recorded r) :
    completeWorkflowOperation now k e L = (.ok r, L) := by
  obtain ⟨done, same, session⟩ := recorded
  unfold completeWorkflowOperation
  rw [Act.transaction_ok, Act.bind_ok]
  refine ⟨r, L, requireWorkflowOperation_ok.mpr ⟨found, rfl⟩, ?_⟩
  rw [if_pos done, if_pos same, if_neg (fun h => h.2 (session h.1))]
  rfl

theorem finishWorkflowOperation_replay {L : Ledger} {now k : String} {status : Status}
    {e : FinishArgs} {r : OperationRow} (found : L.operations.find? k = some r)
    (done : r.status = status) (same : e.Matches r) :
    finishWorkflowOperation now k status e L = (.ok r, L) := by
  unfold finishWorkflowOperation
  rw [Act.transaction_ok, Act.bind_ok]
  refine ⟨r, L, requireWorkflowOperation_ok.mpr ⟨found, rfl⟩, ?_⟩
  rw [if_pos done, if_pos same]
  rfl

theorem completeWorkflowOperation_started {L : Ledger} {now k : String} {e : CompleteArgs}
    {r : OperationRow} (found : L.operations.find? k = some r) (started : r.status = .started) :
    ¬ Act.Raises (completeWorkflowOperation now k e) L := by
  have returns : completeWorkflowOperation now k e L = (.ok (completedRow now e r),
      L.update k (completedRow now e) (completedRow_operationId now e)) := by
    unfold completeWorkflowOperation
    rw [Act.transaction_ok, Act.bind_ok]
    refine ⟨r, L, requireWorkflowOperation_ok.mpr ⟨found, rfl⟩, ?_⟩
    rw [if_neg (by rw [started]; decide), if_neg (not_not.mpr started), Act.bind_ok]
    refine ⟨(), _, rfl, requireWorkflowOperation_ok.mpr ⟨?_, rfl⟩⟩
    rw [Ledger.find?_update, if_pos rfl, found, Option.map_some]
  exact Act.not_raises_of_ok returns

theorem finishWorkflowOperation_started {L : Ledger} {now k : String} {status : Status}
    {e : FinishArgs} {r : OperationRow} (terminal : status.Terminal)
    (found : L.operations.find? k = some r) (started : r.status = .started) :
    ¬ Act.Raises (finishWorkflowOperation now k status e) L := by
  have returns : finishWorkflowOperation now k status e L = (.ok (finishedRow now status e r),
      L.update k (finishedRow now status e) (finishedRow_operationId now status e)) := by
    unfold finishWorkflowOperation
    rw [Act.transaction_ok, Act.bind_ok]
    refine ⟨r, L, requireWorkflowOperation_ok.mpr ⟨found, rfl⟩, ?_⟩
    have open_ : r.status ≠ status := fun h => terminal (h.symm.trans started)
    rw [if_neg open_, if_neg (not_not.mpr started), Act.bind_ok]
    refine ⟨(), _, rfl, requireWorkflowOperation_ok.mpr ⟨?_, rfl⟩⟩
    rw [Ledger.find?_update, if_pos rfl, found, Option.map_some]
  exact Act.not_raises_of_ok returns

/-- A closing call that returns has found its row open and recorded what it
brought, or has found that on record. -/
theorem closing_ok {c : Call} {now k : String} {L L' : Ledger} {u : Unit} (target : c.target = some k)
    (blank : OpenBlank L) (h : c.exec now L = (.ok u, L')) :
    ∃ r s, L.operations.find? k = some r ∧ L'.operations.find? k = some s ∧ c.Recorded s ∧
      (L' = L ∨ r.status = .started) := by
  cases c with
  | complete j e =>
      cases target
      obtain ⟨row, h⟩ := Act.discard_ok.mp h
      obtain ⟨r, found, ⟨done, same, session, _, rfl⟩ | ⟨started, _, rfl⟩⟩ :=
        completeWorkflowOperation_ok h
      · exact ⟨r, r, found, found, ⟨done, same, session⟩, .inl rfl⟩
      · refine ⟨r, completedRow now e r, found, ?_, completedRow_recorded started, .inr started⟩
        rw [Ledger.find?_update, if_pos rfl, found, Option.map_some]
  | fail j errorKind error =>
      cases target
      obtain ⟨row, h⟩ := Act.discard_ok.mp h
      obtain ⟨r, found, ⟨done, same, _, rfl⟩ | ⟨started, _, rfl⟩⟩ := finishWorkflowOperation_ok h
      · exact ⟨r, r, found, found, ⟨done, same⟩, .inl rfl⟩
      · refine ⟨r, finishedRow now .failed { errorKind, error } r, found, ?_,
          ⟨?_, finishedRow_matches started (blank _ r found started)⟩, .inr started⟩
        · rw [Ledger.find?_update, if_pos rfl, found, Option.map_some]
        · simp [finishedRow, started]
  | cancel j e =>
      cases target
      obtain ⟨row, h⟩ := Act.discard_ok.mp h
      obtain ⟨r, found, ⟨done, same, _, rfl⟩ | ⟨started, _, rfl⟩⟩ := finishWorkflowOperation_ok h
      · exact ⟨r, r, found, found, ⟨done, same⟩, .inl rfl⟩
      · refine ⟨r, finishedRow now .cancelled e r, found, ?_,
          ⟨?_, finishedRow_matches started (blank _ r found started)⟩, .inr started⟩
        · rw [Ledger.find?_update, if_pos rfl, found, Option.map_some]
        · simp [finishedRow, started]
  | start | retry | cost => cases target

theorem closing_replay {c : Call} {now k : String} {L : Ledger} {r : OperationRow}
    (target : c.target = some k) (found : L.operations.find? k = some r) (recorded : c.Recorded r) :
    c.exec now L = (.ok (), L) := by
  cases c with
  | complete j e =>
      cases target
      exact Act.discard_ok.mpr ⟨r, completeWorkflowOperation_replay found recorded⟩
  | fail j errorKind error =>
      cases target
      exact Act.discard_ok.mpr ⟨r, finishWorkflowOperation_replay found recorded.1 recorded.2⟩
  | cancel j e =>
      cases target
      exact Act.discard_ok.mpr ⟨r, finishWorkflowOperation_replay found recorded.1 recorded.2⟩
  | start | retry | cost => cases target

theorem closing_started {c : Call} {now k : String} {L : Ledger} {r : OperationRow}
    (target : c.target = some k) (found : L.operations.find? k = some r)
    (started : r.status = .started) : ¬ Act.Raises (c.exec now) L := by
  intro raises
  cases c with
  | complete j e =>
      cases target
      exact completeWorkflowOperation_started found started (Act.discard_raises.mp raises)
  | fail j errorKind error =>
      cases target
      exact finishWorkflowOperation_started (by decide) found started (Act.discard_raises.mp raises)
  | cancel j e =>
      cases target
      exact finishWorkflowOperation_started (by decide) found started (Act.discard_raises.mp raises)
  | start | retry | cost => cases target

/-- Once it has returned, a closing call only replays, however late it is repeated. -/
theorem closing_repeat_late {c : Call} {now again k : String} {L : Ledger}
    (target : c.target = some k) (blank : OpenBlank L) (returned : ¬ Act.Raises (c.exec now) L)
    (later : List (String × Call)) :
    c.exec again (run ledgerStep (ledgerStep L (now, c)) later) =
      (.ok (), run ledgerStep (ledgerStep L (now, c)) later) := by
  obtain ⟨u, h⟩ := Act.returns_of_not_raises returned
  obtain ⟨r, s, _, found, recorded, _⟩ := closing_ok target blank h
  obtain ⟨t, found', same⟩ := evidence_of_extends (ledgerRun_extends _ later) found recorded.terminal
  exact closing_replay target found' (recorded.congr same)

/-- Repeating a closing call leaves the ledger as the first call left it. -/
theorem closing_repeat {c : Call} {now again k : String} {L : Ledger} (target : c.target = some k)
    (blank : OpenBlank L) :
    ledgerStep (ledgerStep L (now, c)) (again, c) = ledgerStep L (now, c) := by
  by_cases raises : Act.Raises (c.exec now) L
  · have unchanged : ledgerStep L (now, c) = L := c.raise_unchanged raises
    rw [unchanged]
    by_cases raises' : Act.Raises (c.exec again) L
    · exact c.raise_unchanged raises'
    · obtain ⟨u, h⟩ := Act.returns_of_not_raises raises'
      obtain ⟨r, _, found, _, _, same | started⟩ := closing_ok target blank h
      · exact same
      · exact absurd raises (closing_started target found started)
  · have replay : c.exec again (ledgerStep L (now, c)) = (.ok (), ledgerStep L (now, c)) :=
      closing_repeat_late target blank raises []
    have snd := congrArg Prod.snd replay
    exact snd

/-! The laws. -/

structure Lawful (L : Ledger) : Prop where
  /-- A closed row keeps its status and its evidence through any further calls. -/
  frozen : ∀ k r later, L.operations.find? k = some r → r.status.Terminal →
    ∃ s, (run ledgerStep L later).operations.find? k = some s ∧ s.evidence = r.evidence
  /-- A superseded execution cannot be completed any more. -/
  late_completion : ∀ now k e r, L.operations.find? k = some r → r.supersededByOperationId ≠ none →
    Act.Raises (completeWorkflowOperation now k e) L
  /-- A call keeps every row, and a status it changes goes from STARTED to a terminal one. -/
  status_change : ∀ c k r, L.operations.find? k = some r →
    ∃ s, (ledgerStep L c).operations.find? k = some s ∧
      (s.status ≠ r.status → r.status = .started ∧ s.status.Terminal)
  /-- A successor is never replaced by another one. -/
  one_successor : ∀ k r s later, L.operations.find? k = some r →
    r.supersededByOperationId = some s → s ≠ "" →
    ∃ t, (run ledgerStep L later).operations.find? k = some t ∧ t.supersededByOperationId = some s
  /-- No two rows have the same successor. -/
  one_predecessor : ∀ j k q r s, L.operations.find? j = some q → L.operations.find? k = some r →
    q.supersededByOperationId = some s → r.supersededByOperationId = some s → j = k
  /-- A call that raises changes nothing. -/
  raise_unchanged : ∀ now c, Act.Raises (Call.exec now c) L → ledgerStep L (now, c) = L
  /-- A complete, fail or cancel repeated at once changes nothing. -/
  repeat_unchanged : ∀ now again c, Call.target c ≠ none →
    ledgerStep (ledgerStep L (now, c)) (again, c) = ledgerStep L (now, c)
  /-- One that returned returns again at any later time, and changes nothing. -/
  repeat_late : ∀ now again c later, Call.target c ≠ none → ¬ Act.Raises (Call.exec now c) L →
    c.exec again (run ledgerStep (ledgerStep L (now, c)) later) =
      (.ok (), run ledgerStep (ledgerStep L (now, c)) later)

theorem completeWorkflowOperation_superseded {L : Ledger} {now k : String} {e : CompleteArgs}
    {r : OperationRow} (sound : Book.Sound Retryable (pages L))
    (found : L.operations.find? k = some r) (linked : r.supersededByOperationId ≠ none) :
    Act.Raises (completeWorkflowOperation now k e) L := by
  by_contra returned
  obtain ⟨s, successor⟩ := Option.ne_none_iff_exists'.mp linked
  obtain ⟨v, verdict, retryable⟩ := sound.closed k r.entry s (pages_some.mpr ⟨r, found, rfl⟩) successor
  obtain ⟨terminal, rfl⟩ := verdict_some.mp verdict
  obtain ⟨row, h⟩ := Act.returns_of_not_raises returned
  obtain ⟨t, found', closed⟩ := completeWorkflowOperation_ok h
  obtain rfl : r = t := Option.some.inj (found.symm.trans found')
  rcases closed with ⟨done, _⟩ | ⟨started, _⟩
  · rcases retryable with failed | cancelled
    · exact absurd (done.symm.trans failed) (by decide)
    · exact absurd (done.symm.trans cancelled) (by decide)
  · exact terminal started

theorem ledgerStep_status {L : Ledger} {k : String} {r : OperationRow} (c : String × Call)
    (found : L.operations.find? k = some r) :
    ∃ s, (ledgerStep L c).operations.find? k = some s ∧
      (s.status ≠ r.status → r.status = .started ∧ s.status.Terminal) := by
  have grown := (c.2.effect c.1 L).step.extends
  obtain ⟨f, hf, _, verdict, _⟩ := grown k r.entry (pages_some.mpr ⟨r, found, rfl⟩)
  obtain ⟨s, found', rfl⟩ := pages_some.mp hf
  refine ⟨s, found', fun changed => ?_⟩
  by_cases started : r.status = .started
  · exact ⟨started, fun h => changed (h.trans started.symm)⟩
  · have same := (verdict_some.mp (verdict r.evidence (verdict_some.mpr ⟨started, rfl⟩))).2
    exact absurd (congrArg Verdict.status same) changed

end Uta.Operations
