/- Starting an operation again: what of its row later calls can write, and when the same start is
still accepted. -/
import Uta.Operations.CostGate

namespace Uta.Operations
open Uta.Lib

/-- The call writes the row of an operation that starts with these arguments. -/
def Call.Opens (c : Call) (a : StartArgs) (sessionId : Option String) : Prop :=
  c = .start a sessionId ∨ sessionId = none ∧ ∃ old errorKind, c = .retry old a errorKind

/-- The same start returns the row that is there, and changes nothing. -/
def Restarts (a : StartArgs) (sessionId : Option String) (L : Ledger) : Prop :=
  ∃ r, L.operations.find? a.operationId = some r ∧
    ∀ now, startWorkflowOperation now a sessionId L = (.ok r, L)

/-- The session that a call reports for an operation. -/
def Call.session (k : String) : Call → Option String
  | .complete j e => if j = k then e.sessionId else none
  | .cancel j e => if j = k then e.sessionId else none
  | _ => none

/-- A call that closes the operation under another session. -/
def Reassigns (k : String) (sessionId : Option String) (L : Ledger) (c : Call) : Prop :=
  ∃ r x, L.operations.find? k = some r ∧ r.status = .started ∧ c.session k = some x ∧
    some x ≠ sessionId

theorem restarts_iff_matches {a : StartArgs} {sessionId : Option String} {L : Ledger} :
    Restarts a sessionId L ↔
      ∃ r, L.operations.find? a.operationId = some r ∧ a.Matches sessionId r := by
  constructor
  · rintro ⟨r, found, returns⟩
    rcases startWorkflowOperation_ok (returns "") with ⟨_, same, _⟩ | ⟨fresh, _⟩
    · exact ⟨r, found, same⟩
    · exact absurd (Table.find?_none.mpr fresh) (by rw [found]; exact nofun)
  · rintro ⟨r, found, same⟩
    refine ⟨r, found, fun now => ?_⟩
    unfold startWorkflowOperation
    rw [Act.transaction_ok, Act.bind_ok]
    refine ⟨some r, L, by rw [selectOperation, found], ?_⟩
    dsimp only
    rw [if_pos same]
    rfl

/-! What a call writes. -/

/-- The session of a row after a call on it. -/
def sessionAfter (k : String) (c : Call) (r : OperationRow) : Option String :=
  if r.status = .started then (c.session k).or r.sessionId else r.sessionId

theorem kept_add {L : Ledger} {k : String} {r row : OperationRow} {c : Call}
    (silent : c.session k = none) (found : L.operations.find? k = some r)
    (fresh : row.operationId ∉ L.operations.rows.map OperationRow.operationId) :
    ∃ s, (L.add row fresh).operations.find? k = some s ∧ s.fixed = r.fixed ∧
      s.sessionId = sessionAfter k c r := by
  have other : row.operationId ≠ k := by
    rintro rfl
    exact absurd (Table.find?_none.mpr fresh) (by rw [found]; exact nofun)
  refine ⟨r, by rw [Ledger.find?_add, if_neg other, found], rfl, ?_⟩
  rw [sessionAfter, silent, Option.none_or, ite_self]

/-- A call that changes one row leaves the others. -/
theorem kept_update {L : Ledger} {j k : String} {r q : OperationRow} {c : Call}
    {f : OperationRow → OperationRow} {same : ∀ r, (f r).operationId = r.operationId}
    (target : L.operations.find? j = some q) (found : L.operations.find? k = some r)
    (elsewhere : j ≠ k → c.session k = none) (fixed : (f q).fixed = q.fixed)
    (session : (f q).sessionId = sessionAfter j c q) :
    ∃ s, (L.update j f same).operations.find? k = some s ∧ s.fixed = r.fixed ∧
      s.sessionId = sessionAfter k c r := by
  by_cases here : k = j
  · subst here
    obtain rfl : q = r := Option.some.inj (target.symm.trans found)
    exact ⟨f q, by rw [Ledger.find?_update, if_pos rfl, found]; rfl, fixed, session⟩
  · refine ⟨r, by rw [Ledger.find?_update, if_neg here, found], rfl, ?_⟩
    rw [sessionAfter, elsewhere fun same => here same.symm, Option.none_or, ite_self]

theorem kept_idle {L : Ledger} {k : String} {r : OperationRow} {c : Call}
    (found : L.operations.find? k = some r) (closed : r.status = .started → c.session k = none) :
    ∃ s, L.operations.find? k = some s ∧ s.fixed = r.fixed ∧ s.sessionId = sessionAfter k c r := by
  refine ⟨r, found, rfl, ?_⟩
  unfold sessionAfter
  split
  · rename_i started
    rw [closed started, Option.none_or]
  · rfl

theorem Call.kept_of_ok {c : Call} {now k : String} {L L' : Ledger} {u : Unit} {r : OperationRow}
    (h : c.exec now L = (.ok u, L')) (found : L.operations.find? k = some r) :
    ∃ s, L'.operations.find? k = some s ∧ s.fixed = r.fixed ∧ s.sessionId = sessionAfter k c r := by
  cases c with
  | start a sessionId =>
      obtain ⟨row, h⟩ := Act.discard_ok.mp h
      rcases startWorkflowOperation_ok h with ⟨_, _, rfl⟩ | ⟨fresh, rfl, _⟩
      · exact kept_idle found fun _ => rfl
      · exact kept_add rfl found fresh
  | complete j e =>
      obtain ⟨row, h⟩ := Act.discard_ok.mp h
      obtain ⟨q, target, ⟨done, _, _, _, rfl⟩ | ⟨started, _, rfl⟩⟩ := completeWorkflowOperation_ok h
      · refine kept_idle found fun open_ => if_neg ?_
        rintro rfl
        obtain rfl : q = r := Option.some.inj (target.symm.trans found)
        rw [done] at open_
        cases open_
      · have elsewhere : j ≠ k → (Call.complete j e).session k = none := fun other => if_neg other
        apply kept_update target found elsewhere
        · simp [completedRow, started, OperationRow.fixed]
        · simp [completedRow, started, sessionAfter, Call.session]
  | fail j errorKind error =>
      obtain ⟨row, h⟩ := Act.discard_ok.mp h
      obtain ⟨q, target, ⟨_, _, _, rfl⟩ | ⟨started, _, rfl⟩⟩ := finishWorkflowOperation_ok h
      · exact kept_idle found fun _ => rfl
      · apply kept_update target found fun _ => rfl
        · simp [finishedRow, started, OperationRow.fixed]
        · simp [finishedRow, started, sessionAfter, Call.session]
  | cancel j e =>
      obtain ⟨row, h⟩ := Act.discard_ok.mp h
      obtain ⟨q, target, ⟨done, _, _, rfl⟩ | ⟨started, _, rfl⟩⟩ := finishWorkflowOperation_ok h
      · refine kept_idle found fun open_ => if_neg ?_
        rintro rfl
        obtain rfl : q = r := Option.some.inj (target.symm.trans found)
        rw [done] at open_
        cases open_
      · have elsewhere : j ≠ k → (Call.cancel j e).session k = none := fun other => if_neg other
        apply kept_update target found elsewhere
        · simp [finishedRow, started, OperationRow.fixed]
        · simp [finishedRow, started, sessionAfter, Call.session]
  | retry j a errorKind =>
      obtain ⟨row, h⟩ := Act.discard_ok.mp h
      obtain ⟨q, target, ⟨_, _, rfl⟩ | ⟨_, _, _, _, _, fresh, rfl⟩⟩ := retryWorkflowOperation_ok h
      · exact kept_idle found fun _ => rfl
      · obtain ⟨s, found', fixed, session⟩ : ∃ s, (L.update j (supersededRow now errorKind a.operationId)
            (supersededRow_operationId now errorKind a.operationId)).operations.find? k = some s ∧
              s.fixed = r.fixed ∧ s.sessionId = sessionAfter k (.retry j a errorKind) r := by
          apply kept_update target found fun _ => rfl
          · by_cases started : q.status = .started
            · simp [supersededRow, linkedRow, interruptedRow, started, OperationRow.fixed]
            · simp [supersededRow, linkedRow, interruptedRow, started, OperationRow.fixed]
          · by_cases started : q.status = .started
            · simp [supersededRow, linkedRow, interruptedRow, started, sessionAfter, Call.session]
            · simp [supersededRow, linkedRow, interruptedRow, started, sessionAfter]
        obtain ⟨t, found'', fixed', session'⟩ := @kept_add _ k s _ (.retry j a errorKind) rfl found' fresh
        refine ⟨t, found'', fixed'.trans fixed, session'.trans ?_⟩
        have silent : (Call.retry j a errorKind).session k = none := rfl
        rw [sessionAfter, silent, Option.none_or, ite_self, session]
  | cost j ordinal cost usage =>
      obtain ⟨row, h⟩ := Act.discard_ok.mp h
      rw [recordWorkflowOperationCost_ok h]
      exact kept_idle found fun _ => rfl

/-- Only an open row gets a session, from the call that closes it. -/
theorem ledgerStep_kept {L : Ledger} {k : String} {r : OperationRow} (c : String × Call)
    (found : L.operations.find? k = some r) :
    ∃ s, (ledgerStep L c).operations.find? k = some s ∧ s.fixed = r.fixed ∧
      s.sessionId = sessionAfter k c.2 r := by
  by_cases raises : Act.Raises (c.2.exec c.1) L
  · have unchanged : ledgerStep L c = L := c.2.raise_unchanged raises
    rw [unchanged]
    refine kept_idle found fun started => ?_
    have other : c.2.target ≠ some k := fun target => closing_started target found started raises
    cases call : c.2 with
    | complete j e => exact if_neg fun same => other (by rw [call, same]; rfl)
    | cancel j e => exact if_neg fun same => other (by rw [call, same]; rfl)
    | start | fail | retry | cost => rfl
  · obtain ⟨u, h⟩ := Act.returns_of_not_raises raises
    exact Call.kept_of_ok h found

/-! Runs. -/

theorem StartArgs.Matches.of_fixed {a : StartArgs} {sessionId : Option String} {r s : OperationRow}
    (same : a.Matches sessionId r) (fixed : s.fixed = r.fixed) (session : s.sessionId = sessionId) :
    a.Matches sessionId s := by
  simp only [OperationRow.fixed, FixedColumns.mk.injEq] at fixed
  obtain ⟨_, task, run, unit, phase, step, attempt, ordinal, input, prerequisites, schema, _⟩ := fixed
  unfold StartArgs.Matches at same ⊢
  simpa only [task, run, unit, phase, step, attempt, ordinal, input, prerequisites, schema, session,
    and_true] using ⟨same.1, same.2.1, same.2.2.1, same.2.2.2.1, same.2.2.2.2.1, same.2.2.2.2.2.1,
      same.2.2.2.2.2.2.1, same.2.2.2.2.2.2.2.1, same.2.2.2.2.2.2.2.2.1, same.2.2.2.2.2.2.2.2.2.1⟩

theorem restarts_step {a : StartArgs} {sessionId : Option String} {L : Ledger}
    (restarts : Restarts a sessionId L) (c : String × Call) :
    Restarts a sessionId (ledgerStep L c) ↔ ¬ Reassigns a.operationId sessionId L c.2 := by
  obtain ⟨r, found, same⟩ := restarts_iff_matches.mp restarts
  obtain ⟨s, found', fixed, session⟩ := ledgerStep_kept c found
  have before : r.sessionId = sessionId := same.2.2.2.2.2.2.2.2.2.2
  have kept : s.sessionId = sessionId ↔ ¬ Reassigns a.operationId sessionId L c.2 := by
    rw [session, sessionAfter]
    constructor
    · rintro stays ⟨q, x, target, started, reported, other⟩
      obtain rfl : r = q := Option.some.inj (found.symm.trans target)
      rw [if_pos started, reported, Option.some_or] at stays
      exact other stays
    · intro settled
      split
      · rename_i started
        cases reported : c.2.session a.operationId with
        | none => rw [Option.none_or, before]
        | some x =>
            by_contra other
            exact settled ⟨r, x, found, started, reported, other⟩
      · exact before
  rw [← kept, restarts_iff_matches]
  constructor
  · rintro ⟨t, found'', matches_⟩
    obtain rfl : s = t := Option.some.inj (found'.symm.trans found'')
    exact matches_.2.2.2.2.2.2.2.2.2.2
  · intro sessions
    exact ⟨s, found', same.of_fixed fixed sessions⟩

theorem StartArgs.row_matches (a : StartArgs) (now : String) (sessionId : Option String) :
    a.Matches sessionId (a.row now sessionId) := by
  simp [StartArgs.Matches, StartArgs.row]

theorem restarts_of_opened {a : StartArgs} {sessionId : Option String} {L : Ledger} {now : String}
    {fresh} : Restarts a sessionId (L.add (a.row now sessionId) fresh) := by
  refine restarts_iff_matches.mpr ⟨a.row now sessionId, ?_, a.row_matches now sessionId⟩
  rw [Ledger.find?_add]
  exact if_pos rfl

theorem restarts_of_opens {a : StartArgs} {sessionId : Option String} {L : Ledger} {c : Call}
    {now : String} (absent : L.operations.find? a.operationId = none)
    (opens : c.Opens a sessionId) (returned : ¬ Act.Raises (c.exec now) L) :
    Restarts a sessionId (ledgerStep L (now, c)) := by
  obtain ⟨u, h⟩ := Act.returns_of_not_raises returned
  have after : ledgerStep L (now, c) = Act.after (c.exec now) L := rfl
  rw [after]
  rcases opens with rfl | ⟨rfl, old, errorKind, rfl⟩
  · obtain ⟨row, started⟩ := Act.discard_ok.mp h
    rcases startWorkflowOperation_ok started with ⟨found, _⟩ | ⟨fresh, grown, _⟩
    · rw [absent] at found
      cases found
    · rw [grown]
      exact restarts_of_opened
  · obtain ⟨row, retried⟩ := Act.discard_ok.mp h
    obtain ⟨q, _, ⟨_, found, _⟩ | ⟨_, _, _, _, _, fresh, grown⟩⟩ := retryWorkflowOperation_ok retried
    · rw [absent] at found
      cases found
    · rw [grown]
      exact restarts_of_opened

/-- After the call that opens an operation, the same start is accepted all along exactly when no
call closes the operation under another session. -/
theorem restarts_iff {a : StartArgs} {sessionId : Option String} {L : Ledger} {c : Call}
    {now : String} (absent : L.operations.find? a.operationId = none)
    (opens : c.Opens a sessionId) (returned : ¬ Act.Raises (c.exec now) L)
    (later : List (String × Call)) :
    Always ledgerStep (Restarts a sessionId) (ledgerStep L (now, c)) later ↔
      Meets ledgerStep (fun L c => ¬ Reassigns a.operationId sessionId L c.2)
        (ledgerStep L (now, c)) later := by
  apply always_iff_meets ledgerStep
  · intro L c restarts
    exact restarts_step restarts c
  · exact restarts_of_opens absent opens returned

/-- A completion that reports a session. -/
def withSession : CompleteArgs :=
  ⟨"workspace-b", "run-1/unit-1/op-1.json", "digest", [], some "ses-1"⟩

def startedOnce : Ledger := ledgerStep (.fresh [7]) ("", .start (firstOperation 7) none)

theorem startedOnce_restarts :
    Always ledgerStep (Restarts (firstOperation 7) none) startedOnce
        [("", .complete "op-1" withSession)] ↔
      Meets ledgerStep (fun L c => ¬ Reassigns "op-1" none L c.2) startedOnce
        [("", .complete "op-1" withSession)] := by
  have returns : ((Call.start (firstOperation 7) none).exec "" (.fresh [7])).1 = .ok () := by
    decide +kernel
  exact @restarts_iff (firstOperation 7) none (.fresh [7]) (.start (firstOperation 7) none) ""
    rfl (.inl rfl) (by rintro ⟨e, raised⟩; rw [returns] at raised; cases raised) _

/-- Once a session is recorded, the start that recorded none is refused. -/
theorem completed_not_restarted :
    ¬ Restarts (firstOperation 7) none
      (run ledgerStep (.fresh [7])
        [("", .start (firstOperation 7) none), ("", .complete "op-1" withSession)]) := by
  rintro ⟨r, _, returns⟩
  have refused : (startWorkflowOperation "" (firstOperation 7) none (run ledgerStep (.fresh [7])
      [("", .start (firstOperation 7) none), ("", .complete "op-1" withSession)])).1 =
        .error (.conflict "workflow operation op-1 conflicts with stored identity") := by
    decide +kernel
  rw [returns ""] at refused
  cases refused

end Uta.Operations
