/- What each ledger operation can do, said once: an inversion lemma for every
operation, and the book of executions that the ledger refines. -/
import Uta.Operations.Rows
import Uta.Lib.Book

namespace Uta.Operations
open Uta.Lib

/-! Rows as entries of a book. -/

/-- The columns no UPDATE of the ledger writes. -/
structure FixedColumns where
  operationId : String
  repoTaskId : Int
  workflowRunId : String
  unitId : String
  phase : String
  operationStep : String
  attempt : Int
  executionOrdinal : Int
  inputFingerprint : String
  prerequisiteOperationIds : Option (List String)
  schemaVersion : Int
  startedAt : String
  deriving DecidableEq

/-- The columns a closing UPDATE writes: the status with its evidence. -/
structure Verdict where
  status : Status
  resultingWorkspaceFingerprint : Option String
  resultArtifactPath : Option String
  resultArtifactSha256 : Option String
  outputFingerprints : Fingerprints
  sessionId : Option String
  completedAt : Option String
  errorKind : Option String
  error : Option String
  deriving DecidableEq

def OperationRow.fixed (r : OperationRow) : FixedColumns :=
  ⟨r.operationId, r.repoTaskId, r.workflowRunId, r.unitId, r.phase, r.operationStep, r.attempt,
    r.executionOrdinal, r.inputFingerprint, r.prerequisiteOperationIds, r.schemaVersion, r.startedAt⟩

def OperationRow.evidence (r : OperationRow) : Verdict :=
  ⟨r.status, r.resultingWorkspaceFingerprint, r.resultArtifactPath, r.resultArtifactSha256,
    r.outputFingerprints, r.sessionId, r.completedAt, r.errorKind, r.error⟩

def OperationRow.verdict (r : OperationRow) : Option Verdict :=
  if r.status = .started then none else some r.evidence

def OperationRow.entry (r : OperationRow) : Book.Entry String FixedColumns Verdict :=
  ⟨r.fixed, r.verdict, r.supersededByOperationId⟩

def Retryable (v : Verdict) : Prop := v.status = .failed ∨ v.status = .cancelled

/-- The ledger as a book: what `get_workflow_operation` finds under each id. -/
def pages (L : Ledger) : Book.Pages String FixedColumns Verdict :=
  fun k => (L.operations.find? k).map OperationRow.entry

theorem verdict_some {r : OperationRow} {v : Verdict} :
    r.verdict = some v ↔ r.status.Terminal ∧ r.evidence = v := by
  unfold OperationRow.verdict
  by_cases h : r.status = .started <;> simp [h, Status.Terminal]

theorem verdict_none {r : OperationRow} : r.verdict = none ↔ r.status = .started := by
  unfold OperationRow.verdict
  by_cases h : r.status = .started <;> simp [h]

theorem pages_some {L : Ledger} {k : String} {e : Book.Entry String FixedColumns Verdict} :
    pages L k = some e ↔ ∃ r, L.operations.find? k = some r ∧ r.entry = e := by
  simp [pages]

theorem pages_none {L : Ledger} {k : String} : pages L k = none ↔ L.operations.find? k = none := by
  simp [pages]

theorem pages_modify {L : Ledger} {k : String} {r : OperationRow} {f : OperationRow → OperationRow}
    (same : ∀ r, (f r).operationId = r.operationId) (found : L.operations.find? k = some r) :
    pages (L.update k f same) =
      Function.update (pages L) k (some (f r).entry) := by
  funext j
  by_cases hj : j = k
  · subst hj; simp [pages, Ledger.find?_update, found]
  · simp [pages, Ledger.find?_update, hj]

theorem pages_insert {L : Ledger} {r : OperationRow}
    (fresh : r.operationId ∉ L.operations.rows.map OperationRow.operationId) :
    pages (L.add r fresh) =
      Function.update (pages L) r.operationId (some r.entry) := by
  funext j
  by_cases hj : j = r.operationId
  · subst hj; simp [pages, Ledger.find?_add]
  · have hj' : r.operationId ≠ j := fun h => hj h.symm
    simp [pages, Ledger.find?_add, hj, hj']

/-! The statements. -/

theorem requireWorkflowOperation_ok {L L' : Ledger} {k : String} {r : OperationRow} :
    requireWorkflowOperation k L = (.ok r, L') ↔ L.operations.find? k = some r ∧ L = L' := by
  simp only [requireWorkflowOperation, Act.bind_ok, selectOperation, Prod.mk.injEq, Except.ok.injEq]
  constructor
  · rintro ⟨o, t, ⟨rfl, rfl⟩, h⟩
    rcases hf : L.operations.find? k with _ | s
    · rw [hf] at h; cases h
    · rw [hf] at h
      obtain ⟨rfl, rfl⟩ := Act.pure_ok.mp h
      exact ⟨rfl, rfl⟩
  · rintro ⟨found, rfl⟩
    exact ⟨_, L, ⟨rfl, rfl⟩, by rw [found]; rfl⟩

/-- A row as INSERT leaves it: started, without evidence and without successor. -/
structure OperationRow.Opened (r : OperationRow) : Prop where
  started : r.status = .started
  blank : r.resultingWorkspaceFingerprint = none ∧ r.resultArtifactPath = none ∧
    r.resultArtifactSha256 = none
  unlinked : r.supersededByOperationId = none

theorem StartArgs.row_opened (a : StartArgs) (now : String) (sessionId : Option String) :
    (a.row now sessionId).Opened := ⟨rfl, ⟨rfl, rfl, rfl⟩, rfl⟩

theorem insertOperation_ok {L L' : Ledger} {r : OperationRow} {u : Unit}
    (h : insertOperation r L = (.ok u, L')) :
    ∃ fresh : r.operationId ∉ L.operations.rows.map OperationRow.operationId,
      L' = L.add r fresh ∧ 0 ≤ r.executionOrdinal := by
  unfold insertOperation at h
  split at h
  · rename_i checked
    split at h
    · rename_i fresh
      split at h
      · obtain ⟨_, rfl⟩ := Prod.mk.inj h
        exact ⟨fresh, rfl, checked.2.2⟩
      · cases h
    · cases h
  · cases h

theorem insertAccounting_operations {L L' : Ledger} {row : AccountingRow} {u : Unit}
    (h : insertAccounting row L = (.ok u, L')) : L'.operations = L.operations := by
  unfold insertAccounting at h
  split at h
  · split at h
    · split at h
      · obtain ⟨_, rfl⟩ := Prod.mk.inj h
        rfl
      · cases h
    · cases h
  · cases h

/-! The operations. -/

theorem startWorkflowOperation_ok {L L' : Ledger} {now : String} {a : StartArgs}
    {sessionId : Option String} {row : OperationRow}
    (h : startWorkflowOperation now a sessionId L = (.ok row, L')) :
    (L.operations.find? a.operationId = some row ∧ a.Matches sessionId row ∧ L' = L) ∨
    (∃ fresh : a.operationId ∉ L.operations.rows.map OperationRow.operationId,
      L' = L.add (a.row now sessionId) fresh ∧
      row = a.row now sessionId ∧ 0 ≤ a.executionOrdinal) := by
  unfold startWorkflowOperation at h
  rw [Act.transaction_ok, Act.bind_ok] at h
  obtain ⟨o, t, hs, h⟩ := h
  obtain ⟨ho, rfl⟩ := Prod.mk.inj hs
  obtain rfl := Except.ok.inj ho
  rcases found : L.operations.find? a.operationId with _ | existing
  · rw [found] at h
    right
    obtain ⟨_, t, insert, require⟩ := Act.bind_ok.mp h
    obtain ⟨fresh, rfl, ordinal⟩ := insertOperation_ok insert
    obtain ⟨hrow, rfl⟩ := requireWorkflowOperation_ok.mp require
    refine ⟨fresh, rfl, ?_, ordinal⟩
    have inserted := Ledger.find?_add L a.operationId (a.row now sessionId) fresh
    exact Option.some.inj (hrow.symm.trans (inserted.trans (if_pos rfl)))
  · rw [found] at h
    left
    by_cases same : a.Matches sessionId existing
    · simp only [same, if_true] at h
      obtain ⟨rfl, rfl⟩ := Act.pure_ok.mp h
      exact ⟨rfl, same, rfl⟩
    · simp only [same, if_false] at h
      cases h

theorem completeWorkflowOperation_ok {L L' : Ledger} {now k : String} {e : CompleteArgs}
    {row : OperationRow} (h : completeWorkflowOperation now k e L = (.ok row, L')) :
    ∃ r, L.operations.find? k = some r ∧
      ((r.status = .completed ∧ e.Matches r ∧ (e.sessionId ≠ none → r.sessionId = e.sessionId) ∧
          row = r ∧ L' = L) ∨
        (r.status = .started ∧ row = completedRow now e r ∧
          L' = L.update k (completedRow now e) (completedRow_operationId now e))) := by
  unfold completeWorkflowOperation at h
  rw [Act.transaction_ok, Act.bind_ok] at h
  obtain ⟨r, t, require, h⟩ := h
  obtain ⟨found, rfl⟩ := requireWorkflowOperation_ok.mp require
  refine ⟨r, found, ?_⟩
  by_cases done : r.status = .completed
  · left
    rw [if_pos done] at h
    by_cases same : e.Matches r
    · rw [if_pos same] at h
      by_cases session : e.sessionId ≠ none ∧ r.sessionId ≠ e.sessionId
      · rw [if_pos session] at h; cases h
      · rw [if_neg session] at h
        obtain ⟨rfl, rfl⟩ := Act.pure_ok.mp h
        exact ⟨done, same, fun hs => by_contra fun hn => session ⟨hs, hn⟩, rfl, rfl⟩
    · rw [if_neg same] at h; cases h
  · right
    rw [if_neg done] at h
    by_cases started : r.status = .started
    · rw [if_neg (not_not.mpr started)] at h
      obtain ⟨_, t, update, require'⟩ := Act.bind_ok.mp h
      obtain ⟨_, rfl⟩ := Prod.mk.inj update
      obtain ⟨hrow, rfl⟩ := requireWorkflowOperation_ok.mp require'
      refine ⟨started, ?_, rfl⟩
      rw [Ledger.find?_update, if_pos rfl, found] at hrow
      exact (Option.some.inj hrow).symm
    · rw [if_pos started] at h; cases h

theorem finishWorkflowOperation_ok {L L' : Ledger} {now k : String} {status : Status}
    {e : FinishArgs} {row : OperationRow}
    (h : finishWorkflowOperation now k status e L = (.ok row, L')) :
    ∃ r, L.operations.find? k = some r ∧
      ((r.status = status ∧ e.Matches r ∧ row = r ∧ L' = L) ∨
        (r.status = .started ∧ row = finishedRow now status e r ∧
          L' = L.update k (finishedRow now status e) (finishedRow_operationId now status e))) := by
  unfold finishWorkflowOperation at h
  rw [Act.transaction_ok, Act.bind_ok] at h
  obtain ⟨r, t, require, h⟩ := h
  obtain ⟨found, rfl⟩ := requireWorkflowOperation_ok.mp require
  refine ⟨r, found, ?_⟩
  by_cases done : r.status = status
  · left
    rw [if_pos done] at h
    by_cases same : e.Matches r
    · rw [if_pos same] at h
      obtain ⟨rfl, rfl⟩ := Act.pure_ok.mp h
      exact ⟨done, same, rfl, rfl⟩
    · rw [if_neg same] at h; cases h
  · right
    rw [if_neg done] at h
    by_cases started : r.status = .started
    · rw [if_neg (not_not.mpr started)] at h
      obtain ⟨_, t, update, require'⟩ := Act.bind_ok.mp h
      obtain ⟨_, rfl⟩ := Prod.mk.inj update
      obtain ⟨hrow, rfl⟩ := requireWorkflowOperation_ok.mp require'
      refine ⟨started, ?_, rfl⟩
      rw [Ledger.find?_update, if_pos rfl, found] at hrow
      exact (Option.some.inj hrow).symm
    · rw [if_pos started] at h; cases h

/-- What a retry makes of the row it supersedes. -/
def supersededRow (now errorKind successor : String) (r : OperationRow) : OperationRow :=
  linkedRow now successor (interruptedRow now errorKind r)

theorem supersededRow_operationId (now errorKind successor : String) (r : OperationRow) :
    (supersededRow now errorKind successor r).operationId = r.operationId :=
  interruptedRow_operationId now errorKind r

theorem retryWorkflowOperation_ok {L L' : Ledger} {now k errorKind : String} {a : StartArgs}
    {row : OperationRow} (h : retryWorkflowOperation now k a errorKind L = (.ok row, L')) :
    ∃ r, L.operations.find? k = some r ∧
      ((r.supersededByOperationId = some a.operationId ∧
          L.operations.find? a.operationId = some row ∧ L' = L) ∨
        (¬ Truthy r.supersededByOperationId ∧ r.status ≠ .completed ∧ row = a.row now none ∧
          0 ≤ a.executionOrdinal ∧ a.operationId ≠ k ∧
          ∃ fresh, L' = (L.update k (supersededRow now errorKind a.operationId)
            (supersededRow_operationId now errorKind a.operationId)).add (a.row now none) fresh)) := by
  unfold retryWorkflowOperation at h
  rw [Act.transaction_ok, Act.bind_ok] at h
  obtain ⟨r, t, require, h⟩ := h
  obtain ⟨found, rfl⟩ := requireWorkflowOperation_ok.mp require
  refine ⟨r, found, ?_⟩
  by_cases linked : Truthy r.supersededByOperationId
  · left
    rw [if_pos linked] at h
    by_cases other : r.supersededByOperationId ≠ some a.operationId
    · rw [if_pos other] at h; cases h
    · rw [if_neg other] at h
      obtain ⟨hrow, rfl⟩ := requireWorkflowOperation_ok.mp h
      exact ⟨not_not.mp other, hrow, rfl⟩
  · right
    rw [if_neg linked] at h
    by_cases refused : r.status ∉ [.started, .failed, .cancelled]
    · rw [if_pos refused] at h; cases h
    rw [if_neg refused] at h
    have open_or_closed : r.status ≠ .completed := by
      intro done; exact refused (by simp [done])
    -- The first UPDATE runs on a started row only, where it is not the identity.
    have first : ∃ t, t = L.update k (interruptedRow now errorKind)
          (interruptedRow_operationId now errorKind) ∧
        (do insertOperation (a.row now none)
            updateOperation k (linkedRow now a.operationId) (linkedRow_operationId now a.operationId)
            requireWorkflowOperation a.operationId : Tx OperationRow) t = (.ok row, L') := by
      by_cases started : r.status = .started
      · rw [if_pos started] at h
        obtain ⟨_, t, update, rest⟩ := Act.bind_ok.mp h
        obtain ⟨_, rfl⟩ := Prod.mk.inj update
        exact ⟨_, rfl, rest⟩
      · rw [if_neg started] at h
        refine ⟨L, ?_, h⟩
        have idle : L.operations.modify k (interruptedRow now errorKind)
            (interruptedRow_operationId now errorKind) = L.operations := by
          apply Table.modify_id
          intro s hs
          obtain rfl : r = s := Option.some.inj (found.symm.trans hs)
          exact if_neg started
        rw [Ledger.update, idle]
    obtain ⟨t, rfl, h⟩ := first
    obtain ⟨_, t, insert, h⟩ := Act.bind_ok.mp h
    obtain ⟨fresh, rfl, ordinal⟩ := insertOperation_ok insert
    obtain ⟨_, t, update, require'⟩ := Act.bind_ok.mp h
    obtain ⟨_, rfl⟩ := Prod.mk.inj update
    obtain ⟨hrow, rfl⟩ := requireWorkflowOperation_ok.mp require'
    have absent : a.operationId ∉ L.operations.rows.map OperationRow.operationId := by
      rwa [Ledger.keys_update] at fresh
    have ne : a.operationId ≠ k := by
      rintro rfl
      exact absent (List.mem_map.mpr ⟨r, (Table.find?_some.mp found)⟩)
    refine ⟨linked, open_or_closed, ?_, ordinal, ne, by rwa [Ledger.keys_update], ?_⟩
    · rw [Ledger.find?_update, if_neg ne, Ledger.find?_add] at hrow
      exact (Option.some.inj (hrow.symm.trans (if_pos rfl)))
    · exact Ledger.update_add_update L k (interruptedRow now errorKind) (linkedRow now a.operationId)
        _ _ (supersededRow_operationId now errorKind a.operationId) (a.row now none) fresh _ ne

theorem recordWorkflowOperationCost_ok {L L' : Ledger} {now k usageJson : String} {ordinal : Int}
    {cost : Option PyFloat} {row : AccountingRow}
    (h : recordWorkflowOperationCost now k ordinal cost usageJson L = (.ok row, L')) :
    L'.operations = L.operations := by
  unfold recordWorkflowOperationCost at h
  rw [Act.transaction_ok, Act.bind_ok] at h
  obtain ⟨_, t, read, h⟩ := h
  obtain ⟨hL, rfl⟩ := Prod.mk.inj read
  obtain rfl := Except.ok.inj hL
  rcases found : L.accounting.find? (k, ordinal) with _ | existing
  · simp only [found] at h
    obtain ⟨_, t, insert, h⟩ := Act.bind_ok.mp h
    obtain ⟨_, rfl⟩ := Act.pure_ok.mp h
    exact insertAccounting_operations insert
  · simp only [found] at h
    generalize (if cost = none then "unavailable" else "recorded") = provenance at h
    split at h
    · obtain ⟨_, rfl⟩ := Act.pure_ok.mp h
      rfl
    · cases h

/-! One call. -/

/-- `f` closes a started row: it touches no fixed column and no successor. -/
structure Closes (f : OperationRow → OperationRow) (r : OperationRow) : Prop where
  fixed : (f r).fixed = r.fixed
  successor : (f r).supersededByOperationId = r.supersededByOperationId
  terminal : (f r).status.Terminal

theorem completedRow_closes {now : String} {e : CompleteArgs} {r : OperationRow}
    (started : r.status = .started) : Closes (completedRow now e) r := by
  constructor <;> simp [completedRow, started, OperationRow.fixed, Status.Terminal]

theorem finishedRow_closes {now : String} {status : Status} {e : FinishArgs} {r : OperationRow}
    (started : r.status = .started) (terminal : status.Terminal) :
    Closes (finishedRow now status e) r := by
  constructor <;> simp [finishedRow, started, OperationRow.fixed, terminal]

/-- All that a complete, a fail, a cancel or a cost record can do to a ledger. -/
inductive Closing : Ledger → Ledger → Prop
  | idle {L L'} : L'.operations = L.operations → Closing L L'
  | closed {L} {k : String} {r : OperationRow} (f) (same) : L.operations.find? k = some r →
      r.status = .started → Closes f r → Closing L (L.update k f same)

theorem completeWorkflowOperation_closing {L L' : Ledger} {now k : String} {e : CompleteArgs}
    {row : OperationRow} (h : completeWorkflowOperation now k e L = (.ok row, L')) :
    Closing L L' := by
  obtain ⟨r, found, ⟨_, _, _, _, rfl⟩ | ⟨started, _, rfl⟩⟩ := completeWorkflowOperation_ok h
  · exact .idle rfl
  · exact .closed _ _ found started (completedRow_closes started)

theorem finishWorkflowOperation_closing {L L' : Ledger} {now k : String} {status : Status}
    {e : FinishArgs} {row : OperationRow} (terminal : status.Terminal)
    (h : finishWorkflowOperation now k status e L = (.ok row, L')) : Closing L L' := by
  obtain ⟨r, found, ⟨_, _, _, rfl⟩ | ⟨started, _, rfl⟩⟩ := finishWorkflowOperation_ok h
  · exact .idle rfl
  · exact .closed _ _ found started (finishedRow_closes started terminal)

/-- All that one call can do to a ledger. -/
inductive Effect : Ledger → Ledger → Prop
  | idle {L L'} : L'.operations = L.operations → Effect L L'
  | opened {L} (r : OperationRow) (fresh) : r.Opened → Effect L (L.add r fresh)
  | closed {L} {k : String} {r : OperationRow} (f) (same) : L.operations.find? k = some r →
      r.status = .started → Closes f r → Effect L (L.update k f same)
  | superseded {L} {k : String} {r s : OperationRow} (now errorKind : String) (fresh) :
      L.operations.find? k = some r → ¬ Truthy r.supersededByOperationId → r.status ≠ .completed →
      s.Opened → s.operationId ≠ k →
      Effect L ((L.update k (supersededRow now errorKind s.operationId)
        (supersededRow_operationId now errorKind s.operationId)).add s fresh)

theorem Closing.effect {L L' : Ledger} (h : Closing L L') : Effect L L' := by
  cases h with
  | idle same => exact .idle same
  | closed f same found started closes => exact .closed f same found started closes

theorem Call.effect_of_ok {c : Call} {now : String} {L L' : Ledger} {u : Unit}
    (h : c.exec now L = (.ok u, L')) : Effect L L' := by
  cases c with
  | start a sessionId =>
      obtain ⟨row, h⟩ := Act.discard_ok.mp h
      rcases startWorkflowOperation_ok h with ⟨_, _, rfl⟩ | ⟨fresh, rfl, _, _⟩
      · exact .idle rfl
      · exact .opened (a.row now sessionId) fresh (a.row_opened now sessionId)
  | complete k e =>
      obtain ⟨row, h⟩ := Act.discard_ok.mp h
      exact (completeWorkflowOperation_closing h).effect
  | fail k errorKind error =>
      obtain ⟨row, h⟩ := Act.discard_ok.mp h
      exact (finishWorkflowOperation_closing (by decide) h).effect
  | cancel k e =>
      obtain ⟨row, h⟩ := Act.discard_ok.mp h
      exact (finishWorkflowOperation_closing (by decide) h).effect
  | retry k a errorKind =>
      obtain ⟨row, h⟩ := Act.discard_ok.mp h
      obtain ⟨r, found, ⟨_, _, rfl⟩ | ⟨unlinked, status, _, _, ne, fresh, rfl⟩⟩ :=
        retryWorkflowOperation_ok h
      · exact .idle rfl
      · exact .superseded now errorKind fresh found unlinked status (a.row_opened now none) ne
  | cost k ordinal cost usage =>
      obtain ⟨row, h⟩ := Act.discard_ok.mp h
      exact .idle (recordWorkflowOperationCost_ok h)

/-- A call that raises leaves the whole ledger, accounting included, as it was. -/
theorem Call.raise_unchanged {c : Call} {now : String} {L : Ledger}
    (h : Act.Raises (c.exec now) L) : Act.after (c.exec now) L = L := by
  cases c with
  | start | complete | fail | cancel | retry | cost =>
      exact (Act.discard_after _ L).trans (Act.transaction_rollback (Act.discard_raises.mp h))

theorem Call.effect (c : Call) (now : String) (L : Ledger) :
    Effect L (Act.after (c.exec now) L) := by
  by_cases raises : Act.Raises (c.exec now) L
  · rw [c.raise_unchanged raises]
    exact .idle rfl
  · obtain ⟨u, h⟩ := Act.returns_of_not_raises raises
    exact effect_of_ok h

theorem supersededRow_entry (now errorKind successor : String) {r : OperationRow}
    (status : r.status ≠ .completed) : ∃ v, Retryable v ∧ (r.verdict = none ∨ r.verdict = some v) ∧
      (supersededRow now errorKind successor r).entry = ⟨r.fixed, some v, some successor⟩ := by
  by_cases started : r.status = .started
  · refine ⟨(interruptedRow now errorKind r).evidence, ?_, .inl (verdict_none.mpr started), ?_⟩
    · simp [Retryable, OperationRow.evidence, interruptedRow, started]
    · simp [OperationRow.entry, OperationRow.fixed, OperationRow.verdict, OperationRow.evidence,
        supersededRow, linkedRow, interruptedRow, started]
  · have terminal : r.verdict = some r.evidence := verdict_some.mpr ⟨started, rfl⟩
    refine ⟨r.evidence, ?_, .inr terminal, ?_⟩
    · rcases h : r.status with _ | _ | _ | _ <;> simp_all [Retryable, OperationRow.evidence]
    · simp [OperationRow.entry, OperationRow.fixed, OperationRow.verdict, OperationRow.evidence,
        supersededRow, linkedRow, interruptedRow, started]

theorem OperationRow.Opened.entry {r : OperationRow} (h : r.Opened) :
    r.entry = ⟨r.fixed, none, none⟩ := by
  rw [OperationRow.entry, verdict_none.mpr h.started, h.unlinked]

theorem pages_same {L L' : Ledger} (same : L'.operations = L.operations) : pages L' = pages L := by
  funext k
  rw [pages, pages, same]

theorem pages_opened {L : Ledger} {r : OperationRow} (opened : r.Opened)
    (fresh : r.operationId ∉ L.operations.rows.map OperationRow.operationId) :
    pages (L.add r fresh) = Function.update (pages L) r.operationId (some ⟨r.fixed, none, none⟩) := by
  rw [pages_insert fresh, opened.entry]

theorem pages_closed {L : Ledger} {k : String} {r : OperationRow} {f : OperationRow → OperationRow}
    (same : ∀ r, (f r).operationId = r.operationId) (found : L.operations.find? k = some r)
    (closes : Closes f r) : pages (L.update k f same) =
      Function.update (pages L) k (some { r.entry with verdict := some (f r).evidence }) := by
  rw [pages_modify same found]
  simp only [OperationRow.entry, closes.fixed, closes.successor,
    verdict_some.mpr ⟨closes.terminal, rfl⟩]

theorem pages_superseded (now errorKind : String) {L : Ledger} {k : String} {r s : OperationRow}
    (found : L.operations.find? k = some r) (status : r.status ≠ .completed) (opened : s.Opened)
    (fresh) : ∃ v, Retryable v ∧ (r.verdict = none ∨ r.verdict = some v) ∧
      pages ((L.update k (supersededRow now errorKind s.operationId)
          (supersededRow_operationId now errorKind s.operationId)).add s fresh) =
        Function.update (Function.update (pages L) k (some ⟨r.fixed, some v, some s.operationId⟩))
          s.operationId (some ⟨s.fixed, none, none⟩) := by
  obtain ⟨v, retryable, verdict, closedEntry⟩ :=
    supersededRow_entry now errorKind s.operationId status
  refine ⟨v, retryable, verdict, ?_⟩
  rw [pages_opened opened fresh, pages_modify _ found, closedEntry]

theorem pages_absent_of_fresh {L : Ledger} {k j : String} {f : OperationRow → OperationRow} {same}
    (fresh : j ∉ (L.update k f same).operations.rows.map OperationRow.operationId) :
    pages L j = none := by
  rw [Ledger.keys_update] at fresh
  exact pages_none.mpr (Table.find?_none.mpr fresh)

/-- Every call is one step of the book. -/
theorem Effect.step {L L' : Ledger} (h : Effect L L') :
    Book.Step Retryable (· = "") (pages L) (pages L') := by
  cases h with
  | idle same =>
      rw [pages_same same]
      exact .idle _
  | opened r fresh opened =>
      rw [pages_opened opened fresh]
      exact .start _ (pages_none.mpr (Table.find?_none.mpr fresh))
  | @closed k r f same found started closes =>
      rw [pages_closed same found closes]
      exact .close _ (pages_some.mpr ⟨r, found, rfl⟩) (verdict_none.mpr started)
  | @superseded k r s now errorKind fresh found unlinked status opened ne =>
      obtain ⟨v, retryable, verdict, result⟩ :=
        pages_superseded now errorKind found status opened fresh
      rw [result]
      refine .supersede v _ (pages_some.mpr ⟨r, found, rfl⟩) (pages_absent_of_fresh fresh)
        retryable verdict ?_
      intro successor hs
      by_contra nonblank
      exact unlinked ⟨fun h => (nomatch hs.symm.trans h),
        fun h => nonblank (Option.some.inj (hs.symm.trans h))⟩

/-- A started row carries no evidence yet. -/
def OpenBlank (L : Ledger) : Prop := ∀ k r, L.operations.find? k = some r → r.status = .started →
  r.resultingWorkspaceFingerprint = none ∧ r.resultArtifactPath = none ∧
    r.resultArtifactSha256 = none

theorem Effect.openBlank {L L' : Ledger} (h : Effect L L') (blank : OpenBlank L) : OpenBlank L' := by
  intro j s found' started'
  cases h with
  | idle same => exact blank j s (by rwa [same] at found') started'
  | opened r fresh opened =>
      rw [Ledger.find?_add] at found'
      split at found'
      · cases found'; exact opened.blank
      · exact blank j s found' started'
  | @closed k r f same found started closes =>
      rw [Ledger.find?_update] at found'
      split at found'
      · rw [found] at found'
        cases found'
        exact absurd started' closes.terminal
      · exact blank j s found' started'
  | @superseded k r s' now errorKind fresh found unlinked status opened ne =>
      rw [Ledger.find?_add] at found'
      split at found'
      · cases found'; exact opened.blank
      · rw [Ledger.find?_update] at found'
        split at found'
        · rw [found] at found'
          cases found'
          by_cases started : r.status = .started
          · simp [supersededRow, linkedRow, interruptedRow, started] at started'
          · simp [supersededRow, linkedRow, interruptedRow, started] at started'
        · exact blank j s found' started'

end Uta.Operations
