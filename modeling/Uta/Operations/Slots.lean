/- The executions of a slot. Over any run of classifications, reports and
crashes its ordinals are used once each, in order; it is run at most once and
executed at most once more than it may be replayed. -/
import Uta.Operations.Adoption
import Uta.Lib.Chain
import Uta.Lib.Run

namespace Uta.Operations
open Uta.Lib

/-! The chains of a ledger. -/

def FixedColumns.slot (i : FixedColumns) : Slot :=
  ⟨i.repoTaskId, i.workflowRunId, i.unitId, i.phase, i.operationStep, i.attempt⟩

def FixedColumns.identity (i : FixedColumns) : OperationIdentity :=
  ⟨i.workflowRunId, i.unitId, i.phase, i.operationStep, i.attempt, i.executionOrdinal,
    i.inputFingerprint⟩

/-- The rows of a ledger form chains, and every row is named by its identity. -/
structure Ordered (sha256 : String → String) (maxCrashReplays : ℕ) (L : Ledger) : Prop where
  chained : Chain.Chained FixedColumns.slot FixedColumns.executionOrdinal maxCrashReplays Retryable
    (pages L)
  named : ∀ k e, pages L k = some e → e.identity.identity.operationId sha256 = k

/-- Some row of the slot has the ordinal. -/
abbrev Used (L : Ledger) (s : Slot) (n : ℤ) : Prop :=
  Chain.Occupied FixedColumns.slot FixedColumns.executionOrdinal (pages L) s n

abbrev ChainStep (maxCrashReplays : ℕ) (L L' : Ledger) : Prop :=
  Chain.Step FixedColumns.slot FixedColumns.executionOrdinal maxCrashReplays Retryable (pages L)
    (pages L')

section Chains
variable {sha256 : String → String} {maxCrashReplays : ℕ} {L L' : Ledger}

theorem page_of_row {r : OperationRow} (entered : r ∈ L.operations.rows) :
    pages L r.operationId = some r.entry :=
  pages_some.mpr ⟨r, Table.find?_mem entered, rfl⟩

theorem row_of_page {k : String} {e : Book.Entry String FixedColumns Verdict}
    (found : pages L k = some e) : ∃ r ∈ L.operations.rows, r.operationId = k ∧ r.entry = e := by
  obtain ⟨r, row, same⟩ := pages_some.mp found
  exact ⟨r, (Table.find?_some.mp row).1, (Table.find?_some.mp row).2, same⟩

theorem used_iff {s : Slot} {n : ℤ} :
    Used L s n ↔ ∃ r ∈ L.operations.rows, r.slot = s ∧ r.executionOrdinal = n := by
  constructor
  · rintro ⟨k, e, found, slots, ordinal⟩
    obtain ⟨r, entered, _, rfl⟩ := row_of_page found
    exact ⟨r, entered, slots, ordinal⟩
  · rintro ⟨r, entered, slots, ordinal⟩
    exact ⟨r.operationId, r.entry, page_of_row entered, slots, ordinal⟩

theorem ordered_fresh (repoTasks : List Int) :
    Ordered sha256 maxCrashReplays (.fresh repoTasks) :=
  ⟨Chain.chained_empty, fun _ _ h => (nomatch h)⟩

theorem Ordered.next (h : Ordered sha256 maxCrashReplays L) (step : ChainStep maxCrashReplays L L')
    (named : ∀ k e, pages L k = none → pages L' k = some e →
      e.identity.identity.operationId sha256 = k) : Ordered sha256 maxCrashReplays L' := by
  refine ⟨step.chained (by omega) h.chained, fun k e found => ?_⟩
  rcases old : pages L k with _ | f
  · exact named k e old found
  · obtain ⟨g, found', same⟩ := step.kept old
    obtain rfl : g = e := Option.some.inj (found'.symm.trans found)
    rw [same]
    exact h.named k f old

theorem Closing.chainStep (maxCrashReplays : ℕ) (h : Closing L L') :
    ChainStep maxCrashReplays L L' := by
  cases h with
  | idle same =>
      unfold ChainStep
      rw [pages_same same]
      exact .idle _
  | @closed k r f same found started closes =>
      unfold ChainStep
      rw [pages_closed same found closes]
      exact .close _ (pages_some.mpr ⟨r, found, rfl⟩) (verdict_none.mpr started)

/-- A closing touches neither the identity of a page nor its successor. -/
theorem Closing.page (h : Closing L L') (k : String) :
    (pages L' k).map (fun e => (e.identity, e.successor)) =
      (pages L k).map fun e => (e.identity, e.successor) := by
  cases h with
  | idle same => rw [pages_same same]
  | @closed j r f same found started closes =>
      rw [pages_closed same found closes]
      by_cases here : k = j
      · subst here
        rw [Function.update_self, pages_some.mpr ⟨r, found, rfl⟩]
        rfl
      · rw [Function.update_of_ne here]

theorem Ordered.closing (h : Ordered sha256 maxCrashReplays L) (closing : Closing L L') :
    Ordered sha256 maxCrashReplays L' := by
  apply h.next (closing.chainStep maxCrashReplays)
  intro k e absent found
  have page := closing.page k
  rw [absent, found] at page
  cases page

/-- The latest row of a slot has not been superseded. -/
theorem Ordered.latest_unlinked (h : Ordered sha256 maxCrashReplays L) {s : Slot} {r : OperationRow}
    (latest : latestWorkflowOperation L s = some r) : r.supersededByOperationId = none := by
  have entered := latest_mem latest
  apply h.chained.unlinked (e := r.entry) (page_of_row entered.1)
  intro n used
  obtain ⟨q, member, slots, rfl⟩ := used_iff.mp used
  apply List.le_of_mem_argmax (f := OperationRow.executionOrdinal) _ latest
  exact List.mem_filter.mpr ⟨member, by simpa using slots.trans entered.2⟩

theorem unused_of_no_latest {s : Slot} (none_ : latestWorkflowOperation L s = none) (n : ℤ) :
    ¬ Used L s n := by
  intro used
  obtain ⟨r, member, slots, _⟩ := used_iff.mp used
  have empty := List.argmax_eq_none.mp none_
  have listed : r ∈ L.operations.rows.filter fun r => r.slot = s :=
    List.mem_filter.mpr ⟨member, by simpa using slots⟩
  rw [empty] at listed
  cases listed

/-! The chains, read off the rows. -/

theorem Ordered.once (h : Ordered sha256 maxCrashReplays L) {r q : OperationRow}
    (entered : r ∈ L.operations.rows) (entered' : q ∈ L.operations.rows) (slots : r.slot = q.slot)
    (ordinals : r.executionOrdinal = q.executionOrdinal) : r = q := by
  have same : r.operationId = q.operationId := h.chained.single r.operationId q.operationId
    r.entry q.entry (page_of_row entered) (page_of_row entered') slots ordinals
  have found := Table.find?_mem entered
  rw [same] at found
  exact Option.some.inj (found.symm.trans (Table.find?_mem entered'))

theorem Ordered.preceded (h : Ordered sha256 maxCrashReplays L) {r : OperationRow}
    (entered : r ∈ L.operations.rows) (positive : 0 < r.executionOrdinal) :
    ∃ p ∈ L.operations.rows, p.slot = r.slot ∧ p.executionOrdinal + 1 = r.executionOrdinal ∧
      p.supersededByOperationId = some r.operationId ∧
      (p.status = .failed ∨ p.status = .cancelled) := by
  obtain ⟨j, f, found, slots, ordinals, link, v, closed, retryable⟩ :=
    h.chained.preceded r.operationId r.entry (page_of_row entered) positive
  obtain ⟨p, entered', _, rfl⟩ := row_of_page found
  obtain ⟨_, rfl⟩ := verdict_some.mp closed
  exact ⟨p, entered', slots, ordinals, link, retryable⟩

theorem Ordered.superseded (h : Ordered sha256 maxCrashReplays L) {p : OperationRow}
    (entered : p ∈ L.operations.rows) (linked : p.supersededByOperationId ≠ none) :
    (p.status = .failed ∨ p.status = .cancelled) ∧
    ∃ r ∈ L.operations.rows, r.slot = p.slot ∧ r.executionOrdinal = p.executionOrdinal + 1 ∧
      p.supersededByOperationId = some r.operationId := by
  obtain ⟨j, f, found, slots, ordinals⟩ :=
    h.chained.followed p.operationId p.entry (page_of_row entered) linked
  obtain ⟨r, entered', _, rfl⟩ := row_of_page found
  have low : 0 ≤ p.executionOrdinal := (h.chained.range _ _ (page_of_row entered)).1
  have next : r.executionOrdinal = p.executionOrdinal + 1 := ordinals
  -- What precedes the follower is `p` itself.
  obtain ⟨q, entered'', slotq, ordq, link, closed⟩ := h.preceded entered' (by omega)
  obtain rfl : q = p := h.once entered'' entered (slotq.trans slots) (by omega)
  exact ⟨closed, r, entered', slots, next, link⟩

end Chains

/-! One classification. -/

/-- The outcomes after which the runner executes the operation. -/
def Outcome.Executes (o : Outcome) : Prop := o = .run ∨ o = .retryNoEffect

instance (o : Outcome) : Decidable o.Executes := inferInstanceAs (Decidable (_ ∨ _))

/-- What one classification of a slot does to an ordered ledger, whether it
answers or not: an execution gets the first ordinal above those in use. -/
structure Proceeds (sha256 : String → String) (maxCrashReplays : ℕ) (L : Ledger) (s : Slot)
    (answer : Except ReconcileError Decision × Desk) : Prop where
  ordered : Ordered sha256 maxCrashReplays answer.2.ledger
  grows : ∀ t n, Used L t n → Used answer.2.ledger t n
  above : ∀ a, answer.1 = .ok a → a.outcome.Executes → ∀ n, Used L s n →
    n < a.identity.executionOrdinal
  entered : ∀ a, answer.1 = .ok a → a.outcome.Executes →
    Used answer.2.ledger s a.identity.executionOrdinal
  first : ∀ a, answer.1 = .ok a → a.outcome = .run → a.identity.executionOrdinal = 0

/-- Every transaction of the ledger leaves it alone when it raises. -/
def Atomic {α : Type} (tx : Tx α) : Prop := ∀ L, Act.Raises tx L → Act.after tx L = L

theorem commit_raise {α : Type} {tx : Tx α} (atomic : Atomic tx) {d d' : Desk} {e : ReconcileError}
    (h : commit tx d = (.error e, d')) : d'.ledger = d.ledger := by
  unfold commit at h
  split at h
  · obtain ⟨_, rfl⟩ := Prod.mk.inj h
    rfl
  rcases result : tx d.ledger with ⟨e | a, L⟩
  · rw [result] at h
    obtain ⟨_, rfl⟩ := Prod.mk.inj h
    have kept := atomic d.ledger ⟨e, by rw [result]⟩
    unfold Act.after at kept
    rwa [result] at kept
  · rw [result] at h
    cases h

/-- A property of what a commit and what comes after it lead to. -/
theorem commit_rule {α β : Type} {P : Except ReconcileError β × Desk → Prop} {tx : Tx α}
    {f : α → Proc β} {d : Desk} (atomic : Atomic tx)
    (raised : ∀ e d', d'.ledger = d.ledger → P (.error e, d'))
    (returned : ∀ a d', tx d.ledger = (.ok a, d'.ledger) → P (f a d')) :
    P ((commit tx >>= f) d) := by
  rcases Act.bind_cases (commit tx) f d with ⟨e, failed, result⟩ | ⟨a, committed, result⟩
  · rw [result]
    exact raised e _ (commit_raise atomic failed)
  · rw [result]
    exact returned a _ (commit_ok committed)

section Step
variable {sha256 : String → String} {maxCrashReplays : ℕ} {o : Observation}
  {store : SecureArtifactStore} {parts : StateParts} {before : Fingerprints} {d : Desk}
  {L : Ledger} {s : Slot}

theorem Proceeds.idle {x : Except ReconcileError Decision} {d' : Desk}
    (ordered : Ordered sha256 maxCrashReplays L) (same : d'.ledger = L)
    (answer : ∀ a, x = .ok a → ¬ a.outcome.Executes) :
    Proceeds sha256 maxCrashReplays L s (x, d') where
  ordered := same.symm ▸ ordered
  grows _ _ used := same.symm ▸ used
  above a ha executes := absurd executes (answer a ha)
  entered a ha executes := absurd executes (answer a ha)
  first a ha run := absurd (.inl run) (answer a ha)

/-- A classification that began by closing a row. -/
theorem Proceeds.of_closing {L' : Ledger} {answer : Except ReconcileError Decision × Desk}
    (closing : Closing L L') (h : Proceeds sha256 maxCrashReplays L' s answer) :
    Proceeds sha256 maxCrashReplays L s answer := by
  have grows : ∀ t n, Used L t n → Used L' t n :=
    fun t n => (closing.chainStep maxCrashReplays).occupied
  exact ⟨h.ordered, fun t n used => h.grows t n (grows t n used),
    fun a ha executes n used => h.above a ha executes n (grows s n used), h.entered, h.first⟩

/-- An answer that enters one new row in the slot. -/
theorem Proceeds.entering {i : OperationIdentity} {outcome : Outcome} {new : FixedColumns}
    {d' : Desk} (ordered : Ordered sha256 maxCrashReplays L)
    (step : ChainStep maxCrashReplays L d'.ledger)
    (page : pages d'.ledger (i.operationId sha256) = some ⟨new, none, none⟩)
    (others : ∀ k, k ≠ i.operationId sha256 → pages L k = none → pages d'.ledger k = none)
    (identity : new.identity = i) (slots : new.slot = s)
    (above : ∀ n, Used L s n → n < i.executionOrdinal)
    (first : outcome = .run → i.executionOrdinal = 0) :
    Proceeds sha256 maxCrashReplays L s (.ok ⟨outcome, i, before⟩, d') := by
  constructor
  case ordered =>
    apply ordered.next step
    intro k f absent found
    by_cases here : k = i.operationId sha256
    · subst here
      obtain rfl := Option.some.inj (page.symm.trans found)
      rw [identity]
    · rw [others k here absent] at found
      cases found
  case grows => exact fun t n used => step.occupied used
  case above =>
    intro a ha _
    cases ha
    exact above
  case entered =>
    intro a ha _
    cases ha
    exact ⟨_, _, page, slots, congrArg OperationIdentity.executionOrdinal identity⟩
  case first =>
    intro a ha
    cases ha
    exact first

/-- The row that an identity starts. -/
def OperationIdentity.row (sha256 : String → String) (i : OperationIdentity) (parts : StateParts)
    (now : String) : OperationRow :=
  (i.startArgs sha256 parts).row now none

theorem OperationIdentity.row_identity (i : OperationIdentity) (parts : StateParts) (now : String) :
    (i.row sha256 parts now).fixed.identity = i := rfl

/-- An identity belongs to a slot of its task. -/
def OperationIdentity.Within (i : OperationIdentity) (s : Slot) : Prop :=
  i.workflowRunId = s.workflowRunId ∧ i.unitId = s.unitId ∧ i.phase = s.phase ∧
    i.operationStep = s.operationStep ∧ i.logicalAttempt = s.attempt

theorem OperationIdentity.row_slot (sha256 : String → String) {i : OperationIdentity}
    (within : i.Within parts.slot) (now : String) : (i.row sha256 parts now).fixed.slot = parts.slot := by
  obtain ⟨run, unit, phase, step, attempt⟩ := within
  simp [FixedColumns.slot, StartArgs.row, OperationIdentity.startArgs, OperationIdentity.row,
    OperationRow.fixed, *]

theorem FixedColumns.identity_within (c : FixedColumns) : c.identity.Within c.slot :=
  ⟨rfl, rfl, rfl, rfl, rfl⟩

/-- A retry of the last execution of a slot enters its successor. -/
theorem retry_proceeds {i : OperationIdentity} {e : Book.Entry String FixedColumns Verdict}
    {fingerprint now : String} {r : OperationRow} {d' : Desk}
    (ordered : Ordered sha256 maxCrashReplays d.ledger)
    (found : pages d.ledger (i.operationId sha256) = some e) (identity : e.identity.identity = i)
    (slots : e.identity.slot = parts.slot) (unlinked : e.successor = none)
    (below : i.executionOrdinal < maxCrashReplays)
    (retried : retryWorkflowOperation now (i.operationId sha256)
      ((i.next fingerprint).startArgs sha256 parts) "crash_no_observable_effect" d.ledger
        = (.ok r, d'.ledger)) :
    Proceeds sha256 maxCrashReplays d.ledger parts.slot
      (.ok ⟨.retryNoEffect, i.next fingerprint, before⟩, d') := by
  obtain ⟨q, foundq, rfl⟩ := pages_some.mp found
  obtain ⟨old, foundOld, cases_⟩ := retryWorkflowOperation_ok retried
  obtain rfl : q = old := Option.some.inj (foundq.symm.trans foundOld)
  have within : (i.next fingerprint).Within parts.slot := by
    have own := q.entry.identity.identity_within
    rw [identity, slots] at own
    exact own
  have newSlot := OperationIdentity.row_slot sha256 within now
  rcases cases_ with ⟨linked, _⟩ | ⟨_, status, _, _, ne, fresh, result⟩
  · -- A linked row is not the last of its slot.
    exact nomatch unlinked.symm.trans linked
  obtain ⟨v, retryable, verdict, page'⟩ := pages_superseded now "crash_no_observable_effect"
    foundOld status (StartArgs.row_opened _ now none) fresh
  have page : pages d'.ledger = Function.update (Function.update (pages d.ledger)
      (i.operationId sha256) (some ⟨q.fixed, some v, some ((i.next fingerprint).operationId sha256)⟩))
      ((i.next fingerprint).operationId sha256)
      (some ⟨((i.next fingerprint).row sha256 parts now).fixed, none, none⟩) :=
    (congrArg pages result).trans page'
  have absent : pages d.ledger ((i.next fingerprint).operationId sha256) = none :=
    pages_absent_of_fresh fresh
  have ordinal : q.fixed.executionOrdinal = i.executionOrdinal :=
    congrArg OperationIdentity.executionOrdinal identity
  have step : ChainStep maxCrashReplays d.ledger d'.ledger := by
    unfold ChainStep
    rw [page]
    exact .supersede v _ found absent retryable verdict unlinked (newSlot.trans slots.symm)
      (congrArg (· + 1) ordinal.symm) (lt_of_eq_of_lt ordinal below)
  refine .entering ordered step (page ▸ Function.update_self ..) ?_
    (OperationIdentity.row_identity (i.next fingerprint) parts now) newSlot ?_ (fun h => nomatch h)
  · intro k new absent'
    have notOld : k ≠ i.operationId sha256 := by
      rintro rfl
      rw [found] at absent'
      cases absent'
    rw [page]
    exact (Function.update_of_ne new ..).trans ((Function.update_of_ne notOld ..).trans absent')
  · intro n used
    have last : n ≤ q.fixed.executionOrdinal :=
      ordered.chained.last found unlinked (slots.symm ▸ used)
    change n < i.executionOrdinal + 1
    omega

/-- The first execution of a slot without rows. -/
theorem start_proceeds {fingerprint now : String} {r : OperationRow} {d' : Desk}
    (ordered : Ordered sha256 maxCrashReplays d.ledger)
    (unused : ∀ n, ¬ Used d.ledger parts.slot n)
    (started : startWorkflowOperation now ((parts.slot.firstIdentity fingerprint).startArgs sha256
      parts) none d.ledger = (.ok r, d'.ledger)) :
    Proceeds sha256 maxCrashReplays d.ledger parts.slot
      (.ok ⟨.run, parts.slot.firstIdentity fingerprint, before⟩, d') := by
  have within : (parts.slot.firstIdentity fingerprint).Within parts.slot := ⟨rfl, rfl, rfl, rfl, rfl⟩
  have newSlot := OperationIdentity.row_slot sha256 within now
  rcases startWorkflowOperation_ok started with ⟨found, same, _⟩ | ⟨fresh, result, _, _⟩
  · -- A row that matches is in the slot.
    obtain ⟨task, run, unit, phase, step, attempt, _⟩ := same
    have slots : r.slot = parts.slot := by
      unfold OperationRow.slot
      rw [task, run, unit, phase, step, attempt]
      rfl
    exact absurd (used_iff.mpr ⟨r, (Table.find?_some.mp found).1, slots, rfl⟩)
      (unused r.executionOrdinal)
  have page : pages d'.ledger = Function.update (pages d.ledger)
      ((parts.slot.firstIdentity fingerprint).operationId sha256)
      (some ⟨((parts.slot.firstIdentity fingerprint).row sha256 parts now).fixed, none, none⟩) :=
    (congrArg pages result).trans (pages_opened (StartArgs.row_opened _ now none) fresh)
  have step : ChainStep maxCrashReplays d.ledger d'.ledger := by
    unfold ChainStep
    rw [page]
    refine .start _ (pages_none.mpr (Table.find?_none.mpr fresh)) rfl ?_
    intro k e found slots
    exact unused _ ⟨k, e, found, slots.trans newSlot, rfl⟩
  refine .entering ordered step (page ▸ Function.update_self ..) ?_
    (OperationIdentity.row_identity (parts.slot.firstIdentity fingerprint) parts now) newSlot
    (fun n used => absurd used (unused n)) (fun _ => rfl)
  intro k new absent
  rw [page]
  exact (Function.update_of_ne new ..).trans absent

theorem Proceeds.pure {a : Decision} (ordered : Ordered sha256 maxCrashReplays d.ledger)
    (answer : ¬ a.outcome.Executes) :
    Proceeds sha256 maxCrashReplays d.ledger s ((pure a : Proc Decision) d) := by
  apply Proceeds.idle ordered rfl
  intro b hb
  cases hb
  exact answer

theorem continueFrom_proceeds {i : OperationIdentity} {row : OperationRow}
    {e : Book.Entry String FixedColumns Verdict} (ordered : Ordered sha256 maxCrashReplays d.ledger)
    (found : pages d.ledger (i.operationId sha256) = some e) (identity : e.identity.identity = i)
    (slots : e.identity.slot = parts.slot) (unlinked : e.successor = none) :
    Proceeds sha256 maxCrashReplays d.ledger parts.slot
      (continueFrom sha256 maxCrashReplays o parts before i row d) := by
  unfold continueFrom
  split
  · apply Proceeds.pure ordered
    dsimp only
    split <;> simp [Outcome.Executes]
  split
  · exact .pure ordered (by simp [Outcome.Executes])
  rename_i below
  apply commit_rule (fun _ => Act.transaction_rollback)
  · exact fun e d' same => .idle ordered same (fun a ha => nomatch ha)
  · exact fun r d' retried =>
      retry_proceeds ordered found identity slots unlinked (not_le.mp below) retried

/-- The page of a row that the ledger reports as the last of its slot. -/
theorem Ordered.latest_page (ordered : Ordered sha256 maxCrashReplays L) {r : OperationRow}
    (latest : latestWorkflowOperation L s = some r) :
    pages L ((identityForRow r).operationId sha256) = some r.entry ∧
      r.entry.identity.slot = s ∧ r.entry.successor = none := by
  have entered := latest_mem latest
  have page := page_of_row entered.1
  have named := ordered.named _ _ page
  have same : r.entry.identity.identity = identityForRow r := rfl
  rw [same] at named
  exact ⟨named.symm ▸ page, entered.2, ordered.latest_unlinked latest⟩

theorem adoptArtifact_proceeds {row : OperationRow} {envelope : OperationResultEnvelope}
    {path digest : String} (ordered : Ordered sha256 maxCrashReplays d.ledger)
    (latest : latestWorkflowOperation d.ledger parts.slot = some row) :
    Proceeds sha256 maxCrashReplays d.ledger parts.slot (adoptArtifact sha256 maxCrashReplays o
      parts before (identityForRow row) row envelope path digest d) := by
  obtain ⟨page, slots, unlinked⟩ := ordered.latest_page latest
  unfold adoptArtifact
  split
  · exact .pure ordered (by simp [Outcome.Executes])
  split
  · exact .pure ordered (by simp [Outcome.Executes])
  split
  · apply commit_rule (fun _ => Act.transaction_rollback)
    · exact fun e d' same => .idle ordered same (fun a ha => by cases ha)
    intro r d' cancelled
    have closing : Closing d.ledger d'.ledger :=
      finishWorkflowOperation_closing (by decide) cancelled
    have ordered' := ordered.closing closing
    apply Proceeds.of_closing closing
    -- The cancelled row is still the last of its slot.
    have kept := closing.page ((identityForRow row).operationId sha256)
    rw [page] at kept
    obtain ⟨e, found, same⟩ := Option.map_eq_some_iff.mp kept
    obtain ⟨identity, successor⟩ := Prod.mk.inj same
    obtain ⟨q, foundq, rfl⟩ := pages_some.mp found
    have rest : Proceeds sha256 maxCrashReplays d'.ledger parts.slot
        (continueFrom sha256 maxCrashReplays o parts before (identityForRow row) q d') :=
      continueFrom_proceeds ordered' found (congrArg FixedColumns.identity identity)
        ((congrArg FixedColumns.slot identity).trans slots) (successor.trans unlinked)
    rw [Act.bind_run]
    simp only [readLedger, foundq]
    exact rest
  · apply commit_rule (fun _ => Act.transaction_rollback)
    · exact fun e d' same => .idle ordered same (fun a ha => by cases ha)
    intro r d' completed
    have closing : Closing d.ledger d'.ledger := completeWorkflowOperation_closing completed
    exact .of_closing closing (.pure (ordered.closing closing) (by simp [Outcome.Executes]))

theorem classifyRow_proceeds {row : Entered d.ledger}
    (ordered : Ordered sha256 maxCrashReplays d.ledger)
    (latest : latestWorkflowOperation d.ledger parts.slot = some row.1) :
    Proceeds sha256 maxCrashReplays d.ledger parts.slot
      (classifyRow sha256 maxCrashReplays o store d.ledger parts before row d) := by
  obtain ⟨page, slots, unlinked⟩ := ordered.latest_page latest
  unfold classifyRow
  rcases validatedArtifact sha256 store d.ledger row with _ | artifact
  · exact .pure ordered (by simp [Outcome.Executes])
  by_cases completed : row.1.status = .completed
  · simp only [completed, if_true]
    rcases artifact with _ | ⟨envelope, path, digest⟩
    · exact .pure ordered (by simp [Outcome.Executes])
    · dsimp only
      split
      · exact .pure ordered (by simp [Outcome.Executes])
      · exact .pure ordered (by simp [Outcome.Executes])
  · simp only [completed, if_false]
    by_cases started : row.1.status = .started
    · rw [if_pos started]
      rcases artifact with _ | ⟨envelope, path, digest⟩
      · exact continueFrom_proceeds ordered page rfl slots unlinked
      · exact adoptArtifact_proceeds ordered latest
    · rw [if_neg started]
      exact continueFrom_proceeds ordered page rfl slots unlinked

theorem classify_proceeds (sha256 : String → String) (maxCrashReplays : ℕ) (o : Observation)
    (store : SecureArtifactStore) (phase step : String) (state : WorkflowState) (d : Desk)
    (ordered : Ordered sha256 maxCrashReplays d.ledger) (s : Slot)
    (slot : ∀ parts, stateParts d.ledger state phase step = .ok parts → parts.slot = s) :
    Proceeds sha256 maxCrashReplays d.ledger s
      (classify sha256 maxCrashReplays o store phase step state d) := by
  unfold classify
  rw [Act.bind_run]
  simp only [readLedger]
  rw [Act.bind_run]
  rcases ready : stateParts d.ledger state phase step with e | parts
  · exact .idle ordered rfl (fun a ha => nomatch ha)
  obtain rfl := slot parts ready
  simp only [checked, Act.lift_run, Except.mapError]
  have latest := latestEntered_map d.ledger parts.slot
  rcases entered : latestEntered d.ledger parts.slot with _ | row
  · rw [entered] at latest
    apply commit_rule (fun _ => Act.transaction_rollback)
    · exact fun e d' same => .idle ordered same (fun a ha => nomatch ha)
    · exact fun r d' started => start_proceeds ordered (unused_of_no_latest latest.symm) started
  · rw [entered] at latest
    exact classifyRow_proceeds ordered latest.symm

end Step

/-! Runs. -/

/-- What a runner reports of an operation. It starts and retries none itself. -/
inductive Report where
  | complete (operationId : String) (e : CompleteArgs)
  | fail (operationId errorKind error : String)
  | cancel (operationId : String) (e : FinishArgs)
  | cost (operationId : String) (paidAttemptOrdinal : Int) (providerCostUsd : Option PyFloat)
      (usageJson : String)

def Report.call : Report → Call
  | .complete operationId e => .complete operationId e
  | .fail operationId errorKind error => .fail operationId errorKind error
  | .cancel operationId e => .cancel operationId e
  | .cost operationId ordinal costUsd usage => .cost operationId ordinal costUsd usage

/-- One event in the life of a ledger. A classification sees any workspace and
any artifacts; its process may crash before one of its writes (`writesLeft`), or
after the last one and before its answer arrives (`lost`). -/
inductive Event where
  | classify (phase step : String) (state : WorkflowState) (o : Observation)
      (store : SecureArtifactStore) (writesLeft : Option ℕ) (lost : Bool)
  | report (now : String) (r : Report)

/-- A ledger, with the answers given so far and the slots they were given for. -/
structure Course where
  ledger : Ledger
  answers : List (Slot × Decision)

def Course.fresh (repoTasks : List Int) : Course := ⟨.fresh repoTasks, []⟩

def Course.step (sha256 : String → String) (maxCrashReplays : ℕ) (c : Course) : Event → Course
  | .classify phase step state o store writesLeft lost =>
    match stateParts c.ledger state phase step,
      classify sha256 maxCrashReplays o store phase step state ⟨c.ledger, writesLeft⟩ with
    | .ok parts, (.ok a, d) =>
      ⟨d.ledger, if lost then c.answers else c.answers ++ [(parts.slot, a)]⟩
    | _, (_, d) => ⟨d.ledger, c.answers⟩
  | .report now r => ⟨Act.after (r.call.exec now) c.ledger, c.answers⟩

/-- The answers for a slot after which the operation was executed. -/
def Course.executions (c : Course) (s : Slot) : List Decision :=
  (c.answers.filter fun p => p.1 = s ∧ p.2.outcome.Executes).map Prod.snd

/-- What holds of a slot after any events. -/
structure SlotLaw (maxCrashReplays : ℕ) (c : Course) (s : Slot) : Prop where
  /-- Its ordinals are `0, 1, 2, …` without a gap. -/
  ordinals : ∃ n ≤ 1 + maxCrashReplays, ∀ k : ℤ,
    (∃ r ∈ c.ledger.operations.rows, r.slot = s ∧ r.executionOrdinal = k) ↔ 0 ≤ k ∧ k < n
  once : ∀ r ∈ c.ledger.operations.rows, ∀ q ∈ c.ledger.operations.rows, r.slot = s → q.slot = s →
    r.executionOrdinal = q.executionOrdinal → r = q
  /-- An execution that is not the first has superseded the one before it, which is closed. -/
  preceded : ∀ r ∈ c.ledger.operations.rows, r.slot = s → 0 < r.executionOrdinal →
    ∃ p ∈ c.ledger.operations.rows, p.slot = s ∧ p.executionOrdinal + 1 = r.executionOrdinal ∧
      p.supersededByOperationId = some r.operationId ∧ (p.status = .failed ∨ p.status = .cancelled)
  /-- A superseded row is closed, and the next execution of the slot has superseded it. -/
  superseded : ∀ p ∈ c.ledger.operations.rows, p.slot = s → p.supersededByOperationId ≠ none →
    (p.status = .failed ∨ p.status = .cancelled) ∧
    ∃ r ∈ c.ledger.operations.rows, r.slot = s ∧ r.executionOrdinal = p.executionOrdinal + 1 ∧
      p.supersededByOperationId = some r.operationId
  runs : ((c.executions s).filter fun a => a.outcome = .run).length ≤ 1
  executed : (c.executions s).length ≤ 1 + maxCrashReplays
  /-- Each execution answers for a row of its own, in the order of the ordinals. -/
  increasing : (c.executions s).Pairwise
    fun a b => a.identity.executionOrdinal < b.identity.executionOrdinal
  entered : ∀ a ∈ c.executions s, ∃ r ∈ c.ledger.operations.rows,
    r.slot = s ∧ r.executionOrdinal = a.identity.executionOrdinal

/-- The invariant of a course: its chains, and that the executions answered for
a slot have increasing ordinals of its rows. -/
structure Course.Ordered (sha256 : String → String) (maxCrashReplays : ℕ) (c : Course) : Prop where
  chains : Operations.Ordered sha256 maxCrashReplays c.ledger
  increasing : ∀ s, (c.executions s).Pairwise
    fun a b => a.identity.executionOrdinal < b.identity.executionOrdinal
  entered : ∀ s, ∀ a ∈ c.executions s, Used c.ledger s a.identity.executionOrdinal
  first : ∀ s, ∀ a ∈ c.executions s, a.outcome = .run → a.identity.executionOrdinal = 0

section Runs
variable {sha256 : String → String} {maxCrashReplays : ℕ} {c : Course}

theorem Course.ordered_fresh (repoTasks : List Int) :
    (Course.fresh repoTasks).Ordered sha256 maxCrashReplays :=
  ⟨Operations.ordered_fresh repoTasks, fun _ => .nil, fun _ _ h => (nomatch h),
    fun _ _ h => (nomatch h)⟩

/-- A ledger may go on under the answers already given. -/
theorem Course.Ordered.advance (h : c.Ordered sha256 maxCrashReplays) {L : Ledger}
    (chains : Operations.Ordered sha256 maxCrashReplays L)
    (grows : ∀ s n, Used c.ledger s n → Used L s n) :
    Course.Ordered sha256 maxCrashReplays ⟨L, c.answers⟩ :=
  ⟨chains, h.increasing, fun s a ha => grows s _ (h.entered s a ha), h.first⟩

theorem Course.executions_append (c : Course) (L : Ledger) (t s : Slot) (a : Decision) :
    Course.executions ⟨L, c.answers ++ [(t, a)]⟩ s =
      c.executions s ++ if t = s ∧ a.outcome.Executes then [a] else [] := by
  unfold Course.executions
  rw [List.filter_append, List.map_append]
  congr 1
  by_cases counted : t = s ∧ a.outcome.Executes
  · simp [counted]
  · simp [counted]

theorem Course.mem_executions_append {L : Ledger} {t s : Slot} {a b : Decision} :
    b ∈ Course.executions ⟨L, c.answers ++ [(t, a)]⟩ s ↔
      b ∈ c.executions s ∨ (t = s ∧ a.outcome.Executes ∧ b = a) := by
  rw [Course.executions_append, List.mem_append]
  by_cases counted : t = s ∧ a.outcome.Executes
  · rw [if_pos counted]
    simp [counted]
  · rw [if_neg counted]
    simp only [List.not_mem_nil, or_false, iff_self_or]
    exact fun h => absurd ⟨h.1, h.2.1⟩ counted

/-- An execution that takes an ordinal above those in use keeps the order. -/
theorem Course.Ordered.answer (h : c.Ordered sha256 maxCrashReplays) {t : Slot} {a : Decision}
    {d : Desk} (proceeds : Proceeds sha256 maxCrashReplays c.ledger t (.ok a, d)) :
    Course.Ordered sha256 maxCrashReplays ⟨d.ledger, c.answers ++ [(t, a)]⟩ := by
  constructor
  case chains => exact proceeds.ordered
  case increasing =>
    intro s
    rw [Course.executions_append]
    by_cases counted : t = s ∧ a.outcome.Executes
    · obtain ⟨rfl, executes⟩ := counted
      rw [if_pos ⟨rfl, executes⟩, List.pairwise_append]
      refine ⟨h.increasing t, List.pairwise_singleton _ _, fun b hb a' ha' => ?_⟩
      obtain rfl := List.mem_singleton.mp ha'
      exact proceeds.above a' rfl executes _ (h.entered t b hb)
    · rw [if_neg counted, List.append_nil]
      exact h.increasing s
  case entered =>
    intro s b member
    rcases Course.mem_executions_append.mp member with old | ⟨rfl, executes, rfl⟩
    · exact proceeds.grows s _ (h.entered s b old)
    · exact proceeds.entered b rfl executes
  case first =>
    intro s b member run
    rcases Course.mem_executions_append.mp member with old | ⟨rfl, _, rfl⟩
    · exact h.first s b old run
    · exact proceeds.first b rfl run

theorem Report.closing (r : Report) (now : String) (L : Ledger) :
    Closing L (Act.after (r.call.exec now) L) := by
  by_cases raises : Act.Raises (r.call.exec now) L
  · rw [Call.raise_unchanged raises]
    exact .idle rfl
  obtain ⟨u, h⟩ := Act.returns_of_not_raises raises
  cases r with
  | complete k e =>
      obtain ⟨row, h⟩ := Act.discard_ok.mp h
      exact completeWorkflowOperation_closing h
  | fail k errorKind error =>
      obtain ⟨row, h⟩ := Act.discard_ok.mp h
      exact finishWorkflowOperation_closing (by decide) h
  | cancel k e =>
      obtain ⟨row, h⟩ := Act.discard_ok.mp h
      exact finishWorkflowOperation_closing (by decide) h
  | cost k ordinal cost usage =>
      obtain ⟨row, h⟩ := Act.discard_ok.mp h
      exact .idle (recordWorkflowOperationCost_ok h)

theorem Course.Ordered.step (c : Course) (e : Event) (h : c.Ordered sha256 maxCrashReplays) :
    (c.step sha256 maxCrashReplays e).Ordered sha256 maxCrashReplays := by
  cases e with
  | report now r =>
      have closing := r.closing now c.ledger
      exact h.advance (h.chains.closing closing)
        fun s n => (closing.chainStep maxCrashReplays).occupied
  | classify phase step state o store writesLeft lost =>
      rcases ready : stateParts c.ledger state phase step with refused | parts
      · -- The state is refused before the ledger is touched, whichever slot it is for.
        have proceeds := classify_proceeds sha256 maxCrashReplays o store phase step state
          ⟨c.ledger, writesLeft⟩ h.chains ⟨0, "", "", "", "", 0⟩
          (by intro parts ready'; rw [ready] at ready'; cases ready')
        simp only [Course.step, ready]
        exact h.advance proceeds.ordered proceeds.grows
      · have proceeds := classify_proceeds sha256 maxCrashReplays o store phase step state
          ⟨c.ledger, writesLeft⟩ h.chains parts.slot
          (by intro parts' ready'; rw [ready] at ready'; cases ready'; rfl)
        simp only [Course.step, ready]
        rcases result : classify sha256 maxCrashReplays o store phase step state
          ⟨c.ledger, writesLeft⟩ with ⟨_ | a, d⟩
        · rw [result] at proceeds
          exact h.advance proceeds.ordered proceeds.grows
        · rw [result] at proceeds
          cases lost with
          | true => exact h.advance proceeds.ordered proceeds.grows
          | false => exact h.answer proceeds

/-- The invariant says the law. -/
theorem Course.Ordered.law (h : c.Ordered sha256 maxCrashReplays) (s : Slot) :
    SlotLaw maxCrashReplays c s := by
  constructor
  case ordinals =>
    obtain ⟨n, bounded, initial⟩ := h.chains.chained.initial s
    exact ⟨n, by omega, fun k => used_iff.symm.trans (initial k)⟩
  case once =>
    intro r entered q entered' slots slots' ordinals
    exact h.chains.once entered entered' (slots.trans slots'.symm) ordinals
  case preceded =>
    intro r entered slots positive
    obtain ⟨p, entered', same, rest⟩ := h.chains.preceded entered positive
    exact ⟨p, entered', same.trans slots, rest⟩
  case superseded =>
    intro p entered slots linked
    obtain ⟨closed, r, entered', same, rest⟩ := h.chains.superseded entered linked
    exact ⟨closed, r, entered', same.trans slots, rest⟩
  case runs =>
    apply Chain.length_le_of_increasing (n := 0) ((h.increasing s).sublist List.filter_sublist)
    intro a member
    obtain ⟨member, run⟩ := List.mem_filter.mp member
    have first := h.first s a member (by simpa using run)
    omega
  case executed =>
    have range : ∀ a ∈ c.executions s,
        0 ≤ a.identity.executionOrdinal ∧ a.identity.executionOrdinal ≤ maxCrashReplays := by
      intro a member
      obtain ⟨k, e, found, _, ordinal⟩ := h.entered s a member
      rw [← ordinal]
      exact h.chains.chained.range k e found
    have bounded := Chain.length_le_of_increasing (h.increasing s) range
    omega
  case increasing => exact h.increasing s
  case entered => exact fun a member => used_iff.mp (h.entered s a member)

/-- Whatever the events, a slot is run at most once and executed at most
`1 + maxCrashReplays` times, under ordinals used once each and in order. -/
theorem slot_lawful (sha256 : String → String) (maxCrashReplays : ℕ) (repoTasks : List Int)
    (events : List Event) (s : Slot) :
    SlotLaw maxCrashReplays
      (run (Course.step sha256 maxCrashReplays) (.fresh repoTasks) events) s := by
  have ordered : (run (Course.step sha256 maxCrashReplays) (.fresh repoTasks) events).Ordered sha256
      maxCrashReplays :=
    run_invariant _ (fun c e => Course.Ordered.step c e) _ events (Course.ordered_fresh repoTasks)
  exact ordered.law s

end Runs
end Uta.Operations
