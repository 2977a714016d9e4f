/- What an answer of `classify` rests on: inversion of its steps, and the
evidence behind every reused or adopted result. -/
import Uta.Operations.Reconcile
import Mathlib.Logic.Relation

namespace Uta.Operations
open Uta.Lib

/-! What the reads have checked. -/

section Reads
variable {sha256 : String → String} {store : SecureArtifactStore} {L : Ledger}

theorem decode_ok {data : ArtifactBytes} {e : OperationResultEnvelope}
    (h : decode sha256 data = .ok e) : e.validate = .ok () := by
  unfold decode at h
  rcases hp : data.payload with _ | ⟨operationId, envelope⟩
  · rw [hp] at h; cases h
  rcases envelope with _ | envelope
  · rw [hp] at h; cases h
  rw [hp] at h
  obtain ⟨_, valid, h⟩ := except_bind_ok.mp h
  obtain ⟨_, _, h⟩ := except_bind_ok.mp h
  cases h
  exact valid

theorem readArtifact_ok {path digest : String} {e : OperationResultEnvelope}
    (h : readArtifact sha256 store path digest = .ok e) : e.validate = .ok () := by
  unfold readArtifact at h
  obtain ⟨name, _, h⟩ := except_bind_ok.mp h
  rcases hr : store.readVerified name digest with _ | data
  · rw [hr] at h; cases h
  · rw [hr] at h
    exact decode_ok h

theorem readForIdentity_ok {i : OperationIdentity} {e : OperationResultEnvelope} {digest : String}
    (h : readForIdentity sha256 store i = .ok (some (e, digest))) : e.validate = .ok () := by
  unfold readForIdentity at h
  obtain ⟨name, _, h⟩ := except_bind_ok.mp h
  by_cases absent : store.present name = false
  · rw [if_pos absent] at h; cases h
  rw [if_neg absent] at h
  rcases hr : store.readBytes name with _ | data
  · rw [hr] at h; cases h
  · rw [hr] at h
    obtain ⟨envelope, decoded, h⟩ := except_bind_ok.mp h
    obtain ⟨_, _, h⟩ := except_bind_ok.mp h
    cases h
    exact decode_ok decoded

theorem envelopeForRow_ok {row : OperationRow} {e : OperationResultEnvelope} {path digest : String}
    (h : envelopeForRow sha256 store row = .ok (some (e, path, digest))) : e.validate = .ok () := by
  unfold envelopeForRow at h
  rcases hr : recordedArtifact row with _ | ⟨path', digest'⟩
  · rw [hr] at h
    obtain ⟨found, read, h⟩ := except_bind_ok.mp h
    rcases found with _ | ⟨envelope, digest'⟩
    · cases h
    · obtain ⟨name, _, h⟩ := except_bind_ok.mp h
      cases h
      exact readForIdentity_ok read
  · rw [hr] at h
    obtain ⟨envelope, read, h⟩ := except_bind_ok.mp h
    cases h
    exact readArtifact_ok read

/-- The artifact of a row is a valid envelope of its identity, prerequisites and kind. -/
structure ArtifactOf (row : OperationRow) (e : OperationResultEnvelope) : Prop where
  valid : e.validate = .ok ()
  identity : e.identity = identityForRow row
  prerequisites : row.prerequisiteOperationIds = some e.prerequisiteOperationIds
  kind : e.resultKind = expectedKind row

theorem rowPrerequisites_ok {row : OperationRow} {ids : List String} :
    rowPrerequisites row = .ok ids ↔ row.prerequisiteOperationIds = some ids := by
  unfold rowPrerequisites
  rcases row.prerequisiteOperationIds with _ | stored
  · exact ⟨fun h => (nomatch h), fun h => (nomatch h)⟩
  · exact ⟨fun h => congrArg some (Except.ok.inj h), fun h => congrArg Except.ok (Option.some.inj h)⟩

theorem artifactForRow_ok {row : OperationRow} {e : OperationResultEnvelope} {path digest : String}
    (h : artifactForRow sha256 store row = .ok (some (e, path, digest))) : ArtifactOf row e := by
  unfold artifactForRow at h
  obtain ⟨found, read, h⟩ := except_bind_ok.mp h
  rcases found with _ | ⟨envelope, path', digest'⟩
  · cases h
  obtain ⟨_, identity, h⟩ := except_bind_ok.mp h
  obtain ⟨ids, stored, h⟩ := except_bind_ok.mp h
  obtain ⟨_, prerequisites, h⟩ := except_bind_ok.mp h
  obtain ⟨_, kind, h⟩ := except_bind_ok.mp h
  cases h
  have listed := rowPrerequisites_ok.mp stored
  exact ⟨envelopeForRow_ok read, not_not.mp (refuseIf_ok.mp identity),
    listed.trans (congrArg some (not_not.mp (refuseIf_ok.mp prerequisites)).symm),
    not_not.mp (refuseIf_ok.mp kind)⟩

/-! The prerequisite walk. -/

/-- `q` is a prerequisite that `r` lists. -/
def Prerequisite (L : Ledger) (r q : OperationRow) : Prop :=
  ∃ ids id, r.prerequisiteOperationIds = some ids ∧ id ∈ ids ∧ L.operations.find? id = some q

/-- `q` is completed with a valid artifact, in the task, run and unit of `r`. -/
structure Sealed (sha256 : String → String) (store : SecureArtifactStore) (r q : OperationRow) :
    Prop where
  completed : q.status = .completed
  artifact : ∃ e path digest, artifactForRow sha256 store q = .ok (some (e, path, digest)) ∧
    ArtifactOf q e
  owner : q.repoTaskId = r.repoTaskId ∧ q.workflowRunId = r.workflowRunId ∧ q.unitId = r.unitId

theorem crossedField_none {p r : OperationRow} (h : crossedField p r = none) :
    p.repoTaskId = r.repoTaskId ∧ p.workflowRunId = r.workflowRunId ∧ p.unitId = r.unitId := by
  unfold crossedField at h
  grind

theorem prerequisiteRow_ok {row : OperationRow} {ancestors : List String} {id : String}
    {p : Entered L} (h : prerequisiteRow sha256 store L row ancestors id = .ok p) :
    L.operations.find? id = some p.1 ∧ Sealed sha256 store row p.1 := by
  unfold prerequisiteRow at h
  split at h
  · cases h
  split at h
  · cases h
  rename_i q found
  split at h
  · cases h
  rename_i completed
  split at h
  · cases h
  rename_i same
  split at h
  · cases h
  · cases h
  · rename_i artifact read
    cases h
    obtain ⟨e, path, digest⟩ := artifact
    exact ⟨found, not_not.mp completed, ⟨e, path, digest, read, artifactForRow_ok read⟩,
      crossedField_none same⟩

/-- One level of the walk: every listed prerequisite is there, sealed, and
walked in turn. -/
theorem validatePrerequisites_ok {row : Entered L} {seen : List String}
    (h : validatePrerequisites sha256 store L row seen = .ok ()) :
    ∃ ids, row.1.prerequisiteOperationIds = some ids ∧ ∀ id ∈ ids, ∃ p : Entered L,
      L.operations.find? id = some p.1 ∧ Sealed sha256 store row.1 p.1 ∧
      validatePrerequisites sha256 store L p (row.1.operationId :: seen) = .ok () := by
  rw [validatePrerequisites] at h
  split at h
  · cases h
  obtain ⟨ids, listed, h⟩ := except_bind_ok.mp h
  refine ⟨ids, rowPrerequisites_ok.mp listed, fun id member => ?_⟩
  obtain ⟨p, read, walked⟩ := except_bind_ok.mp (except_forM_ok.mp h id member)
  obtain ⟨found, sealed_⟩ := prerequisiteRow_ok read
  exact ⟨p, found, sealed_, walked⟩

/-- A prerequisite of a walked row is sealed, and walked below it. -/
theorem walked_next {a b : OperationRow} {entered : a ∈ L.operations.rows} {seen : List String}
    (walked : validatePrerequisites sha256 store L ⟨a, entered⟩ seen = .ok ())
    (prerequisite : Prerequisite L a b) : ∃ entered' : b ∈ L.operations.rows,
      Sealed sha256 store a b ∧
        validatePrerequisites sha256 store L ⟨b, entered'⟩ (a.operationId :: seen) = .ok () := by
  obtain ⟨ids, id, listed, member, found⟩ := prerequisite
  obtain ⟨ids', listed', each⟩ := validatePrerequisites_ok walked
  obtain rfl : ids = ids' := Option.some.inj (listed.symm.trans listed')
  obtain ⟨⟨p, entered'⟩, found', sealed_, walked'⟩ := each id member
  obtain rfl : b = p := Option.some.inj (found.symm.trans found')
  exact ⟨entered', sealed_, walked'⟩

/-- Every operation reached through prerequisites is sealed. -/
theorem reached_sealed {r q : OperationRow} (reached : Relation.TransGen (Prerequisite L) r q)
    (entered : r ∈ L.operations.rows) (seen : List String)
    (walked : validatePrerequisites sha256 store L ⟨r, entered⟩ seen = .ok ()) :
    Sealed sha256 store r q := by
  induction reached using Relation.TransGen.head_induction_on generalizing seen with
  | single prerequisite =>
      obtain ⟨_, sealed_, _⟩ := walked_next walked prerequisite
      exact sealed_
  | head prerequisite _ ih =>
      obtain ⟨entered', sealed_, walked'⟩ := walked_next walked prerequisite
      have later := ih entered' _ walked'
      obtain ⟨task, run, unit⟩ := later.owner
      obtain ⟨task', run', unit'⟩ := sealed_.owner
      exact ⟨later.completed, later.artifact, task.trans task', run.trans run', unit.trans unit'⟩

/-- No prerequisite id, the row's own or a reached one's, is missing. -/
theorem reached_present {r q : OperationRow} (reached : Relation.ReflTransGen (Prerequisite L) r q)
    (entered : r ∈ L.operations.rows) (seen : List String)
    (walked : validatePrerequisites sha256 store L ⟨r, entered⟩ seen = .ok ()) :
    ∃ ids, q.prerequisiteOperationIds = some ids ∧ ∀ id ∈ ids, L.operations.find? id ≠ none := by
  induction reached using Relation.ReflTransGen.head_induction_on generalizing seen with
  | refl =>
      obtain ⟨ids, listed, each⟩ := validatePrerequisites_ok walked
      refine ⟨ids, listed, fun id member => ?_⟩
      obtain ⟨p, found, _⟩ := each id member
      rw [found]
      exact Option.some_ne_none _
  | head prerequisite _ ih =>
      obtain ⟨entered', _, walked'⟩ := walked_next walked prerequisite
      exact ih entered' _ walked'

end Reads

/-! The steps of `classify`. -/

theorem commit_ok {α : Type} {tx : Tx α} {d d' : Desk} {a : α} (h : commit tx d = (.ok a, d')) :
    tx d.ledger = (.ok a, d'.ledger) := by
  unfold commit at h
  split at h
  · cases h
  · rcases ht : tx d.ledger with ⟨_ | b, L⟩
    · rw [ht] at h; cases h
    · rw [ht] at h; cases h; rfl

section Classify
variable {sha256 : String → String} {maxCrashReplays : ℕ} {o : Observation}
  {store : SecureArtifactStore}

/-- Past the artifact, a slot is given up, or its latest execution is retried. -/
theorem continueFrom_ok {parts : StateParts} {before : Fingerprints} {i : OperationIdentity}
    {row : OperationRow} {d d' : Desk} {a : Decision}
    (h : continueFrom sha256 maxCrashReplays o parts before i row d = (.ok a, d')) :
    (a.outcome ∈ [.verifyExistingEdit, .failUnsafe, .failIndeterminate] ∧ d' = d) ∨
    (a.outcome = .retryNoEffect ∧ a.identity = i.next o.fingerprint ∧
      i.executionOrdinal < maxCrashReplays ∧ ∃ r, commit (retryWorkflowOperation o.retriedAt
        (i.operationId sha256) ((i.next o.fingerprint).startArgs sha256 parts)) d = (.ok r, d')) := by
  unfold continueFrom at h
  split at h
  · obtain ⟨rfl, rfl⟩ := Act.pure_ok.mp h
    left
    exact ⟨by dsimp only; split <;> simp, rfl⟩
  split at h
  · obtain ⟨rfl, rfl⟩ := Act.pure_ok.mp h
    exact .inl ⟨by simp, rfl⟩
  · rename_i below
    obtain ⟨r, d1, retried, h⟩ := Act.bind_ok.mp h
    obtain ⟨rfl, rfl⟩ := Act.pure_ok.mp h
    exact .inr ⟨rfl, rfl, not_le.mp below, r, retried⟩

/-- A started row with an artifact is left alone, cancelled and gone on from, or adopted. -/
theorem adoptArtifact_ok {parts : StateParts} {before : Fingerprints} {i : OperationIdentity}
    {row : OperationRow} {e : OperationResultEnvelope} {path digest : String} {d d' : Desk}
    {a : Decision}
    (h : adoptArtifact sha256 maxCrashReplays o parts before i row e path digest d = (.ok a, d')) :
    (a.outcome = .failIndeterminate ∧ d' = d) ∨
    (∃ r row' d1, commit (cancelFromEnvelope o.now row e path digest) d = (.ok r, d1) ∧
      d1.ledger.operations.find? (i.operationId sha256) = some row' ∧
      continueFrom sha256 maxCrashReplays o parts before i row' d1 = (.ok a, d')) ∨
    (a.outcome = .adoptResult ∧ o.fingerprint = e.resultingWorkspaceFingerprint ∧
      o.outputsNow = e.outputFingerprints ∧
      ∃ r, commit (completeFromEnvelope o.now row e path digest) d = (.ok r, d')) := by
  unfold adoptArtifact at h
  split at h
  · obtain ⟨rfl, rfl⟩ := Act.pure_ok.mp h
    exact .inl ⟨rfl, rfl⟩
  rename_i workspace
  split at h
  · obtain ⟨rfl, rfl⟩ := Act.pure_ok.mp h
    exact .inl ⟨rfl, rfl⟩
  rename_i outputs
  split at h
  · obtain ⟨r, d1, cancelled, h⟩ := Act.bind_ok.mp h
    obtain ⟨L1, d2, read, h⟩ := Act.bind_ok.mp h
    obtain ⟨ledger, rfl⟩ := Prod.mk.inj read
    obtain rfl := Except.ok.inj ledger
    rcases found : d1.ledger.operations.find? (i.operationId sha256) with _ | row'
    · rw [found] at h; cases h
    · rw [found] at h
      exact .inr (.inl ⟨r, row', d1, cancelled, found, h⟩)
  · obtain ⟨r, d1, completed, h⟩ := Act.bind_ok.mp h
    obtain ⟨rfl, rfl⟩ := Act.pure_ok.mp h
    exact .inr (.inr ⟨rfl, not_not.mp workspace, not_not.mp outputs, r, completed⟩)

theorem validatedArtifact_ok {L : Ledger} {row : Entered L}
    {artifact : Option (OperationResultEnvelope × String × String)}
    (h : validatedArtifact sha256 store L row = .ok artifact) :
    artifactForRow sha256 store row.1 = .ok artifact ∧
      validatePrerequisites sha256 store L row [] = .ok () := by
  unfold validatedArtifact at h
  obtain ⟨found, read, h⟩ := except_bind_ok.mp h
  obtain ⟨_, walked, h⟩ := except_bind_ok.mp h
  cases h
  exact ⟨read, walked⟩

/-- From the latest row on: an answer that leaves the ledger, the adoption of
its artifact, or going on from it, where it is not completed. -/
theorem classifyRow_ok {L : Ledger} {parts : StateParts} {before : Fingerprints} {row : Entered L}
    {d d' : Desk} {a : Decision}
    (h : classifyRow sha256 maxCrashReplays o store L parts before row d = (.ok a, d')) :
    (a.outcome ∈ [.failUnsafe, .failIndeterminate] ∧ d' = d) ∨
    (a.outcome = .reuseResult ∧ d' = d ∧ ∃ e path digest,
      validatedArtifact sha256 store L row = .ok (some (e, path, digest)) ∧
      o.fingerprint = e.resultingWorkspaceFingerprint ∧ o.outputsNow = e.outputFingerprints) ∨
    (row.1.status = .started ∧ ∃ e path digest,
      validatedArtifact sha256 store L row = .ok (some (e, path, digest)) ∧
      adoptArtifact sha256 maxCrashReplays o parts before (identityForRow row.1) row.1 e path digest d
        = (.ok a, d')) ∨
    (row.1.status ≠ .completed ∧
      continueFrom sha256 maxCrashReplays o parts before (identityForRow row.1) row.1 d = (.ok a, d')) := by
  unfold classifyRow at h
  rcases read : validatedArtifact sha256 store L row with _ | artifact
  · rw [read] at h
    obtain ⟨rfl, rfl⟩ := Act.pure_ok.mp h
    exact .inl ⟨by simp, rfl⟩
  rw [read] at h
  by_cases completed : row.1.status = .completed
  · simp only [completed, if_true] at h
    rcases artifact with _ | ⟨e, path, digest⟩
    · obtain ⟨rfl, rfl⟩ := Act.pure_ok.mp h
      exact .inl ⟨by simp, rfl⟩
    · dsimp only at h
      split at h
      · rename_i same
        obtain ⟨rfl, rfl⟩ := Act.pure_ok.mp h
        exact .inr (.inl ⟨rfl, rfl, e, path, digest, rfl, same.1, same.2⟩)
      · obtain ⟨rfl, rfl⟩ := Act.pure_ok.mp h
        exact .inl ⟨by simp, rfl⟩
  · simp only [completed, if_false] at h
    by_cases started : row.1.status = .started
    · rw [if_pos started] at h
      rcases artifact with _ | ⟨e, path, digest⟩
      · exact .inr (.inr (.inr ⟨completed, h⟩))
      · exact .inr (.inr (.inl ⟨started, e, path, digest, rfl, h⟩))
    · rw [if_neg started] at h
      exact .inr (.inr (.inr ⟨completed, h⟩))

theorem classify_ok {phase step : String} {state : WorkflowState} {d d' : Desk} {a : Decision}
    (h : classify sha256 maxCrashReplays o store phase step state d = (.ok a, d')) :
    ∃ parts, stateParts d.ledger state phase step = .ok parts ∧
      ((latestWorkflowOperation d.ledger parts.slot = none ∧ a.outcome = .run ∧
        a.identity = parts.slot.firstIdentity o.fingerprint ∧
        ∃ r, commit (startWorkflowOperation o.now
          ((parts.slot.firstIdentity o.fingerprint).startArgs sha256 parts) none) d = (.ok r, d')) ∨
      (∃ row before, latestWorkflowOperation d.ledger parts.slot = some row.1 ∧
        classifyRow sha256 maxCrashReplays o store d.ledger parts before row d = (.ok a, d'))) := by
  unfold classify at h
  obtain ⟨L, d1, read, h⟩ := Act.bind_ok.mp h
  obtain ⟨ledger, rfl⟩ := Prod.mk.inj read
  obtain rfl := Except.ok.inj ledger
  obtain ⟨parts, d1, lifted, h⟩ := Act.bind_ok.mp h
  obtain ⟨checked_, rfl⟩ := Prod.mk.inj lifted
  rcases ready : stateParts d.ledger state phase step with _ | parts'
  · rw [ready] at checked_; cases checked_
  rw [ready] at checked_
  obtain rfl : parts' = parts := Except.ok.inj checked_
  refine ⟨parts', rfl, ?_⟩
  rw [← latestEntered_map]
  rcases latest : latestEntered d.ledger parts'.slot with _ | row
  · simp only [latest] at h
    obtain ⟨r, d1, started, h⟩ := Act.bind_ok.mp h
    obtain ⟨rfl, rfl⟩ := Act.pure_ok.mp h
    exact .inl ⟨rfl, rfl, rfl, r, started⟩
  · simp only [latest] at h
    exact .inr ⟨row, _, rfl, h⟩

end Classify

/-! The evidence behind a reused or adopted result. -/

/-- The artifact of the slot's latest row, the workspace it was found in, and
the chain of operations it rests on. -/
structure Evidence (sha256 : String → String) (store : SecureArtifactStore) (o : Observation)
    (L : Ledger) (row : OperationRow) (e : OperationResultEnvelope) (path digest : String) : Prop where
  read : artifactForRow sha256 store row = .ok (some (e, path, digest))
  artifact : ArtifactOf row e
  workspace : e.resultingWorkspaceFingerprint = o.fingerprint
  outputs : e.outputFingerprints = o.outputsNow
  /-- Every operation reachable through prerequisites is completed, with a valid
  artifact, in the same task, run and unit. -/
  chain : ∀ q, Relation.TransGen (Prerequisite L) row q → Sealed sha256 store row q
  /-- No prerequisite id on the way is missing from the ledger. -/
  present : ∀ q, Relation.ReflTransGen (Prerequisite L) row q →
    ∃ ids, q.prerequisiteOperationIds = some ids ∧ ∀ id ∈ ids, L.operations.find? id ≠ none

/-- What holds of the answer of one `classify` call on any ledger. -/
structure AnswerGrounded (sha256 : String → String) (store : SecureArtifactStore) (o : Observation)
    (phase step : String) (state : WorkflowState) (d : Desk)
    (answer : Except ReconcileError Decision × Desk) : Prop where
  /-- A reused or adopted result is that of the slot's latest row. -/
  grounded : ∀ a, answer.1 = .ok a → a.outcome = .reuseResult ∨ a.outcome = .adoptResult →
    ∃ parts row e path digest, stateParts d.ledger state phase step = .ok parts ∧
      latestWorkflowOperation d.ledger parts.slot = some row ∧
      Evidence sha256 store o d.ledger row e path digest ∧
      (a.outcome = .reuseResult → answer.2.ledger = d.ledger) ∧
      -- After an adoption the row is completed with the artifact's evidence.
      (a.outcome = .adoptResult → ∃ r, answer.2.ledger.operations.find? row.operationId = some r ∧
        r.status = .completed ∧
        r.resultingWorkspaceFingerprint = some e.resultingWorkspaceFingerprint ∧
        r.resultArtifactPath = some path ∧ r.resultArtifactSha256 = some digest ∧
        r.outputFingerprints = e.outputFingerprints)
  /-- A slot whose latest row is completed is not executed again. -/
  completed : ∀ a parts row, answer.1 = .ok a → stateParts d.ledger state phase step = .ok parts →
    latestWorkflowOperation d.ledger parts.slot = some row → row.status = .completed →
    a.outcome ≠ .run ∧ a.outcome ≠ .retryNoEffect

section Grounded
variable {sha256 : String → String} {maxCrashReplays : ℕ} {o : Observation}
  {store : SecureArtifactStore}

theorem evidence_of_validated {L : Ledger} {row : Entered L} {e : OperationResultEnvelope}
    {path digest : String}
    (validated : validatedArtifact sha256 store L row = .ok (some (e, path, digest)))
    (workspace : o.fingerprint = e.resultingWorkspaceFingerprint)
    (outputs : o.outputsNow = e.outputFingerprints) :
    Evidence sha256 store o L row.1 e path digest := by
  obtain ⟨read, walked⟩ := validatedArtifact_ok validated
  exact ⟨read, artifactForRow_ok read, workspace.symm, outputs.symm,
    fun q reached => reached_sealed reached row.2 [] walked,
    fun q reached => reached_present reached row.2 [] walked⟩

/-- The row that `completeFromEnvelope` leaves. -/
theorem completeFromEnvelope_ok {now : String} {row r : OperationRow} {L L' : Ledger}
    {e : OperationResultEnvelope} {path digest : String}
    (entered : row ∈ L.operations.rows) (started : row.status = .started)
    (h : completeFromEnvelope now row e path digest L = (.ok r, L')) :
    ∃ r, L'.operations.find? row.operationId = some r ∧ r.status = .completed ∧
      r.resultingWorkspaceFingerprint = some e.resultingWorkspaceFingerprint ∧
      r.resultArtifactPath = some path ∧ r.resultArtifactSha256 = some digest ∧
      r.outputFingerprints = e.outputFingerprints := by
  have own : L.operations.find? row.operationId = some row := Table.find?_mem entered
  obtain ⟨q, found, ⟨done, _⟩ | ⟨_, _, rfl⟩⟩ := completeWorkflowOperation_ok h
  · obtain rfl : row = q := Option.some.inj (own.symm.trans found)
    rw [started] at done
    cases done
  · refine ⟨_, by rw [Ledger.find?_update, if_pos rfl, own, Option.map_some], ?_⟩
    simp [completedRow, started]

theorem grounded_of_row {L : Ledger} {parts : StateParts} {before : Fingerprints} {row : Entered L}
    {d d' : Desk} {a : Decision} (ledger : d.ledger = L)
    (h : classifyRow sha256 maxCrashReplays o store L parts before row d = (.ok a, d'))
    (kept : a.outcome = .reuseResult ∨ a.outcome = .adoptResult) :
    ∃ e path digest, Evidence sha256 store o L row.1 e path digest ∧
      (a.outcome = .reuseResult → d' = d) ∧
      (a.outcome = .adoptResult → ∃ r, d'.ledger.operations.find? row.1.operationId = some r ∧
        r.status = .completed ∧
        r.resultingWorkspaceFingerprint = some e.resultingWorkspaceFingerprint ∧
        r.resultArtifactPath = some path ∧ r.resultArtifactSha256 = some digest ∧
        r.outputFingerprints = e.outputFingerprints) := by
  have not_continued : ∀ {i r d1}, continueFrom sha256 maxCrashReplays o parts before i r d1 =
      (.ok a, d') → False := by
    intro i r d1 continued
    rcases continueFrom_ok continued with ⟨answer, _⟩ | ⟨answer, _⟩
    · rcases kept with kept | kept <;> simp [kept] at answer
    · rcases kept with kept | kept <;> simp [kept] at answer
  rcases classifyRow_ok h with ⟨answer, _⟩ | ⟨reuse, rfl, e, path, digest, validated, same⟩ |
    ⟨started, e, path, digest, validated, adopted⟩ | ⟨_, continued⟩
  · rcases kept with kept | kept <;> simp [kept] at answer
  · refine ⟨e, path, digest, evidence_of_validated validated same.1 same.2, fun _ => rfl, ?_⟩
    intro adopt
    rw [reuse] at adopt
    cases adopt
  · rcases adoptArtifact_ok adopted with ⟨answer, _⟩ | ⟨_, _, _, _, _, continued⟩ |
      ⟨adopt, workspace, outputs, r, completed⟩
    · rcases kept with kept | kept <;> simp [kept] at answer
    · exact (not_continued continued).elim
    · refine ⟨e, path, digest, evidence_of_validated validated workspace outputs, ?_, fun _ => ?_⟩
      · intro reuse
        rw [adopt] at reuse
        cases reuse
      · exact completeFromEnvelope_ok (ledger ▸ row.2) started (commit_ok completed)
  · exact (not_continued continued).elim

/-- Every answer of `classify` is grounded, whatever the ledger, the artifacts
and the workspace, and wherever the process may crash. -/
theorem classify_grounded (sha256 : String → String) (maxCrashReplays : ℕ) (o : Observation)
    (store : SecureArtifactStore) (phase step : String) (state : WorkflowState) (d : Desk) :
    AnswerGrounded sha256 store o phase step state d
      (classify sha256 maxCrashReplays o store phase step state d) := by
  constructor
  case grounded =>
    intro a answered kept
    have h : classify sha256 maxCrashReplays o store phase step state d = (.ok a, _) :=
      Prod.ext answered rfl
    obtain ⟨parts, ready, ⟨_, run, _⟩ | ⟨row, before, latest, continued⟩⟩ := classify_ok h
    · rcases kept with kept | kept <;> simp [kept] at run
    · obtain ⟨e, path, digest, evidence, reused, adopted⟩ := grounded_of_row rfl continued kept
      exact ⟨parts, row.1, e, path, digest, ready, latest, evidence,
        fun reuse => congrArg Desk.ledger (reused reuse), adopted⟩
  case completed =>
    intro a parts row answered ready latest done
    have h : classify sha256 maxCrashReplays o store phase step state d = (.ok a, _) :=
      Prod.ext answered rfl
    obtain ⟨parts', ready', ⟨none_, _⟩ | ⟨row', before, latest', continued⟩⟩ := classify_ok h
    · obtain rfl : parts = parts' := Except.ok.inj (ready.symm.trans ready')
      rw [latest] at none_
      cases none_
    · obtain rfl : parts = parts' := Except.ok.inj (ready.symm.trans ready')
      obtain rfl : row = row'.1 := Option.some.inj (latest.symm.trans latest')
      rcases classifyRow_ok continued with ⟨answer, _⟩ | ⟨reuse, _⟩ | ⟨started, _⟩ | ⟨open_, _⟩
      · constructor <;> rintro same <;> simp [same] at answer
      · rw [reuse]
        exact ⟨by decide, by decide⟩
      · rw [done] at started
        cases started
      · exact absurd done open_

end Grounded
end Uta.Operations
