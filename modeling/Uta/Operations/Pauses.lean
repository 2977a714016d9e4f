/- Pauses of a slot: what they leave in the ledger, and how many of them classification
lets it resume from. -/
import Uta.Operations.Slots

namespace Uta.Operations
open Uta.Lib

/-- Every execution of the slot so far was a turn that returned cancelled. -/
structure Paused (L : Ledger) (s : Slot) : Prop where
  executed : ∃ r ∈ L.operations.rows, r.slot = s
  cancelled : ∀ r ∈ L.operations.rows, r.slot = s → r.status = .cancelled

instance (L : Ledger) (s : Slot) : Decidable (Paused L s) :=
  decidable_of_iff ((∃ r ∈ L.operations.rows, r.slot = s) ∧
    ∀ r ∈ L.operations.rows, r.slot = s → r.status = .cancelled)
    ⟨fun h => ⟨h.1, h.2⟩, fun h => ⟨h.1, h.2⟩⟩

/-- The executions of a slot. -/
def executionCount (L : Ledger) (s : Slot) : ℕ :=
  (L.operations.rows.filter fun r => r.slot = s).length

/-- The outcome of `classify`, where it does not raise, is another one. -/
def NeverAnswers (outcome : Outcome) (answer : Except ReconcileError Decision × Desk) : Prop :=
  ∀ a, answer.1 = .ok a → a.outcome ≠ outcome

/-- Wherever a slot is paused, with its evidence in order and nothing changed in
the workspace, classification goes on. -/
def ResumesPaused (sha256 : String → String) (maxCrashReplays : ℕ) : Prop :=
  ∀ (repoTasks : List Int) (events : List Event) (o : Observation) (store : SecureArtifactStore)
    (phase step : String) (state : WorkflowState) (L : Ledger) (parts : StateParts) (row : Entered L),
    L = (run (Course.step sha256 maxCrashReplays) (.fresh repoTasks) events).ledger →
    stateParts L state phase step = .ok parts → Paused L parts.slot →
    latestWorkflowOperation L parts.slot = some row.1 → o.fingerprint = row.1.inputFingerprint →
    (∃ artifact, validatedArtifact sha256 store L row = .ok artifact) →
    NeverAnswers .failIndeterminate
      (classify sha256 maxCrashReplays o store phase step state ⟨L, none⟩)

section Counting
variable {sha256 : String → String} {maxCrashReplays : ℕ} {c : Course} {s : Slot}

/-- A slot has been executed once for each of its ordinals. -/
theorem SlotLaw.count (law : SlotLaw maxCrashReplays c s) (k : ℤ) :
    (∃ r ∈ c.ledger.operations.rows, r.slot = s ∧ r.executionOrdinal = k) ↔
      0 ≤ k ∧ k < executionCount c.ledger s := by
  obtain ⟨n, _, initial⟩ := law.ordinals
  let ordinals := (c.ledger.operations.rows.filter fun r => r.slot = s).map
    OperationRow.executionOrdinal
  have member : ∀ k, k ∈ ordinals ↔ k ∈ (List.range n).map Int.ofNat := by
    intro k
    have listed : k ∈ ordinals ↔
        ∃ r ∈ c.ledger.operations.rows, r.slot = s ∧ r.executionOrdinal = k := by
      simp [ordinals, and_assoc]
    rw [listed, initial]
    constructor
    · rintro ⟨low, high⟩
      exact List.mem_map.mpr ⟨k.toNat, List.mem_range.mpr (by omega), Int.toNat_of_nonneg low⟩
    · intro inRange
      obtain ⟨m, below, rfl⟩ := List.mem_map.mp inRange
      have := List.mem_range.mp below
      constructor
      · exact Int.natCast_nonneg m
      · exact Int.ofNat_lt.mpr this
  have rows : (c.ledger.operations.rows.filter fun r => r.slot = s).Nodup :=
    (List.Nodup.of_map _ c.ledger.operations.unique).filter _
  have once : ordinals.Nodup := by
    refine List.Nodup.map_on (fun r entered q entered' same => ?_) rows
    obtain ⟨entered, slot⟩ := List.mem_filter.mp entered
    obtain ⟨entered', slot'⟩ := List.mem_filter.mp entered'
    exact law.once r entered q entered' (by simpa using slot) (by simpa using slot') same
  have naturals : ((List.range n).map Int.ofNat).Nodup :=
    List.nodup_range.map fun a b same => Int.ofNat.inj same
  have length := ((List.perm_ext_iff_of_nodup once naturals).mpr member).length_eq
  have count : executionCount c.ledger s = n := by
    simpa [ordinals, executionCount] using length
  rw [count]
  exact initial k

/-- The latest execution of a slot has the last of its ordinals. -/
theorem SlotLaw.latest (law : SlotLaw maxCrashReplays c s) {r : OperationRow}
    (latest : latestWorkflowOperation c.ledger s = some r) :
    r.executionOrdinal + 1 = executionCount c.ledger s := by
  obtain ⟨entered, slot⟩ := latest_mem latest
  have own := (law.count r.executionOrdinal).mp ⟨r, entered, slot, rfl⟩
  obtain ⟨q, entered', slot', last⟩ :=
    (law.count (executionCount c.ledger s - 1)).mpr ⟨by omega, by omega⟩
  have below : q.executionOrdinal ≤ r.executionOrdinal := by
    apply List.le_of_mem_argmax (f := OperationRow.executionOrdinal) _ latest
    exact List.mem_filter.mpr ⟨entered', by simpa using slot'⟩
  omega

end Counting

section Resuming
variable {sha256 : String → String} {maxCrashReplays : ℕ} {o : Observation}
  {store : SecureArtifactStore} {d : Desk} {parts : StateParts} {before : Fingerprints}

/-- In an unchanged workspace, going on from a row is a retry while its ordinal
is below the limit. -/
theorem continueFrom_indeterminate {i : OperationIdentity} {row : OperationRow}
    (noEffect : o.fingerprint = row.inputFingerprint) :
    NeverAnswers .failIndeterminate
        (continueFrom sha256 maxCrashReplays o parts before i row d) ↔
      i.executionOrdinal < maxCrashReplays := by
  unfold continueFrom
  rw [if_neg (not_not.mpr noEffect)]
  split
  · rename_i exhausted
    constructor
    · intro never
      exact absurd rfl (never _ rfl)
    · intro below
      omega
  · rename_i below
    constructor
    · intro _
      exact not_le.mp below
    · intro _ a answered
      have h : (do
          let _ ← commit (retryWorkflowOperation o.retriedAt (i.operationId sha256)
            ((i.next o.fingerprint).startArgs sha256 parts))
          pure ⟨.retryNoEffect, i.next o.fingerprint, before⟩ : Proc Decision) d = (.ok a, _) :=
        Prod.ext answered rfl
      obtain ⟨_, _, _, returned⟩ := Act.bind_ok.mp h
      obtain ⟨rfl, _⟩ := Act.pure_ok.mp returned
      exact nofun

/-- A cancelled row is gone on from once its evidence reads. -/
theorem classifyRow_cancelled {L : Ledger} {row : Entered L} (cancelled : row.1.status = .cancelled)
    (noEffect : o.fingerprint = row.1.inputFingerprint) :
    NeverAnswers .failIndeterminate
        (classifyRow sha256 maxCrashReplays o store L parts before row d) ↔
      (∃ artifact, validatedArtifact sha256 store L row = .ok artifact) ∧
        row.1.executionOrdinal < maxCrashReplays := by
  unfold classifyRow
  rcases validatedArtifact sha256 store L row with e | artifact
  · constructor
    · intro never
      exact absurd rfl (never _ rfl)
    · rintro ⟨⟨_, read⟩, _⟩
      cases read
  · have open_ : ¬ row.1.status = .completed := by rw [cancelled]; exact nofun
    have ended : ¬ row.1.status = .started := by rw [cancelled]; exact nofun
    simp only [open_, ended, if_false]
    rw [continueFrom_indeterminate noEffect]
    constructor
    · intro below
      exact ⟨⟨artifact, rfl⟩, below⟩
    · exact fun h => h.2

theorem classify_latest {phase step : String} {state : WorkflowState}
    (ready : stateParts d.ledger state phase step = .ok parts) {row : Entered d.ledger}
    (latest : latestWorkflowOperation d.ledger parts.slot = some row.1) :
    classify sha256 maxCrashReplays o store phase step state d =
      classifyRow sha256 maxCrashReplays o store d.ledger parts
        (if step = "interpret" then [] else o.outputsBefore) row d := by
  have entered : latestEntered d.ledger parts.slot = some row := by
    have same := latestEntered_map d.ledger parts.slot
    rw [latest] at same
    obtain ⟨q, found, equal⟩ := Option.map_eq_some_iff.mp same
    rw [found, Subtype.ext equal]
  unfold classify
  rw [Act.bind_run]
  simp only [readLedger]
  rw [Act.bind_run]
  simp only [checked, ready, Except.mapError, Act.lift_run, entered]

/-- In every reachable ledger, a paused slot in an unchanged workspace is resumed
exactly when its evidence reads and it was paused no more often than crashes may
be replayed. -/
theorem paused_resumes_iff (sha256 : String → String) (maxCrashReplays : ℕ)
    (repoTasks : List Int) (events : List Event) (o : Observation) (store : SecureArtifactStore)
    (phase step : String) (state : WorkflowState) {L : Ledger} {parts : StateParts} {row : Entered L}
    (reached : L = (run (Course.step sha256 maxCrashReplays) (.fresh repoTasks) events).ledger)
    (ready : stateParts L state phase step = .ok parts) (paused : Paused L parts.slot)
    (latest : latestWorkflowOperation L parts.slot = some row.1)
    (noEffect : o.fingerprint = row.1.inputFingerprint) :
    NeverAnswers .failIndeterminate
        (classify sha256 maxCrashReplays o store phase step state ⟨L, none⟩) ↔
      (∃ artifact, validatedArtifact sha256 store L row = .ok artifact) ∧
        executionCount L parts.slot ≤ maxCrashReplays := by
  have continued := @classify_latest sha256 maxCrashReplays o store ⟨L, none⟩ parts phase step
    state ready row latest
  have cancelled := paused.cancelled row.1 row.2 (latest_mem latest).2
  rw [continued, classifyRow_cancelled cancelled noEffect]
  have last : row.1.executionOrdinal + 1 = executionCount L parts.slot := by
    subst reached
    exact (slot_lawful sha256 maxCrashReplays repoTasks events parts.slot).latest latest
  have counted : row.1.executionOrdinal < maxCrashReplays ↔
      executionCount L parts.slot ≤ maxCrashReplays := by omega
  rw [counted]

end Resuming

/-! A turn that is cancelled and resumed. -/

/-- The digits of the text, which tell two executions of a slot apart. -/
def digits (text : String) : String := "op" ++ String.ofList (text.toList.filter Char.isDigit)

def turnState : WorkflowState where
  taskId := some 7
  workflowRunId := some "run"
  unitId := some "unit"

def quiet : Observation := ⟨"workspace", [], [], false, "", ""⟩

def turnSlot : Slot := ⟨7, "run", "unit", "generate_tests", "turn", 0⟩

/-- What a cancelled turn leaves of its execution. -/
def cancelledEnvelope (ordinal : Int) : OperationResultEnvelope :=
  ⟨⟨"run", "unit", "generate_tests", "turn", 0, ordinal, "workspace"⟩, "turn",
    ⟨some "cancelled", [], none⟩, "workspace", [], [], 1⟩

def pausedStore : SecureArtifactStore where
  present _ := true
  readBytes _ := none
  readVerified name digest :=
    if (name, digest) = ("run/unit/op00.json", "sha-0") then
      some ⟨"sha-0", some ⟨some "op00", some (cancelledEnvelope 0)⟩⟩
    else if (name, digest) = ("run/unit/op01.json", "sha-1") then
      some ⟨"sha-1", some ⟨some "op01", some (cancelledEnvelope 1)⟩⟩
    else none

def reconcileTurn : Event :=
  .classify "generate_tests" "turn" turnState quiet pausedStore none false

def cancelTurn (operationId digest : String) : Event :=
  .report "" (.cancel operationId
    { errorKind := "cancelled"
      error := "cancelled"
      resultingWorkspaceFingerprint := some "workspace"
      resultArtifactPath := some s!"run/unit/{operationId}.json"
      resultArtifactSha256 := some digest
      outputFingerprints := some [] })

def pausedOnce : List Event := [reconcileTurn, cancelTurn "op00" "sha-0"]

def pausedTwice : List Event :=
  pausedOnce ++ [reconcileTurn, cancelTurn "op01" "sha-1"]

/-- The ledger after the events, one crash replay allowed. -/
def pausedLedger (events : List Event) : Ledger := (run (Course.step digits 1) (.fresh [7]) events).ledger

theorem turnState_ready (L : Ledger) :
    stateParts L turnState "generate_tests" "turn" = .ok ⟨turnSlot, []⟩ := rfl

/-- The latest execution of the paused turn, its input and whether its evidence reads. -/
def pausedEvidence (L : Ledger) : Option (String × Bool) :=
  (latestEntered L turnSlot).map fun row =>
    (row.1.inputFingerprint, (validatedArtifact digits pausedStore L row).toBool)

theorem pausedEvidence_some {L : Ledger} (h : pausedEvidence L = some ("workspace", true)) :
    ∃ row : Entered L, latestWorkflowOperation L turnSlot = some row.1 ∧
      quiet.fingerprint = row.1.inputFingerprint ∧
      ∃ artifact, validatedArtifact digits pausedStore L row = .ok artifact := by
  obtain ⟨row, entered, same⟩ := Option.map_eq_some_iff.mp h
  obtain ⟨input, reads⟩ := Prod.mk.inj same
  refine ⟨row, ?_, input.symm, ?_⟩
  · rw [← latestEntered_map, entered, Option.map_some]
  · rcases read : validatedArtifact digits pausedStore L row with e | artifact
    · rw [read] at reads
      cases reads
    · exact ⟨artifact, rfl⟩

theorem pausedOnce_resumes : ∃ row : Entered (pausedLedger pausedOnce),
    latestWorkflowOperation (pausedLedger pausedOnce) turnSlot = some row.1 ∧
    (NeverAnswers .failIndeterminate
        (classify digits 1 quiet pausedStore "generate_tests" "turn" turnState
          ⟨pausedLedger pausedOnce, none⟩) ↔
      (∃ artifact, validatedArtifact digits pausedStore (pausedLedger pausedOnce) row = .ok artifact) ∧
        executionCount (pausedLedger pausedOnce) turnSlot ≤ 1) := by
  have evidence : pausedEvidence (pausedLedger pausedOnce) = some ("workspace", true) := by
    decide +kernel
  have paused : Paused (pausedLedger pausedOnce) turnSlot := by decide +kernel
  obtain ⟨row, latest, noEffect, _⟩ := pausedEvidence_some evidence
  exact ⟨row, latest, paused_resumes_iff digits 1 [7] pausedOnce quiet pausedStore _ _ turnState rfl
    (turnState_ready _) paused latest noEffect⟩

/-- One crash replay allowed, a turn that is paused twice is given up. -/
theorem pausedTwice_indeterminate : ¬ ResumesPaused digits 1 := by
  intro resumes
  have evidence : pausedEvidence (pausedLedger pausedTwice) = some ("workspace", true) := by
    decide +kernel
  have paused : Paused (pausedLedger pausedTwice) turnSlot := by decide +kernel
  have answer : ((classify digits 1 quiet pausedStore "generate_tests" "turn" turnState
      ⟨pausedLedger pausedTwice, none⟩).1.toOption.map Decision.outcome) =
        some .failIndeterminate := by
    decide +kernel
  obtain ⟨row, latest, noEffect, reads⟩ := pausedEvidence_some evidence
  have never := resumes [7] pausedTwice quiet pausedStore "generate_tests" "turn" turnState _ _ row rfl
    (turnState_ready _) paused latest noEffect reads
  obtain ⟨a, returned, given⟩ := Option.map_eq_some_iff.mp answer
  rcases result : classify digits 1 quiet pausedStore "generate_tests" "turn" turnState
      ⟨pausedLedger pausedTwice, none⟩ with ⟨e | b, d⟩
  · rw [result] at returned
    cases returned
  · rw [result] at returned never
    obtain rfl : b = a := Option.some.inj returned
    exact never b rfl given

end Uta.Operations
