/- The mutation gate of the Java cycle, on the counts of one PIT report: where the phase, the
precheck and the final status agree. -/
import Uta.Cycle.Edges
import Uta.Lib.Dict
import Uta.Lib.Percent

namespace Uta.Cycle.Java
open Uta.Lib Uta.Lib.Marks
open Uta.Generation (Evidence)

/-! Reports. -/

/-- A `<mutation>` of a PIT report. -/
structure Mutation where
  status : Option String
  mutatedClass : Option String
  deriving DecidableEq

/-- The counts of one class. -/
structure MutationCounts where
  killed : ℕ := 0
  survived : ℕ := 0
  total : ℕ := 0
  statusCounts : String → ℕ := fun _ => 0

/-- `mutation.get("status") or "UNKNOWN"`. -/
def Mutation.statusText (m : Mutation) : String :=
  match m.status with
  | none | some "" => "UNKNOWN"
  | some status => status

/-- One row of the loop of `compute_mutation_stats`. -/
def MutationCounts.count (fqn : String) (n : MutationCounts) (m : Mutation) : MutationCounts :=
  if m.mutatedClass = some fqn then
    { killed := if m.statusText = "KILLED" then n.killed + 1 else n.killed
      survived := if m.statusText = "KILLED" then n.survived
        else if m.statusText = "SURVIVED" then n.survived + 1 else n.survived
      total := n.total + 1
      statusCounts :=
        Function.update n.statusCounts m.statusText (n.statusCounts m.statusText + 1) }
  else n

/-- `killed / total * 100.0`. -/
def MutationCounts.score (n : MutationCounts) : ℚ :=
  if n.total = 0 then 100 else binary64 (binary64 (n.killed / n.total) * 100)

structure MutationStats where
  score : ℚ
  counts : MutationCounts

/-- `compute_mutation_stats`, of a report that need not be there. -/
def computeMutationStats (report : Option (List Mutation)) (fqn : String) : MutationStats :=
  match report with
  | none => ⟨0, {}⟩
  | some rows =>
    let counts := rows.foldl (MutationCounts.count fqn) {}
    ⟨counts.score, counts⟩

/-- What the phases read of a report. -/
def MutationStats.pit (stats : MutationStats) : Pit := .report stats.score stats.counts.survived

/-- The report of the run on each class of the batch. -/
abbrev Reports := String → Option (List Mutation)

def Reports.stats (reports : Reports) (fqn : String) : MutationStats :=
  computeMutationStats (reports fqn) fqn

/-- The same reports answer the precheck and the measurement. -/
def Answer.reporting (a : Answer) (reports : Reports) : Answer :=
  { a with
    existing := fun fqn => { a.existing fqn with pit := (reports.stats fqn).pit }
    pit := fun fqn => (reports.stats fqn).pit }

/-! The final status. -/

inductive ClassVerdict where
  | fail | mutationFail | pass
  deriving DecidableEq

/-- `status_with_mutation_gate`. -/
def statusWithMutationGate (testOk : Bool) (lineCov : ℚ) (coverageGate mutationGateScore : ℤ)
    (mutationScore : ℚ) : ClassVerdict :=
  if testOk = false ∨ lineCov < coverageGate then .fail
  else if 0 < mutationGateScore ∧ mutationScore < mutationGateScore then .mutationFail
  else .pass

/-- `evidence["mutation_stats_by_class"]` of the measurement. -/
def mutationStatsByClass (setting : Setting) (reports : Reports) : List (String × MutationStats) :=
  if setting.batch = [] ∨ setting.mutationGate ≤ 0 then []
  else setting.batch.map fun fqn => (fqn, reports.stats fqn)

/-- The status of a class in `complete_generation`, where no turn ended the cycle. -/
def completedStatus (setting : Setting) (reports : Reports) (testOk : Bool) (lineCov : ℚ)
    (fqn : String) : ClassVerdict :=
  statusWithMutationGate testOk lineCov setting.coverageGate setting.mutationGate
    ((Dict.get? (mutationStatsByClass setting reports) fqn).elim 0 MutationStats.score)

/-! The counts of a report. -/

/-- The rows of one class. -/
def rowsOf (fqn : String) (rows : List Mutation) : List Mutation :=
  rows.filter fun m => decide (m.mutatedClass = some fqn)

theorem counts_spec (fqn : String) (rows : List Mutation) (n : MutationCounts) :
    (rows.foldl (MutationCounts.count fqn) n).killed =
        n.killed + (rowsOf fqn rows).countP (fun m => decide (m.statusText = "KILLED")) ∧
      (rows.foldl (MutationCounts.count fqn) n).survived =
        n.survived + (rowsOf fqn rows).countP (fun m => decide (m.statusText = "SURVIVED")) ∧
      (rows.foldl (MutationCounts.count fqn) n).total = n.total + (rowsOf fqn rows).length := by
  induction rows generalizing n with
  | nil => exact ⟨rfl, rfl, rfl⟩
  | cons m rows ih =>
      obtain ⟨killed, survived, total⟩ := ih (n.count fqn m)
      rw [List.foldl_cons, killed, survived, total]
      by_cases own : m.mutatedClass = some fqn
      · have kept : rowsOf fqn (m :: rows) = m :: rowsOf fqn rows :=
          List.filter_cons_of_pos (decide_eq_true own)
        rw [kept, MutationCounts.count, if_pos own, List.countP_cons, List.countP_cons,
          List.length_cons]
        refine ⟨?_, ?_, ?_⟩
        · by_cases dead : m.statusText = "KILLED" <;> simp [dead]; omega
        · by_cases dead : m.statusText = "KILLED"
          · simp [dead]
          · by_cases alive : m.statusText = "SURVIVED" <;> simp [alive, dead]; omega
        · dsimp only
          omega
      · have kept : rowsOf fqn (m :: rows) = rowsOf fqn rows :=
          List.filter_cons_of_neg (by simpa using own)
        rw [kept, MutationCounts.count, if_neg own]
        exact ⟨rfl, rfl, rfl⟩

theorem score_nonneg (reports : Reports) (fqn : String) : 0 ≤ (reports.stats fqn).score := by
  unfold Reports.stats
  rcases reports fqn with _ | rows
  · exact le_rfl
  · show 0 ≤ MutationCounts.score _
    rw [MutationCounts.score]
    split
    · norm_num
    · apply binary64_nonneg
      apply mul_nonneg (binary64_nonneg (by positivity))
      norm_num

/-- A mutant of the class survived. -/
def Survivor (reports : Reports) (fqn : String) : Prop :=
  ∃ rows, reports fqn = some rows ∧
    ∃ m ∈ rows, m.mutatedClass = some fqn ∧ m.statusText = "SURVIVED"

theorem survived_iff (reports : Reports) (fqn : String) :
    0 < (reports.stats fqn).counts.survived ↔ Survivor reports fqn := by
  unfold Reports.stats Survivor
  rcases reports fqn with _ | rows
  · simp [computeMutationStats]
  · obtain ⟨-, survived, -⟩ := counts_spec fqn rows {}
    show 0 < (rows.foldl (MutationCounts.count fqn) {}).survived ↔ _
    rw [survived, Nat.zero_add, List.countP_pos_iff]
    simp [rowsOf, and_assoc]

theorem get?_map_mem {β : Type} (f : String → β) {keys : List String} {key : String}
    (member : key ∈ keys) : Dict.get? (keys.map fun k => (k, f k)) key = some (f key) := by
  induction keys with
  | nil => cases member
  | cons k keys ih =>
      rw [List.map_cons, Dict.get?_cons]
      by_cases later : key ∈ keys
      · rw [ih later, Option.some_or]
      · have own : k = key := ((List.mem_cons.mp member).resolve_right later).symm
        have none_ : Dict.get? (keys.map fun k => (k, f k)) key = none := by
          rw [Option.eq_none_iff_forall_ne_some]
          intro v found
          obtain ⟨x, other, same⟩ := List.mem_map.mp (Dict.mem_of_get? found)
          exact later ((Prod.mk.inj same).1 ▸ other)
        rw [none_, Option.none_or, if_pos own, own]

/-! What the three gates ask. -/

section Gates
variable (setting : Setting) (a : Answer) (s : State) (reports : Reports)

/-- The measurement lets the batch on. -/
def MeasurePasses : Prop :=
  (measureMutation setting (a.reporting reports) s).1 ∈ [PhaseOutcome.passed, .skipped]

/-- The class's score is at the gate. -/
def AtGate (fqn : String) : Prop := (setting.mutationGate : ℚ) ≤ (reports.stats fqn).score

instance (fqn : String) : Decidable (AtGate setting reports fqn) :=
  inferInstanceAs (Decidable (_ ≤ _))

/-- What the precheck asks besides mutation. -/
structure Prechecked : Prop where
  classLevel : ¬ (setting.ciIncremental = true ∧ setting.mavenEnforcer = true)
  testFiles : ∀ fqn ∈ setting.batch, (a.existing fqn).testFile = true
  green : a.existingTestsPass = true
  report : a.existingReport = true
  surefire : ∀ fqn ∈ setting.batch, (a.existing fqn).surefirePassed = true
  covered : ∀ fqn ∈ setting.batch, (setting.coverageGate : ℚ) ≤ (a.existing fqn).line

theorem unreported_reporting : unreported setting (a.reporting reports) = none := by
  rw [unreported, List.find?_eq_none]
  intro p member
  obtain ⟨fqn, -, rfl⟩ := List.mem_map.mp member
  exact Bool.false_ne_true

theorem mem_surviving (fqn : String) : fqn ∈ surviving setting (a.reporting reports) ↔
    fqn ∈ setting.batch ∧ ¬ AtGate setting reports fqn ∧ Survivor reports fqn := by
  rw [surviving, List.mem_filter, AtGate, not_le, ← survived_iff]
  apply and_congr_right
  intro _
  show (decide _ && decide _) = true ↔ _
  rw [Bool.and_eq_true, decide_eq_true_iff, decide_eq_true_iff]

/-- The policy lets a measurement on only where it found no class below the gate. -/
theorem settle_measured (found : Prop) [Decidable found] (evidence : Evidence ℚ) :
    (settle setting a .measureMutation s (if found then .passed else .repair) evidence).1 ∈
      [PhaseOutcome.passed, .skipped] ↔ found := by
  by_cases held : found
  · have decided : Generation.decidedKind Check.measureMutation.phase ⟨verdictText .passed, evidence⟩ =
        some .mutation := rfl
    rw [if_pos held, settle_passed decided]
    exact iff_of_true List.mem_cons_self held
  · rw [if_neg held]
    refine iff_of_false ?_ held
    unfold settle
    dsimp only
    split_ifs <;> simp

theorem measurePasses_iff : MeasurePasses setting a s reports ↔
    setting.batch ≠ [] ∧
      (setting.mutationGate ≤ 0 ∨ surviving setting (a.reporting reports) = []) := by
  rw [MeasurePasses, measureMutation, unreported_reporting]
  by_cases empty : setting.batch = []
  · rw [if_pos empty]
    simp [empty]
  · rw [if_neg empty]
    by_cases off : setting.mutationGate ≤ 0
    · rw [if_pos off]
      simp [empty, off]
    · rw [if_neg off]
      dsimp only
      rw [settle_measured, or_iff_right off, and_iff_right empty]

/-- A gate that is off holds of every score. -/
theorem atGate_off (off : setting.mutationGate ≤ 0) (fqn : String) :
    AtGate setting reports fqn := by
  have gate : (setting.mutationGate : ℚ) ≤ 0 := by exact_mod_cast off
  exact gate.trans (score_nonneg reports fqn)

theorem classPasses_reporting {fqn : String} (surefire : (a.existing fqn).surefirePassed = true)
    (covered : (setting.coverageGate : ℚ) ≤ (a.existing fqn).line) :
    classPasses setting (a.reporting reports) fqn = true ↔ AtGate setting reports fqn := by
  show ((a.existing fqn).surefirePassed &&
    decide ((setting.coverageGate : ℚ) ≤ (a.existing fqn).line) &&
    (decide _ || decide (AtGate setting reports fqn))) = true ↔ _
  rw [surefire, Bool.true_and, Bool.and_eq_true, Bool.or_eq_true, decide_eq_true_iff,
    decide_eq_true_iff, decide_eq_true_iff, and_iff_right covered]
  exact or_iff_right_of_imp fun off => atGate_off setting reports off fqn

/-- A batch that meets the other gates passes the precheck if every class is at this one. -/
theorem precheck_iff (prechecked : Prechecked setting a) (scope : setting.batch ≠ []) :
    (precheckExistingTests setting (a.reporting reports) s).1 = .skipTarget ↔
      ∀ fqn ∈ setting.batch, AtGate setting reports fqn := by
  have files : setting.batch.all
      (fun fqn => ((a.reporting reports).existing fqn).testFile) = true :=
    List.all_eq_true.mpr prechecked.testFiles
  have gates : setting.batch.all (classPasses setting (a.reporting reports)) = true ↔
      ∀ fqn ∈ setting.batch, AtGate setting reports fqn := by
    rw [List.all_eq_true]
    exact forall₂_congr fun fqn member => classPasses_reporting setting a reports
      (prechecked.surefire fqn member) (prechecked.covered fqn member)
  rw [precheckExistingTests, if_neg scope, if_neg prechecked.classLevel, ← gates]
  by_cases all : setting.batch.all (classPasses setting (a.reporting reports)) = true
  · rw [if_pos ⟨files, prechecked.green, prechecked.report, all⟩]
    exact iff_of_true rfl all
  · rw [if_neg fun held => all held.2.2.2]
    exact iff_of_false PhaseOutcome.noConfusion all

/-- With green tests and enough coverage, a class fails at the end if it is below the gate. -/
theorem completedStatus_iff {fqn : String} (member : fqn ∈ setting.batch) {lineCov : ℚ}
    (covered : (setting.coverageGate : ℚ) ≤ lineCov) :
    completedStatus setting reports true lineCov fqn = .mutationFail ↔
      ¬ AtGate setting reports fqn := by
  have met : ¬ (true = false ∨ lineCov < setting.coverageGate) := by
    rintro (never | below)
    · cases never
    · exact absurd covered (not_le.mpr below)
  rw [completedStatus, statusWithMutationGate, if_neg met]
  by_cases off : setting.mutationGate ≤ 0
  · rw [if_neg fun held => absurd held.1 (not_lt.mpr off)]
    exact iff_of_false ClassVerdict.noConfusion (not_not.mpr (atGate_off setting reports off fqn))
  · have stats : mutationStatsByClass setting reports =
        setting.batch.map fun fqn => (fqn, reports.stats fqn) :=
      if_neg fun held => held.elim (List.ne_nil_of_mem member) off
    rw [stats, get?_map_mem reports.stats member, Option.elim_some]
    by_cases at_ : AtGate setting reports fqn
    · rw [if_neg fun held => absurd held.2 (not_lt.mpr at_)]
      exact iff_of_false ClassVerdict.noConfusion (not_not.mpr at_)
    · rw [if_pos ⟨not_le.mp off, not_le.mp at_⟩]
      exact iff_of_true rfl at_

theorem mutationFail_below {fqn : String} (member : fqn ∈ setting.batch) {testOk : Bool}
    {lineCov : ℚ} (failed : completedStatus setting reports testOk lineCov fqn = .mutationFail) :
    ¬ AtGate setting reports fqn := by
  by_cases red : testOk = false ∨ lineCov < setting.coverageGate
  · rw [completedStatus, statusWithMutationGate, if_pos red] at failed
    cases failed
  · rw [not_or, Bool.not_eq_false, not_lt] at red
    obtain ⟨rfl, covered⟩ := red
    exact (completedStatus_iff setting reports member covered).mp failed

/-- The three gates agree. -/
structure GatesAgree : Prop where
  measured : MeasurePasses setting a s reports ↔ ∀ fqn ∈ setting.batch, AtGate setting reports fqn
  prechecked : Prechecked setting a →
    ((precheckExistingTests setting (a.reporting reports) s).1 = .skipTarget ↔
      MeasurePasses setting a s reports)
  /-- With green tests and enough coverage. -/
  completed : ∀ fqn ∈ setting.batch, ∀ lineCov : ℚ, (setting.coverageGate : ℚ) ≤ lineCov →
    (completedStatus setting reports true lineCov fqn = .mutationFail ↔
      fqn ∈ surviving setting (a.reporting reports))
  /-- What the phase let on does not fail at the end. -/
  kept : MeasurePasses setting a s reports → ∀ fqn ∈ setting.batch, ∀ testOk lineCov,
    completedStatus setting reports testOk lineCov fqn ≠ .mutationFail

/-- The gates agree where a batch was measured and each class below the gate has a survivor. -/
theorem gatesAgree_iff : GatesAgree setting a s reports ↔
    setting.batch ≠ [] ∧
      ∀ fqn ∈ setting.batch, ¬ AtGate setting reports fqn → Survivor reports fqn := by
  constructor
  · intro agree
    have scope : setting.batch ≠ [] := fun empty => by
      have passes := agree.measured.mpr fun fqn member => by rw [empty] at member; cases member
      exact ((measurePasses_iff setting a s reports).mp passes).1 empty
    refine ⟨scope, fun fqn member below => ?_⟩
    have failed := (completedStatus_iff setting reports member le_rfl).mpr below
    have found := (agree.completed fqn member _ le_rfl).mp failed
    exact ((mem_surviving setting a reports fqn).mp found).2.2
  · rintro ⟨scope, survives⟩
    have below : ∀ fqn ∈ setting.batch, fqn ∈ surviving setting (a.reporting reports) ↔
        ¬ AtGate setting reports fqn := fun fqn member => by
      rw [mem_surviving, and_iff_right member]
      exact ⟨And.left, fun held => ⟨held, survives fqn member held⟩⟩
    have measured : MeasurePasses setting a s reports ↔
        ∀ fqn ∈ setting.batch, AtGate setting reports fqn := by
      rw [measurePasses_iff, and_iff_right scope]
      constructor
      · rintro (off | none_) fqn member
        · exact atGate_off setting reports off fqn
        · by_contra held
          have found := (below fqn member).mpr held
          rw [none_] at found
          cases found
      · intro all
        right
        rw [List.eq_nil_iff_forall_not_mem]
        intro fqn found
        have member := ((mem_surviving setting a reports fqn).mp found).1
        exact (below fqn member).mp found (all fqn member)
    refine ⟨measured, ?_, ?_, ?_⟩
    · intro prechecked
      rw [measured]
      exact precheck_iff setting a s reports prechecked scope
    · intro fqn member lineCov covered
      rw [completedStatus_iff setting reports member covered, below fqn member]
    · intro passes fqn member testOk lineCov failed
      exact mutationFail_below setting reports member failed (measured.mp passes fqn member)

end Gates

/-- A class of which no test reaches a mutant. -/
def uncoveredReports : Reports := fun fqn =>
  some (List.replicate 10 ⟨some "NO_COVERAGE", some fqn⟩)

theorem uncoveredReports_score : (uncoveredReports.stats "Foo").score = 0 := by
  obtain ⟨killed, -, total⟩ := counts_spec "Foo"
    (List.replicate 10 ⟨some "NO_COVERAGE", some "Foo"⟩) {}
  have read : (uncoveredReports.stats "Foo").score =
      ((List.replicate 10 ⟨some "NO_COVERAGE", some "Foo"⟩).foldl
        (MutationCounts.count "Foo") {}).score := rfl
  rw [read, MutationCounts.score, killed, total]
  have none_ : (rowsOf "Foo" (List.replicate 10 ⟨some "NO_COVERAGE", some "Foo"⟩)).countP
      (fun m => decide (m.statusText = "KILLED")) = 0 := by decide
  rw [none_, if_neg (by decide)]
  simp

/-- It passes the measurement and fails at the end. -/
theorem uncoveredReports_disagree :
    ¬ ∀ setting a s reports, setting.batch ≠ [] → GatesAgree setting a s reports := by
  intro agree
  have claimed := agree ⟨["Foo"], 0, 80, false, false, none⟩ {} (.start fun _ => 3)
    uncoveredReports (List.cons_ne_nil _ _)
  have below : ¬ AtGate ⟨["Foo"], 0, 80, false, false, none⟩ uncoveredReports "Foo" := by
    rw [AtGate, uncoveredReports_score]
    norm_num
  have found := (claimed.completed "Foo" List.mem_cons_self 0 (by norm_num)).mp
    ((completedStatus_iff _ _ List.mem_cons_self (by norm_num)).mpr below)
  obtain ⟨-, -, rows, read, m, member, -, alive⟩ := (mem_surviving _ _ _ _).mp found
  cases read
  rw [List.eq_of_mem_replicate member] at alive
  exact absurd alive (by decide)

end Uta.Cycle.Java
