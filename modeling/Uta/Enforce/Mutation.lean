/- One target's mutation run: the exit codes of its mutants, the commands that
produced them, and the result `run_mutation` reports. -/
import Uta.Lib.Percent
import Uta.Lib.PyText

namespace Uta.Enforce
open Uta.Lib

inductive MutantStatus where
  | killed | survived | noTests | skipped | suspicious | timeout | segfault | interrupted | notChecked
  deriving DecidableEq, Repr

/-- `MUTMUT_STATUS_BY_EXIT_CODE.get(exit_code, "suspicious")`. -/
def mutmutStatus : Option Int → MutantStatus
  | some 1 | some 3 => .killed
  | some (-24) | some 24 | some 152 | some 36 | some 255 => .timeout
  | some 0 => .survived
  | some 5 | some 33 => .noTests
  | some 2 => .interrupted
  | some 34 => .skipped
  | some 35 => .suspicious
  | some (-11) => .segfault
  | none => .notChecked
  | some _ => .suspicious

/-- `counts`: one number for each status. -/
abbrev Counts := MutantStatus → ℕ

def Counts.zero : Counts := fun _ => 0

def Counts.bump (c : Counts) (s : MutantStatus) : Counts := Function.update c s (c s + 1)

def Counts.add (c d : Counts) : Counts := fun s => c s + d s

/-- `sum(counts.values())`. -/
def Counts.values (c : Counts) : ℕ :=
  c .killed + c .survived + c .noTests + c .skipped + c .suspicious + c .timeout + c .segfault +
    c .interrupted + c .notChecked

/-- A file `rglob("*.meta")` finds: its `exit_code_by_key`, or `none` where the
text is unreadable or not a JSON object. -/
structure MetaFile where
  name : String
  exitCodeByKey : Option (List (String × Option Int))

/-- The counts of `read_mutmut_meta`. -/
def readMutmutMeta (metas : List MetaFile) : Counts :=
  metas.foldl (fun counts file =>
    if ".py.meta".toList <:+ file.name.toList then
      (file.exitCodeByKey.getD []).foldl (fun c item => c.bump (mutmutStatus item.2)) counts
    else counts) .zero

/-- The payload of `run_command`. -/
structure CommandRun where
  exitCode : Int
  stdout : List Char
  stderr : List Char
  deriving DecidableEq

def CommandRun.output (c : CommandRun) : List Char := c.stdout ++ '\n' :: c.stderr

def uncoveredMarkers : List String :=
  ["tests do not cover any code that we mutated", "did not cover any code that we mutated"]

def collectionMarkers : List String :=
  ["error collecting", "errors during collection", "error during collection"]

def mutantsUncoveredByTests (command : Option CommandRun) : Bool :=
  match command with
  | none => false
  | some c => uncoveredMarkers.any fun marker => PyText.containsLower marker c.output

def hasCollectionError (command : Option CommandRun) : Bool :=
  match command with
  | none => false
  | some c => collectionMarkers.any fun marker => PyText.containsLower marker c.output

/-- What one generate-and-score cycle brings: `runSelected` answers only where
the metadata run exited with 0. -/
structure PassOutcome where
  metadataRun : CommandRun
  runSelected : CommandRun
  metas : List MetaFile
  exactToolCandidateKeys : List String

/-- The accumulators of `_run_generation_passes`. -/
structure PassTotals where
  totals : Counts := .zero
  exactToolCandidateKeys : List String := []
  firstFailedMetadata : Option CommandRun := none
  lastMetadata : Option CommandRun := none
  mutmutRun : Option CommandRun := none

def PassTotals.step (t : PassTotals) (p : PassOutcome) : PassTotals :=
  let generated := p.metadataRun.exitCode = 0
  { totals := t.totals.add (readMutmutMeta p.metas)
    exactToolCandidateKeys := t.exactToolCandidateKeys ++ p.exactToolCandidateKeys
    firstFailedMetadata :=
      if generated then t.firstFailedMetadata else t.firstFailedMetadata.or (some p.metadataRun)
    lastMetadata := some p.metadataRun
    mutmutRun := some (if generated then p.runSelected else p.metadataRun) }

def runGenerationPasses (passes : List PassOutcome) : PassTotals := passes.foldl PassTotals.step {}

/-- How the run was driven: by the policy for python3, whole for python2. -/
inductive Lane where
  | python2 (mutmutRun : CommandRun) (metas : List MetaFile)
  | python3 (selectedLines : List Int) (first : PassOutcome) (rest : List PassOutcome)

/-- The inputs of `run_mutation`, with the answers of the commands it runs. -/
structure MutationRun where
  gate : ℚ
  lane : Lane
  cleanTestProbe : CommandRun
  collectionProbe : CommandRun

namespace Lane

/-- `not generation_policy.get("selectedLines")`. -/
def noCandidate : Lane → Bool
  | .python2 .. => false
  | .python3 selectedLines .. => selectedLines.isEmpty

def counts : Lane → Counts
  | .python2 _ metas => readMutmutMeta metas
  | .python3 _ first rest => (runGenerationPasses (first :: rest)).totals

def exactToolCandidateKeys : Lane → List String
  | .python2 .. => []
  | .python3 _ first rest => (runGenerationPasses (first :: rest)).exactToolCandidateKeys

def metadataRun : Lane → Option CommandRun
  | .python2 .. => none
  | .python3 _ first rest =>
      let t := runGenerationPasses (first :: rest)
      t.firstFailedMetadata.or t.lastMetadata

def mutmutRun : Lane → Option CommandRun
  | .python2 run _ => some run
  | .python3 _ first rest => (runGenerationPasses (first :: rest)).mutmutRun

def isPython3 : Lane → Bool
  | .python2 .. => false
  | .python3 .. => true

end Lane

def allMutantsSuspicious (counts : Counts) : Prop :=
  0 < counts.values ∧ counts .suspicious = counts.values

instance (counts : Counts) : Decidable (allMutantsSuspicious counts) :=
  inferInstanceAs (Decidable (_ ∧ _))

def allSelectedMutantsUnassociated (generated scored noTests : ℕ) : Prop :=
  0 < generated ∧ scored = 0 ∧ 0 < noTests

instance (g s n : ℕ) : Decidable (allSelectedMutantsUnassociated g s n) :=
  inferInstanceAs (Decidable (_ ∧ _ ∧ _))

/-! The locals of `run_mutation`, under their own names. -/

namespace MutationRun
variable (x : MutationRun)

def counts : Counts := x.lane.counts

/-- Whether the not-checked mutants are relabelled as survivors. -/
def uncovered : Prop := 0 < x.counts .notChecked ∧ mutantsUncoveredByTests x.lane.mutmutRun = true

instance : Decidable x.uncovered := inferInstanceAs (Decidable (_ ∧ _))

def killed : ℕ := x.counts .killed + x.counts .segfault

def uncoveredMutants : ℕ := if x.uncovered then x.counts .notChecked else 0

def notChecked : ℕ := if x.uncovered then 0 else x.counts .notChecked

def survived : ℕ := x.counts .survived + x.uncoveredMutants

def generated : ℕ := x.counts.values

def scored : ℕ := x.generated - x.counts .noTests - x.counts .skipped - x.notChecked

def denominator : ℕ := x.killed + x.survived + x.counts .timeout + x.counts .suspicious

def rate : ℚ := percent x.killed x.denominator

/-- The clean-test probe runs where mutants were left unchecked. -/
def cleanTestProbe? : Option CommandRun :=
  if 0 < x.counts .notChecked then some x.cleanTestProbe else none

/-- The collection probe runs where every mutant is suspicious and the run does
not itself show a collection error. -/
def collectionProbe? : Option CommandRun :=
  if 0 < x.counts .notChecked then none
  else if allMutantsSuspicious x.counts ∧ hasCollectionError x.lane.mutmutRun = false then
    some x.collectionProbe
  else none

def collectionFailed : Prop := allMutantsSuspicious x.counts ∧
  (hasCollectionError x.lane.mutmutRun = true ∨ hasCollectionError x.collectionProbe? = true)

def metadataFailed : Prop := ∃ c, x.lane.metadataRun = some c ∧ c.exitCode ≠ 0

def mutmutExitCode : Int := (x.lane.mutmutRun.map CommandRun.exitCode).getD 0

def backendFailed : Prop :=
  x.metadataFailed ∨ 0 < x.notChecked ∨ (x.generated = 0 ∧ x.mutmutExitCode ≠ 0)

def planFailed : Prop := x.lane.isPython3 = true ∧ 0 < x.generated ∧
  x.lane.exactToolCandidateKeys.length ≠ x.generated

def noTestsUnassociated : Prop :=
  allSelectedMutantsUnassociated x.generated x.scored (x.counts .noTests) ∧ ¬ x.backendFailed ∧
    ¬ x.collectionFailed

instance : Decidable x.metadataFailed :=
  match h : x.lane.metadataRun with
  | none => .isFalse fun ⟨_, hc, _⟩ => nomatch h.symm.trans hc
  | some c =>
    if code : c.exitCode = 0 then
      .isFalse fun ⟨_, hd, failed⟩ => failed (Option.some.inj (h.symm.trans hd) ▸ code)
    else .isTrue ⟨c, h, code⟩

instance : Decidable x.collectionFailed := inferInstanceAs (Decidable (_ ∧ (_ ∨ _)))
instance : Decidable x.backendFailed := inferInstanceAs (Decidable (_ ∨ _ ∨ _))
instance : Decidable x.planFailed := inferInstanceAs (Decidable (_ ∧ _ ∧ _))
instance : Decidable x.noTestsUnassociated := inferInstanceAs (Decidable (_ ∧ _ ∧ _))

end MutationRun

structure MutationResult where
  generated : ℕ
  killed : ℕ
  survived : ℕ
  noTests : ℕ
  timeout : ℕ
  suspicious : ℕ
  notChecked : ℕ
  uncoveredMutants : ℕ
  skipped : ℕ
  changedLineMutantsScored : ℕ
  rate : ℚ
  gate : ℚ
  passed : Bool
  reasonCode : Option String
  failureStage : Option String
  failureDetail : String

def commandFailureDetail (command : Option CommandRun) : String :=
  match command with
  | none => "Mutation backend stopped before selected mutants were executed"
  | some c =>
    let output := PyText.strip c.output
    if output ≠ [] then String.ofList (PyText.lastChars 4000 output)
    else s!"Mutation backend exited with code {c.exitCode} before selected mutants were executed"

def noCandidateMutation (gate : ℚ) : MutationResult where
  generated := 0
  killed := 0
  survived := 0
  noTests := 0
  timeout := 0
  suspicious := 0
  notChecked := 0
  uncoveredMutants := 0
  skipped := 0
  changedLineMutantsScored := 0
  rate := 100
  gate
  passed := true
  reasonCode := some "no_mutatable_candidates"
  failureStage := none
  failureDetail := ""

def runMutation (x : MutationRun) : MutationResult :=
  if x.lane.noCandidate then noCandidateMutation x.gate
  else
    { generated := x.generated
      killed := x.killed
      survived := x.survived
      noTests := x.counts .noTests
      timeout := x.counts .timeout
      suspicious := x.counts .suspicious
      notChecked := x.notChecked
      uncoveredMutants := x.uncoveredMutants
      skipped := x.counts .skipped
      changedLineMutantsScored := x.scored
      rate := if x.backendFailed ∨ x.noTestsUnassociated then 0 else x.rate
      gate := x.gate
      passed := decide ((x.gate ≤ x.rate ∨ (x.generated = 0 ∧ ¬ x.backendFailed)) ∧
        ¬ x.backendFailed ∧ ¬ x.collectionFailed ∧ ¬ x.planFailed ∧ ¬ x.noTestsUnassociated)
      reasonCode :=
        if x.collectionFailed then some "mutation_test_collection_failed"
        else if x.backendFailed then some "mutation_backend_failed"
        else if x.planFailed then some "mutation_candidate_plan_failed"
        else if x.noTestsUnassociated then some "mutation_no_tests"
        else none
      failureStage :=
        if x.metadataFailed then some "metadata_generation"
        else if 0 < x.notChecked then some "mutation_execution"
        else if x.backendFailed then some "mutation_backend"
        else none
      failureDetail :=
        if x.backendFailed then
          commandFailureDetail ((x.cleanTestProbe?.or x.lane.mutmutRun).or x.lane.metadataRun)
        else "" }

/-! What a passing verdict is worth. -/

/-- The verdict's promise: a pass over generated mutants has decided at least
one, and has killed the gate's percentage of the mutants it reports as scored. -/
def MutationResult.Earned (r : MutationResult) : Prop :=
  r.passed = true → 0 < r.generated →
    0 < r.killed + r.survived + r.timeout + r.suspicious ∧
      r.gate * r.changedLineMutantsScored ≤ 100 * r.killed

namespace MutationRun
variable (x : MutationRun)

/-- Some flag of the run vacates the verdict. -/
def Refused : Prop :=
  x.backendFailed ∨ x.collectionFailed ∨ x.planFailed ∨ x.noTestsUnassociated

/-- Every generated mutant is interrupted, skipped or without tests, and the
empty score of 100 reaches the gate. -/
def Undecided : Prop := x.denominator = 0 ∧ x.gate ≤ 100

/-- The gate lies above the killed share of decided and interrupted mutants, and
not above the four-decimal percentage of the decided ones. -/
def GateGap : Prop := 0 < x.denominator ∧
  100 * (x.killed : ℚ) < x.gate * (x.denominator + x.counts .interrupted : ℕ) ∧
  x.gate ≤ percent x.killed x.denominator

/-- With no mutant left unchecked, the scored ones are the decided and the
interrupted ones. -/
theorem scored_eq (checked : x.notChecked = 0) :
    x.scored = x.denominator + x.counts .interrupted := by
  have split : x.uncoveredMutants = x.counts .notChecked := by
    unfold notChecked at checked
    unfold uncoveredMutants
    by_cases h : x.uncovered
    · rw [if_pos h]
    · rw [if_neg h] at checked ⊢
      exact checked.symm
  unfold scored denominator generated survived killed Counts.values
  rw [checked, split]
  omega

theorem runMutation_passed (candidates : x.lane.noCandidate = false) :
    (runMutation x).passed = true ↔
      (x.gate ≤ x.rate ∨ (x.generated = 0 ∧ ¬ x.backendFailed)) ∧ ¬ x.Refused := by
  unfold runMutation
  rw [candidates]
  simp only [Bool.false_eq_true, if_false, decide_eq_true_eq, Refused, not_or]

theorem runMutation_fields (candidates : x.lane.noCandidate = false) :
    (runMutation x).generated = x.generated ∧ (runMutation x).gate = x.gate ∧
      (runMutation x).changedLineMutantsScored = x.scored ∧ (runMutation x).killed = x.killed ∧
      (runMutation x).killed + (runMutation x).survived + (runMutation x).timeout +
        (runMutation x).suspicious = x.denominator := by
  unfold runMutation
  rw [candidates]
  exact ⟨rfl, rfl, rfl, rfl, rfl⟩

/-- The promise of a run that is not refused, over its own counts. -/
theorem earned_iff_counts (candidates : x.lane.noCandidate = false) (accepted : ¬ x.Refused)
    (nonempty : x.generated ≠ 0) :
    (runMutation x).Earned ↔ (x.gate ≤ x.rate → 0 < x.denominator ∧
      x.gate * (x.denominator + x.counts .interrupted : ℕ) ≤ 100 * x.killed) := by
  obtain ⟨generated, gate, scored, killed, decided⟩ := x.runMutation_fields candidates
  have checked : x.notChecked = 0 := by
    by_contra h
    exact accepted (.inl (.inr (.inl (Nat.pos_of_ne_zero h))))
  have passed : (runMutation x).passed = true ↔ x.gate ≤ x.rate := by
    rw [x.runMutation_passed candidates, or_iff_left fun h => nonempty h.1]
    exact and_iff_left accepted
  unfold MutationResult.Earned
  rw [passed, decided, generated, gate, scored, killed, x.scored_eq checked]
  exact ⟨fun h reach => h reach (Nat.pos_of_ne_zero nonempty), fun h reach _ => h reach⟩

end MutationRun

/-- One selected mutant, and the run that scored it was interrupted. -/
def interruptedRun : MutationRun where
  gate := 80
  lane := .python3 [3]
    { metadataRun := ⟨0, [], []⟩
      runSelected := ⟨0, [], []⟩
      metas := [⟨"mod.py.meta", some [("mod.x_f__mutmut_1", some 2)]⟩]
      exactToolCandidateKeys := ["mod.x_f__mutmut_1"] } []
  cleanTestProbe := ⟨0, [], []⟩
  collectionProbe := ⟨0, [], []⟩

end Uta.Enforce
