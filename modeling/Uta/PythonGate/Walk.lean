/- The walk over the candidate tests of a target, with the commands that it runs and reports. -/
import Uta.PythonGate.Binding

namespace Uta.PythonGate
open Uta.Lib

/-- An entry of `commands`. -/
structure CommandRecord where
  name : String
  command : List String
  exitCode : ℤ
  stdout : String
  stderr : String
  deriving DecidableEq

/-- What a stage does when it is run: the commands that it runs, and what it returns or raises. -/
structure Stage (α : Type) where
  runs : List CommandRecord
  outcome : Except String α

/-- A candidate test, with what `prepare_dependency_overlay`, `run_coverage` and `run_mutation`
do for it. -/
structure CandidateRun where
  testPath : String
  overlay : Stage (Option CommandRecord)
  coverage : Stage CoverageStage
  mutation : Stage (MutationStage × List (String × String))

/-- The commands as the enforcement keeps them, and those that were run. -/
structure CommandLog where
  commands : List CommandRecord
  executed : List CommandRecord

namespace CommandLog

/-- `run_command`, once for each command of a stage. -/
def run (log : CommandLog) (runs : List CommandRecord) : CommandLog :=
  { commands := log.commands ++ runs, executed := log.executed ++ runs }

/-- `commands.append(record)`. -/
def append (log : CommandLog) (record : CommandRecord) : CommandLog :=
  { log with commands := log.commands ++ [record] }

end CommandLog

/-- The evidence of one candidate. -/
structure CandidateEvidence extends TargetPayload where
  selectedTest : String
  commands : List CommandRecord
  artifacts : List (String × String)

/-- An entry of `candidateResults`. -/
structure CandidateResult where
  testPaths : List String
  payload : TargetPayload

/-- The evidence of a target that has candidates. -/
structure WalkEvidence extends CandidateEvidence where
  candidateResults : List CandidateResult
  candidateTestPaths : List String

inductive TargetOutcome where
  | missingTestFile (payload : TargetPayload)
  | walked (evidence : WalkEvidence)

def TargetOutcome.status : TargetOutcome → String
  | .missingTestFile payload => payload.status
  | .walked evidence => evidence.status

/-- What the walk is run with: the gates, whether overlays are prepared, and the source with its
changed lines. -/
structure WalkSettings where
  gates : BindingGates
  dependencyOverlayEnabled : Bool
  sourcePath : String
  changed : List ℕ

namespace WalkSettings
variable (w : WalkSettings)

/-- The overlay of a candidate. Its evidence is a record that `prepare_dependency_overlay` makes
itself, so that it is never the object that `run_command` appended last. -/
def runOverlay (c : CandidateRun) (log : CommandLog) :
    Except String (Option CommandRecord) × CommandLog :=
  if w.dependencyOverlayEnabled then
    match c.overlay.outcome with
    | .error e => (.error e, log.run c.overlay.runs)
    | .ok none => (.ok none, log.run c.overlay.runs)
    | .ok (some evidence) => (.ok (some evidence), (log.run c.overlay.runs).append evidence)
  else (.ok none, log)

/-- Coverage, and mutation where coverage and the tests passed and it was requested. -/
def runGates (c : CandidateRun) (log : CommandLog) :
    Except String (TargetPayload × List (String × String)) × CommandLog :=
  match c.coverage.outcome with
  | .error e => (.error e, log.run c.coverage.runs)
  | .ok stage =>
    match runCoverage stage w.sourcePath w.changed w.gates.coverage with
    | (coverage, false) =>
      (.ok (unmutatedEvidence (some ("test_failed", "Python tests failed")) false coverage, []),
        log.run c.coverage.runs)
    | (coverage, true) =>
      if coverage.passed = false then
        (.ok (unmutatedEvidence (some ("coverage_failed", coverageFailureMessage w.gates coverage))
          true coverage, []), log.run c.coverage.runs)
      else if w.gates.mutationRequested = false then
        (.ok (unmutatedEvidence none true coverage, []), log.run c.coverage.runs)
      else
        match c.mutation.outcome with
        | .error e => (.error e, (log.run c.coverage.runs).run c.mutation.runs)
        | .ok (stage, artifacts) =>
          (.ok (mutatedEvidence w.gates w.changed w.sourcePath stage coverage, artifacts),
            (log.run c.coverage.runs).run c.mutation.runs)

/-- The overlay that could not be installed is named among the artifacts. -/
def overlayArtifacts : Option CommandRecord → List (String × String)
  | none => []
  | some evidence => if evidence.exitCode ≠ 0 then [("dependency_overlay", "install_failed")] else []

/-- One turn of the walk. -/
def tryCandidate (c : CandidateRun) (log : CommandLog) :
    Except String CandidateEvidence × CommandLog :=
  match w.runOverlay c log with
  | (.error e, log') => (.error e, log')
  | (.ok dependency, log') =>
    match w.runGates c log' with
    | (.error e, log'') => (.error e, log'')
    | (.ok (payload, artifacts), log'') =>
      (.ok {
        toTargetPayload := payload
        selectedTest := c.testPath
        commands := log''.commands.drop log.commands.length
        artifacts := artifacts ++ overlayArtifacts dependency }, log'')

/-- The walk, from the first candidate so far and the results so far. -/
def walk (first : Option CandidateEvidence) (results : List CandidateResult) :
    List CandidateRun → CommandLog →
      Except String (Option CandidateEvidence × List CandidateResult) × CommandLog
  | [], log => (.ok (first, results), log)
  | c :: rest, log =>
    match w.tryCandidate c log with
    | (.error e, log') => (.error e, log')
    | (.ok evidence, log') =>
      let results := results ++ [⟨[c.testPath], evidence.toTargetPayload⟩]
      if evidence.status = "passed" then (.ok (some evidence, results), log')
      else walk (first <|> some evidence) results rest log'

/-- What `enforce` makes of a target with executable changed lines. -/
def enforceTarget (candidates : List CandidateRun) (log : CommandLog) :
    Except String TargetOutcome × CommandLog :=
  match w.walk none [] candidates log with
  | (.error e, log') => (.error e, log')
  | (.ok (none, _), log') =>
    (.ok (.missingTestFile (missingTestEvidence w.changed w.sourcePath)), log')
  | (.ok (some evidence, results), log') =>
    (.ok (.walked {
      toCandidateEvidence := evidence
      candidateResults := results
      candidateTestPaths := candidates.map (·.testPath) }), log')

/-! What a candidate does, whatever was run before it. -/

/-- What comes of the overlay. -/
def dependency (c : CandidateRun) : Except String (Option CommandRecord) :=
  if w.dependencyOverlayEnabled then c.overlay.outcome else .ok none

def overlayRuns (c : CandidateRun) : List CommandRecord :=
  if w.dependencyOverlayEnabled then c.overlay.runs else []

/-- The changed lines are covered as far as the gate asks, by tests that pass. -/
def CoverageMet (c : CandidateRun) : Prop :=
  ∃ stage, c.coverage.outcome = .ok stage ∧
    (runCoverage stage w.sourcePath w.changed w.gates.coverage).1.passed = true

/-- Enough mutants are killed, where that is asked for. -/
def MutationMet (c : CandidateRun) : Prop :=
  w.gates.mutationRequested = true → ∃ stage artifacts,
    c.mutation.outcome = .ok (stage, artifacts) ∧ (stage.result w.gates.mutation).passed = true

/-- The candidate satisfies both gates. -/
structure Satisfies (c : CandidateRun) : Prop where
  prepared : ∃ evidence, w.dependency c = .ok evidence
  coverage : w.CoverageMet c
  mutation : w.MutationMet c

/-- One of the stages that the walk comes to raises. -/
def GatesRaise (c : CandidateRun) : Prop :=
  (∃ e, c.coverage.outcome = .error e) ∨
    w.CoverageMet c ∧ w.gates.mutationRequested = true ∧ ∃ e, c.mutation.outcome = .error e

def Raises (c : CandidateRun) : Prop := (∃ e, w.dependency c = .error e) ∨ w.GatesRaise c

/-- The commands of the gates. -/
def gateRuns (c : CandidateRun) : List CommandRecord := (w.runGates c ⟨[], []⟩).2.executed

/-- What comes of the gates. -/
def gatesOutcome (c : CandidateRun) : Except String (TargetPayload × List (String × String)) :=
  (w.runGates c ⟨[], []⟩).1

/-- Every command that is run for a candidate. -/
def ran (c : CandidateRun) : List CommandRecord := w.overlayRuns c ++ w.gateRuns c

end WalkSettings

theorem runCoverage_tests {stage : CoverageStage} {source : String} {changed : List ℕ} {gate : ℚ}
    (passed : (runCoverage stage source changed gate).1.passed = true) :
    (runCoverage stage source changed gate).2 = true := by
  cases stage with
  | testsFailed => cases passed
  | noReport => rfl
  | report classes => rfl

namespace CommandLog
variable (log : CommandLog)

@[simp] theorem run_commands (runs : List CommandRecord) :
    (log.run runs).commands = log.commands ++ runs := rfl

@[simp] theorem run_executed (runs : List CommandRecord) :
    (log.run runs).executed = log.executed ++ runs := rfl

theorem run_run (runs more : List CommandRecord) : (log.run runs).run more = log.run (runs ++ more) := by
  simp [run]

theorem run_empty (runs : List CommandRecord) : (run ⟨[], []⟩ runs).executed = runs := rfl

end CommandLog

namespace WalkSettings
variable {w : WalkSettings} {c : CandidateRun}

theorem runOverlay_eq (log : CommandLog) : w.runOverlay c log =
    (w.dependency c, { commands := log.commands ++ w.overlayRuns c ++
        (match w.dependency c with | .ok (some evidence) => [evidence] | _ => [])
                       executed := log.executed ++ w.overlayRuns c }) := by
  unfold runOverlay dependency overlayRuns
  split
  · rcases c.overlay.outcome with e | _ | evidence <;> simp [CommandLog.run, CommandLog.append]
  · simp

theorem runGates_eq (log : CommandLog) :
    w.runGates c log = (w.gatesOutcome c, log.run (w.gateRuns c)) := by
  unfold gatesOutcome gateRuns runGates
  cases c.coverage.outcome with
  | error e => rfl
  | ok stage =>
      dsimp only
      rcases runCoverage stage w.sourcePath w.changed w.gates.coverage with ⟨coverage, _ | _⟩
      · rfl
      · dsimp only
        split
        · rfl
        · split
          · rfl
          · cases c.mutation.outcome with
            | error e => simp only [CommandLog.run_run, CommandLog.run_empty]
            | ok answer => simp only [CommandLog.run_run, CommandLog.run_empty]

/-- The gates end with an exception, or with a payload that says whether both are met. -/
theorem gatesOutcome_cases :
    (w.GatesRaise c ∧ ∃ e, w.gatesOutcome c = .error e) ∨
    (¬ w.GatesRaise c ∧ ∃ payload artifacts, w.gatesOutcome c = .ok (payload, artifacts) ∧
      (payload.status = "passed" ↔ w.CoverageMet c ∧ w.MutationMet c)) := by
  unfold gatesOutcome runGates
  cases covered : c.coverage.outcome with
  | error e => exact .inl ⟨.inl ⟨e, covered⟩, e, rfl⟩
  | ok stage =>
      have unraised : ∀ e, c.coverage.outcome ≠ .error e := by simp [covered]
      have met : w.CoverageMet c ↔
          (runCoverage stage w.sourcePath w.changed w.gates.coverage).1.passed = true := by
        simp [CoverageMet, covered]
      dsimp only
      have tests := @runCoverage_tests stage w.sourcePath w.changed w.gates.coverage
      rcases summary : runCoverage stage w.sourcePath w.changed w.gates.coverage with
        ⟨coverage, _ | _⟩
      · rw [summary] at tests met
        have unmet : ¬ w.CoverageMet c := fun m => nomatch tests (met.mp m)
        refine .inr ⟨?_, _, _, rfl, ?_⟩
        · rintro (⟨e, raised⟩ | ⟨m, -⟩)
          · exact unraised e raised
          · exact unmet m
        · exact iff_of_false (show "failed" ≠ "passed" by decide) fun both => unmet both.1
      · rw [summary] at met
        dsimp only at met ⊢
        by_cases failed : coverage.passed = false
        · rw [if_pos failed]
          have unmet : ¬ w.CoverageMet c := fun m => by
            rw [met, failed] at m
            cases m
          refine .inr ⟨?_, _, _, rfl, ?_⟩
          · rintro (⟨e, raised⟩ | ⟨m, -⟩)
            · exact unraised e raised
            · exact unmet m
          · exact iff_of_false (show "failed" ≠ "passed" by decide) fun both => unmet both.1
        · rw [if_neg failed]
          have coverageMet : w.CoverageMet c := met.mpr (Bool.not_eq_false _ ▸ failed)
          by_cases unasked : w.gates.mutationRequested = false
          · rw [if_pos unasked]
            refine .inr ⟨?_, _, _, rfl, ?_⟩
            · rintro (⟨e, raised⟩ | ⟨-, asked, -⟩)
              · exact unraised e raised
              · rw [unasked] at asked
                cases asked
            · refine iff_of_true rfl ⟨coverageMet, fun asked => ?_⟩
              rw [unasked] at asked
              cases asked
          · rw [if_neg unasked]
            have asked : w.gates.mutationRequested = true := Bool.not_eq_false _ ▸ unasked
            cases mutated : c.mutation.outcome with
            | error e => exact .inl ⟨.inr ⟨coverageMet, asked, e, mutated⟩, e, rfl⟩
            | ok answer =>
                obtain ⟨mutants, artifacts⟩ := answer
                refine .inr ⟨?_, _, _, rfl, ?_⟩
                · rintro (⟨e, raised⟩ | ⟨-, -, e, raised⟩)
                  · exact unraised e raised
                  · rw [mutated] at raised
                    cases raised
                · have result : w.MutationMet c ↔
                      (mutants.result w.gates.mutation).passed = true := by
                    simp [MutationMet, asked, mutated]
                  rw [result, and_iff_right coverageMet]
                  show (if _ then "passed" else "failed") = "passed" ↔ _
                  split
                  · next passed => exact iff_of_true rfl passed
                  · next below => exact iff_of_false (by decide) below

/-- The three records that a turn leaves: what is reported, what was run, and the evidence. -/
def reported (w : WalkSettings) (c : CandidateRun) : List CommandRecord :=
  w.overlayRuns c ++ (match w.dependency c with | .ok (some evidence) => [evidence] | _ => []) ++
    w.gateRuns c

/-- A turn of the walk raises, or ends with the candidate's evidence. -/
theorem tryCandidate_cases (log : CommandLog) :
    (w.Raises c ∧ ∃ e log', w.tryCandidate c log = (.error e, log')) ∨
    (¬ w.Raises c ∧ ∃ evidence log', w.tryCandidate c log = (.ok evidence, log') ∧
      log'.executed = log.executed ++ w.ran c ∧ evidence.commands = w.reported c ∧
      evidence.selectedTest = c.testPath ∧ (evidence.status = "passed" ↔ w.Satisfies c)) := by
  unfold tryCandidate
  rw [runOverlay_eq]
  cases prepared : w.dependency c with
  | error e => exact .inl ⟨.inl ⟨e, prepared⟩, e, _, rfl⟩
  | ok dependency =>
      dsimp only
      rw [runGates_eq]
      rcases gatesOutcome_cases (w := w) (c := c) with ⟨raises, e, outcome⟩ |
        ⟨unraised, payload, artifacts, outcome, passes⟩
      · rw [outcome]
        exact .inl ⟨.inr raises, e, _, rfl⟩
      · rw [outcome]
        refine .inr ⟨?_, _, _, rfl, ?_, ?_, rfl, ?_⟩
        · rintro (⟨e, raised⟩ | raised)
          · rw [prepared] at raised
            cases raised
          · exact unraised raised
        · simp [ran, List.append_assoc]
        · simp only [CommandLog.run_commands, reported, prepared, List.append_assoc,
            List.drop_left]
        · refine passes.trans ⟨fun ⟨coverage, mutation⟩ => ⟨⟨_, prepared⟩, coverage, mutation⟩,
            fun satisfied => ⟨satisfied.coverage, satisfied.mutation⟩⟩

/-! The walk. -/

/-- No candidate that the walk comes to raises: none up to the first that satisfies the gates. -/
def Unraised (w : WalkSettings) (candidates : List CandidateRun) : Prop :=
  ∀ before c after, candidates = before ++ c :: after → (∀ b ∈ before, ¬ w.Satisfies b) →
    ¬ w.Raises c

theorem unraised_cons {rest : List CandidateRun} :
    w.Unraised (c :: rest) ↔ ¬ w.Raises c ∧ (¬ w.Satisfies c → w.Unraised rest) := by
  constructor
  · intro unraised
    refine ⟨unraised [] c rest rfl (by simp), fun failed before d after split none_ => ?_⟩
    exact unraised (c :: before) d after (by rw [split]; rfl)
      (List.forall_mem_cons.mpr ⟨failed, none_⟩)
  · rintro ⟨head, tail⟩ before d after split none_
    cases before with
    | nil =>
        obtain ⟨rfl, rfl⟩ := List.cons.inj split
        exact head
    | cons b before =>
        obtain ⟨rfl, rfl⟩ := List.cons.inj split
        obtain ⟨failed, none_⟩ := List.forall_mem_cons.mp none_
        exact tail failed before d after rfl none_

/-- How a walk ends: it passes at the first candidate that satisfies both gates, or comes to the
end with none. -/
inductive Ends (w : WalkSettings) (first : Option CandidateEvidence) (before : List CandidateRun)
    (log : CommandLog) : Option CandidateRun → Option CandidateEvidence → Prop
  | passed {c : CandidateRun} {evidence : CandidateEvidence} (satisfied : w.Satisfies c)
      (status : evidence.status = "passed") (test : evidence.selectedTest = c.testPath) :
      Ends w first before log (some c) (some evidence)
  | exhausted {evidence : Option CandidateEvidence}
      (kept : ∀ f, first = some f → evidence = some f)
      (head : first = none → ∀ c, before.head? = some c →
        ∃ e, (w.tryCandidate c log).1 = .ok e ∧ evidence = some e)
      (empty : first = none → before = [] → evidence = none) :
      Ends w first before log none evidence

theorem walk_cases (first : Option CandidateEvidence) (results : List CandidateResult)
    (candidates : List CandidateRun) (log : CommandLog) :
    (¬ w.Unraised candidates ∧ ∃ e log', w.walk first results candidates log = (.error e, log')) ∨
    (w.Unraised candidates ∧ ∃ before last after evidence results' log',
      candidates = before ++ (last.toList ++ after) ∧ (∀ b ∈ before, ¬ w.Satisfies b) ∧
      (last = none → after = []) ∧
      w.walk first results candidates log = (.ok (evidence, results'), log') ∧
      Ends w first before log last evidence ∧
      results'.map (·.testPaths) = results.map (·.testPaths) ++
        (before ++ last.toList).map (fun c => [c.testPath]) ∧
      log'.executed = log.executed ++ (before ++ last.toList).flatMap w.ran) := by
  induction candidates generalizing first results log with
  | nil =>
      refine .inr ⟨fun before c after split => by simp at split, [], none, [], first, results, log,
        rfl, by simp, fun _ => rfl, rfl, ?_, by simp, by simp⟩
      exact .exhausted (fun f has => has) (by simp) fun none_ _ => none_
  | cons c rest ih =>
      rw [walk, unraised_cons]
      rcases tryCandidate_cases (w := w) (c := c) log with ⟨raises, e, log', turn⟩ |
        ⟨unraised, evidence, log', turn, executed, reported, test, passes⟩
      · rw [turn]
        exact .inl ⟨fun all => all.1 raises, e, log', rfl⟩
      · rw [turn]
        dsimp only
        by_cases satisfied : w.Satisfies c
        · rw [if_pos (passes.mpr satisfied)]
          refine .inr ⟨⟨unraised, fun failed => absurd satisfied failed⟩, [], some c, rest, _, _, _,
            rfl, by simp, by simp, rfl, .passed satisfied (passes.mpr satisfied) test, by simp, ?_⟩
          simp [executed]
        · rw [if_neg (fun status => satisfied (passes.mp status))]
          rcases ih (first <|> some evidence) (results ++ [⟨[c.testPath], evidence.toTargetPayload⟩])
            log' with ⟨raised, e, log'', ended⟩ |
              ⟨all, before, last, after, chosen, results', log'', rfl, none_, only, ended, ends,
                paths, ran⟩
          · exact .inl ⟨fun all => raised (all.2 satisfied), e, log'', ended⟩
          · refine .inr ⟨⟨unraised, fun _ => all⟩, c :: before, last, after, chosen, results', log'',
              rfl, List.forall_mem_cons.mpr ⟨satisfied, none_⟩, only, ended, ?_, ?_, ?_⟩
            · cases ends with
              | passed satisfied status test => exact .passed satisfied status test
              | exhausted kept head empty =>
                  refine .exhausted (fun f has => kept f (by rw [has]; rfl)) ?_ ?_
                  · rintro rfl d here
                    obtain rfl : c = d := by simpa using here
                    exact ⟨evidence, by rw [turn], kept evidence rfl⟩
                  · intro _ no
                    cases no
            · rw [paths]
              simp
            · rw [ran, executed]
              simp [List.append_assoc]

/-- The walk as one would have it. -/
structure Walked (w : WalkSettings) (candidates : List CandidateRun) (log : CommandLog)
    (outcome : TargetOutcome) (log' : CommandLog) : Prop where
  passes : outcome.status = "passed" ↔ ∃ c ∈ candidates, w.Satisfies c
  stops : (∃ c ∈ candidates, w.Satisfies c) → ∃ before c after evidence,
    candidates = before ++ c :: after ∧ (∀ b ∈ before, ¬ w.Satisfies b) ∧ w.Satisfies c ∧
      outcome = .walked evidence ∧ evidence.selectedTest = c.testPath ∧
      evidence.candidateResults.map (·.testPaths) = (before ++ [c]).map (fun d => [d.testPath]) ∧
      log'.executed = log.executed ++ (before ++ [c]).flatMap w.ran
  reports : (∀ c ∈ candidates, ¬ w.Satisfies c) → ∀ first, candidates.head? = some first →
    ∃ evidence, outcome = .walked evidence ∧
      (w.tryCandidate first log).1 = .ok evidence.toCandidateEvidence ∧
      (w.tryCandidate first log).2.executed = log.executed ++ evidence.commands

/-- The walk ends, and as one would have it. -/
def WalksRight (w : WalkSettings) (candidates : List CandidateRun) (log : CommandLog) : Prop :=
  match w.enforceTarget candidates log with
  | (.error _, _) => False
  | (.ok outcome, log') => w.Walked candidates log outcome log'

/-- A candidate's evidence lists exactly what was run for it where it has no overlay. -/
theorem reported_eq_ran_iff (unraised : ¬ w.Raises c) :
    w.reported c = w.ran c ↔ w.dependency c = .ok none := by
  unfold reported ran
  rw [List.append_assoc, List.append_cancel_left_eq]
  rcases prepared : w.dependency c with e | _ | evidence
  · exact absurd (.inl ⟨e, prepared⟩) unraised
  · simp
  · refine iff_of_false (fun same => ?_) (by simp)
    have lengths := congrArg List.length same
    simp at lengths

theorem enforceTarget_walked {candidates : List CandidateRun} {log log' : CommandLog}
    {evidence : CandidateEvidence} {results : List CandidateResult}
    (ended : w.walk none [] candidates log = (.ok (some evidence, results), log')) :
    w.enforceTarget candidates log = (.ok (.walked {
      toCandidateEvidence := evidence
      candidateResults := results
      candidateTestPaths := candidates.map (·.testPath) }), log') := by
  rw [enforceTarget, ended]

/-- The walk is right exactly where it does not come upon an exception, and the candidate that
it reports for want of one that passes has no dependency overlay. -/
theorem walksRight_iff (candidates : List CandidateRun) (log : CommandLog) :
    w.WalksRight candidates log ↔ w.Unraised candidates ∧
      ((∀ c ∈ candidates, ¬ w.Satisfies c) → ∀ first, candidates.head? = some first →
        w.dependency first = .ok none) := by
  unfold WalksRight
  rcases walk_cases (w := w) none [] candidates log with ⟨raised, e, log', ended⟩ |
    ⟨unraised, before, last, after, evidence, results, log', rfl, none_, only, ended, ends, paths,
      ran⟩
  · rw [enforceTarget, ended]
    exact iff_of_false id fun all => raised all.1
  · rw [and_iff_right unraised]
    cases ends with
    | @passed c evidence satisfied status test =>
        have some_ : ∃ d ∈ before ++ ([c] ++ after), w.Satisfies d := ⟨c, by simp, satisfied⟩
        rw [Option.toList_some] at ended ⊢
        rw [enforceTarget_walked ended]
        refine iff_of_true ⟨iff_of_true status some_, fun _ => ?_, fun unmet => ?_⟩ fun unmet => ?_
        · exact ⟨before, c, after, _, rfl, none_, satisfied, rfl, test, paths, ran⟩
        · obtain ⟨d, member, satisfied⟩ := some_
          exact absurd satisfied (unmet d member)
        · obtain ⟨d, member, satisfied⟩ := some_
          exact absurd satisfied (unmet d member)
    | exhausted kept head empty =>
        obtain rfl := only rfl
        rw [Option.toList_none, List.append_nil, List.append_nil] at ended ⊢
        cases before with
        | nil =>
            rw [empty rfl rfl] at ended
            rw [enforceTarget, ended]
            refine iff_of_true ⟨iff_of_false (show "failed" ≠ "passed" by decide) (by simp), ?_, ?_⟩
              (by simp)
            · rintro ⟨c, member, -⟩
              cases member
            · intro _ first here
              cases here
        | cons first rest =>
            obtain ⟨e, turn, rfl⟩ := head rfl first rfl
            have unmet := none_ first (by simp)
            have calm : ¬ w.Raises first := unraised [] first (rest ++ _) rfl (by simp)
            rcases tryCandidate_cases (w := w) (c := first) log with ⟨raises, -⟩ |
              ⟨-, evidence, log'', turned, executed, reported, test, passes⟩
            · exact absurd raises calm
            · obtain rfl : evidence = e := by
                rw [turned] at turn
                exact Except.ok.inj turn
              have failed : evidence.status ≠ "passed" := fun status => unmet (passes.mp status)
              rw [enforceTarget_walked ended]
              have lists : (w.tryCandidate first log).2.executed = log.executed ++ evidence.commands ↔
                  w.dependency first = .ok none := by
                rw [turned, executed, reported, List.append_cancel_left_eq, eq_comm]
                exact reported_eq_ran_iff calm
              constructor
              · rintro ⟨-, -, reports⟩ _ c here
                obtain rfl : first = c := by simpa using here
                obtain ⟨shown, same, -, executed⟩ := reports none_ first rfl
                cases same
                exact lists.mp executed
              · intro clear
                refine ⟨iff_of_false failed fun ⟨d, member, met⟩ => none_ d member met, ?_, ?_⟩
                · rintro ⟨d, member, met⟩
                  exact absurd met (none_ d member)
                · intro _ c here
                  obtain rfl : first = c := by simpa using here
                  exact ⟨_, rfl, turn, lists.mpr (clear none_ first rfl)⟩

/-! The evidence of the walk, without the commands, is the evidence of the binding. -/

/-- A candidate whose overlay and stages are run without an exception. -/
def quietRun (t : CandidateTest) : CandidateRun where
  testPath := ""
  overlay := { runs := [], outcome := .ok none }
  coverage := { runs := [], outcome := .ok t.coverage }
  mutation := { runs := [], outcome := .ok (t.mutation, []) }

theorem gatesOutcome_quietRun (w : WalkSettings) (t : CandidateTest) :
    w.gatesOutcome (quietRun t) = .ok (candidateEvidence w.gates w.changed w.sourcePath t, []) := by
  unfold gatesOutcome runGates candidateEvidence
  simp only [quietRun]
  rcases runCoverage t.coverage w.sourcePath w.changed w.gates.coverage with ⟨coverage, _ | _⟩
  · rfl
  · dsimp only
    split
    · rfl
    · split <;> rfl

theorem tryCandidate_quietRun (w : WalkSettings) (t : CandidateTest) (log : CommandLog) :
    ∃ evidence log', w.tryCandidate (quietRun t) log = (.ok evidence, log') ∧
      evidence.toTargetPayload = candidateEvidence w.gates w.changed w.sourcePath t := by
  have prepared : w.dependency (quietRun t) = .ok none := by
    unfold dependency
    split <;> rfl
  unfold tryCandidate
  rw [runOverlay_eq, prepared]
  dsimp only
  rw [runGates_eq, gatesOutcome_quietRun]
  exact ⟨_, _, rfl, rfl⟩

theorem walk_payload (w : WalkSettings) (first : Option CandidateEvidence)
    (results : List CandidateResult) (tests : List CandidateTest) (log : CommandLog) :
    ∃ evidence results' log',
      w.walk first results (tests.map quietRun) log = (.ok (evidence, results'), log') ∧
      let payloads := tests.map (candidateEvidence w.gates w.changed w.sourcePath)
      evidence.map (·.toTargetPayload) = (payloads.find? (fun p => decide (p.status = "passed")) <|>
        first.map (·.toTargetPayload) <|> payloads.head?) := by
  induction tests generalizing first results log with
  | nil => exact ⟨first, results, log, rfl, by cases first <;> rfl⟩
  | cons t rest ih =>
      obtain ⟨evidence, log', turn, payload⟩ := tryCandidate_quietRun w t log
      rw [List.map_cons, walk, turn]
      dsimp only
      by_cases passed : evidence.status = "passed"
      · rw [if_pos passed]
        refine ⟨_, _, _, rfl, ?_⟩
        rw [List.map_cons, List.find?_cons_of_pos (by rw [← payload]; exact decide_eq_true passed),
          ← payload]
        rfl
      · rw [if_neg passed]
        obtain ⟨chosen, results', log'', ended, same⟩ := ih (first <|> some evidence) _ log'
        refine ⟨chosen, results', log'', ended, ?_⟩
        rw [same, List.map_cons, List.find?_cons_of_neg (by rw [← payload]; simpa using passed),
          ← payload]
        cases first <;> rfl

/-- The walk refines the evidence of a target. -/
theorem enforceTarget_payload (w : WalkSettings) (t : Target) (source : t.sourcePath = w.sourcePath)
    (executable : disjointFromExecutable w.changed t.executableLines = false) (log : CommandLog) :
    ∃ outcome log', w.enforceTarget (t.candidates.map quietRun) log = (.ok outcome, log') ∧
      (match outcome with
        | .missingTestFile payload => payload
        | .walked evidence => evidence.toTargetPayload) = targetEvidence w.gates w.changed t := by
  obtain ⟨evidence, results, log', ended, same⟩ := walk_payload w none [] t.candidates log
  have open_ : (decide (t.sourcePath ≠ "") && !w.changed.isEmpty &&
      disjointFromExecutable w.changed t.executableLines) = false := by simp [executable]
  unfold targetEvidence enforceTarget
  rw [if_neg (by rw [open_]; decide), ended, source]
  dsimp only at same ⊢
  generalize t.candidates.map (candidateEvidence w.gates w.changed w.sourcePath) = payloads at same
  cases evidence with
  | none =>
      refine ⟨_, _, rfl, ?_⟩
      rcases payloads with _ | ⟨p, rest⟩
      · rfl
      · cases found : (p :: rest).find? fun p => decide (p.status = "passed") <;>
          rw [found] at same <;> cases same
  | some e =>
      refine ⟨_, _, rfl, ?_⟩
      rcases payloads with _ | ⟨p, rest⟩
      · cases same
      · dsimp only
        cases found : (p :: rest).find? fun p => decide (p.status = "passed") with
        | none =>
            rw [found] at same
            exact Option.some.inj same
        | some q =>
            rw [found] at same
            exact Option.some.inj same

/-! A candidate whose overlay is cached, and whose tests fail. -/

def cachedInstall : CommandRecord where
  name := "dependency_overlay_cached"
  command := ["python3", "-m", "pip", "install", "-r", "requirements.txt"]
  exitCode := 0
  stdout := ""
  stderr := ""

def pytestRun : CommandRecord where
  name := "pytest_coverage_run"
  command := ["python3", "-m", "pytest", "tests/test_a.py"]
  exitCode := 1
  stdout := "1 failed"
  stderr := ""

def redCandidate : CandidateRun where
  testPath := "tests/test_a.py"
  overlay := { runs := [], outcome := .ok (some cachedInstall) }
  coverage := { runs := [pytestRun], outcome := .ok .testsFailed }
  mutation := { runs := [], outcome := .error "not run" }

def redSettings : WalkSettings where
  gates := { coverage := 80, mutation := 80, mutationRequested := true }
  dependencyOverlayEnabled := true
  sourcePath := "src/a.py"
  changed := [3]

/-- The evidence lists an installation that was not run. -/
theorem cached_overlay_listed :
    redSettings.ran redCandidate = [pytestRun] ∧
      redSettings.reported redCandidate = [cachedInstall, pytestRun] ∧
      ¬ redSettings.WalksRight [redCandidate] ⟨[], []⟩ := by
  have unmet : ¬ redSettings.Satisfies redCandidate := by
    rintro ⟨-, ⟨stage, covered, passed⟩, -⟩
    obtain rfl : CoverageStage.testsFailed = stage := Except.ok.inj covered
    cases passed
  refine ⟨rfl, rfl, fun right => ?_⟩
  have clear := (walksRight_iff _ _).mp right
  cases clear.2 (by simpa using unmet) redCandidate rfl

end WalkSettings

end Uta.PythonGate
