/- When a run passes, as the modules ended: the evidence of one module passes the reactor, and only
a line that stops the run, or no module that ended quietly, keeps the promise of a pass. -/
import Uta.JavaGate.Readings

namespace Uta.JavaGate.Log
open Uta.Lib Uta.Lib.PyText Uta.Lib.Matcher

namespace Module

/-- What a module that is not quiet keeps, once nothing it prints stops the run. -/
theorem kept {m : Module} {gate : ℚ} (loud : ¬ m.quiet) (resolved : m.outcome ≠ .unresolved)
    (compiled : m.outcome ≠ .notCompiled) (enforcing : m.outcome ≠ .skipped)
    (met : ¬ m.printsMiss)
    (baseline : ∀ coverage pit, m.outcome ≠ .gated coverage pit .baselineRed)
    (reached : ∀ coverage pit score detected total survived noCoverage,
      m.outcome = .gated coverage pit (.passed score detected total survived noCoverage) →
        gate ≤ score.value) :
    (m.targets ≠ [] → m.verdictReaches gate) ∧ (m.changedLines = true → m.printsCoverage) ∧
      ¬ m.endedEarly ∧ (m.enforced → m.outcome ≠ .notReached) := by
  unfold Module.quiet at loud
  unfold Module.printsMiss at met
  unfold Module.verdictReaches Module.printsCoverage Module.endedEarly
  cases ends : m.outcome with
  | notReached =>
      rw [ends] at loud
      have idle : m.changedLines ≠ true ∧ ¬ m.targets ≠ [] := not_or.mp loud
      exact ⟨fun targets => idle.2 targets, fun changed => idle.1 changed, id,
        fun enforced => absurd enforced loud⟩
  | unresolved => exact absurd ends resolved
  | notCompiled => exact absurd ends compiled
  | goalFailed goal =>
      rw [ends] at loud
      exact absurd trivial loud
  | testsFailed run failures errors =>
      rw [ends] at loud
      exact absurd trivial loud
  | skipped => exact absurd ends enforcing
  | coverageMissed rate required covered total =>
      rw [ends] at met
      exact absurd trivial met
  | gated coverage pit mutation =>
      rw [ends] at loud met
      obtain ⟨measured, judged⟩ := not_or.mp loud
      refine ⟨fun targets => ?_, fun changed => ?_, id, fun _ => nofun⟩
      · cases mutation with
        | silent => exact absurd ⟨targets, rfl⟩ judged
        | baselineRed => exact absurd ends (baseline _ _)
        | strengthBelow strength threshold => exact absurd trivial met
        | missed score required detected total survived noCoverage => exact absurd trivial met
        | passed score detected total survived noCoverage => exact reached _ _ _ _ _ _ _ ends
        | unscored noCoverage => exact trivial
      · cases coverage with
        | measured rate covered total => exact trivial
        | _ => exact absurd ⟨changed, fun _ _ _ => nofun⟩ measured

end Module

namespace Reactor
variable {r : Reactor} {m : Module}

/-- A marker in the fixed words of a line is found in the output. -/
theorem containsLower_of_line {lines : List (List (List Char))} {marker : String}
    {left right : List (List Char)} {texts : List String} (some_ : texts ≠ [])
    (member : left ++ plain texts ++ right ∈ lines)
    (found : containsLower marker ([' '].intercalate (plain texts)) = true) :
    containsLower marker (lines.flatMap lineText ++ ['\n']) = true := by
  rw [containsLower, decide_eq_true_eq] at found ⊢
  have row : plain texts ≠ [] := by simpa [plain] using some_
  exact found.trans (((row_within row left right).trans (lineText_in member)).map Char.toLower)

theorem mentions_of_line {lines : List (List (List Char))} {markers : List String}
    (marker : String) (left : List (List Char)) (texts : List String) (right : List (List Char))
    (listed : marker ∈ markers) (some_ : texts ≠ [])
    (found : containsLower marker ([' '].intercalate (plain texts)) = true)
    (member : left ++ plain texts ++ right ∈ lines) :
    mentions markers (lines.flatMap lineText ++ ['\n']) = true :=
  List.any_eq_true.mpr ⟨marker, listed, containsLower_of_line some_ member found⟩

/-! The lines that stop a run. -/

theorem looksSkipped_of_skipped (member : m ∈ r.modules) (skips : m.outcome = .skipped) :
    looksSkipped (r.log ++ ['\n']) = true := by
  refine mentions_of_line "skip test enforcement" info ["skip", "test", "enforcement", "for"]
    [m.name.chars] (by simp) (by simp) (by decide) (block_lines member _ ?_)
  simp [Module.block, skips]

theorem looksBuildBroken_of_unresolved (member : m ∈ r.modules) (ends : m.outcome = .unresolved) :
    looksBuildBroken (r.log ++ ['\n']) = true := by
  refine Bool.or_eq_true_iff.mpr (.inl ?_)
  refine mentions_of_line "could not resolve dependencies" []
    ["[ERROR]", "Could", "not", "resolve", "dependencies", "for", "project"] [m.name.chars]
    (by simp) (by simp) (by decide) (block_lines member _ ?_)
  simp [Module.block, ends]

theorem looksBuildBroken_of_notCompiled (member : m ∈ r.modules)
    (ends : m.outcome = .notCompiled) : looksBuildBroken (r.log ++ ['\n']) = true := by
  refine Bool.or_eq_true_iff.mpr (.inl ?_)
  refine mentions_of_line "compilation error" [] ["[ERROR]", "COMPILATION", "ERROR", ":"] []
    (by simp) (by simp) (by decide) (block_lines member _ ?_)
  simp [Module.block, ends]

theorem looksPitestBaselineFailure_of_red (member : m ∈ r.modules) {coverage : Coverage}
    {pit : Option PitRun} (ends : m.outcome = .gated coverage pit .baselineRed) :
    looksPitestBaselineFailure (r.log ++ ['\n']) = true := by
  refine mentions_of_line "mutation testing requires a green suite" []
    ["[ERROR]", "Mutation", "testing", "requires", "a", "green", "suite."] [] (by simp) (by simp)
    (by decide) (block_lines member _ ?_)
  simp [Module.block, Module.mutationLines, ends]

theorem looksGateFailed_of_miss (member : m ∈ r.modules) (misses : m.printsMiss) :
    looksGateFailed (r.log ++ ['\n']) = true := by
  refine Bool.or_eq_true_iff.mpr (.inl (Bool.or_eq_true_iff.mpr (.inl ?_)))
  unfold Module.printsMiss at misses
  split at misses
  · rename_i rate required covered total ends
    refine mentions_of_line "check-coverage failed" []
      ["[ERROR]", "test-enforcer", "check-coverage", "failed:", "diff", "line", "coverage"]
      ([rate.percent] ++ plain ["is", "below", "required"] ++
        [required.percent, count covered total ++ [')']])
      (by simp) (by simp) (by decide) (block_lines member _ ?_)
    simp [Module.block, ends]
  · rename_i coverage pit strength threshold ends
    refine mentions_of_line "test strength score"
      (m.goalLine (plain ["org.pitest:pitest-maven:1.15.0:mutationCoverage", "(pitest)"]))
      [":", "Test", "strength", "score", "of"]
      ([numeral strength] ++ plain ["is", "below", "threshold", "of"] ++ [numeral threshold])
      (by simp) (by simp) (by decide) (block_lines member _ ?_)
    simp [Module.block, Module.mutationLines, ends]
  · rename_i coverage pit score required detected total survived noCoverage ends
    refine mentions_of_line "check-mutation failed" []
      ["[ERROR]", "test-enforcer", "check-mutation", "failed:", "diff", "mutation", "score"]
      ([score.percent] ++ plain ["for"] ++ [m.name.chars] ++
        counts detected total survived noCoverage ++ plain ["is", "below", "required"] ++
        [required.percent])
      (by simp) (by simp) (by decide) (block_lines member _ ?_)
    simp [Module.block, Module.mutationLines, ends]
  · exact absurd misses id

theorem gate_reached_of_not_below {gate : ℚ} (member : m ∈ r.modules) {coverage : Coverage}
    {pit : Option PitRun} {score : Rate} {detected total survived noCoverage : ℕ}
    (ends : m.outcome = .gated coverage pit (.passed score detected total survived noCoverage))
    (clear : mutationScoreBelowCiGate gate (r.log ++ ['\n']) = false) : gate ≤ score.value := by
  have read := score_read member ends
  rw [mutationScoreBelowCiGate, Bool.and_eq_false_iff] at clear
  rcases clear with off | least
  · have low : gate ≤ 0 := not_lt.mp (of_decide_eq_false off)
    have high : 0 ≤ score.value := binary64_nonneg (by positivity)
    exact low.trans high
  · obtain ⟨smallest, minimum⟩ : ∃ smallest,
        (diffMutationScores (r.log ++ ['\n'])).min? = some smallest :=
      Option.ne_none_iff_exists'.mp (by simpa using List.ne_nil_of_mem read)
    rw [minimum, Option.any_some, decide_eq_false_iff_not, not_lt] at least
    exact least.trans ((List.min?_eq_some_iff.mp minimum).2 _ read)

/-! The verdict on a reactor. -/

/-- The output has a line that stops the run. -/
def stops (r : Reactor) (gate : ℚ) (detectTermination : Bool) (returncode : ℤ) : Prop :=
  stopped gate detectTermination returncode (r.log ++ ['\n']) = true

/-- Some module shows coverage and some module a verdict, or the exit is clean and no module has
anything to measure. -/
def evidenced (r : Reactor) (returncode : ℤ) : Prop :=
  ((∃ m ∈ r.modules, m.printsCoverage) ∧ ∃ m ∈ r.modules, m.printsVerdict) ∨
    (returncode = 0 ∧ looksNoEnforceableJavaLines (r.log ++ ['\n']) = true)

theorem passed_iff {gate : ℚ} {detectTermination : Bool} {returncode : ℤ} :
    (r.classify gate detectTermination returncode).status = .passed ↔
      ¬ r.stops gate detectTermination returncode ∧ r.evidenced returncode := by
  rw [classify, classifyCompleted_passed_iff, hasRequiredEvidence, Bool.and_eq_true,
    hasCoverage_iff, hasMutation_iff, stops, Bool.not_eq_true]
  exact Iff.rfl

/-- A module that is not quiet, in an output that nothing stops. -/
theorem kept_of_not_quiet {gate : ℚ} {detectTermination : Bool} {returncode : ℤ}
    (runs : ¬ r.stops gate detectTermination returncode)
    (loud : ∀ m ∈ r.modules, ¬ m.quiet) : r.Promise gate := by
  rw [stops, Bool.not_eq_true, stopped] at runs
  simp only [Bool.or_eq_false_iff] at runs
  obtain ⟨⟨⟨⟨⟨⟨unskipped, unmissed⟩, above⟩, _⟩, _⟩, unbroken⟩, green⟩ := runs
  have met : ∀ m ∈ r.modules, ¬ m.printsMiss := fun m own misses => by
    rw [looksGateFailed_of_miss own misses] at unmissed
    exact absurd unmissed (by decide)
  have kept : ∀ m ∈ r.modules, (m.targets ≠ [] → m.verdictReaches gate) ∧
      (m.changedLines = true → m.printsCoverage) ∧ ¬ m.endedEarly ∧
      (m.enforced → m.outcome ≠ .notReached) := by
    intro m own
    refine Module.kept (loud m own) (fun ends => ?_) (fun ends => ?_) (fun ends => ?_) (met m own)
      (fun coverage pit ends => ?_)
      fun coverage pit score detected total survived noCoverage ends =>
        gate_reached_of_not_below own ends above
    · rw [looksBuildBroken_of_unresolved own ends] at unbroken
      exact absurd unbroken (by decide)
    · rw [looksBuildBroken_of_notCompiled own ends] at unbroken
      exact absurd unbroken (by decide)
    · rw [looksSkipped_of_skipped own ends] at unskipped
      exact absurd unskipped (by decide)
    · rw [looksPitestBaselineFailure_of_red own ends] at green
      exact absurd green (by decide)
  exact ⟨met, fun m own => (kept m own).1, fun m own => (kept m own).2.1,
    fun m own => (kept m own).2.2.1, fun m own => (kept m own).2.2.2⟩

/-- A quiet module breaks the promise. -/
theorem not_quiet_of_promise {gate : ℚ} (promise : r.Promise gate) (own : m ∈ r.modules) :
    ¬ m.quiet := by
  intro quiet
  unfold Module.quiet at quiet
  split at quiet
  · rename_i ends
    exact promise.reached m own quiet ends
  · rename_i ends
    have early := promise.completed m own
    rw [Module.endedEarly, ends] at early
    exact early trivial
  · rename_i ends
    have early := promise.completed m own
    rw [Module.endedEarly, ends] at early
    exact early trivial
  · rename_i coverage pit mutation ends
    rcases quiet with ⟨changed, unmeasured⟩ | ⟨targets, silent⟩
    · have prints := promise.coverage m own changed
      rw [Module.printsCoverage, ends] at prints
      cases coverage with
      | measured rate covered total => exact unmeasured _ _ _ rfl
      | _ => exact prints
    · have reaches := promise.verdict m own targets
      rw [Module.verdictReaches, ends, silent] at reaches
      exact reaches
  · exact quiet

/-- A pass keeps its promise exactly where a line stops the run, where evidence is missing, or
where no module ended quietly. -/
theorem passed_promises_iff (r : Reactor) (gate : ℚ) (detectTermination : Bool) (returncode : ℤ) :
    ((r.classify gate detectTermination returncode).status = .passed → r.Promise gate) ↔
      r.stops gate detectTermination returncode ∨ ¬ r.evidenced returncode ∨
        ∀ m ∈ r.modules, ¬ m.quiet := by
  rw [passed_iff]
  constructor
  · intro promised
    by_cases runs : r.stops gate detectTermination returncode
    · exact .inl runs
    · by_cases evidence : r.evidenced returncode
      · have promise := promised ⟨runs, evidence⟩
        exact .inr (.inr fun m own quiet => not_quiet_of_promise promise own quiet)
      · exact .inr (.inl evidence)
  · rintro (closed | missing | loud) ⟨runs, evidence⟩
    · exact absurd closed runs
    · exact absurd evidence missing
    · exact kept_of_not_quiet runs loud

/-- A module whose gates ran, and one whose tests failed before them. -/
def halfRed : Reactor where
  baseRef := ⟨"origin/master".toList, by decide⟩
  modules :=
    [{ name := ⟨"demo-biz".toList, by decide⟩
       changedLines := true
       targets := [⟨"com.demo.InvoiceBiz*".toList, by decide⟩]
       outcome := .gated (.measured ⟨10000⟩ 16 16) (some ⟨false, 46, 40, 86, 6, 100⟩)
        (.passed ⟨10000⟩ 40 40 0 6) },
     { name := ⟨"demo-web".toList, by decide⟩
       changedLines := true
       targets := [⟨"com.demo.InvoiceController*".toList, by decide⟩]
       outcome := .testsFailed 12 1 0 }]

/-- The evidence of one module passes the reactor although the tests of the next one failed. -/
theorem evidence_of_another_passes :
    ¬ ∀ (r : Reactor) (gate : ℚ) (detectTermination : Bool) (returncode : ℤ),
      (r.classify gate detectTermination returncode).status = .passed → r.Promise gate := by
  intro kept
  have passes : (halfRed.classify 100 true 1).status = .passed := by decide +kernel
  have promise := kept halfRed 100 true 1 passes
  refine promise.completed halfRed.modules[1] (List.getElem_mem _) ?_
  trivial

end Reactor

end Uta.JavaGate.Log
