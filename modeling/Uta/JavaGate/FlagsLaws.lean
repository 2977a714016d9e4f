/- What the flags answer of a build, as its modules ended: the failure is put down to the mutation
score where a module meets its coverage gate, a module misses its score, no module misses its
coverage and PIT found no module's tests red. -/
import Uta.JavaGate.GateSummary

namespace Uta.JavaGate.Log
open Uta.Lib Uta.Lib.PyText Uta.Lib.Matcher Uta.Enforce

/-! The marker of a red baseline. -/

/-- A line without the words that begin a marker. -/
structure Green (line : List (List Char)) : Prop where
  suite : Clear (EndsWith "mutation") (· = "testing".toList) line
  passes : Clear (EndsWith "did") (· = "not".toList) line

namespace Module
variable (m : Module)

theorem filterLine_green (baseRef : Word) : Green (m.filterLine baseRef) := by
  constructor <;> simp [Clear, plain, EndsWith, filterLine, info]

theorem goalLine_green (goal : Word) : Green (m.goalLine [goal.chars]) := by
  constructor <;> simp [Clear, plain, EndsWith, goalLine]

theorem testsLine_green (run failures errors : ℕ) :
    Green (testsLine "[ERROR]" run failures errors) := by
  constructor <;> simp [Clear, plain, EndsWith, testsLine]

theorem coverageLines_green (coverage : Coverage) :
    ∀ line ∈ m.coverageLines coverage, Green line := by
  cases coverage <;> simp only [coverageLines, List.forall_mem_singleton, List.not_mem_nil,
    false_imp_iff, implies_true]
  all_goals
    constructor <;> simp [Clear, plain, EndsWith, info, count]

theorem pitLines_green (pit : PitRun) : ∀ line ∈ m.pitLines pit, Green line := by
  obtain ⟨skips, generated, killed, killedPercent, noCoverage, strength⟩ := pit
  simp only [pitLines, List.forall_mem_cons, List.not_mem_nil, false_imp_iff, implies_true,
    and_true]
  refine ⟨?_, ?_, ?_⟩
  · cases skips <;> constructor <;> simp [Clear, plain, EndsWith]
  · constructor <;> simp [Clear, plain, EndsWith]
  · constructor <;> simp [Clear, plain, EndsWith]

theorem mutationLines_green {mutation : Mutation} (green : mutation ≠ .baselineRed) :
    ∀ line ∈ m.mutationLines mutation, Green line := by
  cases mutation <;> simp only [mutationLines, List.forall_mem_singleton, List.not_mem_nil,
    false_imp_iff, implies_true]
  case baselineRed => exact absurd rfl green
  all_goals
    constructor <;> simp [Clear, plain, EndsWith, info, counts, count, goalLine]

theorem summaryLine_green : Green m.summaryLine := by
  unfold summaryLine
  split
  · constructor <;> simp [Clear, plain, EndsWith]
  · split <;> constructor <;> simp [Clear, plain, EndsWith]

/-- A module that PIT did not find red prints no marker. -/
theorem block_green (baseRef : Word) (green : ¬ m.baselineRed) :
    ∀ line ∈ m.block baseRef, Green line := by
  have filter := m.filterLine_green baseRef
  unfold baselineRed at green
  unfold block
  split
  · simp
  · rw [List.forall_mem_singleton]
    constructor <;> simp [Clear, plain, EndsWith]
  · simp only [List.forall_mem_cons, List.not_mem_nil, false_imp_iff, implies_true, and_true]
    refine ⟨filter, ?_⟩
    constructor <;> simp [Clear, plain, EndsWith]
  · rename_i goal _
    simp only [List.forall_mem_cons, List.not_mem_nil, false_imp_iff, implies_true, and_true]
    exact ⟨filter, m.goalLine_green goal⟩
  · simp only [List.forall_mem_cons, List.not_mem_nil, false_imp_iff, implies_true, and_true]
    refine ⟨filter, testsLine_green _ _ _, ?_⟩
    constructor <;> simp [Clear, plain, EndsWith]
  · rw [List.forall_mem_singleton]
    constructor <;> simp [Clear, plain, EndsWith, info]
  · simp only [List.forall_mem_cons, List.not_mem_nil, false_imp_iff, implies_true, and_true]
    refine ⟨filter, ?_⟩
    constructor <;> simp [Clear, plain, EndsWith, count]
  · rename_i coverage pit mutation ends
    have scored : mutation ≠ .baselineRed := by
      rintro rfl
      rw [ends] at green
      exact green trivial
    rw [List.forall_mem_cons, List.forall_mem_append, List.forall_mem_append]
    refine ⟨filter, ⟨m.coverageLines_green coverage, ?_⟩, m.mutationLines_green scored⟩
    intro line member
    obtain ⟨run, _, own⟩ := List.mem_flatMap.mp member
    exact m.pitLines_green run line own

end Module

theorem RedSuite.lines_green (red : RedSuite) : ∀ line ∈ red.lines, Green line := by
  simp only [RedSuite.lines, List.forall_mem_cons, List.not_mem_nil, false_imp_iff, implies_true,
    and_true]
  refine ⟨Module.testsLine_green _ _ _, ?_⟩
  constructor <;> simp [Clear, plain, EndsWith]

namespace Build
variable {b : Build}

theorem lines_green (green : ∀ m ∈ b.modules, ¬ m.toModule.baselineRed) :
    ∀ line ∈ b.lines, Green line := by
  intro line member
  rcases mem_lines.mp member with own | ⟨_, _, red, _, printed⟩
  · rw [Reactor.lines, List.mem_append, List.mem_append, List.mem_singleton] at own
    rcases own with (own | own) | rfl
    · obtain ⟨_, listed, printed⟩ := List.mem_flatMap.mp own
      obtain ⟨m, source, rfl⟩ := List.mem_map.mp listed
      exact m.toModule.block_green _ (green m source) line printed
    · obtain ⟨m, _, rfl⟩ := List.mem_map.mp own
      exact m.summaryLine_green
    · split <;> constructor <;> simp [Clear, plain, EndsWith]
  · exact red.lines_green line printed

end Build

/-- A text without a character lies on one side of it. -/
theorem infix_beside {α : Type} {x : α} {part left right : List α} (absent : x ∉ part)
    (within : part <:+: left ++ x :: right) : part <:+: left ∨ part <:+: right := by
  rcases List.infix_append_iff.mp within with own | own | ⟨front, back, rfl, ends, begins⟩
  · exact .inl own
  · rcases List.infix_cons_iff.mp own with first | later
    · rcases part with _ | ⟨y, part⟩
      · exact .inl (List.nil_infix)
      · rw [(List.cons_prefix_cons.mp first).1] at absent
        exact absurd List.mem_cons_self absent
    · exact .inr later
  · rcases back with _ | ⟨y, back⟩
    · exact .inl (by simpa using ends.isInfix)
    · rw [(List.cons_prefix_cons.mp begins).1] at absent
      exact absurd (List.mem_append_right _ List.mem_cons_self) absent

/-- A text in which two letters meet is not in a summary that keeps them apart. -/
theorem not_infix_of_apart {p : Char × Char} {text part : List Char} (apart : Apart p text)
    (meets : [p.1, p.2] <:+: part) : ¬ part <:+: lower text := by
  intro within
  have pair := List.IsChain.infix apart.chain (meets.trans within)
  rw [List.isChain_cons_cons] at pair
  exact pair.1 ⟨rfl, rfl⟩

namespace Build
variable {b : Build} (t : Taking)

theorem pitBaselineFails_eq_true (output : List Char) : pitBaselineFails output = true ↔
    "Mutation testing requires a green suite".toList <:+: output ∨
      "did not pass without mutation".toList <:+: output := by
  unfold pitBaselineFails
  exact Bool.or_eq_true_iff.trans (or_congr decide_eq_true_iff decide_eq_true_iff)

theorem gateResult_output : (b.gateResult t).output =
    (b.gateResult t).summary ++ '\n' :: (b.log ++ ['\n']) := rfl

/-- A marker of the output stands among the lines, if its letters do not stand in a summary. -/
theorem marker_in_log {p : Char × Char} {marker : String} (member : p ∈ pairs)
    (other : Apart p "diff line coverage ".toList) (meets : [p.1, p.2] <:+: lower marker.toList)
    (inline_ : '\n' ∉ lower marker.toList) (found : marker.toList <:+: (b.gateResult t).output) :
    lower marker.toList <:+: lower (b.log ++ ['\n']) := by
  have within : lower marker.toList <:+:
      lower (b.gateResult t).summary ++ '\n' :: lower (b.log ++ ['\n']) := by
    have lowered := found.map Char.toLower
    rw [gateResult_output, List.map_append] at lowered
    exact lowered
  have apart : Apart p (b.gateResult t).summary :=
    summaryOf_apart member _ t.excluded (.inr other)
  exact (infix_beside inline_ within).resolve_left (not_infix_of_apart apart meets)

/-- Two words of a marker are two words of a line. -/
theorem pair_in_line (first second : String) {rest : List Char} (solid : IsSolid first.toList)
    (goes : IsSolid second.toList) (inner : second.toList ∉ heads)
    (within : first.toList ++ ([' '] ++ (second.toList ++ ([' '] ++ rest))) <:+:
      lower (b.log ++ ['\n'])) :
    ∃ line ∈ b.lines, ∃ a, EndsWith first a ∧ [a, second.toList] <:+: line.map lower := by
  have blank : ∀ c ∈ [' '], isSpace c = true := List.forall_mem_singleton.mpr rfl
  obtain ⟨front, after, split⟩ := within
  obtain ⟨before, stem, found⟩ := words_after first.toList solid (List.cons_ne_nil _ _) blank
    front (second.toList ++ ([' '] ++ (rest ++ after)))
  rw [words_cons goes (List.cons_ne_nil _ _) blank] at found
  have row : [stem ++ first.toList, second.toList] <:+: words (lower (b.log ++ ['\n'])) := by
    refine ⟨before, words (rest ++ after), ?_⟩
    rw [← split]
    simp only [List.append_assoc] at found ⊢
    rw [found]
    simp
  obtain ⟨line, member, own⟩ := Reactor.row_in_lines lines_solid line_headed
    (List.forall_mem_singleton.mpr inner) row
  exact ⟨line, member, _, endsWith_append stem first, own⟩

theorem suite_marker_red (found : "Mutation testing requires a green suite".toList <:+:
    (b.gateResult t).output) : ∃ m ∈ b.modules, m.toModule.baselineRed := by
  by_contra none_
  have green := lines_green fun m member red => none_ ⟨m, member, red⟩
  have marker := marker_in_log t (p := ('s', 'u')) (by decide) (by decide) (by decide) (by decide)
    found
  have text : lower "Mutation testing requires a green suite".toList = "mutation".toList ++
      ([' '] ++ ("testing".toList ++ ([' '] ++ "requires a green suite".toList))) := by decide
  rw [text] at marker
  obtain ⟨line, member, a, ends, row⟩ :=
    pair_in_line "mutation" "testing" (by decide) (by decide) (by decide) marker
  exact not_infix_of_clear (green line member).suite ends rfl row

theorem passes_marker_red (found : "did not pass without mutation".toList <:+:
    (b.gateResult t).output) : ∃ m ∈ b.modules, m.toModule.baselineRed := by
  by_contra none_
  have green := lines_green fun m member red => none_ ⟨m, member, red⟩
  have marker := marker_in_log t (p := ('h', 'o')) (by decide) (by decide) (by decide) (by decide)
    found
  have text : lower "did not pass without mutation".toList = "did".toList ++
      ([' '] ++ ("not".toList ++ ([' '] ++ "pass without mutation".toList))) := by decide
  rw [text] at marker
  obtain ⟨line, member, a, ends, row⟩ :=
    pair_in_line "did" "not" (by decide) (by decide) (by decide) marker
  exact not_infix_of_clear (green line member).passes ends rfl row

theorem suite_marker_of_red {m : TestedModule} (own : m ∈ b.modules)
    (red : m.toModule.baselineRed) :
    "Mutation testing requires a green suite".toList <:+: (b.gateResult t).output := by
  unfold Module.baselineRed at red
  split at red
  · rename_i coverage pit ends
    have printed : plain ["[ERROR]", "Mutation", "testing", "requires", "a", "green", "suite."] ∈
        b.lines := by
      refine mem_lines.mpr (.inl (Reactor.block_lines (List.mem_map_of_mem own) _ ?_))
      simp [Module.block, Module.mutationLines, ends]
    have row : plain ["Mutation", "testing", "requires", "a", "green", "suite."] ≠ [] :=
      List.cons_ne_nil _ _
    have text : "Mutation testing requires a green suite".toList <:+:
        [' '].intercalate (plain ["Mutation", "testing", "requires", "a", "green", "suite."]) :=
      ⟨[], ['.'], by decide⟩
    have line := (Reactor.row_within row (plain ["[ERROR]"]) []).trans (Reactor.lineText_in printed)
    exact (text.trans line).trans ((List.suffix_cons _ _).trans (List.suffix_append _ _)).isInfix
  · exact absurd red id

/-- The flags see a red baseline exactly where PIT found one. -/
theorem pitBaselineFails_iff : pitBaselineFails (b.gateResult t).output = true ↔
    ∃ m ∈ b.modules, m.toModule.baselineRed := by
  refine (pitBaselineFails_eq_true _).trans ⟨?_, ?_⟩
  · rintro (suite | passes)
    exacts [suite_marker_red t suite, passes_marker_red t passes]
  · rintro ⟨m, own, red⟩
    exact .inl (suite_marker_of_red t own red)

/-! The words of the gates. -/

theorem met_line {m : TestedModule} (own : m ∈ b.modules) (meets : m.toModule.meetsCoverage) :
    ∃ (rate : Rate) (tail : List (List Char)), "[info]".toList :: plain ["[test-enforcer]"] ++
      ("diff".toList :: "line".toList :: "coverage".toList :: rate.percent ::
        "passed".toList :: tail) ∈ b.lines := by
  unfold Module.meetsCoverage at meets
  split at meets
  · rename_i rate covered total pit mutation ends
    refine ⟨rate, plain ["for"] ++ [m.name.chars, count covered total ++ [')']],
      mem_lines.mpr (.inl (Reactor.block_lines (List.mem_map_of_mem own) _ ?_))⟩
    simp [Module.block, Module.coverageLines, info, plain, ends]
  · exact absurd meets id

theorem uncovered_line {m : TestedModule} (own : m ∈ b.modules)
    (misses : m.toModule.missesCoverage) :
    ∃ (rate : Rate) (tail : List (List Char)), "[ERROR]".toList ::
      plain ["test-enforcer", "check-coverage", "failed:"] ++ ("diff".toList :: "line".toList ::
        "coverage".toList :: rate.percent :: "is".toList :: tail) ∈ b.lines := by
  unfold Module.missesCoverage at misses
  split at misses
  · rename_i rate required covered total ends
    refine ⟨rate, plain ["below", "required"] ++ [required.percent, count covered total ++ [')']],
      mem_lines.mpr (.inl (Reactor.block_lines (List.mem_map_of_mem own) _ ?_))⟩
    simp [Module.block, plain, ends]
  · exact absurd misses id

theorem unscored_line {m : TestedModule} (own : m ∈ b.modules)
    (misses : m.toModule.missesScore) :
    ∃ (score : Rate) (tail : List (List Char)), "[ERROR]".toList ::
      plain ["test-enforcer", "check-mutation", "failed:"] ++ ("diff".toList ::
        "mutation".toList :: "score".toList :: score.percent :: "for".toList :: tail) ∈
          b.lines := by
  unfold Module.missesScore at misses
  split at misses
  · rename_i coverage pit score required detected total survived noCoverage ends
    refine ⟨score, [m.name.chars] ++ counts detected total survived noCoverage ++
      plain ["is", "below", "required"] ++ [required.percent],
      mem_lines.mpr (.inl (Reactor.block_lines (List.mem_map_of_mem own) _ ?_))⟩
    simp [Module.block, Module.mutationLines, plain, ends]
  · exact absurd misses id

/-- What is taken behind a coverage figure. -/
theorem coverage_capture {place word rest : List Char}
    (within : place <:+ lower (b.gateResult t).output)
    (read : (word, rest) ∈ gateWord "diff line coverage" place) :
    (word = "passed".toList ∧ ∃ m ∈ b.modules, m.toModule.meetsCoverage) ∨
      (word = "is".toList ∧ ∃ m ∈ b.modules, m.toModule.missesCoverage) := by
  obtain ⟨line, member, a, x, y, ends, _, capture, row⟩ :=
    match_row coverage_spelled (summaryOf_mute _ t.details t.excluded).1 within read
  rcases mem_lines.mp member with own | ⟨_, _, red, _, printed⟩
  · rcases Reactor.coverage_word own ends row with ⟨rfl, m, listed, meets⟩ |
      ⟨rfl, m, listed, misses⟩
    · obtain ⟨source, from_, rfl⟩ := List.mem_map.mp listed
      exact .inl ⟨capture.trans (by decide), source, from_, meets⟩
    · obtain ⟨source, from_, rfl⟩ := List.mem_map.mp listed
      exact .inr ⟨capture.trans (by decide), source, from_, misses⟩
  · have pair : [a, "line".toList] <:+: line.map lower :=
      (List.prefix_append [a, "line".toList] ["coverage".toList, x, y]).isInfix.trans row
    have clear : Clear (EndsWith "diff") Figure line :=
      (red.lines_idle line printed).figure.mono fun _ same => .inl same
    exact absurd pair (not_infix_of_clear clear ends (.inl rfl))

/-- What is taken behind a mutation score. -/
theorem mutation_capture {place word rest : List Char}
    (within : place <:+ lower (b.gateResult t).output)
    (read : (word, rest) ∈ gateWord "diff mutation score" place) :
    word = "passed".toList ∨
      (word = "for".toList ∧ ∃ m ∈ b.modules, m.toModule.missesScore) := by
  obtain ⟨line, member, a, x, y, ends, _, capture, row⟩ :=
    match_row mutation_spelled (summaryOf_mute _ t.details t.excluded).2 within read
  rcases mem_lines.mp member with own | ⟨_, _, red, _, printed⟩
  · rcases Reactor.mutation_word own ends row with rfl | ⟨rfl, m, listed, misses⟩
    · exact .inl (capture.trans (by decide))
    · obtain ⟨source, from_, rfl⟩ := List.mem_map.mp listed
      exact .inr ⟨capture.trans (by decide), source, from_, misses⟩
  · have pair : [a, "mutation".toList] <:+: line.map lower :=
      (List.prefix_append [a, "mutation".toList] ["score".toList, x, y]).isInfix.trans row
    have clear : Clear (EndsWith "diff") (· = "mutation".toList) line :=
      (red.lines_idle line printed).figure.mono fun _ same => .inr same
    exact absurd pair (not_infix_of_clear clear ends rfl)

theorem coverage_others : ∀ place, place <:+ lower (b.gateResult t).output → ∀ word rest,
    (word, rest) ∈ gateWord "diff line coverage" place → word.head? ≠ some 'd' := by
  intro place within word rest read
  rcases coverage_capture t within read with ⟨rfl, _⟩ | ⟨rfl, _⟩ <;> decide

theorem mutation_others : ∀ place, place <:+ lower (b.gateResult t).output → ∀ word rest,
    (word, rest) ∈ gateWord "diff mutation score" place → word.head? ≠ some 'd' := by
  intro place within word rest read
  rcases mutation_capture t within read with rfl | ⟨rfl, _⟩ <;> decide

/-- The coverage words are those of the figures that the modules print. -/
theorem mem_coverageWords {word : List Char} :
    word ∈ gateWords "diff line coverage" (b.gateResult t).output ↔
      (word = "passed".toList ∧ ∃ m ∈ b.modules, m.toModule.meetsCoverage) ∨
        (word = "is".toList ∧ ∃ m ∈ b.modules, m.toModule.missesCoverage) := by
  constructor
  · intro found
    obtain ⟨place, rest, within, read⟩ := finditer_sound (gateWord_takes coverage_spelled) found
    exact coverage_capture t within read
  · rintro (⟨rfl, m, own, meets⟩ | ⟨rfl, m, own, misses⟩)
    · obtain ⟨rate, tail, printed⟩ := met_line own meets
      exact gate_found coverage_spelled (coverage_others t) printed (by decide)
        (List.all_iff_forall_prop.mp (by decide)) (by decide)
    · obtain ⟨rate, tail, printed⟩ := uncovered_line own misses
      exact gate_found coverage_spelled (coverage_others t) printed (by decide)
        (List.all_iff_forall_prop.mp (by decide)) (by decide)

/-- The mutation words tell of a miss exactly where a module misses its score. -/
theorem mutationWords_missed : (∃ word ∈ gateWords "diff mutation score" (b.gateResult t).output,
    word ≠ "passed".toList) ↔ ∃ m ∈ b.modules, m.toModule.missesScore := by
  constructor
  · rintro ⟨word, found, other⟩
    obtain ⟨place, rest, within, read⟩ := finditer_sound (gateWord_takes mutation_spelled) found
    exact ((mutation_capture t within read).resolve_left other).2
  · rintro ⟨m, own, misses⟩
    obtain ⟨score, tail, printed⟩ := unscored_line own misses
    refine ⟨"for".toList, ?_, by decide⟩
    exact gate_found mutation_spelled (mutation_others t) printed (by decide)
      (List.all_iff_forall_prop.mp (by decide)) (by decide)

/-! The answer. -/

/-- A build in which a module misses its score does not pass. -/
theorem not_passed_of_missesScore {m : TestedModule} (own : m ∈ b.modules)
    (misses : m.toModule.missesScore) : (b.gateResult t).passed = false := by
  obtain ⟨score, tail, printed⟩ := unscored_line own misses
  have failed : looksGateFailed (b.log ++ ['\n']) = true := by
    refine Bool.or_eq_true_iff.mpr (.inl (Bool.or_eq_true_iff.mpr (.inl ?_)))
    refine Reactor.mentions_of_line "check-mutation failed" [] ["[ERROR]", "test-enforcer",
      "check-mutation", "failed:"] ("diff".toList :: "mutation".toList :: "score".toList ::
        score.percent :: "for".toList :: tail) (by simp) (by simp) (by decide) printed
  refine decide_eq_false fun passes => ?_
  have clear := (classifyCompleted_passed_iff.mp passes).1
  rw [stopped] at clear
  simp only [Bool.or_eq_false_iff] at clear
  rw [clear.1.1.1.1.1.2] at failed
  cases failed

/-- What the answer goes by. -/
theorem mutationOnly_read (result : GateResult) :
    (javaGateFailureFlags result).any GateFlags.mutationOnlyFailure = true ↔
      gateWords "diff line coverage" result.output ≠ [] ∧
        (∀ word ∈ gateWords "diff line coverage" result.output, word = "passed".toList) ∧
        (∃ word ∈ gateWords "diff mutation score" result.output, word ≠ "passed".toList) ∧
        pitBaselineFails result.output = false ∧ result.passed = false := by
  unfold javaGateFailureFlags
  dsimp only
  split
  · rename_i silent
    rw [Option.any_none]
    refine iff_of_false Bool.false_ne_true ?_
    rintro ⟨some_, _, ⟨word, missed, _⟩, _⟩
    rcases silent with coverage | mutation
    · exact some_ coverage
    · rw [mutation] at missed
      exact List.not_mem_nil missed
  · rename_i spoken
    simp only [Option.any_some, Bool.and_eq_true, Bool.not_eq_true', List.all_eq_true,
      List.any_eq_true, decide_eq_true_eq]
    constructor
    · rintro ⟨⟨⟨green, covered⟩, missed⟩, failed⟩
      exact ⟨fun coverage => spoken (.inl coverage), covered, missed, green, failed⟩
    · rintro ⟨_, covered, missed, green, failed⟩
      exact ⟨⟨⟨green, covered⟩, missed⟩, failed⟩

/-- The failure is put down to the mutation score by what the gates print, and by nothing else. -/
theorem mutationOnly_iff :
    (javaGateFailureFlags (b.gateResult t)).any GateFlags.mutationOnlyFailure = true ↔
      (∃ m ∈ b.modules, m.toModule.meetsCoverage) ∧ (∃ m ∈ b.modules, m.toModule.missesScore) ∧
        (∀ m ∈ b.modules, ¬ m.toModule.baselineRed) ∧
        ∀ m ∈ b.modules, ¬ m.toModule.missesCoverage := by
  rw [mutationOnly_read]
  constructor
  · rintro ⟨some_, covered, missed, green, _⟩
    have uncovered : ∀ m ∈ b.modules, ¬ m.toModule.missesCoverage := by
      intro m own misses
      exact absurd (covered "is".toList ((mem_coverageWords t).mpr (.inr ⟨rfl, m, own, misses⟩)))
        (by decide)
    refine ⟨?_, (mutationWords_missed t).mp missed, fun m own red => ?_, uncovered⟩
    · obtain ⟨word, found⟩ := List.exists_mem_of_ne_nil _ some_
      rcases (mem_coverageWords t).mp found with ⟨_, meets⟩ | ⟨_, m, own, misses⟩
      · exact meets
      · exact absurd misses (uncovered m own)
    · rw [(pitBaselineFails_iff t).mpr ⟨m, own, red⟩] at green
      cases green
  · rintro ⟨meets, missed, green, uncovered⟩
    have found := (mem_coverageWords t).mpr (.inl ⟨rfl, meets⟩)
    refine ⟨List.ne_nil_of_mem found, fun word own => ?_, (mutationWords_missed t).mpr missed,
      ?_, ?_⟩
    · rcases (mem_coverageWords t).mp own with ⟨same, _⟩ | ⟨_, m, listed, misses⟩
      · exact same
      · exact absurd misses (uncovered m listed)
    · rw [Bool.eq_false_iff, Ne, pitBaselineFails_iff]
      rintro ⟨m, own, red⟩
      exact green m own red
    · obtain ⟨m, own, misses⟩ := missed
      exact not_passed_of_missesScore t own misses

/-- The answer is right exactly where no module failed unseen, or where it is withheld. -/
theorem mutationOnly_right_iff :
    ((javaGateFailureFlags (b.gateResult t)).any GateFlags.mutationOnlyFailure = true →
        b.MutationAlone) ↔
      (∀ m ∈ b.modules, ¬ Unseen m) ∨ b.Withheld := by
  rw [mutationOnly_iff, Withheld]
  constructor
  · intro right
    by_contra none_
    simp only [not_or, not_exists, not_and, not_forall, not_not, exists_prop] at none_
    obtain ⟨⟨m, own, unseen⟩, green, covered, meets, missed⟩ := none_
    have alone := right ⟨meets, missed, green, covered⟩
    rcases unseen with red | ended | broke
    · exact red (alone.green m own).1
    · exact (alone.green m own).2.1 ended
    · exact alone.built m own broke
  · rintro cases_ ⟨meets, missed, green, covered⟩
    rcases cases_ with seen | ⟨m, own, red⟩ | ⟨m, own, misses⟩ | unmet | unmissed
    · have each := fun m own => not_or.mp (seen m own)
      refine ⟨missed, fun m own => ⟨?_, ?_, green m own⟩, fun m own => ?_, covered⟩
      · exact not_not.mp (each m own).1
      · exact (not_or.mp (each m own).2).1
      · exact (not_or.mp (each m own).2).2
    · exact absurd red (green m own)
    · exact absurd misses (covered m own)
    · obtain ⟨m, own, meet⟩ := meets
      exact absurd meet (unmet m own)
    · obtain ⟨m, own, misses⟩ := missed
      exact absurd misses (unmissed m own)

end Build

end Uta.JavaGate.Log
