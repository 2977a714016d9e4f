/- The lines of a build that the flags of a failure are read from: the words that a gate's pattern
takes are those of the gate's lines, and every such line is read. -/
import Uta.JavaGate.Flags
import Mathlib

namespace Uta.JavaGate
open Uta.Lib Uta.Lib.PyText Uta.Lib.Matcher Uta.Enforce Log

/-! The pattern of a gate. -/

/-- The words of a gate, none of which begins as the first one does but the first. -/
structure Spelled (gate second third : String) : Prop where
  text : gate.toList = "diff".toList ++ ([' '] ++ (second.toList ++ ([' '] ++ third.toList)))
  lowered : lower gate.toList = gate.toList
  second_solid : IsSolid second.toList
  third_solid : IsSolid third.toList
  second_head : second.toList.head? ≠ some 'd'
  third_head : third.toList.head? ≠ some 'd'
  second_inner : second.toList ∉ heads
  third_inner : third.toList ∉ heads

theorem coverage_spelled : Spelled "diff line coverage" "line" "coverage" := by
  constructor <;> decide

theorem mutation_spelled : Spelled "diff mutation score" "mutation" "score" := by
  constructor <;> decide

/-- The parts of a match of the pattern. -/
structure GateMatch (gate : String) (text word rest : List Char) (gap₁ figure gap₂ : List Char) :
    Prop where
  text : text = gate.toList ++ (gap₁ ++ ((figure ++ ['%']) ++ (gap₂ ++ (word ++ rest))))
  gap₁ : gap₁ ≠ [] ∧ ∀ c ∈ gap₁, isSpace c = true
  figure : figure ≠ [] ∧ ∀ c ∈ figure, (c.isDigit || c == '.') = true
  gap₂ : gap₂ ≠ [] ∧ ∀ c ∈ gap₂, isSpace c = true
  some_ : word ≠ []
  whole : word = (word ++ rest).takeWhile Matcher.isWord

theorem mem_gateWord {gate : String} {text word rest : List Char} :
    (word, rest) ∈ gateWord gate text →
      ∃ gap₁ figure gap₂, GateMatch gate text word rest gap₁ figure gap₂ := by
  intro read
  obtain ⟨_, t₁, own, read⟩ := mem_bind.mp read
  obtain ⟨gap₁, t₂, space₁, read⟩ := mem_bind.mp read
  obtain ⟨figure, t₃, number, read⟩ := mem_bind.mp read
  obtain ⟨_, t₄, percent, read⟩ := mem_bind.mp read
  obtain ⟨gap₂, t₅, space₂, ends⟩ := mem_bind.mp read
  obtain rfl := mem_lit.mp own
  obtain ⟨some₁, blank₁, rfl⟩ := mem_run.mp space₁
  obtain ⟨some₂, digits₂, rfl⟩ := mem_run.mp number
  obtain rfl := mem_lit.mp percent
  obtain ⟨some₃, blank₃, rfl⟩ := mem_run.mp space₂
  obtain ⟨some_, first, last⟩ := mem_wholeRun.mp ends
  have parts : t₅ = word ++ rest := by rw [first, last, List.takeWhile_append_dropWhile]
  refine ⟨gap₁, figure, gap₂, ?_, ⟨some₁, blank₁⟩, ⟨some₂, digits₂⟩, ⟨some₃, blank₃⟩, some_, ?_⟩
  · rw [parts]
    simp
  · rw [← parts]
    exact first

theorem gateWord_takes {gate second third : String} (spelled : Spelled gate second third) :
    Takes (gateWord gate) := by
  intro text word rest read
  obtain ⟨gap₁, figure, gap₂, match_⟩ := mem_gateWord read
  refine ⟨gate.toList ++ (gap₁ ++ ((figure ++ ['%']) ++ (gap₂ ++ word))), ?_, ?_⟩
  · rw [spelled.text]
    simp
  · rw [match_.text]
    simp

theorem not_space_of_between {c : Char} (low : 48 ≤ c.toNat) (high : c.toNat ≤ 122) :
    isSpace c = false := by
  rw [Bool.eq_false_iff]
  simp only [isSpace, ne_eq, beq_iff_eq, Bool.or_eq_true, Bool.and_eq_true, decide_eq_true_eq]
  omega

theorem not_space_of_isWord {c : Char} (word : Matcher.isWord c = true) : isSpace c = false := by
  simp only [Matcher.isWord, Char.isAlphanum, Char.isAlpha, Char.isUpper, Char.isLower,
    Char.isDigit, Bool.or_eq_true, Bool.and_eq_true, decide_eq_true_eq, beq_iff_eq] at word
  rcases word with ((upper | lower) | digit) | rfl
  · have low : 65 ≤ c.toNat := upper.1
    have high : c.toNat ≤ 90 := upper.2
    exact not_space_of_between (by omega) (by omega)
  · have low : 97 ≤ c.toNat := lower.1
    exact not_space_of_between (by omega) lower.2
  · have high : c.toNat ≤ 57 := digit.2
    exact not_space_of_between digit.1 (by omega)
  · decide

theorem not_space_of_figure {c : Char} (digit : (c.isDigit || c == '.') = true) :
    isSpace c = false := by
  rcases Bool.or_eq_true_iff.mp digit with own | dot
  · exact not_space_of_digit own
  · rw [beq_iff_eq.mp dot]
    rfl

namespace GateMatch
variable {gate second third : String} {text word rest gap₁ figure gap₂ : List Char}

theorem figure_solid (match_ : GateMatch gate text word rest gap₁ figure gap₂) :
    IsSolid (figure ++ ['%']) := by
  refine ⟨by simp, fun c member => ?_⟩
  rcases List.mem_append.mp member with own | last
  · exact not_space_of_figure (match_.figure.2 c own)
  · rw [List.mem_singleton.mp last]
    decide

theorem word_every (match_ : GateMatch gate text word rest gap₁ figure gap₂) :
    ∀ c ∈ word, Matcher.isWord c = true := by
  intro c member
  rw [match_.whole] at member
  exact List.mem_takeWhile_imp member

theorem word_solid (match_ : GateMatch gate text word rest gap₁ figure gap₂) : IsSolid word :=
  ⟨match_.some_, fun c member => not_space_of_isWord (match_.word_every c member)⟩

/-- The words of the text of a match. -/
theorem words_text (match_ : GateMatch gate text word rest gap₁ figure gap₂)
    (spelled : Spelled gate second third) :
    words text = "diff".toList :: second.toList :: third.toList :: (figure ++ ['%']) ::
      (word ++ rest.takeWhile fun c => !isSpace c) ::
        words (rest.dropWhile fun c => !isSpace c) := by
  rw [match_.text, spelled.text]
  simp only [List.append_assoc]
  rw [words_cons (by decide) (List.cons_ne_nil _ _) (by simp; decide),
    words_cons spelled.second_solid (List.cons_ne_nil _ _) (by simp; decide),
    words_cons spelled.third_solid match_.gap₁.1 match_.gap₁.2,
    ← List.append_assoc figure, words_cons match_.figure_solid match_.gap₂.1 match_.gap₂.2,
    words_front match_.word_solid]

/-- What is captured of the last word that is read. -/
theorem capture (match_ : GateMatch gate text word rest gap₁ figure gap₂) :
    word = (word ++ rest.takeWhile fun c => !isSpace c).takeWhile Matcher.isWord := by
  have ends : rest.takeWhile Matcher.isWord = [] := by
    have whole := match_.whole
    rw [List.takeWhile_append_of_pos match_.word_every] at whole
    exact List.self_eq_append_right.mp whole
  rw [List.takeWhile_append_of_pos match_.word_every]
  rcases rest with _ | ⟨c, rest⟩
  · simp
  · have other : Matcher.isWord c = false := by simpa using ends
    by_cases space : isSpace c = true <;> simp [space, other]

/-- The row of words that a match reads, wherever it stands. -/
theorem row (match_ : GateMatch gate text word rest gap₁ figure gap₂)
    (spelled : Spelled gate second third) (front : List Char) :
    ∃ a y, EndsWith "diff" a ∧ word = y.takeWhile Matcher.isWord ∧
      [a, second.toList, third.toList, figure ++ ['%'], y] <:+: words (front ++ text) := by
  have own := match_.words_text spelled
  obtain ⟨tail, split⟩ : ∃ tail, text = "diff".toList ++ ([' '] ++ tail) := by
    rw [match_.text, spelled.text]
    exact ⟨_, by simp only [List.append_assoc]; rfl⟩
  have blank : ∀ c ∈ [' '], isSpace c = true := by simp; decide
  rw [split, words_cons (by decide) (List.cons_ne_nil _ _) blank] at own
  obtain ⟨before, stem, found⟩ :=
    words_after "diff".toList (by decide) (List.cons_ne_nil _ _) blank front tail
  refine ⟨stem ++ "diff".toList, word ++ rest.takeWhile (fun c => !isSpace c),
    endsWith_append stem "diff", match_.capture, before,
    words (rest.dropWhile fun c => !isSpace c), ?_⟩
  rw [split, found, (List.cons.inj own).2]
  simp

/-- No word of a match that ends its text begins as the gate's line does, but the first one. -/
theorem not_begins (match_ : GateMatch gate text word [] gap₁ figure gap₂)
    (spelled : Spelled gate second third) (other : word.head? ≠ some 'd') :
    ∀ w ∈ (words text).tail, w.head? ≠ some 'd' := by
  have digit : figure.head? ≠ some 'd' := by
    obtain ⟨c, figure, rfl⟩ := List.exists_cons_of_ne_nil match_.figure.1
    intro begins
    obtain rfl : c = 'd' := by simpa using begins
    exact absurd (match_.figure.2 'd' List.mem_cons_self) (by decide)
  rw [match_.words_text spelled, List.tail_cons]
  simp only [List.takeWhile_nil, List.dropWhile_nil, List.append_nil, List.forall_mem_cons]
  refine ⟨spelled.second_head, spelled.third_head, ?_, other, by simp [words]⟩
  rwa [List.head?_append_of_ne_nil _ match_.figure.1]

/-- A match in front does not reach into a line of the gate. -/
theorem before_place {part place : List Char}
    (match_ : GateMatch gate (part ++ place) word rest gap₁ figure gap₂)
    (spelled : Spelled gate second third) (blank : part.getLast? = some ' ')
    (starts : place.head? = some 'd') (other : word.head? ≠ some 'd') : place <:+ rest := by
  have whole := match_.text
  have parts : gate.toList ++ (gap₁ ++ ((figure ++ ['%']) ++ (gap₂ ++ (word ++ rest)))) =
      (gate.toList ++ (gap₁ ++ ((figure ++ ['%']) ++ (gap₂ ++ word)))) ++ rest := by simp
  rw [parts] at whole
  rcases List.append_eq_append_iff.mp whole with ⟨inner, reads, rfl⟩ | ⟨later, _, rfl⟩
  · rcases inner with _ | ⟨c, inner⟩
    · exact List.suffix_rfl
    · exfalso
      obtain rfl : c = 'd' := by simpa using starts
      have alone : GateMatch gate (part ++ 'd' :: inner) word [] gap₁ figure gap₂ := by
        refine ⟨?_, match_.gap₁, match_.figure, match_.gap₂, match_.some_, ?_⟩
        · rw [← reads]
          simp
        · rw [List.append_nil]
          exact (List.takeWhile_eq_self_iff.mpr match_.word_every).symm
      obtain ⟨front, rfl⟩ := List.getLast?_eq_some_iff.mp blank
      have begins : (front ++ [' '] ++ 'd' :: inner).head? = some 'd' := by
        rw [← reads, spelled.text]
        rfl
      obtain ⟨front, rfl⟩ : ∃ more, front = 'd' :: more := by
        rcases front with _ | ⟨e, more⟩
        · exact absurd (Option.some.inj begins) (by decide)
        · exact ⟨more, by rw [show e = 'd' from Option.some.inj begins]⟩
      obtain ⟨tail, after, later⟩ := @words_begins ['d'] (by decide) inner
      obtain ⟨stem, between, first⟩ := @words_begins ['d'] (by decide) front
      have split : words ('d' :: front ++ [' '] ++ 'd' :: inner) =
          ('d' :: stem) :: (between ++ ('d' :: tail) :: after) := by
        rw [List.append_assoc, List.singleton_append, words_append_blank (by decide)]
        exact congrArg₂ (· ++ ·) first later
      refine alone.not_begins spelled other ('d' :: tail) ?_ rfl
      rw [split, List.tail_cons]
      exact List.mem_append_right _ List.mem_cons_self
  · exact List.suffix_append _ _

/-- A text has one match of the pattern at most. -/
theorem unique {word' rest' gap₁' figure' gap₂' : List Char}
    (match_ : GateMatch gate text word rest gap₁ figure gap₂)
    (other : GateMatch gate text word' rest' gap₁' figure' gap₂')
    (spelled : Spelled gate second third) : word = word' := by
  have same := (match_.words_text spelled).symm.trans (other.words_text spelled)
  simp only [List.cons.injEq, true_and] at same
  rw [match_.capture, other.capture, same.2.1]

end GateMatch

namespace Log

/-! The lines of a build. -/

namespace RedSuite
variable (red : RedSuite)

theorem lines_idle : ∀ line ∈ red.lines, Idle line := by
  simp only [lines, List.forall_mem_cons, List.not_mem_nil, false_imp_iff, implies_true, and_true]
  refine ⟨Module.testsLine_idle _ _ _, ?_⟩
  constructor <;> simp [Clear, plain, EndsWith, BeginsWith, Figure]

theorem lines_solid : ∀ line ∈ red.lines, ∀ w ∈ line, IsSolid w := by
  simp only [lines, List.forall_mem_cons, List.not_mem_nil, false_imp_iff, implies_true, and_true]
  exact ⟨Module.testsLine_solid _ _ _, plain_solid (by decide)⟩

theorem lines_headed : ∀ line ∈ red.lines, Reactor.Headed line := by
  simp only [lines, List.forall_mem_cons, List.not_mem_nil, false_imp_iff, implies_true, and_true]
  exact ⟨by simp [Reactor.Headed, Module.testsLine, plain, heads],
    by simp [Reactor.Headed, plain, heads]⟩

end RedSuite

theorem TestedModule.mem_block {m : TestedModule} {baseRef : Word} {line : List (List Char)} :
    line ∈ m.block baseRef ↔
      line ∈ m.toModule.block baseRef ∨ ∃ red, m.red = some red ∧ line ∈ red.lines := by
  unfold block
  cases m.red with
  | none => simp
  | some red =>
      have own : line ∈ m.toModule.block baseRef ↔
          line ∈ (m.toModule.block baseRef).take 1 ∨ line ∈ (m.toModule.block baseRef).drop 1 := by
        rw [← List.mem_append, List.take_append_drop]
      simp only [List.mem_append, own, Option.some.injEq, exists_eq_left']
      tauto

namespace Build
variable {b : Build}

theorem mem_lines {line : List (List Char)} : line ∈ b.lines ↔
    line ∈ b.reactor.lines ∨ ∃ m ∈ b.modules, ∃ red, m.red = some red ∧ line ∈ red.lines := by
  simp only [lines, Reactor.lines, reactor, List.mem_append, List.mem_flatMap,
    TestedModule.mem_block, List.mem_map, exists_exists_and_eq_and, and_or_left, exists_or]
  constructor
  · rintro (((own | red) | summary) | last)
    exacts [.inl (.inl (.inl own)), .inr red, .inl (.inl (.inr summary)), .inl (.inr last)]
  · rintro (((own | summary) | last) | red)
    exacts [.inl (.inl (.inl own)), .inl (.inr summary), .inr last, .inl (.inl (.inr red))]

theorem lines_solid : ∀ line ∈ b.lines, ∀ w ∈ line, IsSolid w := by
  intro line member
  rcases mem_lines.mp member with own | ⟨_, _, red, _, printed⟩
  · exact b.reactor.lines_solid line own
  · exact red.lines_solid line printed

theorem line_headed : ∀ line ∈ b.lines, Reactor.Headed line := by
  intro line member
  rcases mem_lines.mp member with own | ⟨_, _, red, _, printed⟩
  · exact Reactor.line_headed own
  · exact red.lines_headed line printed

end Build

/-! The matches of an output. -/

/-- No match of the gate begins in the summary, unless a word comes next. -/
def Mute (gate : String) (summary : List Char) : Prop :=
  ∀ part, part ≠ [] → part <:+ lower summary → ∀ body : List Char,
    (body.dropWhile isSpace).head?.any Matcher.isWord = false →
      gateWord gate (part ++ '\n' :: body) = []

/-- A captured word begins no line. -/
theorem not_mem_heads {y : List Char} (some_ : y.takeWhile Matcher.isWord ≠ []) : y ∉ heads := by
  intro listed
  have every : ∀ h ∈ heads, h.takeWhile Matcher.isWord = [] := by decide
  exact some_ (every y listed)

theorem percent_not_mem_heads (figure : List Char) : figure ++ ['%'] ∉ heads := by
  intro listed
  have every : ∀ h ∈ heads, h.getLast? ≠ some '%' := by decide
  exact every _ listed (by simp)

namespace Build
variable {b : Build} {gate second third : String}

theorem lineText_front (w : List Char) (line : List (List Char)) :
    w <+: Reactor.lineText (w :: line) := by
  rcases line with _ | ⟨v, line⟩
  · simp [Reactor.lineText, List.intercalate]
  · simp [Reactor.lineText, List.intercalate]

/-- What follows the summary. -/
theorem body_head :
    ((lower (b.log ++ ['\n'])).dropWhile isSpace).head?.any Matcher.isWord = false := by
  have some_ : b.lines ≠ [] := List.append_ne_nil_of_right_ne_nil _ (List.cons_ne_nil _ _)
  obtain ⟨line, lines, cut⟩ := List.exists_cons_of_ne_nil some_
  obtain ⟨h, listed, begins⟩ := line_headed line (cut ▸ List.mem_cons_self)
  obtain ⟨w, line, rfl⟩ : ∃ w more, line = w :: more := by
    rcases line with _ | ⟨w, more⟩
    · cases begins
    · exact ⟨w, more, rfl⟩
  obtain rfl : lower w = h := Option.some.inj begins
  obtain ⟨after, text⟩ : ∃ after, lower (b.log ++ ['\n']) = lower w ++ after := by
    obtain ⟨more, split⟩ := lineText_front w line
    refine ⟨lower (more ++ lines.flatMap Reactor.lineText ++ ['\n']), ?_⟩
    rw [log, cut, List.flatMap_cons, ← split]
    simp
  have every : ∀ h ∈ heads, h.head?.any (fun c => !isSpace c && !Matcher.isWord c) = true := by
    decide
  have first := every _ listed
  rw [text]
  rcases front : lower w with _ | ⟨c, rest⟩
  · rw [front] at first
    cases first
  · rw [front] at first
    simp only [List.head?_cons, Option.any_some, Bool.and_eq_true, Bool.not_eq_true'] at first
    simp [first.1, first.2]

/-- A match of the output reads a row of words in a line of the build. -/
theorem match_row (spelled : Spelled gate second third) {summary place word rest : List Char}
    (mute : Mute gate summary) (within : place <:+ lower (summary ++ '\n' :: (b.log ++ ['\n'])))
    (read : (word, rest) ∈ gateWord gate place) :
    ∃ line ∈ b.lines, ∃ a x y, EndsWith "diff" a ∧ word ≠ [] ∧
      word = y.takeWhile Matcher.isWord ∧
      [a, second.toList, third.toList, x, y] <:+: line.map lower := by
  obtain ⟨gap₁, figure, gap₂, match_⟩ := mem_gateWord read
  have begins : place.head? = some 'd' := by
    rw [match_.text, spelled.text]
    rfl
  have newline : Char.toLower '\n' = '\n' := by decide
  rw [lower_append, lower_cons, newline] at within
  obtain ⟨front, whole⟩ := within
  rcases List.append_eq_append_iff.mp whole with ⟨part, cut, rfl⟩ | ⟨part, _, cut⟩
  · rcases part with _ | ⟨c, part⟩
    · exact absurd (Option.some.inj begins) (by decide)
    · rw [mute (c :: part) (List.cons_ne_nil _ _) (cut ▸ List.suffix_append _ _) _
        body_head] at read
      exact absurd read List.not_mem_nil
  · rcases part with _ | ⟨c, part⟩
    · rw [List.nil_append] at cut
      rw [← cut] at begins
      exact absurd (Option.some.inj begins) (by decide)
    · obtain ⟨a, y, ends, capture, row⟩ := match_.row spelled part
      have body : lower (b.log ++ ['\n']) = part ++ place := (List.cons.inj cut).2
      rw [← body] at row
      have some_ : y.takeWhile Matcher.isWord ≠ [] := capture ▸ match_.some_
      have inner : ∀ w ∈ [second.toList, third.toList, figure ++ ['%'], y], w ∉ heads := by
        simp only [List.forall_mem_cons, List.not_mem_nil, false_imp_iff, implies_true, and_true]
        exact ⟨spelled.second_inner, spelled.third_inner, percent_not_mem_heads figure,
          not_mem_heads some_⟩
      obtain ⟨line, member, within⟩ := Reactor.row_in_lines lines_solid line_headed inner row
      exact ⟨line, member, a, _, y, ends, match_.some_, capture, within⟩

end Build

/-! The rows of a line. -/

namespace Reactor
variable {r : Reactor}

/-- A line of the log is idle, or a gate of a module printed it. -/
theorem line_source {line : List (List Char)} (member : line ∈ r.lines) :
    Idle line ∨ (∃ m ∈ r.modules, ∃ coverage pit mutation,
        m.outcome = .gated coverage pit mutation ∧ line ∈ m.coverageLines coverage) ∨
      (∃ m ∈ r.modules, ∃ rate required covered total,
        m.outcome = .coverageMissed rate required covered total ∧
        line = plain ["[ERROR]", "test-enforcer", "check-coverage", "failed:", "diff", "line",
          "coverage"] ++ [rate.percent] ++ plain ["is", "below", "required"] ++
            [required.percent, count covered total ++ [')']]) ∨
      ∃ m ∈ r.modules, ∃ coverage pit mutation, m.outcome = .gated coverage pit mutation ∧
        line ∈ m.mutationLines mutation := by
  rw [lines, List.mem_append, List.mem_append, List.mem_singleton] at member
  rcases member with (member | member) | rfl
  · obtain ⟨m, own, printed⟩ := List.mem_flatMap.mp member
    cases ends : m.outcome with
    | gated coverage pit mutation =>
        rcases m.gated_line ends printed with idle | figure | verdict
        · exact .inl idle
        · exact .inr (.inl ⟨m, own, coverage, pit, mutation, ends, figure⟩)
        · exact .inr (.inr (.inr ⟨m, own, coverage, pit, mutation, ends, verdict⟩))
    | coverageMissed rate required covered total =>
        simp only [Module.block, ends, List.mem_cons, List.not_mem_nil, or_false] at printed
        rcases printed with rfl | figure
        · exact .inl (m.filterLine_idle r.baseRef)
        · exact .inr (.inr (.inl ⟨m, own, rate, required, covered, total, ends, figure⟩))
    | _ =>
        refine .inl (m.block_idle r.baseRef ?_ ?_ line printed)
        · rw [ends]
          intro coverage pit mutation gated
          cases gated
        · rw [Module.printsCoverage, ends]
          exact id
  · obtain ⟨m, _, rfl⟩ := List.mem_map.mp member
    exact .inl m.summaryLine_idle
  · refine .inl ?_
    split <;> constructor <;> simp [Clear, plain, EndsWith, BeginsWith, Figure]

/-- What stands behind a coverage figure. -/
theorem coverage_word {line : List (List Char)} (member : line ∈ r.lines) {a x y : List Char}
    (ends : EndsWith "diff" a)
    (row : [a, "line".toList, "coverage".toList, x, y] <:+: line.map lower) :
    (y = "passed".toList ∧ ∃ m ∈ r.modules, m.meetsCoverage) ∨
      (y = "is".toList ∧ ∃ m ∈ r.modules, m.missesCoverage) := by
  have pair : [a, "line".toList] <:+: line.map lower :=
    (List.prefix_append [a, "line".toList] ["coverage".toList, x, y]).isInfix.trans row
  rcases line_source member with idle | ⟨m, own, coverage, pit, mutation, outcome, printed⟩ |
    ⟨m, own, rate, required, covered, total, outcome, rfl⟩ | ⟨m, _, _, _, mutation, _, printed⟩
  · have clear : Clear (EndsWith "diff") Figure line := idle.figure.mono fun _ same => .inl same
    exact absurd pair (not_infix_of_clear clear ends (.inl rfl))
  · cases coverage with
    | measured rate covered total =>
        rw [Module.coverageLines, List.mem_singleton] at printed
        subst printed
        have place : a = "diff".toList ∧ x = lower rate.percent ∧ y = "passed".toList := by
          simpa [plain, info, count, List.infix_cons_iff] using row
        exact .inl ⟨place.2.2, m, own, by rw [Module.meetsCoverage, outcome]; trivial⟩
    | _ =>
        have idle := m.coverageLines_idle (by simp) line printed
        have clear : Clear (EndsWith "diff") Figure line := idle.figure.mono fun _ same => .inl same
        exact absurd pair (not_infix_of_clear clear ends (.inl rfl))
  · have place : a = "diff".toList ∧ x = lower rate.percent ∧ y = "is".toList := by
      simpa [plain, count, List.infix_cons_iff] using row
    exact .inr ⟨place.2.2, m, own, by rw [Module.missesCoverage, outcome]; trivial⟩
  · exact absurd pair (not_infix_of_clear (m.mutationLines_clear mutation line printed) ends
      (.inl rfl))

/-- What stands behind a mutation score. -/
theorem mutation_word {line : List (List Char)} (member : line ∈ r.lines) {a x y : List Char}
    (ends : EndsWith "diff" a)
    (row : [a, "mutation".toList, "score".toList, x, y] <:+: line.map lower) :
    y = "passed".toList ∨ (y = "for".toList ∧ ∃ m ∈ r.modules, m.missesScore) := by
  have pair : [a, "mutation".toList] <:+: line.map lower :=
    (List.prefix_append [a, "mutation".toList] ["score".toList, x, y]).isInfix.trans row
  rcases line_source member with idle | ⟨m, _, coverage, _, _, _, printed⟩ |
    ⟨m, own, rate, required, covered, total, outcome, rfl⟩ |
    ⟨m, own, coverage, pit, mutation, outcome, printed⟩
  · have clear : Clear (EndsWith "diff") (· = "mutation".toList) line :=
      idle.figure.mono fun _ same => .inr same
    exact absurd pair (not_infix_of_clear clear ends rfl)
  · exact absurd pair (not_infix_of_clear (m.coverageLines_clear coverage line printed).1 ends rfl)
  · simp [plain, count, List.infix_cons_iff] at row
  · cases mutation with
    | silent => exact absurd printed List.not_mem_nil
    | baselineRed =>
        rw [List.mem_singleton.mp printed] at row
        simp [plain, List.infix_cons_iff] at row
    | strengthBelow strength threshold =>
        rw [List.mem_singleton.mp printed] at row
        simp [plain, Module.goalLine, List.infix_cons_iff] at row
    | missed score required detected total survived noCoverage =>
        rw [List.mem_singleton.mp printed] at row
        have place : a = "diff".toList ∧ x = lower score.percent ∧ y = "for".toList := by
          simpa [plain, counts, count, List.infix_cons_iff] using row
        exact .inr ⟨place.2.2, m, own, by rw [Module.missesScore, outcome]; trivial⟩
    | passed score detected total survived noCoverage =>
        rw [List.mem_singleton.mp printed] at row
        have place : a = "diff".toList ∧ x = lower score.percent ∧ y = "passed".toList := by
          simpa [plain, info, counts, count, List.infix_cons_iff] using row
        exact .inl place.2.2
    | unscored noCoverage =>
        rw [List.mem_singleton.mp printed] at row
        simp [plain, info, List.infix_cons_iff] at row

end Reactor

theorem Rate.text_figure (r : Rate) :
    r.text ≠ [] ∧ ∀ c ∈ r.text, (c.isDigit || c == '.') = true := by
  rw [r.text_eq]
  refine ⟨by simp [numeral_ne_nil], fun c member => ?_⟩
  rcases List.mem_append.mp member with whole | dot | ⟨_, cents⟩
  · rw [numeral_digits _ c whole, Bool.true_or]
  · rfl
  · rw [r.cents_digits c (by assumption), Bool.true_or]

namespace Build
variable {b : Build} {gate second third : String}

/-- The place in an output at which a gate's line goes on with the words of the gate. -/
theorem gate_place (spelled : Spelled gate second third) (summary : List Char)
    {first word : List Char} {head tail : List (List Char)} {rate : Rate}
    (member : first :: head ++ ("diff".toList :: second.toList :: third.toList ::
      rate.percent :: word :: tail) ∈ b.lines) (small : lower word = word) :
    ∃ front c after, front.getLast? = some ' ' ∧ Matcher.isWord c = false ∧
      lower (summary ++ '\n' :: (b.log ++ ['\n'])) = front ++ (gate.toList ++ ([' '] ++
        (rate.text ++ ("%".toList ++ ([' '] ++ (word ++ c :: after)))))) := by
  obtain ⟨before, after, split⟩ := Reactor.lineText_in member
  have text : Reactor.lineText (first :: head ++ ("diff".toList :: second.toList ::
      third.toList :: rate.percent :: word :: tail)) = [' '].intercalate (first :: head) ++
        ' ' :: (gate.toList ++ ([' '] ++ (rate.percent ++ ([' '] ++
          Reactor.lineText (word :: tail))))) := by
    rw [Reactor.lineText, intercalate_append (List.cons_ne_nil _ _) (List.cons_ne_nil _ _),
      spelled.text]
    simp [Reactor.lineText, List.intercalate]
  obtain ⟨c, more, other, ends⟩ : ∃ c more, Matcher.isWord c = false ∧
      lower (Reactor.lineText (word :: tail)) = word ++ c :: more := by
    rcases tail with _ | ⟨v, tail⟩
    · exact ⟨'\n', [], by decide, by simp [Reactor.lineText, List.intercalate, small]⟩
    · exact ⟨' ', lower (Reactor.lineText (v :: tail)), by decide, by
        simp [Reactor.lineText, List.intercalate, small]⟩
  refine ⟨lower (summary ++ '\n' :: (before ++ [' '].intercalate (first :: head))) ++ [' '], c,
    more ++ lower after, List.getLast?_concat, other, ?_⟩
  rw [log, ← split, text]
  simp [Rate.percent, spelled.lowered, ends]

/-- The word of a gate's line is found, where no word that is read begins as a gate's line does. -/
theorem gate_found (spelled : Spelled gate second third) {summary : List Char}
    (others : ∀ place, place <:+ lower (summary ++ '\n' :: (b.log ++ ['\n'])) →
      ∀ word rest, (word, rest) ∈ gateWord gate place → word.head? ≠ some 'd')
    {first word : List Char} {head tail : List (List Char)} {rate : Rate}
    (member : first :: head ++ ("diff".toList :: second.toList :: third.toList ::
      rate.percent :: word :: tail) ∈ b.lines) (some_ : word ≠ [])
    (every : ∀ c ∈ word, Matcher.isWord c = true) (small : lower word = word) :
    word ∈ gateWords gate (summary ++ '\n' :: (b.log ++ ['\n'])) := by
  obtain ⟨front, c, after, blank, other, place⟩ :=
    gate_place spelled summary member small
  have own : word = (word ++ c :: after).takeWhile Matcher.isWord := by
    rw [List.takeWhile_append_of_pos every, List.takeWhile_cons_of_neg (by simp [other]),
      List.append_nil]
  have reads : (word, (word ++ c :: after).dropWhile Matcher.isWord) ∈ gateWord gate (gate.toList ++
      ([' '] ++ (rate.text ++ ("%".toList ++ ([' '] ++ (word ++ c :: after)))))) := by
    refine lit_bind (blanks_bind (run_bind rate.text_figure.1 rate.text_figure.2 ?_))
    exact lit_bind (blanks_bind (mem_wholeRun.mpr ⟨some_, own, rfl⟩))
  have stays : Stays (gateWord gate) front (gate.toList ++
      ([' '] ++ (rate.text ++ ("%".toList ++ ([' '] ++ (word ++ c :: after)))))) := by
    intro part ahead within captured rest read
    obtain ⟨lead, rfl⟩ := within
    obtain ⟨gap₁, figure, gap₂, match_⟩ := mem_gateWord read
    rw [List.getLast?_append_of_ne_nil _ ahead] at blank
    refine match_.before_place spelled blank (by rw [spelled.text]; rfl) ?_
    refine others _ ?_ captured rest read
    rw [place, List.append_assoc]
    exact List.suffix_append _ _
  have short : front.length < (summary ++ '\n' :: (b.log ++ ['\n'])).length := by
    have size := congrArg List.length place
    simp only [lower, List.length_map, List.length_append, List.length_cons] at size ⊢
    omega
  obtain ⟨captured, rest, read, found⟩ := mem_finditer (gateWord_takes spelled)
    (List.ne_nil_of_mem reads) short stays
  obtain ⟨_, _, _, match_⟩ := mem_gateWord reads
  obtain ⟨_, _, _, again⟩ := mem_gateWord read
  obtain rfl := match_.unique again spelled
  rw [gateWords, place]
  exact found

end Build

end Log

end Uta.JavaGate
