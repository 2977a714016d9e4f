/- What is read out of the log of a reactor: the figures and verdicts of its lines, and no others. -/
import Uta.JavaGate.Log
import Mathlib.Tactic.Linarith
import Mathlib.Data.List.Chain
import Mathlib.Data.Bool.AllAny

namespace Uta.JavaGate.Log
open Uta.Lib Uta.Lib.PyText Uta.Lib.Matcher

/-! Text of a line. -/

theorem intercalate_append {left right : List (List Char)} (front : left ≠ []) (back : right ≠ []) :
    [' '].intercalate (left ++ right) =
      [' '].intercalate left ++ ' ' :: [' '].intercalate right := by
  induction left with
  | nil => exact absurd rfl front
  | cons w left ih =>
      rcases left with _ | ⟨v, left⟩
      · obtain ⟨r, right, rfl⟩ := List.exists_cons_of_ne_nil back
        simp [List.intercalate]
      · have rest := ih (List.cons_ne_nil _ _)
        simp only [List.intercalate, List.cons_append, List.intersperse_cons_cons,
          List.flatten_cons] at rest ⊢
        rw [rest]
        simp

namespace Reactor

/-- The words inside a line stand in its text. -/
theorem row_within {row : List (List Char)} (some_ : row ≠ []) (left right : List (List Char)) :
    [' '].intercalate row <:+: lineText (left ++ row ++ right) := by
  have inner : [' '].intercalate row <:+: [' '].intercalate (left ++ row ++ right) := by
    have before : [' '].intercalate row <:+ [' '].intercalate (left ++ row) := by
      rcases left with _ | ⟨l, left⟩
      · exact List.suffix_rfl
      · rw [intercalate_append (List.cons_ne_nil _ _) some_]
        exact (List.suffix_cons _ _).trans (List.suffix_append _ _)
    rcases right with _ | ⟨r, right⟩
    · rw [List.append_nil]
      exact before.isInfix
    · rw [intercalate_append (by simp [some_]) (List.cons_ne_nil _ _)]
      exact before.isInfix.trans (List.prefix_append _ _).isInfix
  exact inner.trans (List.prefix_append _ _).isInfix

theorem lineText_in {lines : List (List (List Char))} {line : List (List Char)}
    (member : line ∈ lines) : lineText line <:+: lines.flatMap lineText ++ ['\n'] := by
  obtain ⟨before, after, split⟩ := List.append_of_mem member
  refine ⟨before.flatMap lineText, after.flatMap lineText ++ ['\n'], ?_⟩
  rw [split]
  simp

variable {r : Reactor} {m : Module}

theorem lineText_within {line : List (List Char)} (member : line ∈ r.lines) :
    lineText line <:+: r.log ++ ['\n'] := lineText_in member

theorem block_lines (member : m ∈ r.modules) (line : List (List Char))
    (own : line ∈ m.block r.baseRef) : line ∈ r.lines := by
  refine List.mem_append_left _ (List.mem_append_left _ ?_)
  exact List.mem_flatMap.mpr ⟨m, member, own⟩

end Reactor

/-! Figures. -/

theorem numeral_digits (n : ℕ) : ∀ c ∈ numeral n, c.isDigit = true :=
  fun _ member => Nat.isDigit_of_mem_toDigits (by decide) (by decide) member

theorem numeral_ne_nil (n : ℕ) : numeral n ≠ [] := Nat.toDigits_ne_nil

theorem lower_of_digits {text : List Char} (every : ∀ c ∈ text, c.isDigit = true) :
    lower text = text := by
  unfold lower
  rw [List.map_congr_left fun c member => toLower_of_isDigit (every c member), List.map_id']

@[simp] theorem lower_numeral (n : ℕ) : lower (numeral n) = numeral n :=
  lower_of_digits (numeral_digits n)

theorem digitChar_digit {n : ℕ} (small : n < 10) : n.digitChar.isDigit = true := by
  rw [Nat.isDigit_digitChar, decide_eq_true small]

theorem intOf_digits {text : List Char} (every : ∀ c ∈ text, c.isDigit = true) :
    intOf (text.filterMap digitValue) = intOf (text.map fun c => c.toNat - '0'.toNat) := by
  congr 1
  induction text with
  | nil => rfl
  | cons c text ih =>
      rw [List.filterMap_cons_some (digitValue_of_isDigit (every c (by simp))), List.map_cons,
        ih fun d member => every d (by simp [member])]

theorem intOf_numeral (n : ℕ) : intOf ((numeral n).filterMap digitValue) = n := by
  rw [intOf_digits (numeral_digits n)]
  exact intOf_toDigits n

/-- The last two digits of a percentage. -/
def Rate.cents (r : Rate) : List Char :=
  [(r.hundredths / 10 % 10).digitChar, (r.hundredths % 10).digitChar]

theorem Rate.cents_digits (r : Rate) : ∀ c ∈ r.cents, c.isDigit = true := by
  intro c member
  rcases List.mem_pair.mp member with rfl | rfl
  · exact digitChar_digit (Nat.mod_lt _ (by decide))
  · exact digitChar_digit (Nat.mod_lt _ (by decide))

theorem Rate.text_eq (r : Rate) :
    r.text = numeral (r.hundredths / 100) ++ (".".toList ++ r.cents) := rfl

theorem intOf_cents (r : Rate) : intOf (r.cents.filterMap digitValue) = r.hundredths % 100 := by
  have value : ∀ n < 10, n.digitChar.toNat - '0'.toNat = n := by decide
  rw [intOf_digits r.cents_digits]
  simp only [Rate.cents, List.map_cons, List.map_nil, intOf, List.foldl_cons, List.foldl_nil]
  rw [value _ (Nat.mod_lt _ (by decide)), value _ (Nat.mod_lt _ (by decide))]
  omega

@[simp] theorem Rate.lower_text (r : Rate) : lower r.text = r.text := by
  rw [r.text_eq, lower_append, lower_append, lower_numeral, lower_of_digits r.cents_digits]
  rfl

/-- A percentage is read back. -/
theorem decimal_rate (r : Rate) (rest : List Char) :
    (r.value, rest) ∈ decimal (r.text ++ rest) := by
  rw [Rate.text_eq, List.append_assoc, List.append_assoc]
  refine run_bind (numeral_ne_nil _) (numeral_digits _) ?_
  have point : (some r.cents, rest) ∈ opt (do lit "."; run Char.isDigit)
      (".".toList ++ (r.cents ++ rest)) :=
    mem_opt.mpr (.inl ⟨r.cents, rfl,
      lit_bind (mem_run.mpr ⟨List.cons_ne_nil _ _, r.cents_digits, rfl⟩)⟩)
  refine bind_of_mem point (mem_pure.mpr ⟨?_, rfl⟩)
  have size : (r.cents.filterMap digitValue).length = 2 := by
    have every := r.cents_digits
    simp only [Rate.cents, List.mem_cons, List.not_mem_nil, or_false, forall_eq_or_imp,
      forall_eq] at every
    simp [Rate.cents, digitValue_of_isDigit every.1, digitValue_of_isDigit every.2]
  have split : (r.hundredths : ℚ) = 100 * (r.hundredths / 100 : ℕ) + (r.hundredths % 100 : ℕ) := by
    exact_mod_cast (Nat.div_add_mod r.hundredths 100).symm
  rw [intOf_numeral, Option.getD_some, intOf_cents, size, Rate.value]
  congr 1
  linarith

theorem digits_numeral (n : ℕ) (rest : List Char) : (n, rest) ∈ digits (numeral n ++ rest) := by
  refine run_bind (numeral_ne_nil n) (fun c member => ?_)
    (mem_pure.mpr ⟨(intOf_numeral n).symm, rfl⟩)
  rw [digitValue_of_isDigit (numeral_digits n c member), Option.isSome_some]

/-! The lines read back. -/

/-- `\s+`, of one blank. -/
theorem blanks_bind {β : Type} {f : List Char → Matcher β} {b : β} {text rest : List Char}
    (next : (b, rest) ∈ f [' '] text) : (b, rest) ∈ (blanks >>= f) (' ' :: text) :=
  @run_bind _ _ [' '] (List.cons_ne_nil _ _) (List.all_iff_forall_prop.mp (by decide)) _ _ _ _ next

theorem lower_solid {name : List Char} (solid : IsSolid name) :
    lower name ≠ [] ∧ ∀ c ∈ lower name, (!isSpace c) = true := by
  obtain ⟨some_, plain⟩ := solid_lower solid
  exact ⟨some_, fun c member => by rw [plain c member]; rfl⟩

/-- `for NAME`, between blanks. -/
theorem subject_reads {name : List Char} (solid : IsSolid name) (text : List Char) :
    ((), text) ∈ subject (' ' :: ("for".toList ++ ' ' :: (lower name ++ ' ' :: text))) := by
  obtain ⟨some_, plain⟩ := lower_solid solid
  refine blanks_bind (lit_bind (blanks_bind (run_bind some_ plain (blanks_bind ?_))))
  exact mem_pure.mpr ⟨rfl, rfl⟩

theorem noCoverageExcluded_reads (n : ℕ) (text : List Char) :
    ((), text) ∈ noCoverageExcluded
      (' ' :: (numeral n ++ ' ' :: ("no".toList ++ ' ' :: ("coverage".toList ++
        ' ' :: ("excluded)".toList ++ text))))) := by
  refine blanks_bind (bind_of_mem (digits_numeral _ _) (blanks_bind (lit_bind (blanks_bind ?_))))
  exact lit_bind (blanks_bind (mem_lit.mpr rfl))

theorem passedScore_reads (score : Rate) (text : List Char) :
    (score.value, text) ∈ passedScore
      ("diff".toList ++ ' ' :: ("mutation".toList ++ ' ' :: ("score".toList ++ ' ' :: (score.text ++
        ("%".toList ++ ' ' :: ("passed".toList ++ text)))))) := by
  refine lit_bind (blanks_bind (lit_bind (blanks_bind (lit_bind (blanks_bind ?_)))))
  refine bind_of_mem (decimal_rate score _) (lit_bind (blanks_bind (lit_bind ?_)))
  exact mem_pure.mpr ⟨rfl, rfl⟩

theorem scoredVerdict_reads (score : Rate) {name : List Char} (solid : IsSolid name)
    (detected total survived noCoverage : ℕ) (text : List Char) :
    ((), text) ∈ scoredVerdict
      ("diff".toList ++ ' ' :: ("mutation".toList ++ ' ' :: ("score".toList ++ ' ' :: (score.text ++
        ("%".toList ++ ' ' :: ("passed".toList ++ ' ' :: ("for".toList ++ ' ' :: (lower name ++
          ' ' :: ("(".toList ++ (numeral detected ++ ("/".toList ++ (numeral total ++
            ' ' :: ("detected;".toList ++ ' ' :: (numeral survived ++ ' ' :: ("survived;".toList ++
              ' ' :: (numeral noCoverage ++ ' ' :: ("no".toList ++ ' ' :: ("coverage".toList ++
                ' ' :: ("excluded)".toList ++ text))))))))))))))))))) := by
  refine bind_of_mem (passedScore_reads score _) (bind_of_mem (subject_reads solid _) ?_)
  refine lit_bind (bind_of_mem (digits_numeral _ _) (lit_bind ?_))
  refine bind_of_mem (digits_numeral _ _) (blanks_bind (lit_bind (blanks_bind ?_)))
  refine bind_of_mem (digits_numeral _ _) (blanks_bind (lit_bind ?_))
  exact noCoverageExcluded_reads _ _

theorem unscoredVerdict_reads {name : List Char} (solid : IsSolid name) (noCoverage : ℕ)
    (text : List Char) :
    ((), text) ∈ unscoredVerdict
      ("no".toList ++ ' ' :: ("scored".toList ++ ' ' :: ("pit".toList ++ ' ' ::
        ("mutations".toList ++ ' ' :: ("on".toList ++ ' ' :: ("changed".toList ++ ' ' ::
          ("lines".toList ++ ' ' :: ("for".toList ++ ' ' :: (lower name ++ ' ' ::
            ("(0/0".toList ++ ' ' :: ("scored;".toList ++ ' ' :: (numeral noCoverage ++
              ' ' :: ("no".toList ++ ' ' :: ("coverage".toList ++ ' ' :: ("excluded)".toList ++
                text))))))))))))))) := by
  refine lit_bind (blanks_bind (lit_bind (blanks_bind (lit_bind (blanks_bind ?_)))))
  refine lit_bind (blanks_bind (lit_bind (blanks_bind (lit_bind (blanks_bind (lit_bind ?_))))))
  refine bind_of_mem (subject_reads solid _) (lit_bind (blanks_bind (lit_bind ?_)))
  exact noCoverageExcluded_reads _ _

theorem coverageFigure_reads (rate : Rate) (text : List Char) :
    (rate.value, text) ∈ coverageFigure
      ("diff".toList ++ ' ' :: ("line".toList ++ ' ' :: ("coverage".toList ++ ' ' ::
        (rate.text ++ ("%".toList ++ text))))) := by
  refine lit_bind (bind_of_mem (mem_opt.mpr (.inl ⟨(), rfl, blanks_bind (mem_lit.mpr rfl)⟩)) ?_)
  refine blanks_bind (lit_bind (bind_of_mem (mem_opt.mpr (.inr ⟨rfl, rfl⟩)) ?_))
  refine bind_of_mem (mem_opt.mpr (.inr ⟨rfl, rfl⟩)) (blanks_bind ?_)
  exact bind_of_mem (decimal_rate rate _) (lit_bind (mem_pure.mpr ⟨rfl, rfl⟩))

namespace Reactor
variable {r : Reactor}

/-- The place in the output at which a line goes on after its first words. -/
theorem line_place {first : List Char} {head tail : List (List Char)} (some_ : tail ≠ [])
    (member : (first :: head) ++ tail ∈ r.lines) :
    ∃ front after, lower (r.log ++ ['\n']) = front ++ (lower ([' '].intercalate tail) ++ after) ∧
      front.getLast?.any Matcher.isWord = false := by
  obtain ⟨before, after, split⟩ := lineText_within member
  refine ⟨lower (before ++ [' '].intercalate (first :: head) ++ [' ']),
    lower ('\n' :: after), ?_, ?_⟩
  · rw [← split, lineText, intercalate_append (List.cons_ne_nil _ _) some_]
    simp [lower]
  · simp
    decide

/-- The place at which a module prints a coverage figure. -/
theorem coverage_place {m : Module} (member : m ∈ r.modules) (prints : m.printsCoverage) :
    ∃ front after, ∃ rate : Rate, front.getLast?.any Matcher.isWord = false ∧
      lower (r.log ++ ['\n']) = front ++ ("diff".toList ++ ' ' :: ("line".toList ++ ' ' ::
        ("coverage".toList ++ ' ' :: (rate.text ++ ("%".toList ++ after))))) := by
  have spelled : ∀ (rate : Rate) (tail : List (List Char)), tail ≠ [] → ∃ after,
      lower ([' '].intercalate (plain ["diff", "line", "coverage"] ++ [rate.percent] ++ tail)) =
        "diff".toList ++ ' ' :: ("line".toList ++ ' ' :: ("coverage".toList ++ ' ' ::
          (rate.text ++ ("%".toList ++ after)))) := by
    intro rate tail some_
    refine ⟨lower (' ' :: [' '].intercalate tail), ?_⟩
    rw [intercalate_append (by simp [plain]) some_]
    simp [plain, List.intercalate, List.intersperse, Rate.percent]
  unfold Module.printsCoverage at prints
  split at prints
  · rename_i rate required covered total ends
    obtain ⟨tail, spell⟩ := spelled rate (plain ["is", "below", "required"] ++
      [required.percent, count covered total ++ [')']]) (by simp)
    have own := block_lines member (("[ERROR]".toList :: plain ["test-enforcer",
      "check-coverage", "failed:"]) ++ (plain ["diff", "line", "coverage"] ++ [rate.percent] ++
        (plain ["is", "below", "required"] ++ [required.percent, count covered total ++ [')']])))
      (by simp [Module.block, ends, plain])
    obtain ⟨front, after, place, apart⟩ := line_place (by simp [plain]) own
    exact ⟨front, tail ++ after, rate, apart, by rw [place, spell]; simp⟩
  · rename_i rate covered total pit mutation ends
    obtain ⟨tail, spell⟩ := spelled rate (plain ["passed", "for"] ++
      [m.name.chars, count covered total ++ [')']]) (by simp)
    have own := block_lines member (("[info]".toList :: plain ["[test-enforcer]"]) ++
      (plain ["diff", "line", "coverage"] ++ [rate.percent] ++
        (plain ["passed", "for"] ++ [m.name.chars, count covered total ++ [')']])))
      (by simp [Module.block, Module.coverageLines, info, ends, plain])
    obtain ⟨front, after, place, apart⟩ := line_place (by simp [plain]) own
    exact ⟨front, tail ++ after, rate, apart, by rw [place, spell]; simp⟩
  · exact absurd prints id

theorem hasCoverage_of_prints {m : Module} (member : m ∈ r.modules) (prints : m.printsCoverage) :
    hasCoverage (r.log ++ ['\n']) = true := by
  obtain ⟨front, after, rate, apart, place⟩ := coverage_place member prints
  rw [hasCoverage, place]
  exact search_of_match apart (by simp) (coverageFigure_reads rate after)

/-- The place of a passing score. -/
theorem score_place {m : Module} (member : m ∈ r.modules) {coverage : Coverage}
    {pit : Option PitRun} {score : Rate} {detected total survived noCoverage : ℕ}
    (ends : m.outcome = .gated coverage pit (.passed score detected total survived noCoverage)) :
    ∃ front after, front.getLast?.any Matcher.isWord = false ∧ lower (r.log ++ ['\n']) = front ++
      ("diff".toList ++ ' ' :: ("mutation".toList ++ ' ' :: ("score".toList ++ ' ' :: (score.text ++
        ("%".toList ++ ' ' :: ("passed".toList ++ ' ' :: ("for".toList ++ ' ' ::
          (lower m.name.chars ++ ' ' :: ("(".toList ++ (numeral detected ++ ("/".toList ++
            (numeral total ++ ' ' :: ("detected;".toList ++ ' ' :: (numeral survived ++
              ' ' :: ("survived;".toList ++ ' ' :: (numeral noCoverage ++ ' ' :: ("no".toList ++
                ' ' :: ("coverage".toList ++ ' ' :: ("excluded)".toList ++ after)))))))))))))))))))
      := by
  have own := block_lines member (("[info]".toList :: plain ["[test-enforcer]"]) ++
    (plain ["diff", "mutation", "score"] ++ [score.percent] ++ plain ["passed", "for"] ++
      [m.name.chars] ++ counts detected total survived noCoverage))
    (by simp [Module.block, Module.mutationLines, info, ends, plain])
  obtain ⟨front, after, place, apart⟩ := line_place (by simp [plain]) own
  refine ⟨front, after, apart, ?_⟩
  rw [place]
  simp [plain, counts, count, Rate.percent, List.intercalate, List.intersperse]

/-- The place of a verdict without a scored mutation. -/
theorem unscored_place {m : Module} (member : m ∈ r.modules) {coverage : Coverage}
    {pit : Option PitRun} {noCoverage : ℕ}
    (ends : m.outcome = .gated coverage pit (.unscored noCoverage)) :
    ∃ front after, front.getLast?.any Matcher.isWord = false ∧ lower (r.log ++ ['\n']) = front ++
      ("no".toList ++ ' ' :: ("scored".toList ++ ' ' :: ("pit".toList ++ ' ' ::
        ("mutations".toList ++ ' ' :: ("on".toList ++ ' ' :: ("changed".toList ++ ' ' ::
          ("lines".toList ++ ' ' :: ("for".toList ++ ' ' :: (lower m.name.chars ++ ' ' ::
            ("(0/0".toList ++ ' ' :: ("scored;".toList ++ ' ' :: (numeral noCoverage ++
              ' ' :: ("no".toList ++ ' ' :: ("coverage".toList ++ ' ' :: ("excluded)".toList ++
                after))))))))))))))) := by
  have own := block_lines member (("[info]".toList :: plain ["[test-enforcer]"]) ++
    (plain ["no", "scored", "PIT", "mutations", "on", "changed", "lines", "for"] ++
      [m.name.chars] ++ plain ["(0/0", "scored;"] ++ [numeral noCoverage] ++
      plain ["no", "coverage", "excluded)"]))
    (by simp [Module.block, Module.mutationLines, info, ends, plain])
  obtain ⟨front, after, place, apart⟩ := line_place (by simp [plain]) own
  refine ⟨front, after, apart, ?_⟩
  rw [place]
  simp [plain, List.intercalate, List.intersperse]

theorem hasMutation_of_prints {m : Module} (member : m ∈ r.modules) (prints : m.printsVerdict) :
    hasMutation (r.log ++ ['\n']) = true := by
  rw [hasMutation, Bool.or_eq_true]
  unfold Module.printsVerdict at prints
  split at prints
  · rename_i coverage pit score detected total survived noCoverage ends
    obtain ⟨front, after, apart, place⟩ := score_place member ends
    rw [place]
    exact .inl (search_of_match apart (by simp) (scoredVerdict_reads score m.name.solid _ _ _ _ _))
  · rename_i coverage pit noCoverage ends
    obtain ⟨front, after, apart, place⟩ := unscored_place member ends
    rw [place]
    exact .inr (search_of_match apart (by simp) (unscoredVerdict_reads m.name.solid _ _))
  · exact absurd prints id

theorem score_read {m : Module} (member : m ∈ r.modules) {coverage : Coverage}
    {pit : Option PitRun} {score : Rate} {detected total survived noCoverage : ℕ}
    (ends : m.outcome = .gated coverage pit (.passed score detected total survived noCoverage)) :
    score.value ∈ diffMutationScores (r.log ++ ['\n']) := by
  obtain ⟨front, after, apart, place⟩ := score_place member ends
  rw [diffMutationScores, place]
  have ended : ∀ text, (score.value, ' ' :: text) ∈
      (do wordEnd; pure score.value : Matcher ℚ) (' ' :: text) := by
    intro text
    have apart : ((), ' ' :: text) ∈ wordEnd (' ' :: text) := by
      rw [wordEnd, List.head?_cons, if_neg (by decide)]
      exact List.mem_singleton.mpr rfl
    exact bind_of_mem apart (mem_pure.mpr ⟨rfl, rfl⟩)
  exact mem_findall apart (by simp) (bind_of_mem (passedScore_reads score _) (ended _))

/-! The words of the output. -/

theorem words_lineText {line : List (List Char)} (solid : ∀ w ∈ line, IsSolid w)
    (rest : List Char) : words (lower (lineText line) ++ rest) = line.map lower ++ words rest := by
  induction line with
  | nil => exact @words_append_blank '\n' (by decide) [] rest
  | cons w line ih =>
      have own := words_solid (solid_lower (solid w (by simp)))
      have later := ih fun v member => solid v (by simp [member])
      rcases line with _ | ⟨v, line⟩
      · have text : lower (lineText [w]) ++ rest = lower w ++ '\n' :: rest := by
          simp [lineText, List.intercalate]
        rw [text, words_append_blank (by decide), lower, own]
        rfl
      · have text : lower (lineText (w :: v :: line)) ++ rest =
            lower w ++ ' ' :: (lower (lineText (v :: line)) ++ rest) := by
          simp [lineText, List.intercalate]
        rw [text, words_append_blank (by decide), later, lower, own]
        rfl

theorem words_lines {lines : List (List (List Char))}
    (solid : ∀ line ∈ lines, ∀ w ∈ line, IsSolid w) :
    words (lower (lines.flatMap lineText ++ ['\n'])) = (lines.map (List.map lower)).flatten := by
  have blocks : ∀ lines : List (List (List Char)), (∀ line ∈ lines, ∀ w ∈ line, IsSolid w) →
      ∀ rest, words (lower (lines.flatMap lineText) ++ rest) =
        (lines.map (List.map lower)).flatten ++ words rest := by
    intro lines every rest
    induction lines with
    | nil => rfl
    | cons line lines ih =>
        rw [List.flatMap_cons, lower_append, List.append_assoc,
          words_lineText (every line (by simp)),
          ih fun own member => every own (by simp [member])]
        simp
  have last : words (lower ['\n']) = [] := by decide
  rw [lower_append, blocks lines solid, last, List.append_nil]

end Reactor

/-! Every word of a line is solid. -/

theorem not_space_of_digit {c : Char} (digit : c.isDigit = true) : isSpace c = false := by
  simp only [Char.isDigit, Bool.and_eq_true, decide_eq_true_eq] at digit
  have low : 48 ≤ c.toNat := digit.1
  have high : c.toNat ≤ 57 := digit.2
  rw [Bool.eq_false_iff]
  simp only [isSpace, ne_eq, beq_iff_eq, Bool.or_eq_true, Bool.and_eq_true, decide_eq_true_eq]
  omega

theorem spaceless {text : List Char} (checked : (text.all fun c => decide (isSpace c = false)) = true) :
    ∀ c ∈ text, isSpace c = false := List.all_iff_forall_prop.mp checked

theorem solid_around (front back : List Char) {word : List Char}
    (before : ∀ c ∈ front, isSpace c = false) (solid : IsSolid word)
    (after : ∀ c ∈ back, isSpace c = false) :
    IsSolid (front ++ word ++ back) := by
  refine ⟨by simp [solid.1], fun c member => ?_⟩
  rcases List.mem_append.mp member with member | member
  · rcases List.mem_append.mp member with member | member
    · exact before c member
    · exact solid.2 c member
  · exact after c member

theorem numeral_solid (n : ℕ) : IsSolid (numeral n) :=
  ⟨numeral_ne_nil n, fun c member => not_space_of_digit (numeral_digits n c member)⟩

theorem Rate.percent_solid (r : Rate) : IsSolid r.percent := by
  have tail : ∀ c ∈ '.' :: (r.cents ++ ['%']), isSpace c = false := by
    intro c member
    rcases List.mem_cons.mp member with rfl | member
    · decide
    · rcases List.mem_append.mp member with member | member
      · exact not_space_of_digit (r.cents_digits c member)
      · rw [List.mem_singleton.mp member]
        decide
  have parts : r.percent = [] ++ numeral (r.hundredths / 100) ++ '.' :: (r.cents ++ ['%']) := by
    simp [Rate.percent, Rate.text_eq]
  rw [parts]
  exact solid_around [] _ (by simp) (numeral_solid _) tail

theorem count_solid (part whole : ℕ) : IsSolid (count part whole) := by
  have slash : ∀ c ∈ '/' :: numeral whole, isSpace c = false := by
    intro c member
    rcases List.mem_cons.mp member with rfl | member
    · decide
    · exact (numeral_solid whole).2 c member
  exact solid_around ['('] _ (spaceless (by decide)) (numeral_solid part) slash

theorem plain_solid {texts : List String} (every : ∀ t ∈ texts, IsSolid t.toList) :
    ∀ w ∈ plain texts, IsSolid w := by
  intro w member
  obtain ⟨t, own, rfl⟩ := List.mem_map.mp member
  exact every t own

namespace Module
variable (m : Module)

theorem filterLine_solid (baseRef : Word) : ∀ w ∈ m.filterLine baseRef, IsSolid w := by
  have names : ∀ (targets : List Word), ∀ c ∈ ((targets.map Word.chars).intersperse [',']).flatten,
      isSpace c = false := by
    intro targets
    induction targets with
    | nil => simp
    | cons t targets ih =>
        rcases targets with _ | ⟨v, targets⟩
        · simpa using t.solid.2
        · intro c member
          rw [List.map_cons, List.map_cons, List.intersperse_cons_cons, List.flatten_cons,
            List.flatten_cons, List.mem_append, List.mem_append, List.mem_singleton] at member
          rcases member with own | rfl | later
          · exact t.solid.2 c own
          · decide
          · exact ih c later
  have first : ∀ w ∈ info, IsSolid w := plain_solid (by decide)
  have arrow : ∀ w ∈ plain ["->", "target/filtered.diff,"], IsSolid w := plain_solid (by decide)
  intro w member
  simp only [filterLine, List.mem_append, List.mem_cons, List.not_mem_nil, or_false] at member
  rcases member with ((own | rfl) | own) | rfl | rfl
  · exact first w own
  · exact baseRef.solid
  · exact arrow w own
  · have text := solid_around "pitest.targets=".toList [] (spaceless (by decide))
      (numeral_solid m.targets.length) (by simp)
    rwa [List.append_nil] at text
  · refine ⟨by simp, fun c member => ?_⟩
    rw [List.cons_append, List.mem_cons, List.mem_append, List.mem_singleton] at member
    rcases member with rfl | member | rfl
    · decide
    · exact names m.targets c member
    · decide

theorem counts_solid (detected total survived noCoverage : ℕ) :
    ∀ w ∈ counts detected total survived noCoverage, IsSolid w := by
  have last : ∀ w ∈ plain ["no", "coverage", "excluded)"], IsSolid w := plain_solid (by decide)
  simp only [counts, List.forall_mem_cons]
  exact ⟨count_solid _ _, by decide, numeral_solid _, by decide, numeral_solid _, last⟩

theorem coverageLines_solid (coverage : Coverage) :
    ∀ line ∈ m.coverageLines coverage, ∀ w ∈ line, IsSolid w := by
  have name := m.name.solid
  cases coverage with
  | silent => simp [coverageLines]
  | noChangedLines =>
      simp only [coverageLines, info, List.forall_mem_singleton, List.forall_mem_append, and_assoc]
      exact ⟨plain_solid (by decide), plain_solid (by decide), name⟩
  | noCoverableLines =>
      simp only [coverageLines, info, List.forall_mem_singleton, List.forall_mem_append, and_assoc]
      exact ⟨plain_solid (by decide), plain_solid (by decide), name⟩
  | measured rate covered total =>
      have closed := solid_around [] [')'] (by simp)
        (count_solid covered total) (spaceless (by decide))
      simp only [coverageLines, info, List.forall_mem_cons, List.forall_mem_append,
        List.not_mem_nil, false_imp_iff, implies_true, and_true, and_assoc]
      exact ⟨plain_solid (by decide), plain_solid (by decide), rate.percent_solid,
        plain_solid (by decide), name, closed⟩

theorem pitLines_solid (pit : PitRun) : ∀ line ∈ m.pitLines pit, ∀ w ∈ line, IsSolid w := by
  have labelled : ∀ {label : String} {word : List Char}, (∀ c ∈ label.toList, isSpace c = false) →
      IsSolid word → IsSolid (label.toList ++ word) := by
    intro label word before solid
    have whole := solid_around label.toList [] before solid (by simp)
    rwa [List.append_nil] at whole
  have ended : ∀ (n : ℕ) {c : Char}, isSpace c = false → IsSolid (numeral n ++ [c]) :=
    fun n c last => solid_around [] _ (by simp) (numeral_solid n) (by simpa using last)
  have percent := solid_around ['('] "%)".toList (spaceless (by decide))
    (numeral_solid pit.killedPercent) (spaceless (by decide))
  have flag : ∀ w ∈ plain [if pit.skipFailingTests then "skipFailingTests=true"
      else "skipFailingTests=false"], IsSolid w := by
    cases pit.skipFailingTests <;> exact plain_solid (by decide)
  simp only [pitLines, List.forall_mem_cons, List.forall_mem_append, List.not_mem_nil,
    false_imp_iff, implies_true, and_true, and_assoc]
  refine ⟨plain_solid (by decide), labelled (spaceless (by decide)) m.name.solid, plain_solid (by decide),
    labelled (spaceless (by decide)) (numeral_solid _), flag, plain_solid (by decide), numeral_solid _,
    plain_solid (by decide), numeral_solid _, percent, plain_solid (by decide),
    ended _ (by decide), plain_solid (by decide), ended _ (by decide)⟩

theorem goalLine_solid {goal : List (List Char)} (solid : ∀ w ∈ goal, IsSolid w) :
    ∀ w ∈ m.goalLine goal, IsSolid w := by
  simp only [goalLine, List.forall_mem_append, List.forall_mem_singleton, and_assoc]
  exact ⟨plain_solid (by decide), solid, plain_solid (by decide), m.name.solid⟩

theorem mutationLines_solid (mutation : Mutation) :
    ∀ line ∈ m.mutationLines mutation, ∀ w ∈ line, IsSolid w := by
  have name := m.name.solid
  cases mutation with
  | silent => simp [mutationLines]
  | baselineRed =>
      simp only [mutationLines, List.forall_mem_singleton]
      exact plain_solid (by decide)
  | strengthBelow strength threshold =>
      simp only [mutationLines, List.forall_mem_singleton, List.forall_mem_append, and_assoc]
      exact ⟨m.goalLine_solid (plain_solid (by decide)), plain_solid (by decide),
        numeral_solid _, plain_solid (by decide), numeral_solid _⟩
  | missed score required detected total survived noCoverage =>
      simp only [mutationLines, List.forall_mem_singleton, List.forall_mem_append, and_assoc]
      exact ⟨plain_solid (by decide), score.percent_solid, plain_solid (by decide), name,
        counts_solid _ _ _ _, plain_solid (by decide), required.percent_solid⟩
  | passed score detected total survived noCoverage =>
      simp only [mutationLines, info, List.forall_mem_singleton, List.forall_mem_append, and_assoc]
      exact ⟨plain_solid (by decide), plain_solid (by decide), score.percent_solid,
        plain_solid (by decide), name, counts_solid _ _ _ _⟩
  | unscored noCoverage =>
      simp only [mutationLines, info, List.forall_mem_singleton, List.forall_mem_append, and_assoc]
      exact ⟨plain_solid (by decide), plain_solid (by decide), name, plain_solid (by decide),
        numeral_solid _, plain_solid (by decide)⟩

theorem testsLine_solid (run failures errors : ℕ) :
    ∀ w ∈ testsLine "[ERROR]" run failures errors, IsSolid w := by
  have comma : ∀ n, IsSolid (numeral n ++ [',']) := fun n =>
    solid_around [] _ (by simp) (numeral_solid n) (spaceless (by decide))
  simp only [testsLine, List.forall_mem_append, List.forall_mem_singleton, and_assoc]
  exact ⟨plain_solid (by decide), comma _, plain_solid (by decide), comma _,
    plain_solid (by decide), numeral_solid _⟩

theorem block_solid (baseRef : Word) : ∀ line ∈ m.block baseRef, ∀ w ∈ line, IsSolid w := by
  have filter := m.filterLine_solid baseRef
  have name := m.name.solid
  unfold block
  split
  · simp
  · simp only [List.forall_mem_singleton, List.forall_mem_append]
    exact ⟨plain_solid (by decide), name⟩
  · simp only [List.forall_mem_cons, List.not_mem_nil, false_imp_iff, implies_true, and_true]
    exact ⟨filter, plain_solid (by decide)⟩
  · rename_i goal _
    simp only [List.forall_mem_cons, List.not_mem_nil, false_imp_iff, implies_true, and_true]
    exact ⟨filter, m.goalLine_solid (by simpa using goal.solid)⟩
  · simp only [List.forall_mem_cons, List.not_mem_nil, false_imp_iff, implies_true, and_true]
    exact ⟨filter, testsLine_solid _ _ _, plain_solid (by decide)⟩
  · simp only [info, List.forall_mem_singleton, List.forall_mem_append, and_assoc]
    exact ⟨plain_solid (by decide), plain_solid (by decide), name⟩
  · rename_i rate required covered total _
    have closed := solid_around [] [')'] (by simp)
      (count_solid covered total) (spaceless (by decide))
    simp only [List.forall_mem_cons, List.forall_mem_append, List.not_mem_nil, false_imp_iff,
      implies_true, and_true, and_assoc]
    exact ⟨filter, plain_solid (by decide), rate.percent_solid, plain_solid (by decide),
      required.percent_solid, closed⟩
  · rename_i coverage pit mutation _
    rw [List.forall_mem_cons, List.forall_mem_append, List.forall_mem_append]
    refine ⟨filter, ⟨m.coverageLines_solid coverage, ?_⟩, m.mutationLines_solid mutation⟩
    intro line member
    obtain ⟨own, _, within⟩ := List.mem_flatMap.mp member
    exact m.pitLines_solid own line within

theorem summaryLine_solid : ∀ w ∈ m.summaryLine, IsSolid w := by
  simp only [summaryLine, List.forall_mem_append, List.forall_mem_singleton, and_assoc]
  refine ⟨plain_solid (by decide), m.name.solid, ?_⟩
  split
  · exact plain_solid (by decide)
  · split <;> exact plain_solid (by decide)

end Module

namespace Reactor

theorem lines_solid (r : Reactor) : ∀ line ∈ r.lines, ∀ w ∈ line, IsSolid w := by
  rw [lines, List.forall_mem_append, List.forall_mem_append, List.forall_mem_singleton]
  refine ⟨⟨fun line member => ?_, fun line member => ?_⟩, ?_⟩
  · obtain ⟨m, _, own⟩ := List.mem_flatMap.mp member
    exact m.block_solid r.baseRef line own
  · obtain ⟨m, _, rfl⟩ := List.mem_map.mp member
    exact m.summaryLine_solid
  · split <;> exact plain_solid (by decide)

end Reactor

/-! The rows of words that the patterns of the evidence read. -/

def EndsWith (word : String) (x : List Char) : Prop := word.toList.reverse <+: x.reverse

def BeginsWith (word : String) (x : List Char) : Prop := word.toList <+: x

theorem endsWith_append (stem : List Char) (word : String) :
    EndsWith word (stem ++ word.toList) := by
  rw [EndsWith, List.reverse_append]
  exact List.prefix_append _ _

theorem beginsWith_append (word : String) (tail : List Char) :
    BeginsWith word (word.toList ++ tail) := List.prefix_append _ _

/-- A coverage figure comes after `diff`, which ends a word, and maybe `line`. -/
theorem coverage_row {text : List Char} (found : search coverageFigure text = true) :
    ∃ a b, EndsWith "diff" a ∧ (b = "line".toList ∨ BeginsWith "coverage" b) ∧
      [a, b] <:+: words text := by
  obtain ⟨front, place, rate, rest, rfl, read⟩ := match_of_search found
  obtain ⟨_, t₁, diff, read⟩ := mem_bind.mp read
  obtain ⟨between, t₂, line, read⟩ := mem_bind.mp read
  obtain ⟨gap₂, t₃, space₂, read⟩ := mem_bind.mp read
  obtain ⟨_, t₄, figure, _⟩ := mem_bind.mp read
  obtain rfl := mem_lit.mp diff
  obtain ⟨some₂, blank₂, rfl⟩ := mem_run.mp space₂
  obtain rfl := mem_lit.mp figure
  have covers : IsSolid "coverage".toList := by decide
  obtain ⟨tail, after, begins⟩ := words_begins covers t₄
  rcases mem_opt.mp line with ⟨_, _, inside⟩ | ⟨_, rfl⟩
  · obtain ⟨gap₁, t₅, space₁, word⟩ := mem_bind.mp inside
    obtain ⟨some₁, blank₁, rfl⟩ := mem_run.mp space₁
    obtain rfl := mem_lit.mp word
    obtain ⟨before, stem, split⟩ := words_after "diff".toList (by decide) some₁ blank₁
      front ("line".toList ++ (gap₂ ++ ("coverage".toList ++ t₄)))
    refine ⟨_, _, endsWith_append stem "diff", .inl rfl, before, words ("coverage".toList ++ t₄), ?_⟩
    rw [split, words_cons (by decide) some₂ blank₂]
    simp
  · obtain ⟨before, stem, split⟩ := words_after "diff".toList (by decide) some₂ blank₂
      front ("coverage".toList ++ t₄)
    refine ⟨_, _, endsWith_append stem "diff", .inr (beginsWith_append "coverage" tail), before,
      after, ?_⟩
    rw [split, begins]
    simp

/-- A verdict without a scored mutation comes after `no` and `scored`. -/
theorem unscored_row {text : List Char} (found : search unscoredVerdict text = true) :
    ∃ a, EndsWith "no" a ∧ [a, "scored".toList] <:+: words text := by
  obtain ⟨front, place, _, rest, rfl, read⟩ := match_of_search found
  obtain ⟨_, t₁, first, read⟩ := mem_bind.mp read
  obtain ⟨gap₁, t₂, space₁, read⟩ := mem_bind.mp read
  obtain ⟨_, t₃, scored, read⟩ := mem_bind.mp read
  obtain ⟨gap₂, t₄, space₂, _⟩ := mem_bind.mp read
  obtain rfl := mem_lit.mp first
  obtain ⟨some₁, blank₁, rfl⟩ := mem_run.mp space₁
  obtain rfl := mem_lit.mp scored
  obtain ⟨some₂, blank₂, rfl⟩ := mem_run.mp space₂
  obtain ⟨before, stem, split⟩ := words_after "no".toList (by decide) some₁ blank₁
    front ("scored".toList ++ (gap₂ ++ t₄))
  refine ⟨_, endsWith_append stem "no", before, words t₄, ?_⟩
  rw [split, words_cons (by decide) some₂ blank₂]
  simp

/-- A decimal is read from a word. -/
theorem decimal_word {value : ℚ} {text rest : List Char} (read : (value, rest) ∈ decimal text) :
    ∃ word, IsSolid word ∧ text = word ++ rest := by
  obtain ⟨whole, t₁, digits, read⟩ := mem_bind.mp read
  obtain ⟨fraction, t₂, point, last⟩ := mem_bind.mp read
  obtain ⟨some_, every, rfl⟩ := mem_run.mp digits
  obtain ⟨_, rfl⟩ := mem_pure.mp last
  have solid : IsSolid whole := ⟨some_, fun c member => not_space_of_digit (every c member)⟩
  rcases mem_opt.mp point with ⟨part, _, inside⟩ | ⟨_, rfl⟩
  · obtain ⟨_, t₃, dot, cents⟩ := mem_bind.mp inside
    obtain rfl := mem_lit.mp dot
    obtain ⟨_, places, rfl⟩ := mem_run.mp cents
    refine ⟨[] ++ whole ++ ('.' :: part), solid_around [] _ (by simp) solid ?_, by simp⟩
    intro c member
    rcases List.mem_cons.mp member with rfl | member
    · decide
    · exact not_space_of_digit (places c member)
  · exact ⟨whole, solid, rfl⟩

/-- A passing score is spelled in five words, from `diff` to `passed`. -/
theorem passedScore_row {front text rest : List Char} {score : ℚ}
    (read : (score, rest) ∈ passedScore text) :
    ∃ a x y, EndsWith "diff" a ∧ EndsWith "%" x ∧ BeginsWith "passed" y ∧
      [a, "mutation".toList, "score".toList, x, y] <:+: words (front ++ text) := by
  obtain ⟨_, t₁, diff, read⟩ := mem_bind.mp read
  obtain ⟨gap₁, t₂, space₁, read⟩ := mem_bind.mp read
  obtain ⟨_, t₃, mutation, read⟩ := mem_bind.mp read
  obtain ⟨gap₂, t₄, space₂, read⟩ := mem_bind.mp read
  obtain ⟨_, t₅, scored, read⟩ := mem_bind.mp read
  obtain ⟨gap₃, t₆, space₃, read⟩ := mem_bind.mp read
  obtain ⟨_, t₇, number, read⟩ := mem_bind.mp read
  obtain ⟨_, t₈, percent, read⟩ := mem_bind.mp read
  obtain ⟨gap₄, t₉, space₄, read⟩ := mem_bind.mp read
  obtain ⟨_, t₁₀, passed, _⟩ := mem_bind.mp read
  obtain rfl := mem_lit.mp diff
  obtain ⟨some₁, blank₁, rfl⟩ := mem_run.mp space₁
  obtain rfl := mem_lit.mp mutation
  obtain ⟨some₂, blank₂, rfl⟩ := mem_run.mp space₂
  obtain rfl := mem_lit.mp scored
  obtain ⟨some₃, blank₃, rfl⟩ := mem_run.mp space₃
  obtain ⟨word, solid, rfl⟩ := decimal_word number
  obtain rfl := mem_lit.mp percent
  obtain ⟨some₄, blank₄, rfl⟩ := mem_run.mp space₄
  obtain rfl := mem_lit.mp passed
  have figure : IsSolid (word ++ "%".toList) := by
    simpa using solid_around [] ['%'] (by simp) solid (spaceless (by decide))
  have passes : IsSolid "passed".toList := by decide
  obtain ⟨tail, after, begins⟩ := words_begins passes t₁₀
  obtain ⟨before, stem, split⟩ := words_after "diff".toList (by decide) some₁ blank₁
    front ("mutation".toList ++ (gap₂ ++ ("score".toList ++ (gap₃ ++ (word ++ ("%".toList ++
      (gap₄ ++ ("passed".toList ++ t₁₀))))))))
  refine ⟨_, word ++ "%".toList, "passed".toList ++ tail, endsWith_append stem "diff",
    endsWith_append word "%", beginsWith_append "passed" tail, before, after, ?_⟩
  rw [split, words_cons (by decide) some₂ blank₂, words_cons (by decide) some₃ blank₃,
    ← List.append_assoc word, words_cons figure some₄ blank₄, begins]
  simp

theorem scored_row {text : List Char} (found : search scoredVerdict text = true) :
    ∃ a x y, EndsWith "diff" a ∧ EndsWith "%" x ∧ BeginsWith "passed" y ∧
      [a, "mutation".toList, "score".toList, x, y] <:+: words text := by
  obtain ⟨front, place, _, rest, rfl, read⟩ := match_of_search found
  obtain ⟨_, _, first, _⟩ := mem_bind.mp read
  exact passedScore_row first

/-! The lines that have such rows. -/

/-- In the line, no word of the first kind comes before a word of the second. -/
def Clear (first second : List Char → Prop) (line : List (List Char)) : Prop :=
  (line.map lower).IsChain fun x y => ¬ (first x ∧ second y)

theorem not_infix_of_clear {first second : List Char → Prop} {line : List (List Char)}
    (clear : Clear first second line) {a b : List Char} (begins : first a) (goes : second b) :
    ¬ [a, b] <:+: line.map lower := by
  intro row
  have pair := List.IsChain.infix clear row
  rw [List.isChain_cons_cons] at pair
  exact pair.1 ⟨begins, goes⟩

theorem Clear.mono {first second other : List Char → Prop} {line : List (List Char)}
    (clear : Clear first second line) (weaker : ∀ b, other b → second b) :
    Clear first other line :=
  List.IsChain.imp (fun _ _ apart both => apart ⟨both.1, weaker _ both.2⟩) clear

def Figure (b : List Char) : Prop := b = "line".toList ∨ BeginsWith "coverage" b

/-- A line without a word that begins evidence. -/
structure Idle (line : List (List Char)) : Prop where
  figure : Clear (EndsWith "diff") (fun b => Figure b ∨ b = "mutation".toList) line
  scored : Clear (EndsWith "no") (· = "scored".toList) line

namespace Module
variable (m : Module)

theorem filterLine_idle (baseRef : Word) : Idle (m.filterLine baseRef) := by
  constructor <;> simp [Clear, plain, EndsWith, BeginsWith, Figure, filterLine, info]

theorem goalLine_idle (goal : Word) : Idle (m.goalLine [goal.chars]) := by
  constructor <;> simp [Clear, plain, EndsWith, BeginsWith, Figure, goalLine]

theorem testsLine_idle (run failures errors : ℕ) :
    Idle (testsLine "[ERROR]" run failures errors) := by
  constructor <;> simp [Clear, plain, EndsWith, BeginsWith, Figure, testsLine]

theorem pitLines_idle (pit : PitRun) : ∀ line ∈ m.pitLines pit, Idle line := by
  obtain ⟨skips, generated, killed, killedPercent, noCoverage, strength⟩ := pit
  simp only [pitLines, List.forall_mem_cons, List.not_mem_nil, false_imp_iff, implies_true,
    and_true]
  refine ⟨?_, ?_, ?_⟩
  · cases skips <;> constructor <;> simp [Clear, plain, EndsWith, BeginsWith, Figure]
  · constructor <;> simp [Clear, plain, EndsWith, BeginsWith, Figure]
  · constructor <;> simp [Clear, plain, EndsWith, BeginsWith, Figure]

theorem coverageLines_idle {coverage : Coverage}
    (silent : ∀ rate covered total, coverage ≠ .measured rate covered total) :
    ∀ line ∈ m.coverageLines coverage, Idle line := by
  cases coverage with
  | silent => simp [coverageLines]
  | noChangedLines =>
      simp only [coverageLines, List.forall_mem_singleton]
      constructor <;> simp [Clear, plain, EndsWith, BeginsWith, Figure, info]
  | noCoverableLines =>
      simp only [coverageLines, List.forall_mem_singleton]
      constructor <;> simp [Clear, plain, EndsWith, BeginsWith, Figure, info]
  | measured rate covered total => exact absurd rfl (silent _ _ _)

theorem summaryLine_idle : Idle m.summaryLine := by
  unfold summaryLine
  split
  · constructor <;> simp [Clear, plain, EndsWith, BeginsWith, Figure]
  · split <;> constructor <;> simp [Clear, plain, EndsWith, BeginsWith, Figure]

/-- A module that no gate measured. -/
theorem block_idle (baseRef : Word)
    (ungated : ∀ coverage pit mutation, m.outcome ≠ .gated coverage pit mutation)
    (covered : ¬ m.printsCoverage) : ∀ line ∈ m.block baseRef, Idle line := by
  have filter := m.filterLine_idle baseRef
  unfold printsCoverage at covered
  unfold block
  split
  · simp
  · rw [List.forall_mem_singleton]
    constructor <;> simp [Clear, plain, EndsWith, BeginsWith, Figure]
  · simp only [List.forall_mem_cons, List.not_mem_nil, false_imp_iff, implies_true, and_true]
    refine ⟨filter, ?_⟩
    constructor <;> simp [Clear, plain, EndsWith, BeginsWith, Figure]
  · rename_i goal _
    simp only [List.forall_mem_cons, List.not_mem_nil, false_imp_iff, implies_true, and_true]
    exact ⟨filter, m.goalLine_idle goal⟩
  · simp only [List.forall_mem_cons, List.not_mem_nil, false_imp_iff, implies_true, and_true]
    refine ⟨filter, testsLine_idle _ _ _, ?_⟩
    constructor <;> simp [Clear, plain, EndsWith, BeginsWith, Figure]
  · rw [List.forall_mem_singleton]
    constructor <;> simp [Clear, plain, EndsWith, BeginsWith, Figure, info]
  · rename_i ends
    rw [ends] at covered
    exact absurd trivial covered
  · rename_i ends
    exact absurd ends (ungated _ _ _)

/-- The lines of a module that the gates measured. -/
theorem gated_line {baseRef : Word} {coverage : Coverage} {pit : Option PitRun}
    {mutation : Mutation} (ends : m.outcome = .gated coverage pit mutation)
    {line : List (List Char)} (own : line ∈ m.block baseRef) :
    Idle line ∨ line ∈ m.coverageLines coverage ∨ line ∈ m.mutationLines mutation := by
  rw [block, ends] at own
  dsimp only at own
  rw [List.mem_cons, List.mem_append, List.mem_append, List.mem_flatMap] at own
  rcases own with rfl | (own | ⟨run, _, own⟩) | own
  · exact .inl (m.filterLine_idle baseRef)
  · exact .inr (.inl own)
  · exact .inl (m.pitLines_idle run line own)
  · exact .inr (.inr own)

/-- A line of the coverage gate shows no mutation verdict. -/
theorem coverageLines_clear (coverage : Coverage) : ∀ line ∈ m.coverageLines coverage,
    Clear (EndsWith "diff") (· = "mutation".toList) line ∧
      Clear (EndsWith "no") (· = "scored".toList) line := by
  cases coverage with
  | measured rate covered total =>
      simp only [coverageLines, List.forall_mem_singleton]
      constructor <;> simp [Clear, plain, EndsWith, info, count]
  | _ =>
      intro line own
      have idle := m.coverageLines_idle (by simp) line own
      exact ⟨idle.figure.mono fun _ same => .inr same, idle.scored⟩

theorem coverageMissed_clear {baseRef : Word}
    (ungated : ∀ coverage pit mutation, m.outcome ≠ .gated coverage pit mutation)
    (covered : m.printsCoverage) : ∀ line ∈ m.block baseRef,
      Clear (EndsWith "diff") (· = "mutation".toList) line ∧
        Clear (EndsWith "no") (· = "scored".toList) line := by
  have filter := m.filterLine_idle baseRef
  unfold printsCoverage at covered
  split at covered
  · rename_i ends
    simp only [block, ends, List.forall_mem_cons, List.not_mem_nil, false_imp_iff, implies_true,
      and_true]
    refine ⟨⟨filter.figure.mono fun _ same => .inr same, filter.scored⟩, ?_⟩
    constructor <;> simp [Clear, plain, EndsWith, count]
  · rename_i ends
    exact absurd ends (ungated _ _ _)
  · exact absurd covered id

/-- A line of the mutation gate shows no coverage figure. -/
theorem mutationLines_clear (mutation : Mutation) : ∀ line ∈ m.mutationLines mutation,
    Clear (EndsWith "diff") Figure line := by
  cases mutation <;> simp only [mutationLines, List.forall_mem_singleton, List.not_mem_nil,
    false_imp_iff, implies_true]
  all_goals
    simp [Clear, plain, EndsWith, BeginsWith, Figure, info, counts, count, goalLine]

end Module

/-! The evidence of a reactor. -/

/-- The words with which a line begins. -/
def heads : List (List Char) := plain ["[info]", "[error]", "[uta-pit-compat]", ">>"]

namespace Reactor
variable {r : Reactor}

/-- The line begins with one of them. -/
def Headed (line : List (List Char)) : Prop := ∃ h ∈ heads, (line.map lower).head? = some h

theorem block_headed (m : Module) (baseRef : Word) : ∀ line ∈ m.block baseRef, Headed line := by
  have filter : Headed (m.filterLine baseRef) := by
    simp [Headed, Module.filterLine, info, plain, heads]
  unfold Module.block
  split
  · simp
  · simp [Headed, plain, heads]
  · simp only [List.forall_mem_cons, List.not_mem_nil, false_imp_iff, implies_true, and_true]
    exact ⟨filter, by simp [Headed, plain, heads]⟩
  · simp only [List.forall_mem_cons, List.not_mem_nil, false_imp_iff, implies_true, and_true]
    exact ⟨filter, by simp [Headed, Module.goalLine, plain, heads]⟩
  · simp only [List.forall_mem_cons, List.not_mem_nil, false_imp_iff, implies_true, and_true]
    exact ⟨filter, by simp [Headed, Module.testsLine, plain, heads],
      by simp [Headed, plain, heads]⟩
  · simp [Headed, info, plain, heads]
  · simp only [List.forall_mem_cons, List.not_mem_nil, false_imp_iff, implies_true, and_true]
    exact ⟨filter, by simp [Headed, plain, heads]⟩
  · rename_i coverage pit mutation _
    rw [List.forall_mem_cons, List.forall_mem_append, List.forall_mem_append]
    refine ⟨filter, ⟨?_, ?_⟩, ?_⟩
    · cases coverage <;> simp [Module.coverageLines, Headed, info, plain, heads]
    · cases pit <;> simp [Module.pitLines, Headed, plain, heads]
    · cases mutation <;>
        simp [Module.mutationLines, Module.goalLine, Headed, info, plain, heads]

theorem line_headed {line : List (List Char)} (member : line ∈ r.lines) : Headed line := by
  rw [lines, List.mem_append, List.mem_append, List.mem_singleton] at member
  rcases member with (member | member) | rfl
  · obtain ⟨m, _, own⟩ := List.mem_flatMap.mp member
    exact block_headed m r.baseRef line own
  · obtain ⟨m, _, rfl⟩ := List.mem_map.mp member
    exact ⟨"[info]".toList, by decide, by simp [Module.summaryLine, plain]⟩
  · exact ⟨"[info]".toList, by decide, by simp [plain]⟩

/-- A row of words of a text lies in one line, if its later words begin none. -/
theorem row_in_lines {lines : List (List (List Char))}
    (solid : ∀ line ∈ lines, ∀ w ∈ line, IsSolid w) (headed : ∀ line ∈ lines, Headed line)
    {a : List Char} {row : List (List Char)} (inner : ∀ b ∈ row, b ∉ heads)
    (found : a :: row <:+: words (lower (lines.flatMap lineText ++ ['\n']))) :
    ∃ line ∈ lines, a :: row <:+: line.map lower := by
  rw [words_lines solid] at found
  have apart : ∀ b ∈ row, ∀ line ∈ lines.map (List.map lower), line.head? ≠ some b := by
    intro b member line own head
    obtain ⟨source, printed, rfl⟩ := List.mem_map.mp own
    obtain ⟨h, listed, begins⟩ := headed source printed
    rw [begins] at head
    exact inner b member (Option.some.inj head ▸ listed)
  obtain ⟨_, own, within⟩ := infix_of_infix_flatten apart found
  obtain ⟨line, member, rfl⟩ := List.mem_map.mp own
  exact ⟨line, member, within⟩

theorem row_in_line {a : List Char} {row : List (List Char)} (inner : ∀ b ∈ row, b ∉ heads)
    (found : a :: row <:+: words (lower (r.log ++ ['\n']))) :
    ∃ line ∈ r.lines, a :: row <:+: line.map lower :=
  row_in_lines r.lines_solid (fun _ => line_headed) inner found

/-- A line of the log is idle, or a gate of a module printed it. -/
theorem line_cases {line : List (List Char)} (member : line ∈ r.lines) :
    Idle line ∨ (∃ m ∈ r.modules, m.printsCoverage ∧
        Clear (EndsWith "diff") (· = "mutation".toList) line ∧
        Clear (EndsWith "no") (· = "scored".toList) line) ∨
      ∃ m ∈ r.modules, ∃ coverage pit mutation, m.outcome = .gated coverage pit mutation ∧
        line ∈ m.mutationLines mutation := by
  rw [lines, List.mem_append, List.mem_append, List.mem_singleton] at member
  rcases member with (member | member) | rfl
  · obtain ⟨m, own, printed⟩ := List.mem_flatMap.mp member
    by_cases gated : ∃ coverage pit mutation, m.outcome = .gated coverage pit mutation
    · obtain ⟨coverage, pit, mutation, ends⟩ := gated
      rcases m.gated_line ends printed with idle | figure | verdict
      · exact .inl idle
      · by_cases measured : m.printsCoverage
        · exact .inr (.inl ⟨m, own, measured, m.coverageLines_clear coverage line figure⟩)
        · refine .inl (m.coverageLines_idle (fun rate covered total same => measured ?_) line figure)
          rw [Module.printsCoverage, ends, same]
          trivial
      · exact .inr (.inr ⟨m, own, coverage, pit, mutation, ends, verdict⟩)
    · have ungated : ∀ coverage pit mutation, m.outcome ≠ .gated coverage pit mutation :=
        fun coverage pit mutation same => gated ⟨coverage, pit, mutation, same⟩
      by_cases measured : m.printsCoverage
      · exact .inr (.inl ⟨m, own, measured, m.coverageMissed_clear ungated measured line printed⟩)
      · exact .inl (m.block_idle r.baseRef ungated measured line printed)
  · obtain ⟨m, _, rfl⟩ := List.mem_map.mp member
    exact .inl m.summaryLine_idle
  · refine .inl ?_
    split <;> constructor <;> simp [Clear, plain, EndsWith, BeginsWith, Figure]

/-- The coverage evidence of a run is that of some module. -/
theorem hasCoverage_iff :
    hasCoverage (r.log ++ ['\n']) = true ↔ ∃ m ∈ r.modules, m.printsCoverage := by
  constructor
  · intro found
    obtain ⟨a, b, begins, figure, row⟩ := coverage_row found
    have inner : ∀ w ∈ [b], w ∉ heads := by
      intro w same
      rw [List.mem_singleton.mp same]
      rcases figure with rfl | ⟨tail, rfl⟩
      · decide
      · simp [heads, plain]
    obtain ⟨line, member, within⟩ := row_in_line inner row
    rcases line_cases member with idle | ⟨m, own, prints, _⟩ | ⟨m, _, _, _, mutation, _, printed⟩
    · have clear : Clear (EndsWith "diff") Figure line := idle.figure.mono fun _ same => .inl same
      exact absurd within (not_infix_of_clear clear begins figure)
    · exact ⟨m, own, prints⟩
    · have clear := m.mutationLines_clear mutation line printed
      exact absurd within (not_infix_of_clear clear begins figure)
  · rintro ⟨m, own, prints⟩
    exact hasCoverage_of_prints own prints

/-- A mutation line without a passing verdict: no score in it passes. -/
theorem verdict_of_row {m : Module} {coverage : Coverage} {pit : Option PitRun}
    {mutation : Mutation} (ends : m.outcome = .gated coverage pit mutation)
    {line : List (List Char)} (printed : line ∈ m.mutationLines mutation) :
    m.printsVerdict ∨ (Clear (EndsWith "no") (· = "scored".toList) line ∧
      (Clear (EndsWith "diff") (· = "mutation".toList) line ∨
        Clear (EndsWith "%") (BeginsWith "passed") line)) := by
  unfold Module.printsVerdict
  rw [ends]
  cases mutation with
  | silent => exact absurd printed List.not_mem_nil
  | baselineRed =>
      rw [List.mem_singleton.mp printed]
      refine .inr ⟨?_, .inl ?_⟩ <;> simp [Clear, plain, EndsWith]
  | strengthBelow strength threshold =>
      rw [List.mem_singleton.mp printed]
      refine .inr ⟨?_, .inl ?_⟩ <;> simp [Clear, plain, EndsWith, Module.goalLine]
  | missed score required detected total survived noCoverage =>
      rw [List.mem_singleton.mp printed]
      refine .inr ⟨?_, .inr ?_⟩ <;> simp [Clear, plain, EndsWith, BeginsWith, counts, count]
  | passed => exact .inl trivial
  | unscored => exact .inl trivial

/-- The mutation evidence of a run is that of some module. -/
theorem hasMutation_iff :
    hasMutation (r.log ++ ['\n']) = true ↔ ∃ m ∈ r.modules, m.printsVerdict := by
  constructor
  · intro found
    rw [hasMutation, Bool.or_eq_true] at found
    rcases found with scored | unscored
    · obtain ⟨a, x, y, begins, percent, passes, row⟩ := scored_row scored
      have others : ∀ h ∈ heads, ¬ EndsWith "%" h ∧ ¬ BeginsWith "passed" h := by
        simp [heads, plain, EndsWith, BeginsWith]
      have inner : ∀ w ∈ ["mutation".toList, "score".toList, x, y], w ∉ heads := by
        simp only [List.forall_mem_cons, List.not_mem_nil, false_imp_iff, implies_true, and_true]
        exact ⟨by decide, by decide, fun same => (others x same).1 percent,
          fun same => (others y same).2 passes⟩
      obtain ⟨line, member, within⟩ := row_in_line inner row
      have first : [a, "mutation".toList] <:+: line.map lower :=
        (List.prefix_append [a, "mutation".toList] ["score".toList, x, y]).isInfix.trans within
      have last : [x, y] <:+: line.map lower :=
        (List.suffix_append [a, "mutation".toList, "score".toList] [x, y]).isInfix.trans within
      rcases line_cases member with idle | ⟨m, _, _, clear, _⟩ |
        ⟨m, own, _, _, mutation, ends, printed⟩
      · have clear : Clear (EndsWith "diff") (· = "mutation".toList) line :=
          idle.figure.mono fun _ same => .inr same
        exact absurd first (not_infix_of_clear clear begins rfl)
      · exact absurd first (not_infix_of_clear clear begins rfl)
      · rcases verdict_of_row ends printed with prints | ⟨_, clear | clear⟩
        · exact ⟨m, own, prints⟩
        · exact absurd first (not_infix_of_clear clear begins rfl)
        · exact absurd last (not_infix_of_clear clear percent passes)
    · obtain ⟨a, begins, row⟩ := unscored_row unscored
      obtain ⟨line, member, within⟩ := row_in_line (by decide) row
      rcases line_cases member with idle | ⟨m, _, _, _, clear⟩ |
        ⟨m, own, _, _, mutation, ends, printed⟩
      · exact absurd within (not_infix_of_clear idle.scored begins rfl)
      · exact absurd within (not_infix_of_clear clear begins rfl)
      · rcases verdict_of_row ends printed with prints | ⟨clear, _⟩
        · exact ⟨m, own, prints⟩
        · exact absurd within (not_infix_of_clear clear begins rfl)
  · rintro ⟨m, own, prints⟩
    exact hasMutation_of_prints own prints

end Reactor

end Uta.JavaGate.Log
