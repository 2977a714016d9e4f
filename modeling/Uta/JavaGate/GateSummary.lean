/- The summary of a result: neither a gate's figure nor the marker of a red baseline is read in
it. -/
import Uta.JavaGate.GateLines

namespace Uta.JavaGate.Log
open Uta.Lib Uta.Lib.PyText Uta.Lib.Matcher

/-! Letters that do not meet. -/

/-- In the lowered text the one letter never stands before the other, nor at the end. -/
structure Apart (p : Char × Char) (text : List Char) : Prop where
  chain : (lower text).IsChain fun x y => ¬ (x = p.1 ∧ y = p.2)
  last : (lower text).getLast? ≠ some p.1

instance (p : Char × Char) (text : List Char) : Decidable (Apart p text) :=
  decidable_of_iff
    ((lower text).IsChain (fun x y => ¬ (x = p.1 ∧ y = p.2)) ∧ (lower text).getLast? ≠ some p.1)
    ⟨fun both => ⟨both.1, both.2⟩, fun apart => ⟨apart.chain, apart.last⟩⟩

/-- A pair in each gate's pattern, and one in each marker of a red baseline. -/
def pairs : List (Char × Char) := [('f', 'f'), ('s', 'u'), ('h', 'o')]

section Apart
variable {p : Char × Char} {left right text : List Char}

theorem Apart.nil : Apart p [] := ⟨List.isChain_nil, nofun⟩

theorem Apart.append (front : Apart p left) (back : Apart p right) : Apart p (left ++ right) := by
  constructor
  · rw [lower_append, List.isChain_append]
    refine ⟨front.chain, back.chain, fun x ends y _ both => front.last ?_⟩
    rw [← both.1]
    exact ends
  · rw [lower_append, List.getLast?_append]
    cases ends : (lower right).getLast? with
    | none => exact front.last
    | some c =>
        rw [← ends]
        exact ends ▸ back.last

/-- A letter that does not occur meets no other. -/
theorem apart_of_not_mem (absent : p.1 ∉ lower text) : Apart p text := by
  refine ⟨?_, fun ends => absent (List.mem_of_getLast? ends)⟩
  refine List.Pairwise.isChain (List.pairwise_of_forall_mem_list fun x own y _ => ?_)
  rintro ⟨rfl, _⟩
  exact absent own

theorem apart_digits (member : p ∈ pairs) (every : ∀ c ∈ text, (c.isDigit || c == '.') = true) :
    Apart p text := by
  refine apart_of_not_mem fun listed => ?_
  obtain ⟨c, own, same⟩ := List.mem_map.mp listed
  have letter : ∀ p ∈ pairs, (p.1.isDigit || p.1 == '.') = false := by decide
  have small : c.toLower = c := by
    rcases Bool.or_eq_true_iff.mp (every c own) with digit | dot
    · exact toLower_of_isDigit digit
    · rw [beq_iff_eq.mp dot]
      rfl
  have digit := every c own
  rw [← small, same, letter p member] at digit
  cases digit

theorem numeral_apart (member : p ∈ pairs) (n : ℕ) : Apart p (numeral n) :=
  apart_digits member fun c own => by rw [numeral_digits n c own, Bool.true_or]

/-- A cut text, and dots. -/
theorem Apart.dotted (member : p ∈ pairs) (apart : Apart p text) (within : left <+: text) :
    Apart p (left ++ ['.', '.', '.']) := by
  have dot : ∀ p ∈ pairs, p.2 ≠ '.' ∧ p.1 ≠ '.' := by decide
  constructor
  · rw [lower_append, List.isChain_append]
    have dots : (lower ['.', '.', '.']).IsChain fun x y => ¬ (x = p.1 ∧ y = p.2) := by
      simpa [lower] using fun same => absurd same.symm (dot p member).2
    have kept := List.IsChain.prefix apart.chain (within.map Char.toLower)
    refine ⟨kept, dots, fun x _ y begins both => ?_⟩
    exact (dot p member).1 (both.2.symm.trans (Option.some.inj begins).symm)
  · rw [lower_append, List.getLast?_append]
    exact fun ends => (dot p member).2 (Option.some.inj ends).symm

end Apart

/-! The texts of a summary. -/

section Texts
variable {p : Char × Char} (member : p ∈ pairs)
include member

/-- A fixed text is judged for the three pairs at once. -/
theorem apart_literal {text : List Char} (own : ∀ p ∈ pairs, Apart p text) : Apart p text :=
  own p member

theorem Miss.text_apart (miss : Miss) : Apart p miss.text := by
  have counted : ∀ (closing : List Char) (counts : Option (Decimal × Decimal)),
      Apart p closing → Apart p (counts.elim [] fun c =>
        " (".toList ++ c.1.val ++ "/".toList ++ c.2.val ++ closing) := by
    intro closing counts own
    cases counts with
    | none => exact Apart.nil
    | some c =>
        exact ((((apart_literal member (by decide)).append (apart_digits member c.1.2.2)).append
          (apart_literal member (by decide))).append (apart_digits member c.2.2.2)).append own
  cases miss with
  | coverage rate required counts =>
      refine Apart.append ?_ (counted _ counts (apart_literal member (by decide)))
      exact ((((apart_literal member (by decide)).append (apart_digits member rate.2.2)).append
        (apart_literal member (by decide))).append (apart_digits member required.2.2)).append
        (apart_literal member (by decide))
  | mutation score required counts =>
      refine Apart.append ?_ (counted _ counts (apart_literal member (by decide)))
      exact ((((apart_literal member (by decide)).append (apart_digits member score.2.2)).append
        (apart_literal member (by decide))).append (apart_digits member required.2.2)).append
        (apart_literal member (by decide))

theorem excludedText_apart (excluded : ℕ) : Apart p (excludedText excluded) := by
  unfold excludedText
  split
  · exact Apart.nil
  · exact ((apart_literal member (by decide)).append (numeral_apart member _)).append
      (apart_literal member (by decide +kernel))

theorem more_apart (n : ℕ) : Apart p (Reasons.more n) := by
  unfold Reasons.more
  split
  · exact ((apart_literal member (by decide)).append (numeral_apart member n)).append
      (apart_literal member (by decide))
  · exact Apart.nil

theorem joined_apart {reasons : List (List Char)} (every : ∀ r ∈ reasons, Apart p r) :
    Apart p (Reasons.joined reasons) := by
  induction reasons with
  | nil => exact Apart.nil
  | cons r rs ih =>
      have own := every r List.mem_cons_self
      have later := ih fun s listed => every s (List.mem_cons_of_mem _ listed)
      rcases rs with _ | ⟨s, rs⟩
      · simpa [Reasons.joined] using own
      · have step : Reasons.joined (r :: s :: rs) =
            r ++ ([';', ' '] ++ Reasons.joined (s :: rs)) := by
          simp [Reasons.joined, List.intercalate_cons_cons]
        rw [step]
        exact own.append ((apart_literal member (by decide)).append later)

theorem shortened_apart {text : List Char} (apart : Apart p text) (maxChars : ℕ) :
    Apart p (Reasons.shortened maxChars text) := by
  unfold Reasons.shortened
  split
  · exact apart.dotted member ((List.rdropWhile_prefix _ _).trans (List.take_prefix _ _))
  · exact apart

theorem boundedReasons_apart {reasons : List (List Char)} (every : ∀ r ∈ reasons, Apart p r)
    (maxChars : ℕ) : Apart p (Reasons.boundedReasons reasons maxChars) := by
  rcases Nat.lt_or_ge maxChars (Reasons.joined reasons).length with long | fits
  · obtain ⟨n, keeps⟩ := Reasons.exists_keeps long
    rw [Reasons.boundedReasons_of_keeps long keeps]
    have kept : Apart p (Reasons.joined (reasons.take n)) :=
      joined_apart member fun r listed => every r (List.mem_of_mem_take listed)
    exact (shortened_apart member kept maxChars).append (more_apart member _)
  · unfold Reasons.boundedReasons
    rw [if_pos fits]
    exact joined_apart member every

theorem percent_apart (rate : Rate) : Apart p rate.percent :=
  (apart_digits member rate.text_figure.2).append (apart_literal member (by decide))

theorem summary_apart (ground : Ground) : Apart p ground.summary.toList := by
  have fixed : ∀ ground ∈ [Ground.skipped, .gateFailed, .terminated 0, .buildBroken,
      .baselineFailed, .evidence, .evidenceNonZero, .noEnforceableLines, .beforeEvidence,
      .missingEvidence], ∀ p ∈ pairs, Apart p ground.summary.toList := by decide +kernel
  cases ground with
  | nothingCovered mutations =>
      have number : (toString mutations).toList = numeral mutations := Nat.toList_repr
      have text : ∀ t ∈ [toString "UTA test-enforcement failed because PIT scored ",
          toString " mutation(s) with no covering ",
          "test, so its test strength is 100% of nothing"], ∀ p ∈ pairs, Apart p t.toList := by
        decide +kernel
      unfold Ground.summary
      simp only [String.toList_append, number]
      exact (((text _ (by simp) p member).append (numeral_apart member _)).append
        (text _ (by simp) p member)).append (text _ (by simp) p member)
  | terminated signal => exact fixed (.terminated 0) (by simp) p member
  | belowGate => exact fixed .gateFailed (by simp) p member
  | _ => exact fixed _ (by simp) p member

/-- The figure that a summary shows with the words of its gate. -/
def Details.figure : Details → Option Rate
  | .misses _ => none
  | .measured coverage _ => coverage

theorem score_apart (score : Option (Rate × Option Rate)) :
    ∀ text ∈ (score.map fun s => "mutation score ".toList ++ s.1.percent ++
      s.2.elim [] fun gate => " (gate ".toList ++ gate.percent ++ ")".toList).toList,
      Apart p text := by
  cases score with
  | none => simp
  | some s =>
      obtain ⟨rate, gate⟩ := s
      simp only [Option.map_some, Option.toList_some, List.forall_mem_singleton]
      refine ((apart_literal member (by decide)).append (percent_apart member rate)).append ?_
      cases gate with
      | none => exact Apart.nil
      | some gate =>
          exact ((apart_literal member (by decide)).append (percent_apart member gate)).append
            (apart_literal member (by decide))

theorem details_apart {details : Details}
    (plain_ : details.figure = none ∨ Apart p "diff line coverage ".toList) :
    ∀ text ∈ details.texts, Apart p text := by
  cases details with
  | misses reasons =>
      intro text listed
      obtain ⟨miss, _, rfl⟩ := List.mem_map.mp listed
      exact miss.text_apart member
  | measured coverage score =>
      rw [Details.texts, List.forall_mem_append]
      refine ⟨?_, score_apart member score⟩
      cases coverage with
      | none => simp
      | some rate =>
          simp only [Option.map_some, Option.toList_some, List.forall_mem_singleton]
          exact (plain_.resolve_left (Option.some_ne_none rate)).append (percent_apart member rate)

theorem gateFailureSummary_apart {details : Details} (excluded : ℕ)
    (plain_ : details.figure = none ∨ Apart p "diff line coverage ".toList) :
    Apart p (gateFailureSummary details excluded) := by
  unfold gateFailureSummary
  refine ((apart_literal member (by decide)).append ?_).append (excludedText_apart member _)
  split
  · exact Apart.nil
  · exact (apart_literal member (by decide)).append
      (boundedReasons_apart member (details_apart member plain_) _)

theorem summaryOf_apart (ground : Ground) {details : Details} (excluded : ℕ)
    (plain_ : details.figure = none ∨ Apart p "diff line coverage ".toList) :
    Apart p (summaryOf ground details excluded) := by
  unfold summaryOf
  split
  · exact gateFailureSummary_apart member excluded plain_
  · exact gateFailureSummary_apart member excluded plain_
  · exact summary_apart member ground

end Texts

/-! The front of the reasons. -/

/-- What follows a text in a list of reasons. -/
structure Follows (post : List Char) : Prop where
  head : ∀ c ∈ post.head?, c = ';' ∨ c = ','
  apart : Apart ('f', 'f') post

theorem Follows.append {left right : List Char} (front : Follows left) (back : Follows right) :
    Follows (left ++ right) := by
  refine ⟨fun c begins => ?_, front.apart.append back.apart⟩
  cases left with
  | nil => exact back.head c begins
  | cons d left => exact front.head c begins

theorem joined_cons (reason : List Char) {rest : List (List Char)}
    (every : ∀ r ∈ rest, Apart ('f', 'f') r) :
    ∃ post, Reasons.joined (reason :: rest) = reason ++ post ∧ Follows post := by
  rcases rest with _ | ⟨r, rest⟩
  · exact ⟨[], by simp [Reasons.joined], nofun, Apart.nil⟩
  · refine ⟨[';', ' '] ++ Reasons.joined (r :: rest), ?_, fun c begins => ?_, ?_⟩
    · simp [Reasons.joined, List.intercalate_cons_cons]
    · exact .inl (Option.some.inj begins).symm
    · exact (apart_literal (by decide) (by decide)).append (joined_apart (by decide) every)

theorem more_follows (n : ℕ) : Follows (Reasons.more n) := by
  refine ⟨fun c begins => .inr ?_, more_apart (by decide) n⟩
  unfold Reasons.more at begins
  split at begins
  · exact (Option.some.inj begins).symm
  · cases begins

theorem excludedText_follows (excluded : ℕ) : Follows (excludedText excluded) := by
  refine ⟨fun c begins => .inl ?_, excludedText_apart (by decide) excluded⟩
  unfold excludedText at begins
  split at begins
  · cases begins
  · exact (Option.some.inj begins).symm

/-- The first reason stands in front, whole or cut. -/
theorem boundedReasons_front (reason : List Char) {rest : List (List Char)}
    (every : ∀ r ∈ rest, Apart ('f', 'f') r) (maxChars : ℕ) :
    ∃ front post, Reasons.boundedReasons (reason :: rest) maxChars = front ++ post ∧
      Follows post ∧ (front = reason ∨ maxChars < reason.length ∧
        front = rstrip (reason.take (maxChars - 3)) ++ ['.', '.', '.']) := by
  rcases Nat.lt_or_ge maxChars (Reasons.joined (reason :: rest)).length with long | fits
  · obtain ⟨n, keeps⟩ := Reasons.exists_keeps long
    obtain ⟨k, rfl⟩ : ∃ k, n = k + 1 := ⟨n - 1, (Nat.sub_add_cancel keeps.pos).symm⟩
    rw [Reasons.boundedReasons_of_keeps long keeps]
    obtain ⟨post, split, follows⟩ :=
      joined_cons reason fun r listed => every r (List.mem_of_mem_take (listed : r ∈ rest.take k))
    rcases Nat.eq_zero_or_pos k with rfl | several
    · have alone : Reasons.joined ((reason :: rest).take (0 + 1)) = reason := by
        simp [Reasons.joined]
      rw [alone]
      refine ⟨_, _, rfl, more_follows _, ?_⟩
      unfold Reasons.shortened
      split
      · rename_i cut
        exact .inr ⟨cut, rfl⟩
      · exact .inl rfl
    · refine ⟨reason, post ++ Reasons.more ((reason :: rest).length - (k + 1)), ?_,
        follows.append (more_follows _), .inl rfl⟩
      rw [keeps.uncut (by omega), List.take_succ_cons, split, List.append_assoc]
  · obtain ⟨post, split, follows⟩ := joined_cons reason every
    refine ⟨reason, post, ?_, follows, .inl rfl⟩
    unfold Reasons.boundedReasons
    rw [if_pos fits, split]

/-! The figure of a summary. -/

/-- A summary with a figure: what follows the figure is no blank, nor a percentage and a blank. -/
structure Figured (summary : List Char) : Prop where
  parts : ∃ figure percent post : List Char, summary = "UTA test-enforcement failed: ".toList ++
    ("diff".toList ++ (" line coverage ".toList ++ (figure ++ (percent ++ post)))) ∧
    (figure ≠ [] ∧ ∀ c ∈ figure, (c.isDigit || c == '.') = true) ∧
    (percent = [] ∨ percent = ['%']) ∧ Follows post

/-- A cut figure keeps its digits. -/
theorem cut_figure {text : List Char} {maxChars : ℕ} (room : 23 ≤ maxChars)
    (digits : ∀ c ∈ text, (c.isDigit || c == '.') = true)
    (long : maxChars < ("diff line coverage ".toList ++ (text ++ ['%'])).length) :
    rstrip (("diff line coverage ".toList ++ (text ++ ['%'])).take (maxChars - 3)) =
        "diff line coverage ".toList ++ text.take (maxChars - 22) ∧
      text.take (maxChars - 22) ≠ [] := by
  have size : "diff line coverage ".toList.length = 19 := by decide
  rw [List.length_append, List.length_append, size, List.length_singleton] at long
  have some_ : text.take (maxChars - 22) ≠ [] := by
    rw [Ne, List.take_eq_nil_iff]
    rintro (none_ | rfl)
    · omega
    · rw [List.length_nil] at long
      omega
  refine ⟨?_, some_⟩
  have count : maxChars - 3 = "diff line coverage ".toList.length + (maxChars - 22) := by
    rw [size]
    omega
  rw [count, List.take_length_add_append, List.take_append_of_le_length (by omega), rstrip,
    List.rdropWhile_eq_self_iff]
  intro _
  rw [List.getLast_append_of_ne_nil _ some_, Bool.not_eq_true]
  exact not_space_of_figure (digits _ (List.mem_of_mem_take (List.getLast_mem some_)))

theorem figured_of_figure {details : Details} {rate : Rate} (shows : details.figure = some rate)
    (excluded : ℕ) : Figured (gateFailureSummary details excluded) := by
  obtain ⟨score, rfl⟩ : ∃ score, details = .measured (some rate) score := by
    cases details with
    | misses reasons => cases shows
    | measured coverage score => exact ⟨score, by rw [show coverage = some rate from shows]⟩
  obtain ⟨front, post, bounded, follows, cut⟩ := boundedReasons_front
    ("diff line coverage ".toList ++ rate.percent) (score_apart (by decide) score)
    Reasons.gateMissSummaryMaxChars
  have text : gateFailureSummary (.measured (some rate) score) excluded =
      "UTA test-enforcement failed: ".toList ++ (front ++ (post ++ excludedText excluded)) := by
    unfold gateFailureSummary
    rw [if_neg (by simp [Details.texts])]
    have whole : Reasons.boundedReasons (Details.measured (some rate) score).texts =
      front ++ post := bounded
    rw [whole]
    simp
  have words_ : "diff line coverage ".toList = "diff".toList ++ " line coverage ".toList := by
    decide
  have behind := follows.append (excludedText_follows excluded)
  rcases cut with rfl | ⟨long, rfl⟩
  · refine ⟨rate.text, ['%'], post ++ excludedText excluded, ?_, rate.text_figure, .inr rfl,
      behind⟩
    rw [text, Rate.percent, words_]
    simp only [List.append_assoc]
  · obtain ⟨kept, some_⟩ := cut_figure (by decide) rate.text_figure.2 long
    refine ⟨rate.text.take (Reasons.gateMissSummaryMaxChars - 22) ++ ['.', '.', '.'], [],
      post ++ excludedText excluded, ?_, ⟨by simp, ?_⟩, .inl rfl, behind⟩
    · rw [text, Rate.percent, kept, words_]
      simp only [List.append_assoc, List.nil_append]
    · intro c listed
      rcases List.mem_append.mp listed with own | dots
      · exact rate.text_figure.2 c (List.mem_of_mem_take own)
      · simp only [List.mem_cons, List.not_mem_nil, or_false, or_self] at dots
        rw [dots]
        rfl

/-! No gate is read in a summary. -/

/-- Nothing in such a text begins as a gate's line does. -/
theorem not_begins_of_apart {text part body rest : List Char} (apart : Apart ('f', 'f') text)
    (some_ : part ≠ []) (within : part <:+ lower text) {next : Char}
    (other : next ≠ 'i' ∧ next ≠ 'f') :
    part ++ next :: body ≠ 'd' :: 'i' :: 'f' :: 'f' :: rest := by
  intro begins
  rcases part with _ | ⟨a, _ | ⟨b, _ | ⟨c, _ | ⟨d, part⟩⟩⟩⟩
  · exact some_ rfl
  · simp [other.1] at begins
  · simp [other.2] at begins
  · simp [other.2] at begins
  · have row : [c, d] <:+: lower text :=
      (List.infix_append [a, b] [c, d] part).trans within.isInfix
    have pair := List.IsChain.infix apart.chain row
    rw [List.isChain_pair] at pair
    simp only [List.cons_append, List.cons.injEq] at begins
    exact pair ⟨begins.2.2.1, begins.2.2.2.1⟩

/-- What begins as a gate's line does begins at the one place that does. -/
theorem place_of_begins {lead tail part body rest : List Char} (front : Apart ('f', 'f') lead)
    (back : Apart ('f', 'f') tail) (some_ : part ≠ [])
    (within : part <:+ lower (lead ++ ("diff".toList ++ tail)))
    (begins : part ++ '\n' :: body = 'd' :: 'i' :: 'f' :: 'f' :: rest) :
    part = "diff".toList ++ lower tail := by
  have newline : '\n' ≠ 'i' ∧ '\n' ≠ 'f' := by decide
  have first : 'd' ≠ 'i' ∧ 'd' ≠ 'f' := by decide
  obtain ⟨outer, whole⟩ := within
  have letters : lower "diff".toList = ['d', 'i', 'f', 'f'] := by decide
  rw [lower_append, lower_append, letters] at whole
  rcases List.append_eq_append_iff.mp whole with ⟨inner, cut, rfl⟩ | ⟨inner, _, cut⟩
  · rcases eq_or_ne inner [] with rfl | ahead
    · rfl
    · rw [List.append_assoc] at begins
      exact absurd begins (not_begins_of_apart front ahead (cut ▸ List.suffix_append _ _) first)
  · rcases inner with _ | ⟨a, _ | ⟨b, _ | ⟨c, _ | ⟨d, inner⟩⟩⟩⟩
    · exact cut.symm
    · simp only [List.cons_append, List.nil_append, List.cons.injEq] at cut
      rw [← cut.2] at begins
      simp at begins
    · simp only [List.cons_append, List.nil_append, List.cons.injEq] at cut
      rw [← cut.2.2] at begins
      simp at begins
    · simp only [List.cons_append, List.nil_append, List.cons.injEq] at cut
      rw [← cut.2.2.2] at begins
      simp at begins
    · simp only [List.cons_append, List.nil_append, List.cons.injEq] at cut
      exact absurd begins (not_begins_of_apart back some_
        (cut.2.2.2.2 ▸ List.suffix_append _ _) newline)

section Mute
variable {gate second third : String} (spelled : Spelled gate second third)
include spelled

theorem GateMatch.begins {text word rest gap₁ figure gap₂ : List Char}
    (match_ : GateMatch gate text word rest gap₁ figure gap₂) :
    ∃ more, text = 'd' :: 'i' :: 'f' :: 'f' :: ' ' :: (second.toList ++ more) := by
  rw [match_.text, spelled.text]
  exact ⟨_, by simp only [List.append_assoc]; rfl⟩

theorem mute_of_apart {summary : List Char} (apart : Apart ('f', 'f') summary) :
    Mute gate summary := by
  intro part some_ within body _
  by_contra matches_
  obtain ⟨⟨word, rest⟩, read⟩ := List.exists_mem_of_ne_nil _ matches_
  obtain ⟨gap₁, figure, gap₂, match_⟩ := mem_gateWord read
  obtain ⟨more, begins⟩ := GateMatch.begins spelled match_
  exact not_begins_of_apart apart some_ within (by decide) begins

end Mute

theorem lower_figure {figure : List Char} (every : ∀ c ∈ figure, (c.isDigit || c == '.') = true) :
    lower figure = figure := by
  unfold lower
  refine (List.map_congr_left fun c own => ?_).trans (List.map_id' _)
  rcases Bool.or_eq_true_iff.mp (every c own) with digit | dot
  · exact toLower_of_isDigit digit
  · rw [beq_iff_eq.mp dot]
    rfl

/-- The text of a figure with what comes behind it is none that the pattern takes. -/
theorem figure_not_read {figure percent post body : List Char}
    (digits : figure ≠ [] ∧ ∀ c ∈ figure, (c.isDigit || c == '.') = true)
    (sign : percent = [] ∨ percent = ['%']) (follows : Follows post)
    (wordless : (body.dropWhile isSpace).head?.any Matcher.isWord = false)
    {text word rest gap₁ figure' gap₂ : List Char}
    (match_ : GateMatch "diff line coverage" text word rest gap₁ figure' gap₂) :
    text ≠ "diff line coverage".toList ++
      ' ' :: (figure ++ (percent ++ (lower post ++ '\n' :: body))) := by
  intro same
  rw [match_.text] at same
  have cut := List.append_cancel_left same
  have solid : ∀ {f tail : List Char}, f ≠ [] → (∀ c ∈ f, (c.isDigit || c == '.') = true) →
      (f ++ tail).dropWhile isSpace = f ++ tail := by
    intro f tail some_ every
    obtain ⟨c, f, rfl⟩ := List.exists_cons_of_ne_nil some_
    exact List.dropWhile_cons_of_neg (by rw [not_space_of_figure (every c (by simp))]; decide)
  -- the same blanks, then the same figure
  have numbers : figure' ++ '%' :: (gap₂ ++ (word ++ rest)) =
      figure ++ (percent ++ (lower post ++ '\n' :: body)) := by
    have dropped := congrArg (List.dropWhile isSpace) cut
    rw [List.dropWhile_append_of_pos match_.gap₁.2, List.dropWhile_cons_of_pos (by decide),
      List.append_assoc, solid match_.figure.1 match_.figure.2,
      solid digits.1 digits.2] at dropped
    exact dropped
  have behind : '%' :: (gap₂ ++ (word ++ rest)) =
      (percent ++ (lower post ++ '\n' :: body)).dropWhile fun c => c.isDigit || c == '.' := by
    have dropped := congrArg (List.dropWhile fun c => c.isDigit || c == '.') numbers
    rw [List.dropWhile_append_of_pos match_.figure.2, List.dropWhile_append_of_pos digits.2,
      List.dropWhile_cons_of_neg (by decide)] at dropped
    exact dropped
  have mark : ∀ c ∈ (lower post).head?, c = ';' ∨ c = ',' := by
    intro c begins
    cases post with
    | nil => cases begins
    | cons d post =>
        obtain rfl : d.toLower = c := Option.some.inj begins
        rcases follows.head d rfl with rfl | rfl
        · exact .inl rfl
        · exact .inr rfl
  rcases next : lower post with _ | ⟨c, more⟩
  · rw [next] at behind
    rcases sign with rfl | rfl
    · rw [List.nil_append, List.nil_append, List.dropWhile_cons_of_neg (by decide)] at behind
      simp at behind
    · rw [List.singleton_append, List.dropWhile_cons_of_neg (by decide)] at behind
      have dropped := congrArg (List.dropWhile isSpace) (List.cons.inj behind).2
      obtain ⟨d, word, rfl⟩ := List.exists_cons_of_ne_nil match_.some_
      have letter := match_.word_every d (by simp)
      rw [List.dropWhile_append_of_pos match_.gap₂.2, List.cons_append,
        List.dropWhile_cons_of_neg (by rw [not_space_of_isWord letter]; decide),
        List.nil_append, List.dropWhile_cons_of_pos (by decide)] at dropped
      rw [← dropped, List.head?_cons, Option.any_some, letter] at wordless
      cases wordless
  · have own := mark c (by rw [next]; rfl)
    rw [next] at behind
    rcases sign with rfl | rfl
    · rw [List.nil_append, List.cons_append,
        List.dropWhile_cons_of_neg (by rcases own with rfl | rfl <;> decide)] at behind
      rw [← (List.cons.inj behind).1] at own
      exact absurd own (by decide)
    · rw [List.singleton_append, List.dropWhile_cons_of_neg (by decide)] at behind
      obtain ⟨d, gap, rfl⟩ := List.exists_cons_of_ne_nil match_.gap₂.1
      have blank := match_.gap₂.2 d (by simp)
      obtain rfl : d = c := (List.cons.inj (List.cons.inj behind).2).1
      rcases own with rfl | rfl
      · exact absurd blank (by decide)
      · exact absurd blank (by decide)

/-- Where the figure of a summary stands. -/
theorem Figured.place {summary part body rest : List Char} (figured : Figured summary)
    (some_ : part ≠ []) (within : part <:+ lower summary)
    (begins : part ++ '\n' :: body = 'd' :: 'i' :: 'f' :: 'f' :: rest) :
    ∃ figure percent post : List Char, part ++ '\n' :: body = "diff line coverage".toList ++
        ' ' :: (figure ++ (percent ++ (lower post ++ '\n' :: body))) ∧
      (figure ≠ [] ∧ ∀ c ∈ figure, (c.isDigit || c == '.') = true) ∧
      (percent = [] ∨ percent = ['%']) ∧ Follows post := by
  obtain ⟨figure, percent, post, rfl, digits, sign, follows⟩ := figured.parts
  have front : Apart ('f', 'f') "UTA test-enforcement failed: ".toList := by decide
  have literal : Apart ('f', 'f') " line coverage ".toList := by decide
  have marked : Apart ('f', 'f') percent := by
    rcases sign with rfl | rfl
    · exact Apart.nil
    · decide
  have back := literal.append ((apart_digits (by decide) digits.2).append
    (marked.append follows.apart))
  have signed : lower percent = percent := by
    rcases sign with rfl | rfl <;> rfl
  refine ⟨figure, percent, post, ?_, digits, sign, follows⟩
  rw [place_of_begins front back some_ within begins, lower_append, lower_append, lower_append,
    lower_figure digits.2, signed]
  have words_ : lower " line coverage ".toList = " line coverage".toList ++ [' '] := by decide
  have whole : "diff line coverage".toList = "diff".toList ++ " line coverage".toList := by decide
  rw [words_, whole]
  simp only [List.append_assoc, List.cons_append, List.nil_append]

theorem coverage_mute_of_figured {summary : List Char} (figured : Figured summary) :
    Mute "diff line coverage" summary := by
  intro part some_ within body wordless
  by_contra matches_
  obtain ⟨⟨word, rest⟩, read⟩ := List.exists_mem_of_ne_nil _ matches_
  obtain ⟨gap₁, figure', gap₂, match_⟩ := mem_gateWord read
  obtain ⟨more, begins⟩ := GateMatch.begins coverage_spelled match_
  obtain ⟨figure, percent, post, text, digits, sign, follows⟩ := figured.place some_ within begins
  exact figure_not_read digits sign follows wordless match_ text

theorem mutation_mute_of_figured {summary : List Char} (figured : Figured summary) :
    Mute "diff mutation score" summary := by
  intro part some_ within body _
  by_contra matches_
  obtain ⟨⟨word, rest⟩, read⟩ := List.exists_mem_of_ne_nil _ matches_
  obtain ⟨gap₁, figure', gap₂, match_⟩ := mem_gateWord read
  obtain ⟨more, begins⟩ := GateMatch.begins mutation_spelled match_
  obtain ⟨figure, percent, post, text, _⟩ := figured.place some_ within begins
  rw [begins] at text
  simp at text

/-- No gate is read in the summary of a result. -/
theorem summaryOf_mute (ground : Ground) (details : Details) (excluded : ℕ) :
    Mute "diff line coverage" (summaryOf ground details excluded) ∧
      Mute "diff mutation score" (summaryOf ground details excluded) := by
  have plain_ : ∀ {summary : List Char}, Apart ('f', 'f') summary →
      Mute "diff line coverage" summary ∧ Mute "diff mutation score" summary := fun apart =>
    ⟨mute_of_apart coverage_spelled apart, mute_of_apart mutation_spelled apart⟩
  cases shows : details.figure with
  | none => exact plain_ (summaryOf_apart (by decide) ground excluded (.inl shows))
  | some rate =>
      have figured := figured_of_figure shows excluded
      have both := And.intro (coverage_mute_of_figured figured) (mutation_mute_of_figured figured)
      unfold summaryOf
      split
      · exact both
      · exact both
      · exact plain_ (summary_apart (by decide) ground)

end Uta.JavaGate.Log
