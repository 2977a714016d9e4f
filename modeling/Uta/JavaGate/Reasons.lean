/- The summary of the gate misses that Maven printed: as many reasons as a bound allows, and how many
more there are. -/
import Uta.Lib.Leading
import Uta.Lib.Lines
import Mathlib.Algebra.GroupWithZero.Nat

namespace Uta.JavaGate.Reasons
open Uta.Lib Uta.Lib.PyText

/-- `GATE_MISS_SUMMARY_MAX_CHARS`. -/
def gateMissSummaryMaxChars : ℕ := 700

/-- `"; ".join(reasons)`. -/
def joined (reasons : List (List Char)) : List Char := [';', ' '].intercalate reasons

/-- `len(candidate) <= max_chars - 12`. -/
def leavesTwelve (maxChars : ℕ) (candidate : List (List Char)) : Bool :=
  decide ((joined candidate).length + 12 ≤ maxChars)

/-- `text[: max_chars - 3].rstrip() + "..."`, where the text is too long. -/
def shortened (maxChars : ℕ) (text : List Char) : List Char :=
  if maxChars < text.length then rstrip (text.take (maxChars - 3)) ++ ['.', '.', '.'] else text

/-- `", +%d more" % remaining if remaining > 0 else ""`. -/
def more (remaining : ℕ) : List Char :=
  if 0 < remaining then [',', ' ', '+'] ++ Nat.toDigits 10 remaining ++ [' ', 'm', 'o', 'r', 'e']
  else []

/-- `bounded_reasons`; a bound is at least 3. -/
def boundedReasons (reasons : List (List Char)) (maxChars : ℕ := gateMissSummaryMaxChars) :
    List Char :=
  if (joined reasons).length ≤ maxChars then joined reasons
  else
    let kept := keepLeading (leavesTwelve maxChars) [] reasons
    shortened maxChars (joined kept) ++ more (reasons.length - kept.length)

/-! What is asked of a summary. -/

/-- The text stands for the first `kept` reasons, and says that there are `others`. -/
structure Summarizes (maxChars : ℕ) (reasons : List (List Char)) (kept others : ℕ)
    (text : List Char) : Prop where
  within : text.length ≤ maxChars
  counted : kept + others = reasons.length
  /-- The first reason may be cut. -/
  begins : ∃ lead, text = lead ++ more others ∧
    (lead = joined (reasons.take kept) ∨
      kept = 1 ∧ ∃ first ∈ reasons.head?, ∃ n, lead = rstrip (first.take n) ++ ['.', '.', '.'])
  /-- No longer run leaves twelve characters for the suffix. -/
  longest : ∀ n, kept < n → n < reasons.length → leavesTwelve maxChars (reasons.take n) = false

/-- The first reason does not leave twelve characters, nor as many as the suffix takes. -/
def FirstOverruns (maxChars : ℕ) (reasons : List (List Char)) : Prop :=
  1 < reasons.length ∧ leavesTwelve maxChars (reasons.take 1) = false ∧
    maxChars < (shortened maxChars (joined (reasons.take 1))).length +
      (more (reasons.length - 1)).length

/-- The longest run that leaves twelve characters leaves fewer than the suffix takes. -/
def SuffixOverruns (maxChars : ℕ) (reasons : List (List Char)) : Prop :=
  ∃ n, 0 < n ∧ n < reasons.length ∧ leavesTwelve maxChars (reasons.take n) = true ∧
    leavesTwelve maxChars (reasons.take (n + 1)) = false ∧
    maxChars < (joined (reasons.take n)).length + (more (reasons.length - n)).length

instance (maxChars : ℕ) (reasons : List (List Char)) : Decidable (FirstOverruns maxChars reasons) :=
  inferInstanceAs (Decidable (_ ∧ _))

/-! Lengths. -/

theorem joined_length (reasons : List (List Char)) :
    (joined reasons).length = (reasons.map List.length).sum + 2 * (reasons.length - 1) := by
  induction reasons with
  | nil => rfl
  | cons r rs ih =>
      cases rs with
      | nil => simp [joined]
      | cons s rs =>
          have step : joined (r :: s :: rs) = r ++ ([';', ' '] ++ joined (s :: rs)) := by
            simp [joined, List.intercalate_cons_cons]
          rw [step, List.length_append, List.length_append, ih]
          simp only [List.length_cons, List.length_nil, List.map_cons, List.sum_cons]
          omega

theorem joined_take_mono (reasons : List (List Char)) {m n : ℕ} (le : m ≤ n) :
    (joined (reasons.take m)).length ≤ (joined (reasons.take n)).length := by
  have split : reasons.take n = reasons.take m ++ (reasons.take n).drop m := by
    have front := List.take_append_drop m (reasons.take n)
    rw [List.take_take, min_eq_left le] at front
    exact front.symm
  rw [joined_length, joined_length, split, List.map_append, List.sum_append, List.length_append]
  omega

theorem leavesTwelve_mono {maxChars : ℕ} {reasons : List (List Char)} {m n : ℕ} (le : m ≤ n)
    (full : leavesTwelve maxChars (reasons.take m) = false) :
    leavesTwelve maxChars (reasons.take n) = false := by
  have longer := joined_take_mono reasons le
  unfold leavesTwelve at full ⊢
  rw [decide_eq_false_iff_not] at full ⊢
  omega

theorem shortened_of_fits {maxChars : ℕ} {text : List Char} (fits : text.length ≤ maxChars) :
    shortened maxChars text = text := if_neg (by omega)

theorem shortened_length {maxChars : ℕ} (three : 3 ≤ maxChars) (text : List Char) :
    (shortened maxChars text).length ≤ maxChars := by
  unfold shortened
  split
  · have cut : (rstrip (text.take (maxChars - 3))).length ≤ (text.take (maxChars - 3)).length :=
      (List.rdropWhile_prefix _ _).length_le
    rw [List.length_take] at cut
    rw [List.length_append, List.length_cons, List.length_cons, List.length_cons, List.length_nil]
    omega
  · omega

@[simp] theorem more_zero : more 0 = [] := rfl

theorem more_length {remaining : ℕ} (pos : 0 < remaining) :
    (more remaining).length = 8 + (Nat.toDigits 10 remaining).length := by
  unfold more
  rw [if_pos pos]
  simp only [List.length_append, List.length_cons, List.length_nil]
  omega

/-- The twelve characters are enough for four digits. -/
theorem not_suffixOverruns {maxChars : ℕ} {reasons : List (List Char)}
    (few : reasons.length ≤ 10000) : ¬ SuffixOverruns maxChars reasons := by
  rintro ⟨n, pos, less, leaves, -, exceeds⟩
  have digits : (Nat.toDigits 10 (reasons.length - n)).length ≤ 4 :=
    (Nat.length_toDigits_le_iff (by decide) (by decide)).mpr (by omega)
  have suffix : (more (reasons.length - n)).length =
      8 + (Nat.toDigits 10 (reasons.length - n)).length := more_length (by omega)
  unfold leavesTwelve at leaves
  rw [decide_eq_true_eq] at leaves
  omega

/-! The run that is kept. -/

variable {maxChars : ℕ} {reasons : List (List Char)}

/-- What the loop keeps of reasons that do not fit together. -/
structure Keeps (maxChars : ℕ) (reasons : List (List Char)) (n : ℕ) : Prop where
  pos : 0 < n
  le : n ≤ reasons.length
  eq : keepLeading (leavesTwelve maxChars) [] reasons = reasons.take n
  leaves : 1 < n → leavesTwelve maxChars (reasons.take n) = true
  stop : n < reasons.length → leavesTwelve maxChars (reasons.take (n + 1)) = false

theorem exists_keeps (long : maxChars < (joined reasons).length) :
    ∃ n, Keeps maxChars reasons n := by
  obtain ⟨n, leads⟩ : ∃ n, Leads (leavesTwelve maxChars) [] reasons n :=
    keepLeading_leads [] reasons
  have some_ : reasons ≠ [] := by
    rintro rfl
    exact absurd long (Nat.not_lt_zero _)
  refine ⟨n, leads.pos some_, leads.le, leads.eq, ?_, fun less => (leads.stop less).2⟩
  intro several
  have front : reasons.take (n - 1) ≠ [] := by
    rw [Ne, List.take_eq_nil_iff]
    rintro (none_ | empty)
    · omega
    · exact some_ empty
  have fit := leads.fit (n - 1) (by omega) front
  rwa [List.nil_append, Nat.sub_add_cancel (leads.pos some_)] at fit

theorem boundedReasons_of_keeps {n : ℕ} (long : maxChars < (joined reasons).length)
    (keeps : Keeps maxChars reasons n) :
    boundedReasons reasons maxChars =
      shortened maxChars (joined (reasons.take n)) ++ more (reasons.length - n) := by
  unfold boundedReasons
  rw [if_neg (by omega), keeps.eq]
  dsimp only
  rw [List.length_take, min_eq_left keeps.le]

/-- A run of several reasons is not cut. -/
theorem Keeps.uncut {n : ℕ} (keeps : Keeps maxChars reasons n) (several : 1 < n) :
    shortened maxChars (joined (reasons.take n)) = joined (reasons.take n) := by
  have leaves := keeps.leaves several
  unfold leavesTwelve at leaves
  rw [decide_eq_true_eq] at leaves
  exact shortened_of_fits (by omega)

/-- The run overruns the bound with its suffix in one of two ways. -/
theorem Keeps.overruns_iff (three : 3 ≤ maxChars) {n : ℕ} (keeps : Keeps maxChars reasons n) :
    maxChars < (shortened maxChars (joined (reasons.take n))).length +
        (more (reasons.length - n)).length ↔
      FirstOverruns maxChars reasons ∨ SuffixOverruns maxChars reasons := by
  have pos := keeps.pos
  have le := keeps.le
  constructor
  · intro exceeds
    have partial_ : n < reasons.length := by
      rcases Nat.lt_or_ge n reasons.length with less | all
      · exact less
      · have whole := shortened_length three (joined (reasons.take n))
        rw [Nat.sub_eq_zero_of_le all, more_zero, List.length_nil] at exceeds
        omega
    cases leaves : leavesTwelve maxChars (reasons.take n) with
    | true =>
        have short : shortened maxChars (joined (reasons.take n)) = joined (reasons.take n) := by
          have room := leaves
          unfold leavesTwelve at room
          rw [decide_eq_true_eq] at room
          exact shortened_of_fits (by omega)
        rw [short] at exceeds
        exact .inr ⟨n, pos, partial_, leaves, keeps.stop partial_, exceeds⟩
    | false =>
        obtain rfl : n = 1 := by
          by_contra several
          have room := keeps.leaves (by omega)
          rw [leaves] at room
          exact absurd room (by decide)
        exact .inl ⟨partial_, leaves, exceeds⟩
  · rintro (⟨several, full, exceeds⟩ | ⟨m, mpos, mless, room, full, exceeds⟩)
    · obtain rfl : n = 1 := by
        by_contra more_
        have room := keeps.leaves (by omega)
        have longer := leavesTwelve_mono pos full
        rw [room] at longer
        exact absurd longer (by decide)
      exact exceeds
    · obtain rfl : n = m := by
        rcases Nat.lt_trichotomy n m with less | same | greater
        · have stop := leavesTwelve_mono (m := n + 1) less (keeps.stop (by omega))
          rw [room] at stop
          exact absurd stop (by decide)
        · exact same
        · have kept := keeps.leaves (by omega)
          have stop := leavesTwelve_mono (m := m + 1) greater full
          rw [kept] at stop
          exact absurd stop (by decide)
      have short : (joined (reasons.take n)).length ≤ maxChars := by
        unfold leavesTwelve at room
        rw [decide_eq_true_eq] at room
        omega
      rwa [shortened_of_fits short]

/-- What the text of a run says, whether or not it stays within the bound. -/
theorem Keeps.summarizes {n : ℕ} (keeps : Keeps maxChars reasons n)
    (within : (shortened maxChars (joined (reasons.take n)) ++ more (reasons.length - n)).length ≤
      maxChars) :
    Summarizes maxChars reasons n (reasons.length - n)
      (shortened maxChars (joined (reasons.take n)) ++ more (reasons.length - n)) where
  within := within
  counted := Nat.add_sub_cancel' keeps.le
  begins := by
    refine ⟨_, rfl, ?_⟩
    rcases Nat.lt_or_ge 1 n with several | one
    · exact .inl (keeps.uncut several)
    · obtain rfl : n = 1 := le_antisymm one keeps.pos
      obtain ⟨first, rest, rfl⟩ := List.exists_cons_of_length_pos keeps.le
      have alone : joined ((first :: rest).take 1) = first := by simp [joined]
      rw [alone]
      unfold shortened
      split
      · exact .inr ⟨rfl, first, rfl, _, rfl⟩
      · exact .inl rfl
  longest m less inside := by
    have stop := keeps.stop (by omega)
    exact leavesTwelve_mono (m := n + 1) less stop

/-- The summary keeps to its bound exactly when the suffix finds the room that it takes. -/
theorem boundedReasons_summarizes_iff (maxChars : ℕ) (reasons : List (List Char))
    (bound : 32 ≤ maxChars) :
    (∃ kept others,
        Summarizes maxChars reasons kept others (boundedReasons reasons maxChars)) ↔
      (joined reasons).length ≤ maxChars ∨
        ¬ FirstOverruns maxChars reasons ∧ ¬ SuffixOverruns maxChars reasons := by
  rcases Nat.lt_or_ge maxChars (joined reasons).length with long | fits
  · obtain ⟨n, keeps⟩ := exists_keeps long
    have exceeds := keeps.overruns_iff (by omega)
    have text := boundedReasons_of_keeps long keeps
    constructor
    · rintro ⟨kept, others, summary⟩
      have within := summary.within
      rw [text, List.length_append] at within
      exact .inr (not_or.mp fun either => absurd (exceeds.mpr either) (by omega))
    · rintro (fits | neither)
      · exact absurd fits (by omega)
      · have within := exceeds.not.mpr (not_or.mpr neither)
        rw [text]
        refine ⟨n, reasons.length - n, keeps.summarizes ?_⟩
        rw [List.length_append]
        omega
  · refine ⟨fun _ => .inl fits, fun _ => ⟨reasons.length, 0, ?_⟩⟩
    unfold boundedReasons
    rw [if_pos fits]
    refine ⟨fits, rfl, ⟨joined reasons, ?_, .inl ?_⟩, ?_⟩
    · rw [more_zero, List.append_nil]
    · rw [List.take_length]
    · intro n less inside
      omega

/-- The misses of both gates, as the plugin's sentences are put. -/
def twoMisses : List (List Char) :=
  ["Coverage gate failed: 0% < 80%".toList, "Mutation gate failed: 0% < 70%".toList]

/-- Of six misses the first two are told within a hundred characters. -/
theorem sixMisses_summarized :
    32 ≤ 100 ∧ ∃ kept others, Summarizes 100 (twoMisses ++ twoMisses ++ twoMisses) kept others
      (boundedReasons (twoMisses ++ twoMisses ++ twoMisses) 100) :=
  ⟨by decide, (boundedReasons_summarizes_iff 100 _ (by decide)).mpr
    (.inr ⟨by decide, not_suffixOverruns (by decide)⟩)⟩

/-- The first miss alone fits, but not with the suffix that counts the other. -/
theorem twoMisses_overrun :
    ¬ ∀ (maxChars : ℕ) (reasons : List (List Char)), 32 ≤ maxChars → ∃ kept others,
      Summarizes maxChars reasons kept others (boundedReasons reasons maxChars) := by
  intro always
  obtain ⟨kept, others, summary⟩ := always 32 twoMisses (by decide)
  have length : (boundedReasons twoMisses 32).length = 39 := by decide
  have within := summary.within
  omega

end Uta.JavaGate.Reasons
