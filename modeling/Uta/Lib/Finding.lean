/- What the search of a text finds: a finding is a match at some place, and the match at a place is
found unless an earlier one reaches into it. -/
import Uta.Lib.Scan

namespace Uta.Lib

open PyText (isSpace)

namespace Matcher

/-- The last `p+` of a pattern, from which nothing is given back. -/
def wholeRun (p : Char → Bool) : Matcher (List Char) := fun text =>
  if text.takeWhile p = [] then [] else [(text.takeWhile p, text.dropWhile p)]

theorem mem_wholeRun {p : Char → Bool} {part text rest : List Char} :
    (part, rest) ∈ wholeRun p text ↔
      part ≠ [] ∧ part = text.takeWhile p ∧ rest = text.dropWhile p := by
  unfold wholeRun
  split
  · rename_i empty
    rw [empty]
    exact iff_of_false List.not_mem_nil fun both => both.1 both.2.1
  · rename_i some_
    rw [List.mem_singleton, Prod.mk.injEq]
    exact ⟨fun same => ⟨same.1 ▸ some_, same⟩, And.right⟩

variable {α : Type} {m : Matcher α}

/-- Every match of the pattern takes some of the text. -/
def Takes (m : Matcher α) : Prop :=
  ∀ text a rest, (a, rest) ∈ m text → ∃ part, part ≠ [] ∧ text = part ++ rest

/-! One step of the search. -/

theorem finditer_match {fuel : ℕ} {before : Option Char} {text rest : List Char} {a : α}
    {more : List (α × List Char)} (read : m text = (a, rest) :: more) :
    finditer false m (fuel + 1) before text =
      a :: finditer false m fuel (text.take (text.length - rest.length)).getLast? rest := by
  simp only [finditer, Bool.false_and, Bool.false_eq_true, if_false, read]

theorem finditer_skip {fuel : ℕ} {before : Option Char} {c : Char} {text : List Char}
    (none_ : m (c :: text) = []) :
    finditer false m (fuel + 1) before (c :: text) = finditer false m fuel (some c) text := by
  simp only [finditer, Bool.false_and, Bool.false_eq_true, if_false, none_]

theorem finditer_end {fuel : ℕ} {before : Option Char} (none_ : m [] = []) :
    finditer false m (fuel + 1) before [] = [] := by
  simp only [finditer, Bool.false_and, Bool.false_eq_true, if_false, none_]

theorem finditer_sound (takes : Takes m) {a : α} : ∀ {fuel : ℕ} {before : Option Char}
    {text : List Char}, a ∈ finditer false m fuel before text →
      ∃ place rest, place <:+ text ∧ (a, rest) ∈ m place := by
  intro fuel
  induction fuel with
  | zero => exact fun found => absurd found List.not_mem_nil
  | succ fuel ih =>
      intro before text found
      rcases read : m text with _ | ⟨⟨b, rest⟩, more⟩
      · rcases text with _ | ⟨c, text⟩
        · rw [finditer_end read] at found
          exact absurd found List.not_mem_nil
        · rw [finditer_skip read] at found
          obtain ⟨place, after, within, own⟩ := ih found
          exact ⟨place, after, within.trans (List.suffix_cons _ _), own⟩
      · have first : (b, rest) ∈ m text := by
          rw [read]
          exact List.mem_cons_self
        rw [finditer_match read] at found
        rcases List.mem_cons.mp found with rfl | later
        · exact ⟨text, rest, List.suffix_rfl, first⟩
        · obtain ⟨place, after, within, own⟩ := ih later
          obtain ⟨part, _, rfl⟩ := takes _ _ _ first
          exact ⟨place, after, within.trans (List.suffix_append _ _), own⟩

/-- No match from a place in front reaches behind the front. -/
def Stays (m : Matcher α) (front place : List Char) : Prop :=
  ∀ part, part ≠ [] → part <:+ front → ∀ a rest, (a, rest) ∈ m (part ++ place) → place <:+ rest

theorem Stays.suffix {front part place : List Char} (stays : Stays m front place)
    (within : part <:+ front) : Stays m part place :=
  fun inner some_ own => stays inner some_ (own.trans within)

/-- Where no earlier match reaches into a match, something is found at its place. -/
theorem mem_finditer (takes : Takes m) {place : List Char} (some_ : m place ≠ []) :
    ∀ {fuel : ℕ} {before : Option Char} {front : List Char}, front.length < fuel →
      Stays m front place →
      ∃ a rest, (a, rest) ∈ m place ∧ a ∈ finditer false m fuel before (front ++ place) := by
  intro fuel
  induction fuel with
  | zero => exact fun short => absurd short (Nat.not_lt_zero _)
  | succ fuel ih =>
      intro before front short stays
      rcases read : m (front ++ place) with _ | ⟨⟨b, rest⟩, more⟩
      · rcases front with _ | ⟨c, front⟩
        · exact absurd read some_
        · rw [List.cons_append] at read ⊢
          rw [finditer_skip read]
          exact ih (Nat.lt_of_succ_lt_succ short) (stays.suffix (List.suffix_cons _ _))
      · have first : (b, rest) ∈ m (front ++ place) := by
          rw [read]
          exact List.mem_cons_self
        rw [finditer_match read]
        rcases eq_or_ne front [] with rfl | ahead
        · exact ⟨b, rest, first, List.mem_cons_self⟩
        · -- the match ends in front of the place, and takes some of the front
          obtain ⟨later, rfl⟩ := stays front ahead List.suffix_rfl b rest first
          obtain ⟨part, taken, whole⟩ := takes _ _ _ first
          rw [← List.append_assoc] at whole
          have cut := List.append_cancel_right whole
          have shorter : later.length < fuel := by
            have size := congrArg List.length cut
            have pos := List.length_pos_of_ne_nil taken
            rw [List.length_append] at size
            omega
          have onwards := stays.suffix (cut ▸ List.suffix_append part later)
          obtain ⟨a, after, own, found⟩ := ih shorter onwards
          exact ⟨a, after, own, List.mem_cons_of_mem _ found⟩

end Matcher

/-! The first word of a text. -/

theorem words_front {word : List Char} (solid : IsSolid word) (rest : List Char) :
    words (word ++ rest) = (word ++ rest.takeWhile fun c => !isSpace c) ::
      words (rest.dropWhile fun c => !isSpace c) := by
  have front : IsSolid (word ++ rest.takeWhile fun c => !isSpace c) := by
    refine ⟨by simp [solid.1], fun c member => ?_⟩
    rcases List.mem_append.mp member with own | tail
    · exact solid.2 c own
    · simpa using List.mem_takeWhile_imp tail
  have whole : word ++ rest = (word ++ rest.takeWhile fun c => !isSpace c) ++
      rest.dropWhile fun c => !isSpace c := by
    rw [List.append_assoc, List.takeWhile_append_dropWhile]
  rw [whole]
  rcases ends : rest.dropWhile (fun c => !isSpace c) with _ | ⟨blank, after⟩
  · rw [List.append_nil, words_solid front]
    rfl
  · have space : isSpace blank = true := by
      have stop := List.head?_dropWhile_not (fun c => !isSpace c) rest
      rw [ends] at stop
      simpa using stop
    have later := words_append_blank space [] after
    rw [List.nil_append] at later
    rw [words_append_blank space, words_solid front, later]
    rfl

end Uta.Lib
