/- Where a value ends in a text, and where a marker last stands in a file. -/
import Uta.Ci.Extraction
import Uta.Lib.Occurrences

namespace Uta.Ci.Store
open Uta.Lib Json Places

/-! A value at an offset. -/

/-- `text[start]` past the end of the text. -/
inductive IndexError where
  | outOfRange

/-- `_json_value_end`. -/
def jsonValueEndAt (text : List Char) (start : ℕ) : Except IndexError (Option ℕ) :=
  match text.drop start with
  | [] => .error .outOfRange
  | opening :: rest => .ok <|
    if opening = '[' ∨ opening = '{' then
      bracketEnd rest [closing opening] false false (start + 1)
    else (scalarText (opening :: rest)).map fun matched => start + matched.length

/-- Where the scan began does not matter to how far it goes. -/
theorem bracketEnd_shift (start : ℕ) (text stack : List Char) (inString escaped : Bool) (i : ℕ) :
    bracketEnd text stack inString escaped (start + i) =
      (bracketEnd text stack inString escaped i).map (start + ·) := by
  fun_induction bracketEnd text stack inString escaped i with
  | case1 => rfl
  | _ => simp_all [bracketEnd, Nat.add_assoc]

theorem jsonValueEndAt_append {text : List Char} (filled : text ≠ []) (front : List Char) :
    jsonValueEndAt (front ++ text) front.length =
      .ok ((jsonValueEnd text).map (front.length + ·)) := by
  obtain ⟨opening, rest, rfl⟩ := List.exists_cons_of_ne_nil filled
  rw [jsonValueEndAt, List.drop_left, jsonValueEnd]
  simp only
  split
  · rw [bracketEnd_shift]
  · rw [Option.map_map]
    rfl

theorem jsonValueEndAt_enclosed {value : List Char} (enclosed : Enclosed value)
    (front rest : List Char) :
    jsonValueEndAt (front ++ value ++ rest) front.length =
      .ok (some (front.length + value.length)) := by
  have filled : value ++ rest ≠ [] := by
    obtain ⟨_, c, head, _⟩ := enclosed
    rintro empty
    rw [(List.append_eq_nil_iff.mp empty).1] at head
    cases head
  rw [List.append_assoc, jsonValueEndAt_append filled, jsonValueEnd_enclosed enclosed,
    Option.map_some]

/-! A file that is searched backwards. -/

section

variable {α : Type} {file marker : List α} {chunkSize : ℤ}

/-- `handle.seek(position)` and `handle.read(size)`: a negative size reads all that follows. -/
def readAt (file : List α) (position : ℕ) (size : ℤ) : List α :=
  if size < 0 then file.drop position else (file.drop position).take size.toNat

/-- What a turn reads ends where what has been searched begins. -/
theorem readAt_append (file : List α) (position : ℕ) {size : ℤ} (nonneg : 0 ≤ size) :
    readAt file position size ++ file.drop (position + size.toNat) = file.drop position := by
  rw [readAt, if_neg (by omega), ← List.drop_drop, List.take_append_drop]

/-- What the loop carries from one turn to the next. -/
structure Backwards (α : Type) where
  position : ℕ
  overlap : List α

/-- The overlap is the front of what has been searched, and nothing stands there. -/
structure Searched (file marker : List α) (s : Backwards α) : Prop where
  within : s.position ≤ file.length
  front : s.overlap = (file.drop s.position).take (marker.length - 1)
  mute : ∀ j, ¬ StandsAt marker (file.drop s.position) j

theorem searched_start (filled : marker ≠ []) : Searched file marker ⟨file.length, []⟩ where
  within := Nat.le_refl _
  front := by simp
  mute := by
    rw [List.drop_length]
    exact not_standsAt_nil filled

variable [DecidableEq α]

/-- One turn of the loop: its answer, or what it goes on with. -/
def searchStep (file marker : List α) (chunkSize : ℤ) (s : Backwards α) :
    Option ℕ ⊕ Backwards α :=
  if s.position = 0 then .inl none
  else
    let readSize := min chunkSize s.position
    -- at most the position is read, which a negative size moves back towards the end
    let position := (s.position - readSize).toNat
    let data := readAt file position readSize ++ s.overlap
    match lastAt marker data with
    | some index => .inl (some (position + index))
    | none => .inr ⟨position, data.take (marker.length - 1)⟩

/-- The loop ends with the answer. -/
inductive Ends (file marker : List α) (chunkSize : ℤ) : Backwards α → Option ℕ → Prop
  | now {s : Backwards α} {answer : Option ℕ}
      (answered : searchStep file marker chunkSize s = .inl answer) :
      Ends file marker chunkSize s answer
  | later {s next : Backwards α} {answer : Option ℕ}
      (goes : searchStep file marker chunkSize s = .inr next)
      (ends : Ends file marker chunkSize next answer) : Ends file marker chunkSize s answer

/-- `_find_last_marker_offset` returns the offset. -/
def FindsLast (file marker : List α) (chunkSize : ℤ) (offset : Option ℕ) : Prop :=
  Ends file marker chunkSize ⟨file.length, []⟩ offset

/-- A chunk in front of what has been searched: the mark is found where it stands last, or what has
been searched grows by the chunk. -/
theorem searched_chunk {s : Backwards α} (searched : Searched file marker s) {position : ℕ}
    {chunk : List α} (within : position ≤ file.length)
    (read : chunk ++ file.drop s.position = file.drop position) :
    IsLast marker (file.drop position) (lastAt marker (chunk ++ s.overlap)) ∧
      (lastAt marker (chunk ++ s.overlap) = none →
        Searched file marker ⟨position, (chunk ++ s.overlap).take (marker.length - 1)⟩) := by
  have last : IsLast marker (file.drop position) (lastAt marker (chunk ++ s.overlap)) := by
    rw [← read, searched.front]
    exact isLast_overlap searched.mute (isLast_lastAt marker _)
  refine ⟨last, fun missing => ⟨within, ?_, ?_⟩⟩
  · change _ = (file.drop position).take _
    rw [← read, searched.front, take_overlap]
  · rw [missing] at last
    exact last

/-- A turn answers right, or goes on from further in front. -/
theorem searchStep_spec (positive : 0 < chunkSize) {s : Backwards α}
    (searched : Searched file marker s) :
    (∃ offset, searchStep file marker chunkSize s = .inl offset ∧ IsLast marker file offset) ∨
      ∃ next, searchStep file marker chunkSize s = .inr next ∧ Searched file marker next ∧
        next.position < s.position := by
  have inside := searched.within
  rw [searchStep]
  split
  case isTrue start =>
    have mute := searched.mute
    rw [start, List.drop_zero] at mute
    exact .inl ⟨none, rfl, mute⟩
  case isFalse behind =>
    simp only
    generalize size : min chunkSize (s.position : ℤ) = readSize
    generalize place : ((s.position : ℤ) - readSize).toNat = position
    have nonneg : 0 ≤ readSize := by omega
    have ends : position + readSize.toNat = s.position := by omega
    have read := readAt_append file position nonneg
    rw [ends] at read
    obtain ⟨last, further⟩ := searched_chunk searched (by omega) read
    split
    next index found =>
      rw [found] at last
      have whole := isLast_append last (file.take position)
      rw [List.take_append_drop, List.length_take, Nat.min_eq_left (by omega)] at whole
      exact .inl ⟨_, rfl, whole⟩
    next found => exact .inr ⟨_, rfl, further found, by simp only; omega⟩

/-- With a chunk to read in each turn, the search ends, at the last place. -/
theorem findsLast_of_positive (positive : 0 < chunkSize) {s : Backwards α}
    (searched : Searched file marker s) :
    ∃ offset, IsLast marker file offset ∧ Ends file marker chunkSize s offset := by
  induction place : s.position using Nat.strong_induction_on generalizing s with
  | _ position ih =>
      rcases searchStep_spec positive searched with
        ⟨offset, answered, last⟩ | ⟨next, goes, further, nearer⟩
      · exact ⟨offset, last, .now answered⟩
      · obtain ⟨offset, last, ends⟩ := ih _ (place ▸ nearer) further rfl
        exact ⟨offset, last, .later goes ends⟩

/-! Chunks of no size. -/

theorem lastAt_nil (filled : marker ≠ []) : lastAt marker [] = none := by
  rw [lastAt, if_neg (by simpa using filled)]

/-- Nothing to read, in front of nothing that was read. -/
structure Stuck (file : List α) (s : Backwards α) : Prop where
  behind : file.length ≤ s.position
  inside : s.position ≠ 0
  overlap : s.overlap = []

theorem searchStep_stuck (filled : marker ≠ []) (small : chunkSize ≤ 0) {s : Backwards α}
    (stuck : Stuck file s) :
    ∃ next, searchStep file marker chunkSize s = .inr next ∧ Stuck file next := by
  obtain ⟨behind, inside, overlap⟩ := stuck
  rw [searchStep, if_neg inside]
  generalize size : min chunkSize (s.position : ℤ) = readSize
  have further : file.length ≤ ((s.position : ℤ) - readSize).toNat := by omega
  have nothing : readAt file ((s.position : ℤ) - readSize).toNat readSize = [] := by
    rw [readAt, List.drop_eq_nil_of_le further]
    simp
  simp only [nothing, overlap, List.append_nil, lastAt_nil filled, List.take_nil]
  exact ⟨_, rfl, further, by simp only; omega, rfl⟩

/-- Without a chunk to read, a search for something never ends. -/
theorem not_ends (filled : marker ≠ []) (small : chunkSize ≤ 0) {s : Backwards α}
    (stuck : Stuck file s) (offset : Option ℕ) : ¬ Ends file marker chunkSize s offset := by
  intro ends
  induction ends with
  | now answered =>
      obtain ⟨next, goes, _⟩ := searchStep_stuck filled small stuck
      rw [answered] at goes
      cases goes
  | later goes ends ih =>
      obtain ⟨next, goes', further⟩ := searchStep_stuck filled small stuck
      rw [goes] at goes'
      cases goes'
      exact ih further

/-! The first turn, where it is the only one. -/

theorem ends_iff_of_answered {s : Backwards α} {answer : Option ℕ}
    (answered : searchStep file marker chunkSize s = .inl answer) (offset : Option ℕ) :
    Ends file marker chunkSize s offset ↔ offset = answer := by
  constructor
  · rintro (now | later)
    · rw [answered] at now
      cases now
      rfl
    · rw [answered] at later
      cases later
  · rintro rfl
    exact .now answered

theorem findsLast_empty (marker : List α) (chunkSize : ℤ) (offset : Option ℕ) :
    FindsLast [] marker chunkSize offset ↔ offset = none := ends_iff_of_answered rfl offset

theorem lastAt_unmarked (text : List α) : lastAt [] text = some text.length :=
  isLast_unique (isLast_lastAt [] text) (isLast_nil text)

/-- An empty marker is found in the first turn, at the end of what is read. -/
theorem findsLast_unmarked (filled : file ≠ []) (chunkSize : ℤ) (offset : Option ℕ) :
    FindsLast file [] chunkSize offset ↔
      offset = some (file.length + (-chunkSize).toNat) := by
  have inside := List.length_pos_iff.mpr filled
  refine ends_iff_of_answered ?_ offset
  rw [searchStep, if_neg inside.ne']
  simp only [List.append_nil, lastAt_unmarked]
  congr 2
  rw [readAt]
  split
  · rw [List.length_drop]
    omega
  · rw [List.length_take, List.length_drop]
    omega

/-- A search finds the last place exactly where there is something to read and something to find,
or nothing to read and something to find. -/
theorem findsLast_iff (file marker : List α) (chunkSize : ℤ) :
    (∃ offset, IsLast marker file offset ∧ FindsLast file marker chunkSize offset) ↔
      (file = [] ∧ marker ≠ []) ∨
        (file ≠ [] ∧ (0 < chunkSize ∨ (marker = [] ∧ chunkSize = 0))) := by
  rcases eq_or_ne file [] with rfl | filled
  · simp only [findsLast_empty, exists_eq_right, ne_eq, not_true_eq_false, false_and, or_false,
      true_and]
    exact ⟨fun last => by rintro rfl; exact last 0 (isLast_nil []).1, not_standsAt_nil⟩
  · simp only [filled, ne_eq, not_false_eq_true, false_and, false_or, true_and]
    rcases eq_or_ne marker [] with rfl | marked
    · simp only [findsLast_unmarked filled, exists_eq_right, true_and]
      constructor
      · intro last
        have same := isLast_unique last (isLast_nil file)
        rw [Option.some_inj] at same
        omega
      · intro large
        have none_ : (-chunkSize).toNat = 0 := by omega
        rw [none_]
        exact isLast_nil file
    · simp only [marked, false_and, or_false]
      constructor
      · rintro ⟨offset, _, ends⟩
        by_contra small
        exact not_ends marked (Int.not_lt.mp small)
          ⟨Nat.le_refl _, (List.length_pos_iff.mpr filled).ne', rfl⟩ offset ends
      · exact fun positive => findsLast_of_positive positive (searched_start marked)

end

/-- What the scanner and the search find. -/
theorem scanning_exact :
    (∀ front value rest : List Char, Enclosed value →
      jsonValueEndAt (front ++ value ++ rest) front.length =
        .ok (some (front.length + value.length))) ∧
    ∀ (file marker : List UInt8) (chunkSize : ℤ),
      (∃ offset, IsLast marker file offset ∧ FindsLast file marker chunkSize offset) ↔
        (file = [] ∧ marker ≠ []) ∨
          (file ≠ [] ∧ (0 < chunkSize ∨ (marker = [] ∧ chunkSize = 0))) :=
  ⟨fun front _ rest enclosed => jsonValueEndAt_enclosed enclosed front rest,
    findsLast_iff⟩

/-- `["]"]` between two other texts, and a marker that lies across two chunks. -/
theorem scanning_bracketed :
    jsonValueEndAt ("x=".toList ++ "[\"]\"]".toList ++ "]".toList) 2 = .ok (some 7) ∧
      ∃ offset, IsLast [1, 2] ([1, 2, 0, 1, 2, 0, 0] : List UInt8) offset ∧
        FindsLast ([1, 2, 0, 1, 2, 0, 0] : List UInt8) [1, 2] 3 offset := by
  have string : StringText "\"]\"".toList :=
    .mk [[']']] (List.forall_mem_singleton.mpr (.plain ']' (by decide) (by decide) (by decide)))
  have enclosed : Enclosed "[\"]\"]".toList :=
    ⟨.array ["\"]\"".toList] (List.forall_mem_singleton.mpr (.string string)), '[', rfl, by decide⟩
  exact ⟨scanning_exact.1 "x=".toList _ "]".toList enclosed,
    (scanning_exact.2 [1, 2, 0, 1, 2, 0, 0] [1, 2] 3).mpr (.inr ⟨by decide, .inl (by decide)⟩)⟩

/-- A chunk of no size is read forever, and an empty marker is missed in an empty file. -/
theorem search_astray :
    (¬ ∃ offset, IsLast [1] ([0] : List UInt8) offset ∧
      FindsLast ([0] : List UInt8) [1] 0 offset) ∧
      ¬ ∃ offset, IsLast [] ([] : List UInt8) offset ∧
        FindsLast ([] : List UInt8) [] 1 offset := by
  constructor
  · rw [findsLast_iff]
    decide
  · rw [findsLast_iff]
    decide

end Uta.Ci.Store
