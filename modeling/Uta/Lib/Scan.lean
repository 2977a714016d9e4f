/- Regular expressions read by backtracking: a pattern as the list of its matches at one place, the
search of a text, and what a match means for the words of the text. -/
import Uta.Lib.PyText
import Mathlib.Data.List.Infix

namespace Uta.Lib

/-- A pattern: what it captures at the front of a text and the text after it, for every way to
match, in the order in which a backtracking engine tries them. -/
def Matcher (α : Type) : Type := List Char → List (α × List Char)

namespace Matcher

instance : Monad Matcher where
  pure a := fun text => [(a, text)]
  bind m f := fun text => (m text).flatMap fun read => f read.1 read.2

theorem mem_pure {α : Type} {a b : α} {text rest : List Char} :
    (b, rest) ∈ (pure a : Matcher α) text ↔ b = a ∧ rest = text := by
  change (b, rest) ∈ [(a, text)] ↔ _
  simp

theorem mem_bind {α β : Type} {m : Matcher α} {f : α → Matcher β} {b : β}
    {text rest : List Char} :
    (b, rest) ∈ (m >>= f) text ↔ ∃ a middle, (a, middle) ∈ m text ∧ (b, rest) ∈ f a middle := by
  change (b, rest) ∈ (m text).flatMap _ ↔ _
  simp

/-! The atoms. -/

/-- The word itself. -/
def lit (word : String) : Matcher Unit := fun text =>
  if word.toList <+: text then [((), text.drop word.toList.length)] else []

/-- `p+`, greedy. -/
def run (p : Char → Bool) : Matcher (List Char) := fun text =>
  (text.takeWhile p).inits.tail.reverse.map fun part => (part, text.drop part.length)

/-- `m?`, greedy. -/
def opt {α : Type} (m : Matcher α) : Matcher (Option α) := fun text =>
  (m text).map (fun read => (some read.1, read.2)) ++ [(none, text)]

/-- `.{0,n}?`, lazy, over every character. -/
def gap (n : ℕ) : Matcher Unit := fun text =>
  (List.range (n + 1)).filterMap fun k =>
    if k ≤ text.length then some ((), text.drop k) else none

/-- `\w` of an ASCII character. -/
def isWord (c : Char) : Bool := c.isAlphanum || c == '_'

/-- `\b` after a character of a word. -/
def wordEnd : Matcher Unit := fun text =>
  if text.head?.any isWord then [] else [((), text)]

theorem mem_lit {word : String} {text rest : List Char} :
    ((), rest) ∈ lit word text ↔ text = word.toList ++ rest := by
  unfold lit
  split
  · rename_i front
    obtain ⟨after, rfl⟩ := front
    simp [eq_comm]
  · rename_i other
    constructor
    · intro read
      exact absurd read List.not_mem_nil
    · rintro rfl
      exact absurd (List.prefix_append _ _) other

theorem mem_run {p : Char → Bool} {part text rest : List Char} :
    (part, rest) ∈ run p text ↔ part ≠ [] ∧ (∀ c ∈ part, p c = true) ∧ text = part ++ rest := by
  have inside : ∀ {front : List Char}, front <+: text.takeWhile p ↔
      (∀ c ∈ front, p c = true) ∧ front <+: text := by
    intro front
    constructor
    · intro within
      refine ⟨fun c member => ?_, within.trans (List.takeWhile_prefix p)⟩
      exact List.mem_takeWhile_imp (within.subset member)
    · rintro ⟨every, after, rfl⟩
      rw [List.takeWhile_append_of_pos every]
      exact List.prefix_append _ _
  have nonempty : ∀ {front l : List Char}, front ∈ l.inits.tail ↔ front ≠ [] ∧ front <+: l := by
    intro front l
    cases l with
    | nil =>
        simp only [List.inits, List.tail_cons, List.not_mem_nil, List.prefix_nil, false_iff]
        rintro ⟨some_, rfl⟩
        exact some_ rfl
    | cons c cs =>
        simp only [List.inits, List.tail_cons, List.mem_map, List.mem_inits]
        constructor
        · rintro ⟨front, within, rfl⟩
          exact ⟨List.cons_ne_nil _ _, List.cons_prefix_cons.mpr ⟨rfl, within⟩⟩
        · rintro ⟨some_, within⟩
          cases front with
          | nil => exact absurd rfl some_
          | cons d ds =>
              obtain ⟨same, within⟩ := List.cons_prefix_cons.mp within
              exact ⟨ds, within, by rw [same]⟩
  simp only [run, List.mem_map, List.mem_reverse, nonempty, inside, Prod.mk.injEq]
  constructor
  · rintro ⟨front, ⟨some_, every, after, rfl⟩, rfl, rfl⟩
    exact ⟨some_, every, by rw [List.drop_left]⟩
  · rintro ⟨some_, every, rfl⟩
    exact ⟨part, ⟨some_, every, List.prefix_append _ _⟩, rfl, List.drop_left⟩

theorem mem_opt {α : Type} {m : Matcher α} {a : Option α} {text rest : List Char} :
    (a, rest) ∈ opt m text ↔
      (∃ b, a = some b ∧ (b, rest) ∈ m text) ∨ (a = none ∧ rest = text) := by
  simp only [opt, List.mem_append, List.mem_map, List.mem_singleton, Prod.mk.injEq]
  constructor
  · rintro (⟨read, member, rfl, rfl⟩ | plain)
    · exact .inl ⟨read.1, rfl, member⟩
    · exact .inr plain
  · rintro (⟨b, rfl, member⟩ | plain)
    · exact .inl ⟨_, member, rfl, rfl⟩
    · exact .inr plain

/-! Reading on. -/

theorem lit_bind {β : Type} {word : String} {f : Unit → Matcher β} {b : β} {text rest : List Char}
    (next : (b, rest) ∈ f () text) : (b, rest) ∈ (lit word >>= f) (word.toList ++ text) :=
  mem_bind.mpr ⟨(), text, mem_lit.mpr rfl, next⟩

theorem run_bind {β : Type} {p : Char → Bool} {part : List Char} (some_ : part ≠ [])
    (every : ∀ c ∈ part, p c = true) {f : List Char → Matcher β} {b : β} {text rest : List Char}
    (next : (b, rest) ∈ f part text) : (b, rest) ∈ (run p >>= f) (part ++ text) :=
  mem_bind.mpr ⟨part, text, mem_run.mpr ⟨some_, every, rfl⟩, next⟩

theorem bind_of_mem {α β : Type} {m : Matcher α} {f : α → Matcher β} {a : α} {b : β}
    {text middle rest : List Char} (first : (a, middle) ∈ m text)
    (next : (b, rest) ∈ f a middle) : (b, rest) ∈ (m >>= f) text :=
  mem_bind.mpr ⟨a, middle, first, next⟩

/-! The search. -/

/-- The places at which a word may begin: the text from each of them on. -/
def wordStarts : Option Char → List Char → List (List Char)
  | _, [] => []
  | before, c :: text =>
    (if before.any isWord then [] else [c :: text]) ++ wordStarts (some c) text

/-- `re.search` of `\b` and a pattern that begins with a letter. -/
def search {α : Type} (m : Matcher α) (text : List Char) : Bool :=
  (wordStarts none text).any fun place => !(m place).isEmpty

/-- The captures of `re.finditer` for `\b` and a pattern that begins with a letter, matches at
every place in one way only and has no place for a second match inside a match. -/
def findall {α : Type} (m : Matcher α) (text : List Char) : List α :=
  (wordStarts none text).flatMap fun place => (m place).map Prod.fst

/-- `re.finditer`: the captures of the first match from each place on, none of them inside an
earlier match; `bound` when the pattern begins with `\b` and a letter, `fuel` bounds the characters
left. -/
def finditer {α : Type} (bound : Bool) (m : Matcher α) : ℕ → Option Char → List Char → List α
  | 0, _, _ => []
  | fuel + 1, before, text =>
    match if bound && before.any isWord then [] else m text, text with
    | (a, rest) :: _, _ =>
      a :: finditer bound m fuel (text.take (text.length - rest.length)).getLast? rest
    | [], c :: text => finditer bound m fuel (some c) text
    | [], [] => []

theorem wordStarts_suffix {before : Option Char} {text place : List Char}
    (starts : place ∈ wordStarts before text) : place <:+ text := by
  induction text generalizing before with
  | nil => exact absurd starts List.not_mem_nil
  | cons c text ih =>
      rw [wordStarts, List.mem_append] at starts
      rcases starts with here | later
      · split at here
        · exact absurd here List.not_mem_nil
        · rw [List.mem_singleton.mp here]
      · exact (ih later).trans (List.suffix_cons c text)

/-- A place after a character that belongs to no word, or at the front. -/
theorem wordStarts_append {before : Option Char} {front place : List Char} (some_ : place ≠ [])
    (apart : (front.getLast?.or before).any isWord = false) :
    place ∈ wordStarts before (front ++ place) := by
  induction front generalizing before with
  | nil =>
      obtain ⟨c, text, rfl⟩ := List.exists_cons_of_ne_nil some_
      rw [List.nil_append, wordStarts, if_neg (by simpa using apart)]
      exact List.mem_append_left _ (List.mem_singleton.mpr rfl)
  | cons c front ih =>
      rw [List.cons_append, wordStarts]
      refine List.mem_append_right _ (ih ?_)
      rcases front with _ | ⟨d, front⟩
      · simpa using apart
      · rw [List.getLast?_cons_cons] at apart
        rw [List.getLast?_cons] at apart ⊢
        simpa using apart

theorem search_of_match {α : Type} {m : Matcher α} {a : α} {front place rest : List Char}
    (apart : front.getLast?.any isWord = false) (some_ : place ≠ [])
    (read : (a, rest) ∈ m place) : search m (front ++ place) = true := by
  rw [search, List.any_eq_true]
  refine ⟨place, wordStarts_append some_ (by simpa using apart), ?_⟩
  rw [Bool.not_eq_true', List.isEmpty_eq_false_iff]
  exact List.ne_nil_of_mem read

theorem match_of_search {α : Type} {m : Matcher α} {text : List Char}
    (found : search m text = true) :
    ∃ front place a rest, text = front ++ place ∧ (a, rest) ∈ m place := by
  obtain ⟨place, starts, read⟩ := List.any_eq_true.mp found
  obtain ⟨front, rfl⟩ := wordStarts_suffix starts
  rw [Bool.not_eq_true', List.isEmpty_eq_false_iff] at read
  obtain ⟨⟨a, rest⟩, member⟩ := List.exists_mem_of_ne_nil _ read
  exact ⟨front, place, a, rest, rfl, member⟩

theorem mem_findall {α : Type} {m : Matcher α} {a : α} {front place rest : List Char}
    (apart : front.getLast?.any isWord = false) (some_ : place ≠ [])
    (read : (a, rest) ∈ m place) : a ∈ findall m (front ++ place) := by
  rw [findall, List.mem_flatMap]
  refine ⟨place, wordStarts_append some_ (by simpa using apart), ?_⟩
  exact List.mem_map.mpr ⟨_, read, rfl⟩

end Matcher

/-! The words of a text. -/

open PyText (isSpace)

/-- `text.split()`. -/
def words (text : List Char) : List (List Char) :=
  (text.splitOnP isSpace).filter (· ≠ [])

/-- A word: not empty, and without a blank. -/
def IsSolid (word : List Char) : Prop := word ≠ [] ∧ ∀ c ∈ word, isSpace c = false

theorem words_solid {word : List Char} (solid : IsSolid word) : words word = [word] := by
  rw [words, List.splitOnP_eq_singleton solid.2, List.filter_cons_of_pos (by simpa using solid.1),
    List.filter_nil]

theorem words_append_blank {blank : Char} (space : isSpace blank = true) (left right : List Char) :
    words (left ++ blank :: right) = words left ++ words right := by
  rw [words, List.splitOnP_append_cons left right space, List.filter_append]
  rfl

theorem words_blanks {blanks : List Char} (spaces : ∀ c ∈ blanks, isSpace c = true)
    (text : List Char) : words (blanks ++ text) = words text := by
  induction blanks with
  | nil => rfl
  | cons c blanks ih =>
      have split := words_append_blank (spaces c (by simp)) [] (blanks ++ text)
      rw [List.nil_append] at split
      rw [List.cons_append, split, ih fun d member => spaces d (by simp [member])]
      rfl

theorem words_between {blanks : List Char} (some_ : blanks ≠ [])
    (spaces : ∀ c ∈ blanks, isSpace c = true) (left right : List Char) :
    words (left ++ (blanks ++ right)) = words left ++ words right := by
  obtain ⟨c, more, rfl⟩ := List.exists_cons_of_ne_nil some_
  rw [List.cons_append, words_append_blank (spaces c (by simp)),
    words_blanks fun d member => spaces d (by simp [member])]

/-- The last word of a text that does not end in a blank. -/
theorem words_ends {word : List Char} (solid : IsSolid word) (front : List Char) :
    ∃ before stem, words (front ++ word) = before ++ [stem ++ word] := by
  induction front with
  | nil => exact ⟨[], [], by rw [List.nil_append, words_solid solid]; rfl⟩
  | cons c front ih =>
      obtain ⟨before, stem, ends⟩ := ih
      by_cases space : isSpace c = true
      · refine ⟨before, stem, ?_⟩
        have split := words_append_blank space [] (front ++ word)
        rw [List.nil_append] at split
        rw [List.cons_append, split, ends]
        rfl
      · have pieces : words (c :: (front ++ word)) =
            (((front ++ word).splitOnP isSpace).modifyHead (List.cons c)).filter (· ≠ []) := by
          rw [words, List.splitOnP_cons_eq_if_modifyHead, if_neg space]
        rw [List.cons_append, pieces]
        rw [words] at ends
        rcases cut : (front ++ word).splitOnP isSpace with _ | ⟨p, ps⟩
        · exact absurd cut (List.splitOnP_ne_nil _ _)
        · rw [cut] at ends
          rw [List.modifyHead_cons, List.filter_cons_of_pos (by simp)]
          by_cases empty : p = []
          · rw [List.filter_cons_of_neg (by simpa using empty)] at ends
            exact ⟨(c :: p) :: before, stem, by rw [ends]; rfl⟩
          · rw [List.filter_cons_of_pos (by simpa using empty)] at ends
            rcases before with _ | ⟨b, before⟩
            · rw [List.nil_append] at ends
              obtain ⟨rfl, rest⟩ := List.cons.inj ends
              exact ⟨[], c :: stem, by rw [rest]; rfl⟩
            · obtain ⟨rfl, rest⟩ := List.cons.inj ends
              exact ⟨(c :: p) :: before, stem, by rw [rest]; rfl⟩

/-- The first word of a text that does not begin with a blank. -/
theorem words_begins {word : List Char} (solid : IsSolid word) (rest : List Char) :
    ∃ tail after, words (word ++ rest) = (word ++ tail) :: after := by
  obtain ⟨some_, plain⟩ := solid
  induction word with
  | nil => exact absurd rfl some_
  | cons c word ih =>
      have own := plain c (by simp)
      rw [List.cons_append, words, List.splitOnP_cons_eq_if_modifyHead,
        if_neg (by rw [own]; decide)]
      rcases word with _ | ⟨d, word⟩
      · rw [List.nil_append]
        rcases cut : rest.splitOnP isSpace with _ | ⟨p, ps⟩
        · exact absurd cut (List.splitOnP_ne_nil _ _)
        · exact ⟨p, ps.filter (· ≠ []), by
            rw [List.modifyHead_cons, List.filter_cons_of_pos (by simp)]; rfl⟩
      · obtain ⟨tail, after, begins⟩ := ih (by simp) fun e member => plain e (by simp [member])
        rw [words] at begins
        have front := plain d (by simp)
        rw [List.cons_append, List.splitOnP_cons_eq_if_modifyHead,
          if_neg (by rw [front]; decide)] at begins ⊢
        rcases cut : (word ++ rest).splitOnP isSpace with _ | ⟨p, ps⟩
        · exact absurd cut (List.splitOnP_ne_nil _ _)
        · rw [cut, List.modifyHead_cons, List.filter_cons_of_pos (by simp)] at begins
          obtain ⟨head, rest⟩ := List.cons.inj begins
          refine ⟨tail, after, ?_⟩
          rw [List.modifyHead_cons, List.modifyHead_cons, List.filter_cons_of_pos (by simp), rest,
            head]
          rfl

/-- A word, then blanks, then the rest. -/
theorem words_cons {word blanks : List Char} (solid : IsSolid word) (some_ : blanks ≠ [])
    (spaces : ∀ c ∈ blanks, isSpace c = true) (rest : List Char) :
    words (word ++ (blanks ++ rest)) = word :: words rest := by
  rw [words_between some_ spaces, words_solid solid, List.singleton_append]

/-- What follows blanks, after any text that ends in a word. -/
theorem words_after (word : List Char) {blanks : List Char} (solid : IsSolid word)
    (some_ : blanks ≠ []) (spaces : ∀ c ∈ blanks, isSpace c = true) (front rest : List Char) :
    ∃ before stem, words (front ++ (word ++ (blanks ++ rest))) =
      before ++ (stem ++ word) :: words rest := by
  obtain ⟨before, stem, ends⟩ := words_ends solid front
  refine ⟨before, stem, ?_⟩
  rw [← List.append_assoc, words_between some_ spaces, ends, List.append_assoc,
    List.singleton_append]

/-! Lower case, of ASCII letters. -/

theorem toNat_toLower (c : Char) :
    c.toLower.toNat = if 65 ≤ c.toNat ∧ c.toNat ≤ 90 then c.toNat + 32 else c.toNat := by
  have ranged : ('A'.val ≤ c.val ∧ c.val ≤ 'Z'.val) ↔ (65 ≤ c.toNat ∧ c.toNat ≤ 90) := by
    simp [UInt32.le_iff_toNat_le]
  unfold Char.toLower
  split
  · rename_i upper
    have bound : c.toNat ≤ 90 := (ranged.mp ⟨by grind, by grind⟩).2
    rw [if_pos (ranged.mp ⟨by grind, by grind⟩)]
    change (c.val + ('a'.val - 'A'.val)).toNat = _
    rw [UInt32.toNat_add]
    change (c.toNat + 32) % _ = _
    omega
  · rename_i other
    rw [if_neg fun upper => other (by have := ranged.mpr upper; grind)]

theorem toLower_of_isDigit {c : Char} (digit : c.isDigit = true) : c.toLower = c := by
  have bound : c.toNat ≤ 57 := by
    simp only [Char.isDigit, Bool.and_eq_true, decide_eq_true_eq] at digit
    exact digit.2
  apply Char.toNat_inj.mp
  rw [toNat_toLower, if_neg (by omega)]

theorem isSpace_toLower (c : Char) : isSpace c.toLower = isSpace c := by
  unfold isSpace
  rw [toNat_toLower]
  split
  · rename_i upper
    obtain ⟨low, high⟩ := upper
    rw [Bool.eq_iff_iff]
    simp only [beq_iff_eq, Bool.or_eq_true, Bool.and_eq_true, decide_eq_true_eq]
    omega
  · rfl

theorem solid_lower {word : List Char} (solid : IsSolid word) :
    IsSolid (word.map Char.toLower) := by
  refine ⟨by simpa using solid.1, fun c member => ?_⟩
  obtain ⟨d, own, rfl⟩ := List.mem_map.mp member
  rw [isSpace_toLower]
  exact solid.2 d own

/-! Lines of words. -/

theorem head_of_flatten {α : Type} {lines : List (List α)} {a : α} {rest : List α}
    (whole : lines.flatten = a :: rest) : ∃ line ∈ lines, line.head? = some a := by
  induction lines with
  | nil => simp at whole
  | cons line lines ih =>
      rcases line with _ | ⟨b, line⟩
      · obtain ⟨own, member, head⟩ := ih (by simpa using whole)
        exact ⟨own, by simp [member], head⟩
      · rw [List.flatten_cons, List.cons_append] at whole
        exact ⟨b :: line, by simp, by rw [(List.cons.inj whole).1]; rfl⟩

/-- A row of words that runs through no line's first word lies in one line. -/
theorem infix_of_infix_flatten {α : Type} {lines : List (List α)} {a : α} {row : List α}
    (inner : ∀ b ∈ row, ∀ line ∈ lines, line.head? ≠ some b)
    (found : a :: row <:+: lines.flatten) : ∃ line ∈ lines, a :: row <:+: line := by
  induction lines with
  | nil => simp at found
  | cons line lines ih =>
      have later : a :: row <:+: lines.flatten → ∃ own ∈ line :: lines, a :: row <:+: own := by
        intro within
        obtain ⟨own, member, within⟩ := ih (fun b member line own => inner b member line
          (by simp [own])) within
        exact ⟨own, by simp [member], within⟩
      obtain ⟨before, after, whole⟩ := found
      rw [List.flatten_cons, List.append_assoc] at whole
      rcases List.append_eq_append_iff.mp whole with ⟨middle, here, next⟩ | ⟨middle, _, next⟩
      · -- the row begins in the line: it ends there, or the next line begins inside the row
        rcases List.append_eq_append_iff.mp next with ⟨more, cut, _⟩ | ⟨more, cut, rest⟩
        · exact ⟨line, by simp, before, more, by rw [here, cut, List.append_assoc]⟩
        · rcases more with _ | ⟨b, more⟩
          · exact ⟨line, by simp, before, [], by
              rw [here, List.append_nil, cut, List.append_nil]⟩
          · rcases middle with _ | ⟨c, middle⟩
            · exact later ⟨[], after, by rw [List.nil_append, cut, rest]; rfl⟩
            · obtain ⟨rfl, within⟩ := List.cons.inj cut
              obtain ⟨own, member, head⟩ := head_of_flatten rest
              exact absurd head (inner b (by simp [within]) own (by simp [member]))
      · exact later ⟨middle, after, by rw [List.append_assoc]; exact next.symm⟩

end Uta.Lib
