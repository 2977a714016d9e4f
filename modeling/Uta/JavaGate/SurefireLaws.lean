/- What a printed line of a Surefire log is read as: its colours and its level go, and its event is
what is left. -/
import Uta.JavaGate.ScopeLaws
import Uta.JavaGate.Surefire

namespace Uta.JavaGate.Surefire
open Uta.Lib Uta.Lib.PyText

/-! Colours and levels. -/

theorem dropSequences_drop (n : ℕ) (text : List Char) :
    dropSequences n text = dropSequences 0 (text.drop n) := by
  induction n generalizing text with
  | zero => rw [List.drop_zero]
  | succ n ih =>
      cases text with
      | nil => rfl
      | cons c text => rw [dropSequences, ih, List.drop_succ_cons]

theorem dropSequences_colour (codes : List { c : Char // isCode c = true }) (text : List Char) :
    dropSequences 0 ((Piece.colour codes).raw ++ text) = dropSequences 0 text := by
  have every : ∀ c ∈ codes.map Subtype.val, isCode c = true := by
    intro c member
    obtain ⟨code, -, rfl⟩ := List.mem_map.mp member
    exact code.2
  have stop : isCode 'm' = false := by decide
  have length : sequenceLength ('[' :: (codes.map Subtype.val ++ 'm' :: text)) =
      some (codes.length + 2) := by
    rw [sequenceLength, List.dropWhile_append_of_pos every, List.takeWhile_append_of_pos every,
      List.dropWhile_cons_of_neg (by rw [stop]; decide),
      List.takeWhile_cons_of_neg (by rw [stop]; decide)]
    simp
  have raw : (Piece.colour codes).raw ++ text =
      escape :: '[' :: (codes.map Subtype.val ++ 'm' :: text) := by
    simp [Piece.raw]
  rw [raw, dropSequences, if_pos rfl, length]
  dsimp only
  rw [dropSequences_drop, List.drop_succ_cons]
  congr 1
  rw [List.append_cons]
  exact List.drop_left' (by simp)

theorem dropSequences_pieces (pieces : List Piece)
    (plain : ∀ c ∈ pieces.filterMap Piece.shown, c ≠ escape) :
    dropSequences 0 (pieces.flatMap Piece.raw) = pieces.filterMap Piece.shown := by
  induction pieces with
  | nil => rfl
  | cons piece pieces ih =>
      rw [List.flatMap_cons]
      cases piece with
      | char c =>
          have own : c ≠ escape := plain c (by simp [Piece.shown])
          have rest := ih fun d member => plain d (by simp [Piece.shown, member])
          have raw : (Piece.char c).raw ++ pieces.flatMap Piece.raw =
              c :: pieces.flatMap Piece.raw := rfl
          rw [raw, dropSequences, if_neg own, rest]
          rfl
      | colour codes =>
          rw [dropSequences_colour]
          exact ih plain

theorem strip_of_ends {text : List Char} (head : ∀ c ∈ text.head?, isSpace c = false)
    (last : ∀ c ∈ text.getLast?, isSpace c = false) : PyText.strip text = text := by
  have front : text.dropWhile isSpace = text := by
    cases text with
    | nil => rfl
    | cons c text => exact List.dropWhile_cons_of_neg (by simpa using head c rfl)
  have back : text.reverse.dropWhile isSpace = text.reverse := by
    rcases reversed : text.reverse with _ | ⟨c, more⟩
    · rfl
    · apply List.dropWhile_cons_of_neg
      have ends : text.getLast? = some c := by
        rw [← List.head?_reverse, reversed]
        rfl
      simpa using last c ends
  rw [PyText.strip, front, back, List.reverse_reverse]

theorem Level.tag_eq (level : Level) :
    level.tag = match level with
      | .info => ['[', 'I', 'N', 'F', 'O', ']']
      | .warning => ['[', 'W', 'A', 'R', 'N', 'I', 'N', 'G', ']']
      | .error => ['[', 'E', 'R', 'R', 'O', 'R', ']'] := by
  cases level <;> decide

/-- A line's text begins with one of two letters. -/
theorem dropLevel_levelText (level : Option Level) {text : List Char}
    (head : text.head? = some 'R' ∨ text.head? = some 'T') :
    dropLevel (levelText level ++ text) = text := by
  obtain ⟨c, rest, rfl⟩ : ∃ c rest, text = c :: rest := by
    cases text with
    | nil => simp at head
    | cons c rest => exact ⟨c, rest, rfl⟩
  have letter : c = 'R' ∨ c = 'T' := by simpa using head
  have solid : isSpace c = false := by rcases letter with rfl | rfl <;> decide
  have kept : (c :: rest).dropWhile isSpace = c :: rest :=
    List.dropWhile_cons_of_neg (by rw [solid]; decide)
  cases level with
  | none =>
      have other : c ≠ '[' := by rcases letter with rfl | rfl <;> decide
      have untagged : ∀ level : Level, level.tag.isPrefixOf (c :: rest) = false := by
        intro level
        rw [level.tag_eq]
        cases level <;> simp [List.isPrefixOf, other.symm]
      rw [levelText, List.nil_append, dropLevel]
      simp only [List.find?_cons, untagged, List.find?_nil]
  | some level =>
      have own : ([Level.info, .warning, .error].find? fun l =>
          l.tag.isPrefixOf (level.tag ++ ' ' :: c :: rest)) = some level := by
        simp only [Level.tag_eq]
        cases level <;> rfl
      rw [levelText, List.append_assoc, List.singleton_append, dropLevel, own]
      dsimp only
      rw [List.drop_left]
      exact (List.dropWhile_cons_of_pos (by decide)).trans kept

/-! The characters of a line. -/

/-- A character that no line breaks at, and that begins neither a sequence nor a dash. -/
def isFigure (c : Char) : Bool := !isLineBreak c && c != escape && c != '-'

theorem isFigure_of_isDigit {c : Char} (digit : c.isDigit = true) : isFigure c = true := by
  have range : 48 ≤ c.toNat ∧ c.toNat ≤ 57 := by
    simp only [Char.isDigit, Bool.and_eq_true, decide_eq_true_eq] at digit
    exact digit
  have other : ∀ d : Char, d.toNat < 48 → c ≠ d := by
    rintro d low rfl
    omega
  have whole : isLineBreak c = false := by
    simp only [isLineBreak, List.mem_cons, List.not_mem_nil, or_false, decide_eq_false_iff_not]
    omega
  simp [isFigure, whole, other escape (by decide), other '-' (by decide)]

variable {letter : Char → Bool}

theorem isSpace_of_isTypeChar {c : Char} (own : isTypeChar letter c = true) : isSpace c = false := by
  simp only [isTypeChar, Bool.or_eq_true, decide_eq_true_eq] at own
  rcases own with (word | rfl) | rfl
  · exact not_space_of_word (.inl word)
  · decide
  · decide

theorem isFigure_of_isTypeChar {c : Char} (own : isTypeChar letter c = true) :
    isFigure c = true := by
  have solid := isSpace_of_isTypeChar own
  have whole : isLineBreak c = false := by
    by_contra breaks
    rw [isSpace_of_isLineBreak (by simpa using breaks)] at solid
    exact absurd solid (by decide)
  have sign : c ≠ escape ∧ c ≠ '-' := by
    have outside : isTypeChar letter escape = false ∧ isTypeChar letter '-' = false := ⟨rfl, rfl⟩
    constructor
    · rintro rfl
      exact absurd own (by rw [outside.1]; decide)
    · rintro rfl
      exact absurd own (by rw [outside.2]; decide)
  simp [isFigure, whole, sign.1, sign.2]

theorem numeral_figures (n : ℕ) : ∀ c ∈ numeral n, isFigure c = true := fun _ member =>
  isFigure_of_isDigit (Nat.isDigit_of_mem_toDigits (by decide) (by decide) member)

theorem literal_figures {word : String} (all : word.toList.all isFigure = true) :
    ∀ c ∈ word.toList, isFigure c = true := List.all_eq_true.mp all

theorem append_figures {front rest : List Char} (first : ∀ c ∈ front, isFigure c = true)
    (last : ∀ c ∈ rest, isFigure c = true) : ∀ c ∈ front ++ rest, isFigure c = true := by
  intro c member
  rcases List.mem_append.mp member with own | own
  · exact first c own
  · exact last c own

namespace Details
variable (d : Details)

theorem counts_figures : ∀ c ∈ d.counts, isFigure c = true := by
  unfold counts
  refine append_figures (append_figures (append_figures (append_figures (append_figures
    (append_figures (append_figures ?_ ?_) ?_) ?_) ?_) ?_) ?_) ?_
  all_goals first
    | exact numeral_figures _
    | exact literal_figures (by decide)

theorem elapsed_figures : ∀ c ∈ d.elapsed, isFigure c = true := by
  have point : ∀ c ∈ ['.'], isFigure c = true := List.forall_mem_singleton.mpr rfl
  have unit : ∀ c ∈ if d.longUnit then " sec".toList else " s".toList, isFigure c = true := by
    split <;> exact literal_figures (by decide)
  have mark : ∀ c ∈ d.mark.text, isFigure c = true := by
    cases d.mark
    · exact fun c member => absurd member List.not_mem_nil
    · exact literal_figures (by decide)
    · exact literal_figures (by decide)
  unfold elapsed
  exact append_figures (append_figures (append_figures (append_figures (append_figures
    (literal_figures (by decide)) (numeral_figures _)) point) (numeral_figures _)) unit) mark

theorem counts_head : ∃ rest, d.counts = "Tests run:".toList ++ rest := by
  have head : "Tests run: ".toList = "Tests run:".toList ++ [' '] := by decide
  unfold counts
  rw [head]
  simp only [List.append_assoc]
  exact ⟨_, rfl⟩

end Details

/-! The signs of a line. -/

theorem blankName_name (name : TypeName letter) : blankName letter (' ' :: name.1) = some name.1 := by
  obtain ⟨name, some_, all⟩ := name
  have every := List.all_eq_true.mp all
  have solid : name.dropWhile isSpace = name := by
    cases name with
    | nil => exact absurd rfl some_
    | cons c name =>
        exact List.dropWhile_cons_of_neg (by rw [isSpace_of_isTypeChar (every c (by simp))]; decide)
  have blank : isSpace ' ' = true := by decide
  have whole : name.takeWhile (isTypeChar letter) = name := List.takeWhile_eq_self_iff.mpr every
  simp [blankName, List.dropWhile_cons_of_pos blank, List.takeWhile_cons_of_pos blank, solid, whole,
    some_]

theorem openedClass_running (c : TypeName letter) :
    openedClass letter ("Running ".toList ++ c.1) = some c.1 := by
  have front : "Running ".toList ++ c.1 = "Running".toList ++ ' ' :: c.1 := by
    have head : "Running ".toList = "Running".toList ++ [' '] := by decide
    rw [head, List.append_assoc, List.singleton_append]
  have read : "Running".toList.isPrefixOf ("Running".toList ++ ' ' :: c.1) = true :=
    List.isPrefixOf_iff_prefix.mpr (List.prefix_append _ _)
  have rest : ("Running".toList ++ ' ' :: c.1).drop 7 = ' ' :: c.1 := List.drop_left' (by decide)
  have blank : isSpace ' ' = true := by decide
  have solid : c.1.dropWhile isSpace = c.1 := by
    obtain ⟨name, some_, all⟩ := c
    cases name with
    | nil => exact absurd rfl some_
    | cons c name =>
        have own := List.all_eq_true.mp all c (by simp)
        exact List.dropWhile_cons_of_neg (by rw [isSpace_of_isTypeChar own]; decide)
  rw [front, openedClass, if_pos read, rest, blankName_name, List.dropWhile_cons_of_pos blank, solid]
  simp

theorem openedClass_tests (rest : List Char) :
    openedClass letter ("Tests run:".toList ++ rest) = none := by
  have head : "Tests run:".toList = 'T' :: "ests run:".toList := by decide
  have other : "Running".toList = 'R' :: "unning".toList := by decide
  rw [openedClass, head, other, List.cons_append]
  exact if_neg (by simp [List.isPrefixOf])

theorem inClass_of_ne {c : Char} (other : c ≠ '-') (text : List Char) :
    inClass letter (c :: text) = none := by
  have short : "- in".toList = '-' :: " in".toList := by decide
  have long : "-- in".toList = '-' :: "- in".toList := by decide
  rw [inClass, short, long]
  simp [List.isPrefixOf, other.symm]

theorem namedClass_append {front : List Char} (plain : ∀ c ∈ front, isFigure c = true)
    (text : List Char) : namedClass letter (front ++ text) = namedClass letter text := by
  induction front with
  | nil => rfl
  | cons c front ih =>
      have other : c ≠ '-' := by
        rintro rfl
        exact absurd (plain '-' (by simp)) (by decide)
      rw [List.cons_append, namedClass, inClass_of_ne other, Option.none_or,
        ih fun d member => plain d (by simp [member])]

theorem namedClass_plain {text : List Char} (plain : ∀ c ∈ text, isFigure c = true) :
    namedClass letter text = none := by
  have whole := @namedClass_append letter text plain []
  rwa [List.append_nil] at whole

theorem namedClass_dash (long : Bool) (c : TypeName letter) :
    namedClass letter ((if long then "--".toList else "-".toList) ++ (" in ".toList ++ c.1)) =
      some c.1 := by
  have gap : " in ".toList = " in".toList ++ [' '] := by decide
  have dash : "-".toList = ['-'] := by decide
  have dashes : "--".toList = ['-', '-'] := by decide
  have named := blankName_name c
  cases long with
  | false =>
      have read : inClass letter ('-' :: (" in".toList ++ ' ' :: c.1)) = some c.1 := by
        have prefix_ : "- in".toList.isPrefixOf ('-' :: (" in".toList ++ ' ' :: c.1)) = true := by
          rw [List.isPrefixOf_iff_prefix]
          exact ⟨' ' :: c.1, by simp⟩
        rw [inClass, if_pos prefix_]
        exact named
      rw [if_neg (by decide), dash, gap, List.append_assoc, List.singleton_append,
        List.singleton_append, namedClass, read]
      rfl
  | true =>
      have read : inClass letter ('-' :: '-' :: (" in".toList ++ ' ' :: c.1)) = some c.1 := by
        have other : "- in".toList.isPrefixOf ('-' :: '-' :: (" in".toList ++ ' ' :: c.1)) = false := by
          have head : "- in".toList = '-' :: ' ' :: "in".toList := by decide
          rw [head]
          simp [List.isPrefixOf]
        have prefix_ : "-- in".toList.isPrefixOf ('-' :: '-' :: (" in".toList ++ ' ' :: c.1)) = true := by
          rw [List.isPrefixOf_iff_prefix]
          exact ⟨' ' :: c.1, by simp⟩
        rw [inClass, if_neg (by rw [other]; decide), if_pos prefix_]
        exact named
      rw [if_pos rfl, dashes, gap, List.append_assoc, List.singleton_append]
      change namedClass letter ('-' :: '-' :: (" in".toList ++ ' ' :: c.1)) = _
      rw [namedClass, read]
      rfl

/-- What an event is read as. -/
def Event.sign : Event letter → Sign
  | .running c => .opens c.1
  | .completed c true => .closes c.1
  | .completed _ false => .closesLast
  | .total => .closesLast

theorem signOf_tests {text : List Char} (head : ∃ rest, text = "Tests run:".toList ++ rest) :
    signOf letter text = some (match namedClass letter text with
      | some name => .closes name
      | none => .closesLast) := by
  obtain ⟨rest, rfl⟩ := head
  have read : "Tests run:".toList.isPrefixOf ("Tests run:".toList ++ rest) = true :=
    List.isPrefixOf_iff_prefix.mpr (List.prefix_append _ _)
  rw [signOf, openedClass_tests]
  dsimp only
  rw [if_pos read]
  cases namedClass letter ("Tests run:".toList ++ rest) <;> rfl

theorem signOf_text (d : Details) (e : Event letter) : signOf letter (e.text d) = some e.sign := by
  obtain ⟨rest, counts⟩ := d.counts_head
  cases e with
  | running c =>
      rw [Event.text_running, signOf, openedClass_running]
      rfl
  | completed c named =>
      cases named with
      | true =>
          have split : Event.text d (.completed c true) = (d.counts ++ d.elapsed ++ [' ']) ++
              ((if d.longDash then "--".toList else "-".toList) ++ (" in ".toList ++ c.1)) := by
            have dash : d.dash = [' '] ++ if d.longDash then "--".toList else "-".toList := by
              unfold Details.dash
              split <;> decide
            rw [Event.text_named, dash]
            simp only [List.append_assoc]
          have figures : ∀ c ∈ d.counts ++ d.elapsed ++ [' '], isFigure c = true :=
            append_figures (append_figures d.counts_figures d.elapsed_figures)
              (List.forall_mem_singleton.mpr rfl)
          have named : namedClass letter (Event.text d (.completed c true)) = some c.1 := by
            rw [split, namedClass_append figures, namedClass_dash]
          have head : ∃ rest, Event.text d (.completed c true) = "Tests run:".toList ++ rest := by
            rw [split, counts]
            simp only [List.append_assoc]
            exact ⟨_, rfl⟩
          rw [signOf_tests head, named]
          rfl
      | false =>
          have figures := append_figures d.counts_figures d.elapsed_figures
          have head : ∃ rest, Event.text d (.completed c false) = "Tests run:".toList ++ rest := by
            rw [Event.text_unnamed, counts]
            simp only [List.append_assoc]
            exact ⟨_, rfl⟩
          have unnamed : namedClass letter (Event.text d (.completed c false)) = none := by
            rw [Event.text_unnamed]
            exact namedClass_plain figures
          rw [signOf_tests head, unnamed]
          rfl
  | total =>
      have unnamed : namedClass letter (Event.text d (.total : Event letter)) = none := by
        rw [Event.text_total]
        exact namedClass_plain d.counts_figures
      have head : ∃ rest, Event.text d (.total : Event letter) = "Tests run:".toList ++ rest :=
        ⟨rest, counts⟩
      rw [signOf_tests head, unnamed]
      rfl

/-! The text of an event, as a whole line. -/

theorem last_append {rest : List Char} (last : rest.getLast?.any (fun c => !isSpace c) = true)
    (front : List Char) : ∀ c ∈ (front ++ rest).getLast?, isSpace c = false := by
  obtain ⟨c, own, solid⟩ := Option.any_eq_true _ _ |>.mp last
  intro d member
  rw [List.getLast?_append, own, Option.some_or] at member
  rw [← Option.some.inj member]
  simpa using solid

theorem typeName_last (c : TypeName letter) : c.1.getLast?.any (fun c => !isSpace c) = true := by
  obtain ⟨name, some_, all⟩ := c
  rw [List.getLast?_eq_some_getLast some_]
  have own := List.all_eq_true.mp all _ (List.getLast_mem some_)
  simpa using isSpace_of_isTypeChar own

theorem numeral_last (n : ℕ) : (numeral n).getLast?.any (fun c => !isSpace c) = true := by
  have some_ : numeral n ≠ [] := List.length_pos_iff.mp Nat.length_toDigits_pos
  rw [List.getLast?_eq_some_getLast some_]
  have digit := Nat.isDigit_of_mem_toDigits (by decide) (by decide) (List.getLast_mem some_)
  have own : isTypeChar (fun _ => false) ((numeral n).getLast some_) = true := by
    simp [isTypeChar, isWord, Char.isAlphanum, digit]
  simpa using isSpace_of_isTypeChar own

theorem elapsed_last (d : Details) (front : List Char) :
    ∀ c ∈ (front ++ d.elapsed).getLast?, isSpace c = false := by
  have unit : (if d.longUnit then " sec".toList else " s".toList).getLast?.any
      (fun c => !isSpace c) = true := by
    split <;> decide
  unfold Details.elapsed
  rw [← List.append_assoc]
  cases d.mark with
  | none =>
      have silent : Mark.none.text = [] := rfl
      rw [silent, List.append_nil, ← List.append_assoc]
      exact last_append unit _
  | failure => exact last_append (by decide) _
  | error => exact last_append (by decide) _

theorem text_last (d : Details) (e : Event letter) :
    ∀ c ∈ (e.text d).getLast?, isSpace c = false := by
  cases e with
  | running c => exact last_append (typeName_last c) _
  | completed c named =>
      cases named with
      | true => exact last_append (typeName_last c) _
      | false => exact elapsed_last d _
  | total =>
      rw [Event.text_total]
      unfold Details.counts
      exact last_append (numeral_last _) _

theorem text_head (d : Details) (e : Event letter) :
    (e.text d).head? = some 'R' ∨ (e.text d).head? = some 'T' := by
  have running : "Running ".toList = 'R' :: "unning ".toList := by decide
  have tests : "Tests run:".toList = 'T' :: "ests run:".toList := by decide
  obtain ⟨rest, counts⟩ := d.counts_head
  cases e with
  | running c =>
      rw [Event.text_running, running]
      exact .inl rfl
  | completed c named =>
      cases named with
      | true =>
          rw [Event.text_named, counts, tests]
          exact .inr rfl
      | false =>
          rw [Event.text_unnamed, counts, tests]
          exact .inr rfl
  | total =>
      rw [Event.text_total, counts, tests]
      exact .inr rfl

/-- A character that neither breaks the line nor begins a sequence. -/
def IsPrinted (c : Char) : Prop := isLineBreak c = false ∧ c ≠ escape

theorem isPrinted_of_isFigure {c : Char} (figure : isFigure c = true) : IsPrinted c := by
  simp only [isFigure, Bool.and_eq_true, Bool.not_eq_true', bne_iff_ne] at figure
  exact figure.1

theorem text_printed (d : Details) (e : Event letter) : ∀ c ∈ e.text d, IsPrinted c := by
  have name : ∀ c : TypeName letter, ∀ ch ∈ c.1, IsPrinted ch := by
    intro c ch member
    exact isPrinted_of_isFigure (isFigure_of_isTypeChar (List.all_eq_true.mp c.2.2 ch member))
  have literal : ∀ word : String, word.toList.all (fun c => !isLineBreak c && c != escape) = true →
      ∀ c ∈ word.toList, IsPrinted c := by
    intro word all c member
    have own := List.all_eq_true.mp all c member
    simp only [Bool.and_eq_true, Bool.not_eq_true', bne_iff_ne] at own
    exact own
  have counts : ∀ c ∈ d.counts, IsPrinted c := fun c member =>
    isPrinted_of_isFigure (d.counts_figures c member)
  have elapsed : ∀ c ∈ d.elapsed, IsPrinted c := fun c member =>
    isPrinted_of_isFigure (d.elapsed_figures c member)
  have dash : ∀ c ∈ d.dash, IsPrinted c := by
    unfold Details.dash
    split
    · exact literal _ (by decide)
    · exact literal _ (by decide)
  intro c member
  cases e with
  | running own =>
      rw [Event.text_running, List.mem_append] at member
      exact member.elim (literal _ (by decide) c) (name own c)
  | completed own named =>
      cases named with
      | true =>
          rw [Event.text_named] at member
          simp only [List.mem_append] at member
          rcases member with (((inside | inside) | inside) | inside) | inside
          · exact counts c inside
          · exact elapsed c inside
          · exact dash c inside
          · exact literal _ (by decide) c inside
          · exact name own c inside
      | false =>
          rw [Event.text_unnamed, List.mem_append] at member
          exact member.elim (counts c) (elapsed c)
  | total => exact counts c member

theorem levelText_printed (level : Option Level) : ∀ c ∈ levelText level, IsPrinted c := by
  intro c member
  have all : ∀ level : Level, (level.tag ++ [' ']).all (fun c => !isLineBreak c && c != escape) = true := by
    intro level
    cases level <;> decide
  cases level with
  | none => exact absurd member List.not_mem_nil
  | some level =>
      have own := List.all_eq_true.mp (all level) c member
      simp only [Bool.and_eq_true, Bool.not_eq_true', bne_iff_ne] at own
      exact own

theorem levelText_head (level : Option Level) (d : Details) (e : Event letter) :
    ∀ c ∈ (levelText level ++ e.text d).head?, isSpace c = false := by
  have own : ∀ c ∈ (e.text d).head?, isSpace c = false := by
    intro c member
    rcases text_head d e with head | head <;> rw [head] at member <;>
      rw [← Option.some.inj member] <;> decide
  cases level with
  | none => exact own
  | some level =>
      intro c member
      have bracket : (levelText (some level) ++ e.text d).head? = some '[' := by
        cases level <;> rfl
      rw [bracket] at member
      rw [← Option.some.inj member]
      decide

/-! Lines. -/

def Line.sign (line : Line letter) : Option Sign := line.event?.map fun own => own.2.sign

theorem cleaned_pieces {d : Details} {e : Event letter} {level : Option Level} {pieces : List Piece}
    (shows : pieces.filterMap Piece.shown = levelText level ++ e.text d) :
    cleaned (pieces.flatMap Piece.raw) = e.text d := by
  have plain : ∀ c ∈ pieces.filterMap Piece.shown, c ≠ escape := by
    rw [shows]
    intro c member
    rcases List.mem_append.mp member with own | own
    · exact (levelText_printed level c own).2
    · exact (text_printed d e c own).2
  have some_ : e.text d ≠ [] := by
    rcases text_head d e with head | head <;> intro empty <;> rw [empty] at head <;> cases head
  have last : ∀ c ∈ (levelText level ++ e.text d).getLast?, isSpace c = false := by
    rw [List.getLast?_append_of_ne_nil _ some_]
    exact text_last d e
  rw [cleaned, dropSequences_pieces pieces plain, shows, strip_of_ends (levelText_head level d e) last,
    dropLevel_levelText level (text_head d e)]

theorem readLine_raw (pending : List (List Char)) (line : Line letter) :
    readLine letter pending line.raw = Sign.update pending line.sign := by
  cases line with
  | event module e d level pieces shows =>
      rw [readLine, Line.raw, cleaned_pieces shows, signOf_text]
      rfl
  | other text whole silent =>
      rw [readLine, Line.raw, silent]
      rfl

theorem raw_unbroken (line : Line letter) : Unbroken line.raw := by
  cases line with
  | other text whole silent => exact whole
  | event module e d level pieces shows =>
      intro c member
      obtain ⟨piece, own, inside⟩ := List.mem_flatMap.mp member
      cases piece with
      | char ch =>
          have seen : ch ∈ pieces.filterMap Piece.shown := List.mem_filterMap.mpr ⟨_, own, rfl⟩
          rw [shows, List.mem_append] at seen
          rw [List.mem_singleton.mp inside]
          exact seen.elim (fun shown => (levelText_printed level ch shown).1)
            fun shown => (text_printed d e ch shown).1
      | colour codes =>
          have code : ∀ ch, isCode ch = true → isLineBreak ch = false := by
            intro ch own
            simp only [isCode, Bool.or_eq_true, decide_eq_true_eq] at own
            rcases own with digit | rfl
            · exact (isPrinted_of_isFigure (isFigure_of_isDigit digit)).1
            · decide
          simp only [Piece.raw, List.mem_cons, List.mem_append, List.mem_map, List.not_mem_nil,
            or_false] at inside
          rcases inside with rfl | rfl | ⟨ch, -, rfl⟩ | rfl
          · decide
          · decide
          · exact code ch.1 ch.2
          · decide

/-- The classes that are pending after a log. -/
def pending (log : List (Line letter)) : List (List Char) :=
  log.foldl (fun names line => Sign.update names line.sign) []

theorem unfinished_output (log : List (Line letter)) :
    unfinishedSurefireClass letter (output log) = (pending log).getLast? := by
  have lines : splitlines (output log) = log.map Line.raw := by
    have whole : ∀ line ∈ log.map Line.raw, Unbroken line := by
      intro line member
      obtain ⟨own, -, rfl⟩ := List.mem_map.mp member
      exact raw_unbroken own
    have newline : ∀ line ∈ log.map Line.raw, '\n' ∉ line := by
      intro line member inside
      exact absurd (whole line member '\n' inside) (by decide)
    have split := splitlines_lines (log.map Line.raw) newline []
    rw [List.append_nil, List.flatMap_map] at split
    rw [output, split, flatMap_pieces whole, splitlines, List.append_nil]
  unfold unfinishedSurefireClass pending
  rw [lines, List.foldl_map]
  simp only [readLine_raw]

end Uta.JavaGate.Surefire
