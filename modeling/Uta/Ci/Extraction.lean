/- What the readers of a part of a saved text find there. -/
import Uta.Ci.Store
import Uta.Lib.CompactJson
import Mathlib.Data.Bool.AllAny

namespace Uta.Ci.Store
open Uta.Lib Json Places

/-! The end of a value. -/

section
-- The equation is made here, once, for the lemmas that follow.
attribute [local simp] bracketEnd.eq_def
end

theorem bracketEnd_plain {c : Char} (quote : c ≠ '"') (opening : ¬ (c = '[' ∨ c = '{'))
    (closing : ¬ (c = ']' ∨ c = '}')) (rest stack : List Char) (i : ℕ) :
    bracketEnd (c :: rest) stack false false i = bracketEnd rest stack false false (i + 1) := by
  rw [bracketEnd.eq_def]
  simp only [Bool.false_eq_true, if_false, quote, opening, closing]

theorem bracketEnd_begin (rest stack : List Char) (i : ℕ) :
    bracketEnd ('"' :: rest) stack false false i = bracketEnd rest stack true false (i + 1) := by
  rw [bracketEnd.eq_def]
  rfl

theorem bracketEnd_open {c : Char} (opening : c = '[' ∨ c = '{') (rest stack : List Char) (i : ℕ) :
    bracketEnd (c :: rest) stack false false i =
      bracketEnd rest (closing c :: stack) false false (i + 1) := by
  have quote : c ≠ '"' := by rcases opening with rfl | rfl <;> decide
  rw [bracketEnd.eq_def]
  simp only [Bool.false_eq_true, if_false, quote, opening, if_true]

/-- A closing bracket ends the outermost value, or an inner one. -/
theorem bracketEnd_close {c : Char} (closes : c = ']' ∨ c = '}') (rest stack : List Char) (i : ℕ) :
    bracketEnd (c :: rest) (c :: stack) false false i =
      if stack.isEmpty then some (i + 1) else bracketEnd rest stack false false (i + 1) := by
  have quote : c ≠ '"' := by rcases closes with rfl | rfl <;> decide
  have opening : ¬ (c = '[' ∨ c = '{') := by rcases closes with rfl | rfl <;> decide
  rw [bracketEnd.eq_def]
  simp only [Bool.false_eq_true, if_false, quote, opening, closes, if_true, ne_eq,
    not_true_eq_false]

theorem bracketEnd_inner {c : Char} (closes : c = ']' ∨ c = '}') (rest : List Char)
    {stack : List Char} (filled : stack ≠ []) (i : ℕ) :
    bracketEnd (c :: rest) (c :: stack) false false i =
      bracketEnd rest stack false false (i + 1) := by
  rw [bracketEnd_close closes, if_neg (by simpa using filled)]

theorem bracketEnd_escaped (e : Char) (rest stack : List Char) (i : ℕ) :
    bracketEnd ('\\' :: e :: rest) stack true false i = bracketEnd rest stack true false (i + 2) := by
  rw [bracketEnd.eq_def]
  simp only [if_true, Bool.false_eq_true, if_false]
  rw [bracketEnd.eq_def]
  simp only [if_true]

theorem bracketEnd_finish (rest stack : List Char) (i : ℕ) :
    bracketEnd ('"' :: rest) stack true false i = bracketEnd rest stack false false (i + 1) := by
  rw [bracketEnd.eq_def]
  rfl

theorem bracketEnd_inside {c : Char} (quote : c ≠ '"') (slash : c ≠ '\\') (rest stack : List Char)
    (i : ℕ) : bracketEnd (c :: rest) stack true false i = bracketEnd rest stack true false (i + 1) := by
  have other : (c != '"') = true := by simpa using quote
  rw [bracketEnd.eq_def]
  simp only [if_true, Bool.false_eq_true, if_false, slash, other]

theorem bracketEnd_piece {p : List Char} (piece : Piece p) (rest stack : List Char) (i : ℕ) :
    bracketEnd (p ++ rest) stack true false i = bracketEnd rest stack true false (i + p.length) := by
  cases piece with
  | plain c quote slash printable => exact bracketEnd_inside quote slash rest stack i
  | short e named => exact bracketEnd_escaped e rest stack i
  | code a b c d hex =>
      have plain := fun x member => isHexDigit_plain (hex x member)
      simp only [List.forall_mem_cons, List.not_mem_nil, false_imp_iff, implies_true,
        and_true] at plain
      obtain ⟨first, second, third, fourth⟩ := plain
      simp only [List.cons_append, List.nil_append]
      rw [bracketEnd_escaped, bracketEnd_inside first.1 first.2,
        bracketEnd_inside second.1 second.2, bracketEnd_inside third.1 third.2,
        bracketEnd_inside fourth.1 fourth.2]
      rfl

theorem bracketEnd_pieces {pieces : List (List Char)} (each : ∀ p ∈ pieces, Piece p)
    (rest stack : List Char) (i : ℕ) :
    bracketEnd (pieces.flatten ++ '"' :: rest) stack true false i =
      bracketEnd rest stack false false (i + pieces.flatten.length + 1) := by
  induction pieces generalizing i with
  | nil => exact bracketEnd_finish rest stack i
  | cons p pieces ih =>
      rw [List.forall_mem_cons] at each
      rw [List.flatten_cons, List.append_assoc, bracketEnd_piece each.1, ih each.2,
        List.length_append, Nat.add_assoc i]

theorem bracketEnd_word {text : List Char} (token : ∀ c ∈ text, isTokenChar c = true)
    (rest stack : List Char) (i : ℕ) : bracketEnd (text ++ rest) stack false false i =
      bracketEnd rest stack false false (i + text.length) := by
  induction text generalizing i with
  | nil => rfl
  | cons c cs ih =>
      have own := token c (by simp)
      have other : ∀ d, isTokenChar d = false → c ≠ d := by
        rintro d no rfl
        rw [own] at no
        cases no
      rw [List.cons_append, bracketEnd_plain (other '"' (by decide))
        (by simp [other '[' (by decide), other '{' (by decide)])
        (by simp [other ']' (by decide), other '}' (by decide)]),
        ih fun d member => token d (by simp [member])]
      rw [List.length_cons, Nat.add_assoc, Nat.add_comm 1]

/-- The scan comes out of the text as it went in, whatever follows. -/
def Passed (text : List Char) : Prop :=
  ∀ (rest : List Char) {stack : List Char}, stack ≠ [] → ∀ i,
    bracketEnd (text ++ rest) stack false false i =
      bracketEnd rest stack false false (i + text.length)

theorem Passed.append {front back : List Char} (first : Passed front) (second : Passed back) :
    Passed (front ++ back) := by
  intro rest stack filled i
  rw [List.append_assoc, first _ filled, second _ filled, List.length_append, Nat.add_assoc]

theorem Passed.plain {c : Char} (quote : c ≠ '"') (opening : ¬ (c = '[' ∨ c = '{'))
    (closing : ¬ (c = ']' ∨ c = '}')) : Passed [c] :=
  fun rest _ _ i => bracketEnd_plain quote opening closing rest _ i

theorem Passed.joined {items : List (List Char)} (each : ∀ t ∈ items, Passed t) :
    Passed ([','].intercalate items) := by
  induction items with
  | nil => exact fun _ _ _ _ => rfl
  | cons t items ih =>
      rw [List.forall_mem_cons] at each
      cases items with
      | nil =>
          rw [List.intercalate_singleton]
          exact each.1
      | cons u items =>
          rw [List.intercalate_cons_cons]
          exact (each.1.append (.plain (by decide) (by decide) (by decide))).append (ih each.2)

theorem Passed.bracketed {opening : Char} (opens : opening = '[' ∨ opening = '{')
    {body : List Char} (inner : Passed body) :
    Passed (opening :: (body ++ [closing opening])) := by
  have closes : closing opening = ']' ∨ closing opening = '}' := by
    rcases opens with rfl | rfl
    · exact .inl rfl
    · exact .inr rfl
  intro rest stack filled i
  rw [List.cons_append, List.append_assoc, bracketEnd_open opens, inner _ (List.cons_ne_nil _ _),
    List.singleton_append, bracketEnd_inner closes _ filled]
  simp only [List.length_cons, List.length_append, List.length_nil]
  congr 1
  omega

theorem passed_string {text : List Char} (written : StringText text) : Passed text := by
  obtain ⟨pieces, each⟩ := written
  intro rest stack _ i
  rw [List.cons_append, List.append_assoc, List.singleton_append, bracketEnd_begin,
    bracketEnd_pieces each]
  simp only [List.length_cons, List.length_append, List.length_nil]
  congr 1
  omega

theorem passed_field {field : List Char × List Char} (key : StringText field.1)
    (value : Passed field.2) : Passed (fieldText field) := by
  have colon : Passed [':'] := .plain (by decide) (by decide) (by decide)
  have whole : fieldText field = field.1 ++ ([':'] ++ field.2) := rfl
  rw [whole]
  exact (passed_string key).append (colon.append value)

/-- A value is passed over. -/
theorem passed_compact {text : List Char} (compact : Compact text) : Passed text := by
  induction compact with
  | literal text some_ token => exact fun rest _ _ i => bracketEnd_word token rest _ i
  | string written => exact passed_string written
  | array items each ih => exact (Passed.joined ih).bracketed (.inl rfl)
  | object fields keys values ih =>
      refine (Passed.joined fun t member => ?_).bracketed (.inr rfl)
      obtain ⟨field, inside, rfl⟩ := List.mem_map.mp member
      exact passed_field (keys field inside) (ih field inside)

/-- Null, a truth value, a text, an array or an object. -/
def Delimited : Json → Prop
  | .int _ | .real _ => False
  | _ => True

theorem scalarText_word {word : List Char} (listed : word ∈ words) (rest : List Char) :
    scalarText (word ++ rest) = some word := by
  have alone : ∀ word ∈ words, scalarText word = some word := by decide
  exact scalarText_append (alone word listed) rest

theorem jsonValueEnd_bracketed {opening : Char} (opens : opening = '[' ∨ opening = '{')
    {body : List Char} (inner : Passed body) (rest : List Char) :
    jsonValueEnd (opening :: (body ++ [closing opening]) ++ rest) =
      some (opening :: (body ++ [closing opening])).length := by
  have closes : closing opening = ']' ∨ closing opening = '}' := by
    rcases opens with rfl | rfl
    · exact .inl rfl
    · exact .inr rfl
  rw [List.cons_append, List.append_assoc, jsonValueEnd, if_pos opens,
    inner _ (List.cons_ne_nil _ _), List.singleton_append, bracketEnd_close closes]
  simp only [List.isEmpty_nil, if_true, List.length_cons, List.length_append, List.length_nil]
  congr 1
  omega

theorem jsonValueEnd_scalar {text : List Char} {c : Char} (front : text.head? = some c)
    (plain : ¬ (c = '[' ∨ c = '{')) (rest : List Char) :
    jsonValueEnd (text ++ rest) = (scalarText (text ++ rest)).map List.length := by
  obtain ⟨cs, rfl⟩ := List.head?_eq_some_iff.mp front
  rw [List.cons_append, jsonValueEnd, if_neg plain]

/-- An object, an array or a string ends where it ends, whatever follows. -/
theorem jsonValueEnd_enclosed {text : List Char} (enclosed : Enclosed text) (rest : List Char) :
    jsonValueEnd (text ++ rest) = some text.length := by
  obtain ⟨compact, c, front, opens⟩ := enclosed
  have string : ∀ {text : List Char}, StringText text →
      jsonValueEnd (text ++ rest) = some text.length := by
    intro text written
    have quote : text.head? = some '"' := by
      cases written
      rfl
    rw [jsonValueEnd_scalar quote (by decide), scalarText_string written, Option.map_some]
  cases compact with
  | literal _ some_ token =>
      have member : c ∈ text := List.mem_of_head? front
      rcases opens with rfl | rfl | rfl
      all_goals exact absurd (token _ member) (by decide)
  | string written => exact string written
  | array items each =>
      exact jsonValueEnd_bracketed (.inl rfl)
        (Passed.joined fun t member => passed_compact (each t member)) rest
  | object fields keys values =>
      refine jsonValueEnd_bracketed (.inr rfl) (Passed.joined fun t member => ?_) rest
      obtain ⟨field, inside, rfl⟩ := List.mem_map.mp member
      exact passed_field (keys field inside) (passed_compact (values field inside))

/-- A printed value ends where it was printed to. -/
theorem jsonValueEnd_print {v : Json} (delimited : Delimited v) (rest : List Char) :
    jsonValueEnd (print false v ++ rest) = some (print false v).length := by
  have word : ∀ {w : List Char} {c : Char}, w ∈ words → w.head? = some c →
      ¬ (c = '[' ∨ c = '{') → jsonValueEnd (w ++ rest) = some w.length := by
    intro w c listed front plain
    rw [jsonValueEnd_scalar front plain, scalarText_word listed, Option.map_some]
  have compact := compact_print false v
  cases v with
  | int n => cases delimited
  | real r => cases delimited
  | null =>
      rw [print]
      exact word (by decide) rfl (by decide)
  | bool b =>
      cases b with
      | true =>
          rw [print]
          exact word (by decide) rfl (by decide)
      | false =>
          rw [print]
          exact word (by decide) rfl (by decide)
  | str s => exact jsonValueEnd_enclosed ⟨compact, '"', by rw [print]; rfl, .inr (.inr rfl)⟩ rest
  | arr items => exact jsonValueEnd_enclosed ⟨compact, '[', by rw [print]; rfl, .inr (.inl rfl)⟩ rest
  | obj fields => exact jsonValueEnd_enclosed ⟨compact, '{', by rw [print]; rfl, .inl rfl⟩ rest

/-! A key of its own. -/

theorem print_dropWhile (v : Json) (rest : List Char) :
    (print false v ++ rest).dropWhile PyText.isSpace = print false v ++ rest := by
  obtain ⟨c, cs, text, head⟩ := print_head false v
  have plain : PyText.isSpace c = false := by
    rcases head with token | rfl | rfl | rfl
    · exact (tokenChar_plain token).2
    all_goals rfl
  simp [text, plain]

/-- A key, its value, and what follows. -/
def keyedText (key : String) (v : Json) (rest : List Char) : List Char :=
  quote false key ++ ':' :: (print false v ++ rest)

theorem extract_value {v : Json} (delimited : Delimited v) (rest : List Char) :
    (match jsonValueEnd (((':' :: (print false v ++ rest)).dropWhile (· ≠ ':')).tail.dropWhile
        PyText.isSpace) with
      | none => (.ok .null : Except Failure Json)
      | some stop => decode ((((':' :: (print false v ++ rest)).dropWhile (· ≠ ':')).tail.dropWhile
          PyText.isSpace).take stop)) = .ok v := by
  have value : ((':' :: (print false v ++ rest)).dropWhile (· ≠ ':')).tail.dropWhile
      PyText.isSpace = print false v ++ rest := by
    simpa using print_dropWhile v rest
  rw [value, jsonValueEnd_print delimited]
  simp only [List.take_left']
  rw [decode, loads_print]

section

variable {key : String} (plain : PlainKey key)
include plain

theorem keyed_own {β : Type} {read : List Char → Option β} (v : Json) (rest : List Char) :
    keyed key read (keyedText key v rest) = read (print false v ++ rest) := by
  rw [keyedText, keyed_quote plain (.cons (by decide) _), if_pos rfl]
  exact congrArg read (print_dropWhile v rest)

theorem marked_own (v : Json) (rest : List Char) :
    (keyedText key v rest).dropPrefix? (mark key) = some (':' :: (print false v ++ rest)) := by
  rw [keyedText, quote_key plain]
  exact List.dropPrefix?_append_of_beq _ (beq_self_eq_true _)

/-- The value of a key that is met first at its own place. -/
theorem extractJsonScalar_own {v : Json} {before rest : List Char}
    (literal : scalarText (print false v ++ rest) = some (print false v))
    (silent : Silent (keyed key scalarText) before (keyedText key v rest)) :
    extractJsonScalar (before ++ keyedText key v rest) key = .ok v := by
  have found := first_own silent ((keyed_own plain v rest).trans literal)
  rw [extractJsonScalar, found]
  change decode (print false v) = _
  rw [decode, loads_print]

theorem extractJsonValue_first {v : Json} (delimited : Delimited v) {before rest : List Char}
    (silent : Silent (fun place => place.dropPrefix? (mark key)) before (keyedText key v rest)) :
    extractJsonValue (before ++ keyedText key v rest) key false = .ok v := by
  have found := first_own silent (marked_own plain v rest)
  rw [extractJsonValue]
  simp only [Bool.false_eq_true, if_false, found]
  exact extract_value delimited rest

theorem extractJsonValue_last {v : Json} (delimited : Delimited v) (before : List Char)
    {rest : List Char}
    (final : Final (fun place => place.dropPrefix? (mark key)) (keyedText key v rest)) :
    extractJsonValue (before ++ keyedText key v rest) key true = .ok v := by
  have found := last_own before final (by simp [keyedText, quote])
    (marked_own plain v rest)
  rw [extractJsonValue]
  simp only [if_true, found]
  exact extract_value delimited rest

end

theorem extractJsonScalar_mute {text : List Char} {key : String}
    (mute : Mute (keyed key scalarText) text) : extractJsonScalar text key = .ok .null := by
  rw [extractJsonScalar, first_mute mute]

theorem extractJsonValue_mute {text : List Char} {key : String} (reverse : Bool)
    (mute : Mute (fun place => place.dropPrefix? (mark key)) text) :
    extractJsonValue text key reverse = .ok .null := by
  cases reverse with
  | false => rw [extractJsonValue]; simp only [Bool.false_eq_true, if_false, first_mute mute]
  | true => rw [extractJsonValue]; simp only [if_true, last_mute mute]

/-! A part of a text of tokens. -/

section

variable {text part : List Char} (lexed : Lexed text) (within : part <:+: text)
include lexed within

/-- Whatever key is asked for, what is found is a literal. -/
theorem extractJsonScalar_within {key : String} (plain : PlainKey key) :
    ∃ v, extractJsonScalar part key = .ok v := by
  rw [extractJsonScalar]
  cases found : first (keyed key scalarText) part with
  | none => exact ⟨.null, rfl⟩
  | some literal =>
      obtain ⟨place, suffix, reads⟩ := exists_of_first found
      obtain ⟨before, after, rfl⟩ := within
      have longer := keyed_append (fun _ more _ read => scalarText_append read more) rfl reads after
      have later : place ++ after <:+ before ++ part ++ after := by
        obtain ⟨front, rfl⟩ := suffix
        exact ⟨before ++ front, by simp [List.append_assoc]⟩
      obtain ⟨rest, tokens, met⟩ := keyed_lexed plain lexed later longer
      obtain ⟨v, value⟩ := scalar_lexed tokens met
      refine ⟨v, ?_⟩
      change decode literal = _
      rw [decode, value]

theorem extractString_within {key : String} (plain : PlainKey key) :
    ∃ s, extractString part key = .ok s := by
  obtain ⟨v, found⟩ := extractJsonScalar_within lexed within plain
  exact ⟨string? v, by rw [extractString, found]; rfl⟩

theorem extractBool_within {key : String} (plain : PlainKey key) :
    ∃ b, extractBool part key = .ok b := by
  obtain ⟨v, found⟩ := extractJsonScalar_within lexed within plain
  exact ⟨bool? v, by rw [extractBool, found]; rfl⟩

end

end Uta.Ci.Store
