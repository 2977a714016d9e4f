/- The texts of JSON values without blanks between their tokens, with every escape that a string may
be written with. -/
import Uta.Lib.JsonText

namespace Uta.Lib.Json

def isHexDigit (c : Char) : Bool :=
  c.isDigit || decide (c ∈ "abcdefABCDEF".toList)

/-- What stands for one code unit of a string. -/
inductive Piece : List Char → Prop
  | plain (c : Char) (quote : c ≠ '"') (slash : c ≠ '\\') (printable : 0x20 ≤ c.toNat) : Piece [c]
  | short (e : Char) (named : e ∈ "\"\\/bfnrt".toList) : Piece ['\\', e]
  | code (a b c d : Char) (hex : ∀ x ∈ [a, b, c, d], isHexDigit x = true) :
      Piece ['\\', 'u', a, b, c, d]

/-- A string. -/
inductive StringText : List Char → Prop
  | mk (pieces : List (List Char)) (each : ∀ p ∈ pieces, Piece p) :
      StringText ('"' :: (pieces.flatten ++ ['"']))

/-- `key:value`. -/
def fieldText (field : List Char × List Char) : List Char := field.1 ++ ':' :: field.2

/-- A value. A literal is any text of letters, digits, points and signs, which takes in the words and
the numbers. -/
inductive Compact : List Char → Prop
  | literal (text : List Char) (some_ : text ≠ []) (token : ∀ c ∈ text, isTokenChar c = true) :
      Compact text
  | string {text : List Char} (written : StringText text) : Compact text
  | array (items : List (List Char)) (each : ∀ t ∈ items, Compact t) :
      Compact ('[' :: ([','].intercalate items ++ [']']))
  | object (fields : List (List Char × List Char)) (keys : ∀ f ∈ fields, StringText f.1)
      (values : ∀ f ∈ fields, Compact f.2) :
      Compact ('{' :: ([','].intercalate (fields.map fieldText) ++ ['}']))

/-- The text of an object, an array or a string. -/
def Enclosed (text : List Char) : Prop :=
  Compact text ∧ ∃ c ∈ text.head?, c = '{' ∨ c = '[' ∨ c = '"'

/-! Strings. -/

theorem isHexDigit_plain {c : Char} (hex : isHexDigit c = true) : c ≠ '"' ∧ c ≠ '\\' := by
  constructor
  · rintro rfl
    exact absurd hex (by decide)
  · rintro rfl
    exact absurd hex (by decide)

theorem stringRest_piece {p : List Char} (piece : Piece p) (rest : List Char) :
    stringRest (p ++ rest) = (stringRest rest).map fun s => p ++ s := by
  cases piece with
  | plain c quote slash printable => exact stringRest_plain quote slash rest
  | short e named =>
      have single : e ≠ '\n' := by
        rintro rfl
        exact absurd named (by decide)
      exact stringRest_escaped single rest
  | code a b c d hex =>
      have plain := fun x member => isHexDigit_plain (hex x member)
      simp only [List.forall_mem_cons, List.not_mem_nil, false_imp_iff, implies_true,
        and_true] at plain
      obtain ⟨first, second, third, fourth⟩ := plain
      simp only [List.cons_append, List.nil_append]
      rw [stringRest_escaped (by decide), stringRest_plain first.1 first.2,
        stringRest_plain second.1 second.2, stringRest_plain third.1 third.2,
        stringRest_plain fourth.1 fourth.2]
      cases stringRest rest <;> rfl

theorem stringRest_pieces {pieces : List (List Char)} (each : ∀ p ∈ pieces, Piece p)
    (rest : List Char) :
    stringRest (pieces.flatten ++ '"' :: rest) = some (pieces.flatten ++ ['"']) := by
  induction pieces with
  | nil => exact stringRest_quote rest
  | cons p pieces ih =>
      rw [List.forall_mem_cons] at each
      rw [List.flatten_cons, List.append_assoc, stringRest_piece each.1, ih each.2,
        Option.map_some, List.append_assoc]

/-- A string is its own literal. -/
theorem scalarText_string {text : List Char} (written : StringText text) (rest : List Char) :
    scalarText (text ++ rest) = some text := by
  obtain ⟨pieces, each⟩ := written
  rw [List.cons_append, List.append_assoc, List.singleton_append, scalarText, if_pos rfl,
    stringRest_pieces each]
  rfl

/-! Printed values. -/

theorem isHexDigit_hexDigit (n : ℕ) : isHexDigit (hexDigit (n % 16)) = true := by
  have all : ∀ n < 16, isHexDigit (hexDigit n) = true := by decide
  exact all _ (Nat.mod_lt n (by decide))

theorem piece_escapeUnit (n : ℕ) : Piece (escapeUnit n) := by
  refine .code _ _ _ _ ?_
  simp only [List.forall_mem_cons, List.not_mem_nil, false_imp_iff, implies_true, and_true]
  exact ⟨isHexDigit_hexDigit _, isHexDigit_hexDigit _, isHexDigit_hexDigit _, isHexDigit_hexDigit _⟩

/-- A character is printed in one piece, or in two. -/
theorem pieces_escapeChar (ascii : Bool) (c : Char) :
    ∃ pieces : List (List Char), (∀ p ∈ pieces, Piece p) ∧ pieces.flatten = escapeChar ascii c := by
  have one : ∀ p : List Char, Piece p →
      ∃ pieces : List (List Char), (∀ q ∈ pieces, Piece q) ∧ pieces.flatten = p := fun p piece =>
    ⟨[p], List.forall_mem_singleton.mpr piece, by simp⟩
  rw [escapeChar]
  cases found : shortEscapes.find? fun pair => pair.1 = c with
  | some pair =>
      have named : ∀ pair ∈ shortEscapes, pair.2 ∈ "\"\\/bfnrt".toList := by decide
      exact one _ (.short pair.2 (named pair (shortEscapes_find found).1))
  | none =>
      obtain ⟨quote, slash⟩ := not_short found
      dsimp only
      split_ifs with control wide
      · exact one _ (piece_escapeUnit _)
      · refine ⟨(utf16 c.toNat).map escapeUnit, ?_, by rw [List.flatMap]⟩
        intro p member
        obtain ⟨unit, -, rfl⟩ := List.mem_map.mp member
        exact piece_escapeUnit unit
      · exact one _ (.plain c quote slash (by omega))

theorem stringText_quote (ascii : Bool) (s : String) : StringText (quote ascii s) := by
  have body : ∀ cs : List Char, ∃ pieces : List (List Char),
      (∀ p ∈ pieces, Piece p) ∧ pieces.flatten = escape ascii cs := by
    intro cs
    induction cs with
    | nil => exact ⟨[], nofun, rfl⟩
    | cons c cs ih =>
        obtain ⟨front, first, own⟩ := pieces_escapeChar ascii c
        obtain ⟨pieces, each, rest⟩ := ih
        refine ⟨front ++ pieces, ?_, ?_⟩
        · intro p member
          exact (List.mem_append.mp member).elim (first p) (each p)
        · rw [List.flatten_append, own, rest, escape, escape, List.flatMap_cons]
  obtain ⟨pieces, each, same⟩ := body s.toList
  rw [quote, ← same]
  exact ⟨pieces, each⟩

theorem printMoreItems_eq (ascii : Bool) (v : Json) (vs : List Json) :
    print ascii v ++ printMoreItems ascii vs =
      [','].intercalate ((v :: vs).map (print ascii)) := by
  induction vs generalizing v with
  | nil => simp [printMoreItems]
  | cons w vs ih =>
      rw [printMoreItems, ih w, List.map_cons, List.map_cons, List.map_cons,
        List.intercalate_cons_cons, List.append_assoc]
      rfl

theorem printItems_eq (ascii : Bool) (items : List Json) :
    printItems ascii items = [','].intercalate (items.map (print ascii)) := by
  cases items with
  | nil => rfl
  | cons v vs => exact printMoreItems_eq ascii v vs

def printedField (ascii : Bool) (field : String × Json) : List Char × List Char :=
  (quote ascii field.1, print ascii field.2)

theorem printMoreFields_eq (ascii : Bool) (f : String × Json) (fs : List (String × Json)) :
    printFields ascii (f :: fs) =
      [','].intercalate (((f :: fs).map (printedField ascii)).map fieldText) := by
  induction fs generalizing f with
  | nil => simp [printFields, printMoreFields, printedField, fieldText]
  | cons g fs ih =>
      rw [printFields, printMoreFields_cons, ih g]
      simp only [List.map_cons, List.intercalate_cons_cons]
      simp [printedField, fieldText]

theorem printFields_eq (ascii : Bool) (fields : List (String × Json)) :
    printFields ascii fields =
      [','].intercalate ((fields.map (printedField ascii)).map fieldText) := by
  cases fields with
  | nil => rfl
  | cons f fs => exact printMoreFields_eq ascii f fs

mutual

/-- Printed values are compact. -/
theorem compact_print (ascii : Bool) : ∀ v : Json, Compact (print ascii v)
  | .null => by
      rw [print]
      exact .literal _ (by decide) (List.all_iff_forall_prop.mp (by decide))
  | .bool true => by
      rw [print]
      exact .literal _ (by decide) (List.all_iff_forall_prop.mp (by decide))
  | .bool false => by
      rw [print]
      exact .literal _ (by decide) (List.all_iff_forall_prop.mp (by decide))
  | .int n => by
      rw [print]
      exact .literal _ (intText_token n).2 (intText_token n).1
  | .real r => by
      rw [print]
      exact .literal _ (literal_token r).2 (literal_token r).1
  | .str s => by
      rw [print]
      exact .string (stringText_quote ascii s)
  | .arr items => by
      rw [print, printItems_eq]
      refine .array _ fun t member => ?_
      obtain ⟨v, inside, rfl⟩ := List.mem_map.mp member
      exact compact_items ascii items v inside
  | .obj fields => by
      rw [print, printFields_eq]
      refine .object _ (fun f member => ?_) fun f member => ?_
      · obtain ⟨g, -, rfl⟩ := List.mem_map.mp member
        exact stringText_quote ascii g.1
      · obtain ⟨g, inside, rfl⟩ := List.mem_map.mp member
        exact compact_fields ascii fields g inside

theorem compact_items (ascii : Bool) : ∀ items : List Json, ∀ v ∈ items, Compact (print ascii v)
  | [], _, member => nomatch member
  | v :: vs, w, member => (List.mem_cons.mp member).elim
      (fun same => by rw [same]; exact compact_print ascii v) (compact_items ascii vs w)

theorem compact_fields (ascii : Bool) : ∀ fields : List (String × Json), ∀ f ∈ fields,
    Compact (print ascii f.2)
  | [], _, member => nomatch member
  | (k, v) :: fs, g, member => (List.mem_cons.mp member).elim
      (fun same => by rw [same]; exact compact_print ascii v) (compact_fields ascii fs g)

end

end Uta.Lib.Json
