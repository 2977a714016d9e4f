/- A compact JSON text reads back as the value that was printed. -/
import Uta.Lib.Json
import Mathlib.Data.List.TakeWhile
import Mathlib.Data.Bool.AllAny

namespace Uta.Lib.Json

/-! Strings. -/

theorem hexValue_hexDigit {n : ℕ} (small : n < 16) : hexValue (hexDigit n) = some n := by
  have all : ∀ n < 16, hexValue (hexDigit n) = some n := by decide
  exact all n small

theorem readHex4_hex4 {n : ℕ} (small : n < 0x10000) :
    readHex4 (hexDigit (n / 4096 % 16)) (hexDigit (n / 256 % 16)) (hexDigit (n / 16 % 16))
      (hexDigit (n % 16)) = some n := by
  have digit : ∀ m, hexValue (hexDigit (m % 16)) = some (m % 16) := fun m =>
    hexValue_hexDigit (Nat.mod_lt m (by decide))
  simp only [readHex4, digit, Option.bind_eq_bind, Option.bind_some, Option.some.injEq]
  omega

theorem toNat_bounds (c : Char) :
    c.toNat < 0x110000 ∧ ¬ (0xd800 ≤ c.toNat ∧ c.toNat < 0xe000) := by
  have valid := c.valid
  simp only [UInt32.isValidChar, Nat.isValidChar] at valid
  change c.val.toNat < _ ∧ ¬ (_ ≤ c.val.toNat ∧ c.val.toNat < _)
  omega

theorem readUnits_quote (rest : List Char) : readUnits ('"' :: rest) = some ([], rest) := by
  unfold readUnits
  rfl

theorem readUnits_plain {c : Char} (quote : c ≠ '"') (backslash : c ≠ '\\')
    (printable : ¬ c.toNat < 0x20) (rest : List Char) :
    readUnits (c :: rest) = (readUnits rest).map fun r => (c.toNat :: r.1, r.2) := by
  conv_lhs => unfold readUnits
  rw [if_neg quote, if_neg backslash, if_neg printable]

theorem readUnits_escapeUnit {n : ℕ} (small : n < 0x10000) (rest : List Char) :
    readUnits (escapeUnit n ++ rest) = (readUnits rest).map fun r => (n :: r.1, r.2) := by
  simp [escapeUnit, hex4, readUnits, readHex4_hex4 small]

/-- The code units that the escape of a character spells. -/
def unitsOf (ascii : Bool) (c : Char) : List ℕ :=
  if ascii = true then utf16 c.toNat else [c.toNat]

theorem utf16_small {n : ℕ} (small : n < 0x10000) : utf16 n = [n] := by
  rw [utf16, if_pos small]

theorem unitsOf_small {ascii : Bool} {c : Char} (small : c.toNat < 0x80) :
    unitsOf ascii c = [c.toNat] := by
  have whole : c.toNat < 0x10000 := by omega
  simp only [unitsOf, utf16_small whole, ite_self]

theorem readUnits_utf16 (c : Char) (rest : List Char) :
    readUnits ((utf16 c.toNat).flatMap escapeUnit ++ rest) =
      (readUnits rest).map fun r => (utf16 c.toNat ++ r.1, r.2) := by
  have bound := (toNat_bounds c).1
  by_cases small : c.toNat < 0x10000
  · simp [utf16_small small, readUnits_escapeUnit small]
  · have first : 0xd800 + (c.toNat - 0x10000) / 0x400 < 0x10000 := by omega
    have second : 0xdc00 + (c.toNat - 0x10000) % 0x400 < 0x10000 := by omega
    simp only [utf16, small, if_false, List.flatMap_cons, List.flatMap_nil, List.append_nil,
      List.append_assoc]
    rw [readUnits_escapeUnit first, readUnits_escapeUnit second, Option.map_map]
    rfl

theorem shortEscapes_find {c : Char} {pair : Char × Char}
    (found : (shortEscapes.find? fun pair => pair.1 = c) = some pair) :
    pair ∈ shortEscapes ∧ pair.1 = c :=
  ⟨List.mem_of_find?_eq_some found, by simpa using List.find?_some found⟩

theorem readUnits_short (pair : Char × Char) (member : pair ∈ shortEscapes) (rest : List Char) :
    readUnits ('\\' :: pair.2 :: rest) =
      (readUnits rest).map fun r => (pair.1.toNat :: r.1, r.2) := by
  simp only [shortEscapes, List.mem_cons, List.not_mem_nil, or_false] at member
  rcases member with rfl | rfl | rfl | rfl | rfl | rfl | rfl <;> rfl

theorem not_short {c : Char} (none_ : (shortEscapes.find? fun pair => pair.1 = c) = none) :
    c ≠ '"' ∧ c ≠ '\\' := by
  have absent := List.find?_eq_none.mp none_
  constructor
  · rintro rfl
    exact absent ('"', '"') (by decide) (by decide)
  · rintro rfl
    exact absent ('\\', '\\') (by decide) (by decide)

theorem readUnits_escapeChar (ascii : Bool) (c : Char) (rest : List Char) :
    readUnits (escapeChar ascii c ++ rest) =
      (readUnits rest).map fun r => (unitsOf ascii c ++ r.1, r.2) := by
  unfold escapeChar
  split
  · next pair found =>
    obtain ⟨member, rfl⟩ := shortEscapes_find found
    have named : ∀ pair ∈ shortEscapes, pair.1.toNat < 0x80 := by decide
    rw [unitsOf_small (named pair member)]
    exact readUnits_short pair member rest
  · next none_ =>
    obtain ⟨quote, backslash⟩ := not_short none_
    split
    · next control =>
      have small : c.toNat < 0x10000 := by omega
      rw [readUnits_escapeUnit small, unitsOf_small (by omega)]
      rfl
    · next printable =>
      split
      · next wide =>
        simp only [Bool.and_eq_true] at wide
        rw [unitsOf, if_pos wide.1, readUnits_utf16]
      · next direct =>
        have plain : unitsOf ascii c = [c.toNat] := by
          cases ascii with
          | false => rfl
          | true =>
              apply unitsOf_small
              simp at direct
              omega
        rw [plain]
        exact readUnits_plain quote backslash printable rest

theorem joinUnits_plain {u : ℕ} (plain : ¬ (0xd800 ≤ u ∧ u < 0xe000)) (us : List ℕ) :
    joinUnits (u :: us) = Char.ofNat u :: joinUnits us := by
  conv_lhs => unfold joinUnits
  rw [if_neg (by omega), if_neg (by omega)]

theorem joinUnits_unitsOf (ascii : Bool) (c : Char) (us : List ℕ) :
    joinUnits (unitsOf ascii c ++ us) = c :: joinUnits us := by
  have bounds := toNat_bounds c
  have direct : joinUnits (c.toNat :: us) = c :: joinUnits us := by
    rw [joinUnits_plain bounds.2, Char.ofNat_toNat]
  cases ascii with
  | false => exact direct
  | true =>
      simp only [unitsOf, if_true]
      by_cases small : c.toNat < 0x10000
      · rw [utf16_small small]
        exact direct
      · have bound := bounds.1
        have high : 0xd800 ≤ 0xd800 + (c.toNat - 0x10000) / 0x400 ∧
            0xd800 + (c.toNat - 0x10000) / 0x400 < 0xdc00 := by omega
        have low : 0xdc00 ≤ 0xdc00 + (c.toNat - 0x10000) % 0x400 ∧
            0xdc00 + (c.toNat - 0x10000) % 0x400 < 0xe000 := by omega
        have whole : 0x10000 + (0xd800 + (c.toNat - 0x10000) / 0x400 - 0xd800) * 0x400 +
            (0xdc00 + (c.toNat - 0x10000) % 0x400 - 0xdc00) = c.toNat := by omega
        simp only [utf16, small, if_false, List.cons_append, List.nil_append]
        conv_lhs => unfold joinUnits
        rw [if_pos high]
        simp only [if_pos low]
        rw [whole, Char.ofNat_toNat]

theorem readUnits_escape (ascii : Bool) (text rest : List Char) :
    readUnits (escape ascii text ++ '"' :: rest) =
      some (text.flatMap (unitsOf ascii), rest) := by
  induction text with
  | nil => exact readUnits_quote rest
  | cons c cs ih =>
      simp only [escape, List.flatMap_cons, List.append_assoc] at ih ⊢
      rw [readUnits_escapeChar, ih]
      rfl

theorem joinUnits_flatMap (ascii : Bool) (text : List Char) :
    joinUnits (text.flatMap (unitsOf ascii)) = text := by
  induction text with
  | nil => rfl
  | cons c cs ih => rw [List.flatMap_cons, joinUnits_unitsOf, ih]

/-- A quoted string reads back. -/
theorem readString_escape (ascii : Bool) (s : String) (rest : List Char) :
    readString (escape ascii s.toList ++ '"' :: rest) = some (s, rest) := by
  rw [readString, readUnits_escape, Option.map_some, joinUnits_flatMap, String.ofList_toList]

/-! Numbers and words. -/

theorem toDigits_head {n : ℕ} (positive : 0 < n) : (Nat.toDigits 10 n).head? ≠ some '0' := by
  induction n using Nat.strong_induction_on with
  | _ n ih =>
      by_cases small : n < 10
      · rw [Nat.toDigits_of_lt_base small]
        simpa using Nat.pos_iff_ne_zero.mp positive
      · have split := Nat.toDigits_of_base_le (b := 10) (n := n) (by decide) (by omega)
        have front := ih (n / 10) (by omega) (by omega)
        rw [split, List.head?_append_of_ne_nil _ Nat.toDigits_ne_nil]
        exact front

theorem toDigits_digits (n : ℕ) : ∀ c ∈ Nat.toDigits 10 n, c.isDigit = true :=
  fun _ member => Nat.isDigit_of_mem_toDigits (by decide) (by decide) member

theorem isWhole_toDigits (n : ℕ) : isWhole (Nat.toDigits 10 n) = true := by
  rcases Nat.eq_zero_or_pos n with rfl | positive
  · rfl
  · have head := toDigits_head positive
    have filled := @Nat.toDigits_ne_nil n 10
    simp [isWhole, filled, head]

theorem digitsOf_digits {digits : List Char} (all : ∀ c ∈ digits, c.isDigit = true) :
    digitsOf digits = (digits, []) := by
  rw [digitsOf, List.takeWhile_eq_self_iff.mpr all, List.dropWhile_eq_nil_iff.mpr all]

theorem signOf_digits {digits : List Char} (all : ∀ c ∈ digits, c.isDigit = true) :
    signOf digits = (false, digits) := by
  refine if_neg fun minus => ?_
  have digit := all '-' (List.mem_of_head? minus)
  revert digit
  decide

theorem tokenValue_intText (n : ℤ) : tokenValue (intText n) = some (int n) := by
  have digits := toDigits_digits n.natAbs
  have number := PyText.intOf_toDigits n.natAbs
  have sign : signOf (intText n) = (decide (n < 0), Nat.toDigits 10 n.natAbs) := by
    unfold intText
    split
    · next negative => simp [signOf, negative]
    · next positive => rw [signOf_digits digits, decide_eq_false positive]
  have integer : isInteger (intText n) = true := by
    simp [isInteger, sign, digitsOf_digits digits, isWhole_toDigits]
  have word : ∀ text : List Char, isInteger text = false → intText n ≠ text := by
    rintro text no rfl
    rw [integer] at no
    cases no
  rw [tokenValue, if_neg (word _ (by decide)), if_neg (word _ (by decide)),
    if_neg (word _ (by decide)), if_pos integer, sign, number]
  simp only [Option.some.injEq, int.injEq, decide_eq_true_eq]
  split <;> omega

theorem isInteger_of_isReal {text : List Char} (real : isReal text = true) :
    isInteger text = false := by
  simp only [isReal, Bool.or_eq_true, Bool.and_eq_true] at real
  rcases real with ⟨⟨_, more⟩, _⟩ | word
  · simp only [isInteger, Bool.and_eq_false_iff]
    exact .inr (by simpa using more)
  · simp only [List.mem_cons, List.not_mem_nil, or_false, decide_eq_true_eq] at word
    rcases word with rfl | rfl | rfl <;> decide

theorem tokenValue_literal (r : FloatLiteral) : tokenValue r.literal = some (real r) := by
  have word : ∀ text : List Char, isReal text = false → r.literal ≠ text := by
    intro text no same
    have yes := r.isReal
    rw [same, no] at yes
    cases yes
  have fraction : ¬ isInteger r.literal = true := by simp [isInteger_of_isReal r.isReal]
  rw [tokenValue, if_neg (word _ (by decide)), if_neg (word _ (by decide)),
    if_neg (word _ (by decide)), if_neg fraction, dif_pos ⟨r.isReal, r.isToken⟩]

/-- What follows a value does not continue its last word. -/
def Stops (rest : List Char) : Prop := ∀ c, rest.head? = some c → isTokenChar c = false

theorem stops_nil : Stops [] := fun _ h => by cases h

theorem stops_cons {c : Char} {cs : List Char} (stop : isTokenChar c = false) : Stops (c :: cs) := by
  rintro _ ⟨⟩
  exact stop

theorem readToken_append {text : List Char} {v : Json} (value : tokenValue text = some v)
    (token : ∀ c ∈ text, isTokenChar c = true) {rest : List Char} (stops : Stops rest) :
    readToken (text ++ rest) = some (v, rest) := by
  have front : (text ++ rest).takeWhile isTokenChar = text ∧
      (text ++ rest).dropWhile isTokenChar = rest := by
    rw [List.takeWhile_append_of_pos token, List.dropWhile_append_of_pos token]
    cases rest with
    | nil => simp
    | cons c cs => simp [stops c rfl]
  rw [readToken, front.1, front.2, value]
  rfl

/-! Values. -/

theorem readValue_token {text : List Char} {v : Json} (value : tokenValue text = some v)
    (token : ∀ c ∈ text, isTokenChar c = true) (filled : text ≠ []) {rest : List Char}
    (stops : Stops rest) (fuel : ℕ) : readValue (fuel + 1) (text ++ rest) = some (v, rest) := by
  obtain ⟨c, cs, rfl⟩ := List.exists_cons_of_ne_nil filled
  have head := token c (by simp)
  have plain : ∀ d, isTokenChar d = false → c ≠ d := by
    rintro d no rfl
    rw [head] at no
    cases no
  have blank : isBlank c = false := by
    simp [isBlank, plain ' ' (by decide), plain '\t' (by decide), plain '\n' (by decide),
      plain '\r' (by decide)]
  have skipped : skipBlanks (c :: cs ++ rest) = c :: cs ++ rest := by
    simp [skipBlanks, blank]
  have dispatch : readValue (fuel + 1) (c :: cs ++ rest) = readToken (c :: cs ++ rest) := by
    rw [readValue, skipped]
    split
    · next same => exact absurd (List.cons.inj same).1 (plain '"' (by decide))
    · next same => exact absurd (List.cons.inj same).1 (plain '[' (by decide))
    · next same => exact absurd (List.cons.inj same).1 (plain '{' (by decide))
    · rfl
  rw [dispatch]
  exact readToken_append value token stops

theorem stops_more (ascii : Bool) (close : Char) (stop : isTokenChar close = false)
    (rest : List Char) :
    (∀ vs, Stops (printMoreItems ascii vs ++ close :: rest)) ∧
      ∀ fs, Stops (printMoreFields ascii fs ++ close :: rest) := by
  constructor
  · intro vs
    cases vs with
    | nil => exact stops_cons stop
    | cons v vs => exact stops_cons (by decide)
  · intro fs
    cases fs with
    | nil => exact stops_cons stop
    | cons f fs => exact stops_cons (by decide)

theorem printMoreItems_cons (ascii : Bool) (v : Json) (vs : List Json) :
    printMoreItems ascii (v :: vs) = ',' :: printItems ascii (v :: vs) := by
  rw [printMoreItems, printItems]

theorem printMoreFields_cons (ascii : Bool) (f : String × Json) (fs : List (String × Json)) :
    printMoreFields ascii (f :: fs) = ',' :: printFields ascii (f :: fs) := by
  rw [printMoreFields, printFields]

theorem skipBlanks_cons {c : Char} (plain : isBlank c = false) (cs : List Char) :
    skipBlanks (c :: cs) = c :: cs := by
  simp [skipBlanks, plain]

theorem intText_token (n : ℤ) : (∀ c ∈ intText n, isTokenChar c = true) ∧ intText n ≠ [] := by
  have digits : ∀ c ∈ Nat.toDigits 10 n.natAbs, isTokenChar c = true := by
    intro c member
    simp [isTokenChar, Char.isAlphanum, toDigits_digits _ c member]
  unfold intText
  split
  · refine ⟨fun c member => ?_, by simp⟩
    rcases List.mem_cons.mp member with rfl | member
    · rfl
    · exact digits c member
  · exact ⟨digits, Nat.toDigits_ne_nil⟩

theorem literal_token (r : FloatLiteral) :
    (∀ c ∈ r.literal, isTokenChar c = true) ∧ r.literal ≠ [] := by
  refine ⟨List.all_eq_true.mp r.isToken, fun empty => ?_⟩
  have real := r.isReal
  rw [empty] at real
  exact absurd real (by decide)

/-- A value is a word, or it opens with one of three characters. -/
theorem print_head (ascii : Bool) (v : Json) :
    ∃ c cs, print ascii v = c :: cs ∧ (isTokenChar c = true ∨ c = '"' ∨ c = '[' ∨ c = '{') := by
  have word : ∀ text : List Char, (∀ c ∈ text, isTokenChar c = true) ∧ text ≠ [] →
      ∃ c cs, text = c :: cs ∧ (isTokenChar c = true ∨ c = '"' ∨ c = '[' ∨ c = '{') := by
    rintro text ⟨token, filled⟩
    obtain ⟨c, cs, rfl⟩ := List.exists_cons_of_ne_nil filled
    exact ⟨c, cs, rfl, .inl (token c (by simp))⟩
  cases v with
  | null => exact word _ (by rw [print]; exact ⟨List.all_iff_forall_prop.mp (by decide), by decide⟩)
  | bool b =>
      cases b <;> exact word _ (by rw [print]; exact ⟨List.all_iff_forall_prop.mp (by decide), by decide⟩)
  | int n => exact word _ (by rw [print]; exact intText_token n)
  | real r => exact word _ (by rw [print]; exact literal_token r)
  | str s => exact ⟨'"', _, by rw [print, quote], by simp⟩
  | arr items => exact ⟨'[', _, by rw [print], by simp⟩
  | obj fields => exact ⟨'{', _, by rw [print], by simp⟩

theorem print_length (ascii : Bool) (v : Json) : 0 < (print ascii v).length := by
  obtain ⟨c, cs, text, _⟩ := print_head ascii v
  simp [text]

theorem head_plain {c d : Char} (head : isTokenChar c = true ∨ c = '"' ∨ c = '[' ∨ c = '{')
    (other : isTokenChar d = false ∧ d ≠ '"' ∧ d ≠ '[' ∧ d ≠ '{') : c ≠ d := by
  rintro rfl
  simp_all

theorem head_notBlank {c : Char}
    (head : isTokenChar c = true ∨ c = '"' ∨ c = '[' ∨ c = '{') : isBlank c = false := by
  simp [isBlank, head_plain head (d := ' ') (by decide), head_plain head (d := '\t') (by decide),
    head_plain head (d := '\n') (by decide), head_plain head (d := '\r') (by decide)]

theorem readValue_quote (fuel : ℕ) (rest : List Char) : readValue (fuel + 1) ('"' :: rest) =
    (readString rest).map fun r => (str r.1, r.2) := rfl

theorem readValue_bracket (fuel : ℕ) (rest : List Char) : readValue (fuel + 1) ('[' :: rest) =
    match skipBlanks rest with
    | ']' :: rest => some (arr [], rest)
    | rest => (readItems fuel rest).map fun r => (arr r.1, r.2) := rfl

theorem readValue_brace (fuel : ℕ) (rest : List Char) : readValue (fuel + 1) ('{' :: rest) =
    match skipBlanks rest with
    | '}' :: rest => some (obj [], rest)
    | rest => (readFields fuel rest).map fun r => (obj r.1, r.2) := rfl

/-- After the value of an item. -/
theorem readItems_after {fuel : ℕ} {text : List Char} {v : Json} {next : List Char}
    (value : readValue fuel text = some (v, next)) :
    (∀ rest, next = ',' :: rest →
      readItems (fuel + 1) text = (readItems fuel rest).map fun r => (v :: r.1, r.2)) ∧
    ∀ rest, next = ']' :: rest → readItems (fuel + 1) text = some ([v], rest) := by
  constructor
  · rintro rest rfl
    rw [readItems, value]
    rfl
  · rintro rest rfl
    rw [readItems, value]
    rfl

/-- After the value of a field. -/
theorem readFields_after {fuel : ℕ} {text after : List Char} {k : String} {v : Json}
    {next : List Char} (key : readString text = some (k, ':' :: after))
    (value : readValue fuel after = some (v, next)) :
    (∀ rest, next = ',' :: rest → readFields (fuel + 1) ('"' :: text) =
      (readFields fuel rest).map fun r => ((k, v) :: r.1, r.2)) ∧
    ∀ rest, next = '}' :: rest → readFields (fuel + 1) ('"' :: text) = some ([(k, v)], rest) := by
  have opened : skipBlanks ('"' :: text) = '"' :: text := rfl
  have colon : skipBlanks (':' :: after) = ':' :: after := rfl
  constructor
  · rintro rest rfl
    simp only [readFields, opened, key, Option.bind_some, colon, value]
    rfl
  · rintro rest rfl
    simp only [readFields, opened, key, Option.bind_some, colon, value]
    rfl

theorem readValue_items (ascii : Bool) (v : Json) (vs : List Json) (fuel : ℕ) (rest : List Char) :
    readValue (fuel + 1) ('[' :: (printItems ascii (v :: vs) ++ rest)) =
      (readItems fuel (printItems ascii (v :: vs) ++ rest)).map fun r => (arr r.1, r.2) := by
  obtain ⟨c, cs, text, head⟩ := print_head ascii v
  have front : printItems ascii (v :: vs) ++ rest = c :: (cs ++ (printMoreItems ascii vs ++ rest)) := by
    rw [printItems, text, List.cons_append, List.cons_append, List.append_assoc]
  rw [front, readValue_bracket, skipBlanks_cons (head_notBlank head)]
  split
  · next same => exact absurd (List.cons.inj same).1 (head_plain head (by decide))
  · rfl

theorem readValue_fields (ascii : Bool) (f : String × Json) (fs : List (String × Json)) (fuel : ℕ)
    (rest : List Char) :
    readValue (fuel + 1) ('{' :: (printFields ascii (f :: fs) ++ rest)) =
      (readFields fuel (printFields ascii (f :: fs) ++ rest)).map fun r => (obj r.1, r.2) := by
  have front : ∃ cs, printFields ascii (f :: fs) ++ rest = '"' :: cs := by
    rw [printFields, quote]
    exact ⟨_, rfl⟩
  obtain ⟨cs, front⟩ := front
  rw [front, readValue_brace, skipBlanks_cons (by decide)]
  rfl

mutual

theorem readValue_print (ascii : Bool) : ∀ (v : Json) (fuel : ℕ) (rest : List Char),
    (print ascii v).length ≤ fuel → Stops rest →
      readValue fuel (print ascii v ++ rest) = some (v, rest)
  | null, 0, _, long, _ => by simp [print] at long
  | null, fuel + 1, rest, _, stops => by
      rw [print]
      exact readValue_token rfl (List.all_iff_forall_prop.mp (by decide)) (by decide) stops fuel
  | bool x, 0, _, long, _ => absurd (print_length ascii (bool x)) (Nat.not_lt.mpr long)
  | bool true, fuel + 1, rest, _, stops => by
      rw [print]
      exact readValue_token rfl (List.all_iff_forall_prop.mp (by decide)) (by decide) stops fuel
  | bool false, fuel + 1, rest, _, stops => by
      rw [print]
      exact readValue_token rfl (List.all_iff_forall_prop.mp (by decide)) (by decide) stops fuel
  | int x, 0, _, long, _ => absurd (print_length ascii (int x)) (Nat.not_lt.mpr long)
  | int n, fuel + 1, rest, _, stops => by
      rw [print]
      exact readValue_token (tokenValue_intText n) (intText_token n).1 (intText_token n).2 stops fuel
  | real x, 0, _, long, _ => absurd (print_length ascii (real x)) (Nat.not_lt.mpr long)
  | real r, fuel + 1, rest, _, stops => by
      rw [print]
      exact readValue_token (tokenValue_literal r) (literal_token r).1 (literal_token r).2 stops fuel
  | str x, 0, _, long, _ => absurd (print_length ascii (str x)) (Nat.not_lt.mpr long)
  | str s, fuel + 1, rest, _, _ => by
      rw [print, quote, List.cons_append, List.append_assoc, List.singleton_append,
        readValue_quote, readString_escape]
      rfl
  | arr x, 0, _, long, _ => absurd (print_length ascii (arr x)) (Nat.not_lt.mpr long)
  | arr [], fuel + 1, rest, _, _ => by
      simp [print, printItems, readValue, skipBlanks, isBlank]
  | arr (v :: vs), fuel + 1, rest, long, _ => by
      rw [print, List.cons_append, List.append_assoc, List.singleton_append, readValue_items,
        readItems_print ascii (v :: vs) fuel rest (by simp)]
      · rfl
      · simp only [print, List.length_cons, List.length_append] at long
        omega
  | obj x, 0, _, long, _ => absurd (print_length ascii (obj x)) (Nat.not_lt.mpr long)
  | obj [], fuel + 1, rest, _, _ => by
      simp [print, printFields, readValue, skipBlanks, isBlank]
  | obj (f :: fs), fuel + 1, rest, long, _ => by
      rw [print, List.cons_append, List.append_assoc, List.singleton_append, readValue_fields,
        readFields_print ascii (f :: fs) fuel rest (by simp)]
      · rfl
      · simp only [print, List.length_cons, List.length_append] at long
        omega

theorem readItems_print (ascii : Bool) : ∀ (items : List Json) (fuel : ℕ) (rest : List Char),
    items ≠ [] → (printItems ascii items).length + 1 ≤ fuel →
      readItems fuel (printItems ascii items ++ ']' :: rest) = some (items, rest)
  | [], _, _, filled, _ => absurd rfl filled
  | _ :: _, 0, _, _, long => absurd long (by omega)
  | v :: vs, fuel + 1, rest, _, long => by
      simp only [printItems, List.length_append] at long
      have value := readValue_print ascii v fuel (printMoreItems ascii vs ++ ']' :: rest) (by omega)
        ((stops_more ascii ']' (by decide) rest).1 vs)
      have after := readItems_after value
      rw [printItems, List.append_assoc]
      cases more : vs with
      | nil =>
          rw [more] at after
          exact after.2 rest rfl
      | cons w ws =>
          rw [more, printMoreItems_cons] at long after
          rw [printMoreItems_cons]
          have tail := readItems_print ascii vs fuel rest (by simp [more])
            (by rw [more]; simp only [List.length_cons] at long; omega)
          rw [more] at tail
          rw [List.cons_append] at after
          rw [List.cons_append, after.1 _ rfl, tail]
          rfl

theorem readFields_print (ascii : Bool) :
    ∀ (fields : List (String × Json)) (fuel : ℕ) (rest : List Char),
    fields ≠ [] → (printFields ascii fields).length + 1 ≤ fuel →
      readFields fuel (printFields ascii fields ++ '}' :: rest) = some (fields, rest)
  | [], _, _, filled, _ => absurd rfl filled
  | _ :: _, 0, _, _, long => absurd long (by omega)
  | (k, v) :: fs, fuel + 1, rest, _, long => by
      simp only [printFields, quote, List.length_append, List.length_cons] at long
      have value := readValue_print ascii v fuel (printMoreFields ascii fs ++ '}' :: rest) (by omega)
        ((stops_more ascii '}' (by decide) rest).2 fs)
      have key := readString_escape ascii k
        (':' :: (print ascii v ++ (printMoreFields ascii fs ++ '}' :: rest)))
      have after := readFields_after key value
      have text : printFields ascii ((k, v) :: fs) ++ '}' :: rest = '"' :: (escape ascii k.toList ++
          '"' :: ':' :: (print ascii v ++ (printMoreFields ascii fs ++ '}' :: rest))) := by
        simp [printFields, quote]
      rw [text]
      cases more : fs with
      | nil =>
          rw [more] at after
          exact after.2 rest rfl
      | cons g gs =>
          rw [more, printMoreFields_cons] at long after
          rw [printMoreFields_cons]
          have tail := readFields_print ascii fs fuel rest (by simp [more])
            (by rw [more]; simp only [List.length_cons] at long; omega)
          rw [more] at tail
          rw [List.cons_append] at after
          rw [List.cons_append, after.1 _ rfl, tail]
          rfl

end

/-- `json.loads` of a printed value. -/
theorem loads_print (ascii : Bool) (v : Json) : loads (print ascii v) = some v := by
  have read := readValue_print ascii v ((print ascii v).length + 1) [] (by omega) stops_nil
  rw [List.append_nil] at read
  rw [loads, read]
  rfl

end Uta.Lib.Json
