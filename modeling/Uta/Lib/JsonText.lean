/- What a search for quoted keys meets in a compact JSON text: a key is met where
one was printed, or at the end of a longer one, and a literal after it is whole. -/
import Uta.Lib.JsonLaws
import Uta.Lib.Places
import Mathlib

namespace Uta.Lib.Json

open Places

/-! Literals, without reading the rest of the text. -/

/-- `(?:\\.|[^"\\])*"`. -/
def stringRest : List Char → Option (List Char)
  | [] => none
  | c :: rest =>
    if c = '"' then some ['"']
    else if c = '\\' then
      match rest with
      | [] => none
      | e :: rest => if e = '\n' then none else (stringRest rest).map fun s => '\\' :: e :: s
    else (stringRest rest).map fun s => c :: s

section
-- The equations are made here, once, for the lemmas that follow.
attribute [local simp] stringRest
end

def words : List (List Char) := ["null".toList, "true".toList, "false".toList]

/-- `null|true|false|"(?:\\.|[^"\\])*"`. -/
def scalarText : List Char → Option (List Char)
  | [] => none
  | c :: rest =>
    if c = '"' then (stringRest rest).map fun s => '"' :: s
    else words.find? fun word => word.isPrefixOf (c :: rest)

/-- `"key"`. -/
def mark (key : String) : List Char := '"' :: (key.toList ++ ['"'])

/-- `"key"\s*:\s*`, and what follows it. -/
def keyed {β : Type} (key : String) (read : List Char → Option β) (text : List Char) : Option β :=
  (text.dropPrefix? (mark key)).bind fun rest =>
    match rest.dropWhile PyText.isSpace with
    | ':' :: rest => read (rest.dropWhile PyText.isSpace)
    | _ => none

/-- A key of letters, digits and underscores. -/
def PlainKey (key : String) : Prop :=
  key.toList ≠ [] ∧ key.toList.all fun c => c.isAlphanum || c == '_'

instance (key : String) : Decidable (PlainKey key) := inferInstanceAs (Decidable (_ ∧ _))

/-! A longer text. -/

theorem stringRest_quote (rest : List Char) : stringRest ('"' :: rest) = some ['"'] := by
  rw [stringRest.eq_def]
  exact if_pos rfl

theorem stringRest_escaped {e : Char} (single : e ≠ '\n') (rest : List Char) :
    stringRest ('\\' :: e :: rest) = (stringRest rest).map fun s => '\\' :: e :: s := by
  rw [stringRest, if_neg (by decide), if_pos rfl]
  exact if_neg single

theorem stringRest_plain {c : Char} (quote : c ≠ '"') (slash : c ≠ '\\') (rest : List Char) :
    stringRest (c :: rest) = (stringRest rest).map fun s => c :: s := by
  rw [stringRest.eq_def]
  exact (if_neg quote).trans (if_neg slash)

theorem stringRest_append {text s : List Char} (read : stringRest text = some s)
    (more : List Char) : stringRest (text ++ more) = some s := by
  induction text using stringRest.induct generalizing s with
  | case1 => cases read
  | case2 rest =>
      rw [List.cons_append, stringRest_quote]
      rwa [stringRest_quote] at read
  | case3 quote => simp [stringRest] at read
  | case4 rest quote => simp [stringRest] at read
  | case5 e rest single quote ih =>
      simp only [List.cons_append, stringRest_escaped single] at read ⊢
      cases inner : stringRest rest with
      | none => simp [inner] at read
      | some found => rw [ih inner, ← inner, read]
  | case6 c rest quote slash ih =>
      simp only [List.cons_append, stringRest_plain quote slash] at read ⊢
      cases inner : stringRest rest with
      | none => simp [inner] at read
      | some found => rw [ih inner, ← inner, read]

theorem word_unique {a b text : List Char} (first : a ∈ words) (second : b ∈ words)
    (ahead : a <+: text) (behind : b <+: text) : a = b := by
  have apart : ∀ a ∈ words, ∀ b ∈ words, a <+: b → a = b := by decide
  rcases List.prefix_or_prefix_of_prefix ahead behind with within | within
  · exact apart a first b second within
  · exact (apart b second a first within).symm

theorem scalarText_append {text s : List Char} (read : scalarText text = some s)
    (more : List Char) : scalarText (text ++ more) = some s := by
  cases text with
  | nil => cases read
  | cons c rest =>
      rw [List.cons_append]
      rw [scalarText] at read ⊢
      by_cases quote : c = '"'
      · rw [if_pos quote] at read ⊢
        cases inner : stringRest rest with
        | none => simp [inner] at read
        | some found => rw [stringRest_append inner, ← inner, read]
      · rw [if_neg quote] at read ⊢
        have holds := List.find?_some read
        have front : s <+: c :: rest := List.isPrefixOf_iff_prefix.mp holds
        have listed := List.mem_of_find?_eq_some read
        have longer : s <+: c :: (rest ++ more) := front.trans (List.prefix_append (c :: rest) more)
        cases other : words.find? fun w => w.isPrefixOf (c :: (rest ++ more)) with
        | none => exact absurd (List.isPrefixOf_iff_prefix.mpr longer) (List.find?_eq_none.mp other s listed)
        | some w =>
            have prefixed : w <+: c :: (rest ++ more) := by
              have holds := List.find?_some other
              exact List.isPrefixOf_iff_prefix.mp holds
            rw [word_unique (List.mem_of_find?_eq_some other) listed prefixed longer]

theorem keyed_append {β : Type} {key : String} {read : List Char → Option β}
    (stays : ∀ text more v, read text = some v → read (text ++ more) = some v)
    (empty : read [] = none) {text : List Char} {v : β} (reads : keyed key read text = some v)
    (more : List Char) : keyed key read (text ++ more) = some v := by
  obtain ⟨rest, dropped, found⟩ := Option.bind_eq_some_iff.mp reads
  clear reads
  obtain ⟨front, rfl, same⟩ := List.dropPrefix?_eq_some_iff.mp dropped
  have after : (front ++ rest ++ more).dropPrefix? (mark key) = some (rest ++ more) := by
    rw [List.append_assoc]
    exact List.dropPrefix?_append_of_beq _ same
  rw [keyed, after, Option.bind_some, List.dropWhile_append]
  split at found
  · next value colon =>
    have goes : (value ++ more).dropWhile PyText.isSpace =
        value.dropWhile PyText.isSpace ++ more := by
      rw [List.dropWhile_append, if_neg]
      intro none_
      rw [List.isEmpty_iff.mp none_, empty] at found
      cases found
    simp only [colon, List.isEmpty_cons, Bool.false_eq_true, if_false, List.cons_append, goes]
    exact stays _ more v found
  · cases found

theorem keyed_grows {β : Type} (key : String) {read : List Char → Option β}
    (stays : ∀ text more v, read text = some v → read (text ++ more) = some v)
    (empty : read [] = none) : Grows (keyed key read) := by
  intro text more found
  obtain ⟨v, found⟩ := Option.isSome_iff_exists.mp found
  rw [keyed_append stays empty found more]
  rfl

/-! Printed strings. -/

theorem hexDigit_plain (n : ℕ) : hexDigit (n % 16) ≠ '"' ∧ hexDigit (n % 16) ≠ '\\' := by
  have all : ∀ n < 16, hexDigit n ≠ '"' ∧ hexDigit n ≠ '\\' := by decide
  exact all _ (Nat.mod_lt n (by decide))

/-- A character is printed as itself, as a pair, or by its code. -/
inductive Escaped (c : Char) : List Char → Prop
  | pair (e : Char) (single : e ≠ '\n') (quote : e = '"' → c = '"') : Escaped c ['\\', e]
  | code (n : ℕ) : Escaped c (escapeUnit n)
  | plain (quote : c ≠ '"') (slash : c ≠ '\\') : Escaped c [c]

theorem escaped (c : Char) : Escaped c (escapeChar false c) := by
  rw [escapeChar]
  cases short : shortEscapes.find? fun pair => pair.1 = c with
  | some pair =>
      obtain ⟨member, own⟩ := shortEscapes_find short
      have all : ∀ pair ∈ shortEscapes, pair.2 ≠ '\n' ∧ (pair.2 = '"' → pair.1 = '"') := by decide
      exact .pair pair.2 (all pair member).1 fun quote => own ▸ (all pair member).2 quote
  | none =>
      obtain ⟨quote, slash⟩ := not_short short
      by_cases control : c.toNat < 0x20
      · simp only [control, if_true]
        exact .code c.toNat
      · simp only [control, if_false, Bool.false_and, Bool.false_eq_true]
        exact .plain quote slash

theorem stringRest_escapeChar (c : Char) (rest : List Char) :
    stringRest (escapeChar false c ++ rest) =
      (stringRest rest).map fun s => escapeChar false c ++ s := by
  have own := escaped c
  generalize escapeChar false c = printed at own ⊢
  cases own with
  | pair e single quote => exact stringRest_escaped single rest
  | plain quote slash => exact stringRest_plain quote slash rest
  | code n =>
      have digit := hexDigit_plain
      simp only [escapeUnit, hex4, List.cons_append, List.nil_append]
      rw [stringRest_escaped (by decide), stringRest_plain (digit _).1 (digit _).2,
        stringRest_plain (digit _).1 (digit _).2, stringRest_plain (digit _).1 (digit _).2,
        stringRest_plain (digit _).1 (digit _).2]
      cases stringRest rest <;> rfl

theorem stringRest_escape (text rest : List Char) :
    stringRest (escape false text ++ '"' :: rest) = some (escape false text ++ ['"']) := by
  induction text with
  | nil => exact stringRest_quote rest
  | cons c cs ih =>
      rw [escape, List.flatMap_cons, List.append_assoc, stringRest_escapeChar]
      rw [escape] at ih
      rw [ih, Option.map_some, List.append_assoc]

/-- A printed string is its own literal. -/
theorem scalarText_quote (s : String) (rest : List Char) :
    scalarText (quote false s ++ rest) = some (quote false s) := by
  rw [quote, List.cons_append, List.append_assoc, List.singleton_append, scalarText, if_pos rfl,
    stringRest_escape]
  rfl

/-- A quote within a printed string begins the printed end of a string. -/
theorem quote_within {cs place : List Char} (suffix : place <:+ escape false cs ++ ['"'])
    (head : place.head? = some '"') :
    place = ['"'] ∨ '"' ∈ cs ∧ ∃ s, place = quote false s := by
  induction cs with
  | nil =>
      rw [escape, List.flatMap_nil, List.nil_append] at suffix
      rcases List.suffix_cons_iff.mp suffix with same | none_
      · exact .inl same
      · rw [List.suffix_nil.mp none_] at head
        cases head
  | cons c cs ih =>
      have shape : escape false (c :: cs) ++ ['"'] =
          escapeChar false c ++ (escape false cs ++ ['"']) := by
        simp [escape]
      rw [shape] at suffix
      have later : place <:+ escape false cs ++ ['"'] →
          place = ['"'] ∨ '"' ∈ c :: cs ∧ ∃ s, place = quote false s := by
        intro within
        rcases ih within with closing | ⟨member, tail⟩
        · exact .inl closing
        · exact .inr ⟨List.mem_cons_of_mem _ member, tail⟩
      have skip : ∀ d rest, d ≠ '"' → place <:+ d :: rest → place <:+ rest := by
        intro d rest other within
        rcases List.suffix_cons_iff.mp within with rfl | within
        · exact absurd (Option.some.inj head) other
        · exact within
      have own := escaped c
      generalize escapeChar false c = printed at suffix own
      cases own with
      | plain quote slash => exact later (skip c _ quote suffix)
      | code n =>
          have digit := hexDigit_plain
          simp only [escapeUnit, hex4, List.cons_append, List.nil_append] at suffix
          exact later (skip _ _ (digit _).1 (skip _ _ (digit _).1 (skip _ _ (digit _).1
            (skip _ _ (digit _).1 (skip _ _ (by decide) (skip _ _ (by decide) suffix))))))
      | pair e single quote =>
          have second := skip _ _ (by decide) suffix
          rcases List.suffix_cons_iff.mp second with rfl | within
          · have same : e = '"' := Option.some.inj head
            refine .inr ⟨by simp [quote same], String.ofList cs, ?_⟩
            rw [same, Json.quote, String.toList_ofList]
            rfl
          · exact later within

/-! Keys. -/

def keyChar (c : Char) : Bool := c.isAlphanum || c == '_'

theorem alphanum_range {c : Char} (letter : c.isAlphanum = true) :
    48 ≤ c.toNat ∧ c.toNat ≤ 122 := by
  simp only [Char.isAlphanum, Char.isAlpha, Char.isUpper, Char.isLower, Char.isDigit,
    Bool.or_eq_true, Bool.and_eq_true, decide_eq_true_eq, ge_iff_le,
    UInt32.le_iff_toNat_le] at letter
  change 48 ≤ c.val.toNat ∧ c.val.toNat ≤ 122
  rcases letter with (⟨low, high⟩ | ⟨low, high⟩) | ⟨low, high⟩
  · have bounds : (65 : ℕ) ≤ c.val.toNat ∧ c.val.toNat ≤ 90 := ⟨low, high⟩
    omega
  · have bounds : (97 : ℕ) ≤ c.val.toNat ∧ c.val.toNat ≤ 122 := ⟨low, high⟩
    omega
  · have bounds : (48 : ℕ) ≤ c.val.toNat ∧ c.val.toNat ≤ 57 := ⟨low, high⟩
    omega

theorem keyChar_plain {c : Char} (own : keyChar c = true) :
    escapeChar false c = [c] ∧ c ≠ '"' ∧ c ≠ '\\' := by
  have special : ∀ d, keyChar d = false → c ≠ d := by
    rintro d no rfl
    rw [own] at no
    cases no
  have printable : ¬ c.toNat < 0x20 := by
    rw [keyChar, Bool.or_eq_true, beq_iff_eq] at own
    rcases own with letter | rfl
    · have range := alphanum_range letter
      omega
    · decide
  have long : (shortEscapes.find? fun pair => pair.1 = c) = none := by
    refine List.find?_eq_none.mpr fun pair member => ?_
    have all : ∀ pair ∈ shortEscapes, keyChar pair.1 = false := by decide
    simpa using (special pair.1 (all pair member)).symm
  refine ⟨?_, special '"' (by decide), special '\\' (by decide)⟩
  simp [escapeChar, long, printable]

theorem escape_key {key : List Char} (plain : ∀ c ∈ key, keyChar c = true) :
    escape false key = key := by
  induction key with
  | nil => rfl
  | cons c cs ih =>
      rw [escape, List.flatMap_cons, (keyChar_plain (plain c (by simp))).1]
      exact congrArg (c :: ·) (ih fun d member => plain d (by simp [member]))

theorem quote_key {key : String} (plain : PlainKey key) : quote false key = mark key := by
  rw [quote, mark, escape_key (List.all_eq_true.mp plain.2)]

/-- A key is met in a printed string only if it is the whole of it. -/
theorem escape_meets {key cs more rest : List Char} (plain : ∀ c ∈ key, keyChar c = true)
    (same : key ++ '"' :: more = escape false cs ++ '"' :: rest) : cs = key ∧ more = rest := by
  induction cs generalizing key with
  | nil =>
      cases key with
      | nil => exact ⟨rfl, (List.cons.inj same).2⟩
      | cons k ks =>
          exact absurd (List.cons.inj same).1 (keyChar_plain (plain k (by simp))).2.1
  | cons c cs ih =>
      rw [escape, List.flatMap_cons, List.append_assoc] at same
      have own := escaped c
      generalize escapeChar false c = printed at own same
      have slashed : ∀ tail, key ++ '"' :: more ≠ '\\' :: tail := by
        intro tail equal
        cases key with
        | nil => exact absurd (List.cons.inj equal).1 (by decide)
        | cons k ks =>
            exact absurd (List.cons.inj equal).1 (keyChar_plain (plain k (by simp))).2.2
      cases own with
      | pair e single quote => exact absurd same (slashed _)
      | code n => exact absurd same (slashed _)
      | plain quote slash =>
          cases key with
          | nil => exact absurd (List.cons.inj same).1.symm quote
          | cons k ks =>
              obtain ⟨rfl, tails⟩ := List.cons.inj same
              obtain ⟨rfl, ends⟩ := ih (fun d member => plain d (by simp [member])) tails
              exact ⟨rfl, ends⟩

theorem mark_meets {key s : String} (plain : PlainKey key) {more rest : List Char}
    (same : mark key ++ more = quote false s ++ rest) : s = key ∧ more = rest := by
  simp only [mark, quote, List.cons_append, List.append_assoc, List.cons.injEq, true_and] at same
  obtain ⟨chars, tails⟩ := escape_meets (List.all_eq_true.mp plain.2) same
  exact ⟨String.toList_injective chars, tails⟩

/-! Texts of tokens. -/

/-- After a string there comes a comma, a colon or a closing bracket, or nothing. -/
def Closed (rest : List Char) : Prop := ∀ c, rest.head? = some c → c ∈ [',', ':', '}', ']']

/-- A text of strings and of characters that are neither quotes nor blanks. -/
inductive Lexed : List Char → Prop
  | nil : Lexed []
  | char (c : Char) (rest : List Char) (quote : c ≠ '"') (blank : PyText.isSpace c = false)
      (lexed : Lexed rest) : Lexed (c :: rest)
  | str (s : String) (rest : List Char) (closed : Closed rest) (lexed : Lexed rest) :
      Lexed (quote false s ++ rest)

theorem Closed.cons {c : Char} (closes : c ∈ [',', ':', '}', ']']) (rest : List Char) :
    Closed (c :: rest) := by
  rintro _ ⟨⟩
  exact closes

theorem Closed.dropWhile {rest : List Char} (closed : Closed rest) :
    rest.dropWhile PyText.isSpace = rest := by
  cases rest with
  | nil => rfl
  | cons c rest =>
      have all : ∀ c ∈ [',', ':', '}', ']'], PyText.isSpace c = false :=
        List.all_iff_forall_prop.mp (by decide)
      simp [all c (closed c rfl)]

theorem Lexed.dropWhile {text : List Char} (lexed : Lexed text) :
    text.dropWhile PyText.isSpace = text := by
  cases lexed with
  | nil => rfl
  | char c rest quote blank later => simp [blank]
  | str s rest closed later => rfl

/-- The places that begin with a quote. -/
theorem Lexed.place {text place : List Char} (lexed : Lexed text) (suffix : place <:+ text)
    (head : place.head? = some '"') :
    ∃ rest, Lexed rest ∧ Closed rest ∧
      (place = '"' :: rest ∨ ∃ s, place = quote false s ++ rest) := by
  induction lexed with
  | nil =>
      rw [List.suffix_nil.mp suffix] at head
      cases head
  | char c rest quote blank later ih =>
      rcases List.suffix_cons_iff.mp suffix with rfl | within
      · exact absurd (Option.some.inj head) quote
      · exact ih within
  | str s rest closed later ih =>
      rcases List.suffix_or_suffix_of_suffix suffix (List.suffix_append _ _) with within | beyond
      · exact ih within
      · obtain ⟨front, rfl⟩ := beyond
        refine ⟨rest, later, closed, ?_⟩
        have inner : front <:+ quote false s := by
          obtain ⟨before, whole⟩ := suffix
          exact ⟨before, List.append_cancel_right (by rw [List.append_assoc, whole])⟩
        cases front with
        | nil =>
            have impossible : '"' ∈ [',', ':', '}', ']'] := closed '"' (by simpa using head)
            exact absurd impossible (by decide)
        | cons c front =>
            rcases List.suffix_cons_iff.mp inner with whole | within
            · exact .inr ⟨s, by rw [whole, Json.quote]⟩
            · rcases quote_within within (by simpa using head) with single | ⟨_, t, printed⟩
              · exact .inl (by rw [single]; rfl)
              · exact .inr ⟨t, by rw [printed]⟩

theorem Lexed.chars {text rest : List Char}
    (plain : ∀ c ∈ text, c ≠ '"' ∧ PyText.isSpace c = false) (lexed : Lexed rest) :
    Lexed (text ++ rest) := by
  induction text with
  | nil => exact lexed
  | cons c cs ih =>
      have own := plain c (by simp)
      exact .char c _ own.1 own.2 (ih fun d member => plain d (by simp [member]))

theorem tokenChar_plain {c : Char} (token : isTokenChar c = true) :
    c ≠ '"' ∧ PyText.isSpace c = false := by
  rw [isTokenChar, Bool.or_eq_true, Bool.or_eq_true, Bool.or_eq_true, beq_iff_eq, beq_iff_eq,
    beq_iff_eq] at token
  rcases token with ((letter | rfl) | rfl) | rfl
  · have range := alphanum_range letter
    refine ⟨fun same => ?_, ?_⟩
    · rw [same] at range
      exact absurd range.1 (by decide)
    · simp [PyText.isSpace]
      omega
  all_goals decide

mutual

theorem print_lexed : ∀ (v : Json) (rest : List Char), Closed rest → Lexed rest →
    Lexed (print false v ++ rest)
  | null, rest, _, lexed => by rw [print]; exact lexed.chars (List.all_iff_forall_prop.mp (by decide))
  | bool true, rest, _, lexed => by rw [print]; exact lexed.chars (List.all_iff_forall_prop.mp (by decide))
  | bool false, rest, _, lexed => by rw [print]; exact lexed.chars (List.all_iff_forall_prop.mp (by decide))
  | int n, rest, _, lexed => by
      rw [print]
      exact lexed.chars fun c member => tokenChar_plain ((intText_token n).1 c member)
  | real r, rest, _, lexed => by
      rw [print]
      exact lexed.chars fun c member => tokenChar_plain ((literal_token r).1 c member)
  | str s, rest, closed, lexed => by rw [print]; exact .str s rest closed lexed
  | arr items, rest, _, lexed => by
      rw [print, List.cons_append, List.append_assoc]
      exact .char '[' _ (by decide) (by decide)
        (printItems_lexed items _ (.cons (by decide) rest)
          (.char ']' rest (by decide) (by decide) lexed))
  | obj fields, rest, _, lexed => by
      rw [print, List.cons_append, List.append_assoc]
      exact .char '{' _ (by decide) (by decide)
        (printFields_lexed fields _ (.cons (by decide) rest)
          (.char '}' rest (by decide) (by decide) lexed))

theorem printItems_lexed : ∀ (items : List Json) (rest : List Char), Closed rest → Lexed rest →
    Lexed (printItems false items ++ rest)
  | [], _, _, lexed => lexed
  | v :: vs, rest, closed, lexed => by
      rw [printItems, List.append_assoc]
      have more := printMoreItems_lexed vs rest closed lexed
      exact print_lexed v _ more.1 more.2

theorem printMoreItems_lexed : ∀ (items : List Json) (rest : List Char), Closed rest →
    Lexed rest → Closed (printMoreItems false items ++ rest) ∧
      Lexed (printMoreItems false items ++ rest)
  | [], _, closed, lexed => ⟨closed, lexed⟩
  | v :: vs, rest, closed, lexed => by
      rw [printMoreItems, List.cons_append, List.append_assoc]
      have more := printMoreItems_lexed vs rest closed lexed
      exact ⟨.cons (by decide) _,
        .char ',' _ (by decide) (by decide) (print_lexed v _ more.1 more.2)⟩

theorem printFields_lexed : ∀ (fields : List (String × Json)) (rest : List Char), Closed rest →
    Lexed rest → Lexed (printFields false fields ++ rest)
  | [], _, _, lexed => lexed
  | (k, v) :: fs, rest, closed, lexed => by
      have more := printMoreFields_lexed fs rest closed lexed
      rw [printFields, List.append_assoc, List.cons_append, List.append_assoc]
      exact .str k _ (.cons (by decide) _)
        (.char ':' _ (by decide) (by decide) (print_lexed v _ more.1 more.2))

theorem printMoreFields_lexed : ∀ (fields : List (String × Json)) (rest : List Char), Closed rest →
    Lexed rest → Closed (printMoreFields false fields ++ rest) ∧
      Lexed (printMoreFields false fields ++ rest)
  | [], _, closed, lexed => ⟨closed, lexed⟩
  | (k, v) :: fs, rest, closed, lexed => by
      have more := printMoreFields_lexed fs rest closed lexed
      rw [printMoreFields, List.cons_append, List.append_assoc, List.cons_append,
        List.append_assoc]
      refine ⟨.cons (by decide) _, .char ',' _ (by decide) (by decide) (.str k _ (.cons (by decide) _)
        (.char ':' _ (by decide) (by decide) (print_lexed v _ more.1 more.2)))⟩

end

/-! What a search for a key reads. -/

section

variable {β : Type} {key : String} {read : List Char → Option β}

theorem keyed_head {place : List Char} (head : place.head? ≠ some '"') :
    keyed key read place = none := by
  have missed : place.dropPrefix? (mark key) = none := by
    by_contra met
    obtain ⟨rest, met⟩ := Option.ne_none_iff_exists'.mp met
    obtain ⟨front, rfl, same⟩ := List.dropPrefix?_eq_some_iff.mp met
    rw [eq_of_beq same] at head
    exact head rfl
  rw [keyed, missed, Option.bind_none]

/-- At a printed string. -/
theorem keyed_quote (plain : PlainKey key) {s : String} {rest : List Char} (closed : Closed rest) :
    keyed key read (quote false s ++ rest) = if s = key then
      (match rest with
        | ':' :: rest => read (rest.dropWhile PyText.isSpace)
        | _ => none) else none := by
  rw [keyed]
  by_cases own : s = key
  · have met : (quote false s ++ rest).dropPrefix? (mark key) = some rest := by
      rw [own, quote_key plain]
      exact List.dropPrefix?_append_of_beq rest (beq_self_eq_true _)
    rw [met, if_pos own, Option.bind_some, closed.dropWhile]
  · have missed : (quote false s ++ rest).dropPrefix? (mark key) = none := by
      by_contra met
      obtain ⟨more, met⟩ := Option.ne_none_iff_exists'.mp met
      obtain ⟨front, whole, same⟩ := List.dropPrefix?_eq_some_iff.mp met
      rw [eq_of_beq same] at whole
      exact own (mark_meets plain whole.symm).1
    rw [missed, if_neg own, Option.bind_none]

/-- At the end of a printed string. -/
theorem keyed_closing (plain : PlainKey key) {rest : List Char} (closed : Closed rest) :
    keyed key read ('"' :: rest) = none := by
  have missed : ('"' :: rest).dropPrefix? (mark key) = none := by
    by_contra met
    obtain ⟨more, met⟩ := Option.ne_none_iff_exists'.mp met
    obtain ⟨front, whole, same⟩ := List.dropPrefix?_eq_some_iff.mp met
    rw [eq_of_beq same, mark] at whole
    obtain ⟨k, ks, letters⟩ := List.exists_cons_of_ne_nil plain.1
    rw [letters] at whole
    have head : rest.head? = some k := by simpa using congrArg (List.head? ∘ List.tail) whole
    have letter := List.all_eq_true.mp plain.2 k (by simp [letters])
    have all : ∀ c ∈ [',', ':', '}', ']'], (c.isAlphanum || c == '_') = false :=
      List.all_iff_forall_prop.mp (by decide)
    rw [all k (closed k head)] at letter
    cases letter
  rw [keyed, missed, Option.bind_none]

/-- What a key is read for in a text of tokens is a text of tokens. -/
theorem keyed_lexed (plain : PlainKey key) {text place : List Char} (lexed : Lexed text)
    (suffix : place <:+ text) {v : β} (found : keyed key read place = some v) :
    ∃ rest, Lexed rest ∧ read rest = some v := by
  have head : place.head? = some '"' := by
    by_contra other
    rw [keyed_head other] at found
    cases found
  obtain ⟨rest, later, closed, rfl | ⟨s, rfl⟩⟩ := lexed.place suffix head
  · rw [keyed_closing plain closed] at found
    cases found
  · rw [keyed_quote plain closed] at found
    split at found
    · split at found
      · next value =>
        cases later with
        | char c rest quote blank inner =>
            rw [inner.dropWhile] at found
            exact ⟨value, inner, found⟩
      · cases found
    · cases found

end

section

variable {β : Type} {key : String} {read : List Char → Option β}

theorem silent_char {c : Char} (other : c ≠ '"') (own : List Char) :
    Silent (keyed key read) [c] own := by
  rw [silent_cons]
  exact ⟨keyed_head fun head => other (Option.some.inj head), silent_nil own⟩

/-- No other key is met in a printed key, and none at all in a printed value. -/
theorem silent_quote (plain : PlainKey key) {s : String} {rest : List Char} (closed : Closed rest)
    (other : s ≠ key ∧ '"' ∉ s.toList ∨ ∀ more, rest ≠ ':' :: more) :
    Silent (keyed key read) (quote false s) rest := by
  have value : (∀ more, rest ≠ ':' :: more) → ∀ t,
      keyed key read (quote false t ++ rest) = none := by
    intro ends t
    rw [keyed_quote plain closed]
    split
    · split
      · next more => exact absurd rfl (ends more)
      · rfl
    · rfl
  intro place member
  have suffix := (List.mem_tails _ _).mp member
  cases place with
  | nil => exact .inl rfl
  | cons c place =>
      refine .inr (Option.isNone_iff_eq_none.mpr ?_)
      by_cases head : c = '"'
      · rcases List.suffix_cons_iff.mp suffix with whole | within
        · have printed : c :: place = quote false s := by rw [whole, Json.quote]
          rw [printed]
          rcases other with ⟨ne, _⟩ | ends
          · rw [keyed_quote plain closed, if_neg ne]
          · exact value ends s
        · rcases quote_within within (by simp [head]) with single | ⟨quoted, t, printed⟩
          · rw [single]
            exact keyed_closing plain closed
          · rw [printed]
            rcases other with ⟨_, bare⟩ | ends
            · exact absurd quoted bare
            · exact value ends t
      · exact keyed_head fun same => head (Option.some.inj same)

end

theorem scalar_lexed {text literal : List Char} (lexed : Lexed text)
    (found : scalarText text = some literal) : ∃ v, loads literal = some v := by
  cases lexed with
  | nil => cases found
  | char c rest quote blank later =>
      rw [scalarText, if_neg quote] at found
      have all : ∀ word ∈ words, (loads word).isSome = true := by decide +kernel
      exact Option.isSome_iff_exists.mp (all literal (List.mem_of_find?_eq_some found))
  | str s rest closed later =>
      rw [scalarText_quote] at found
      cases found
      have read := loads_print false (str s)
      rw [print] at read
      exact ⟨str s, read⟩

end Uta.Lib.Json
