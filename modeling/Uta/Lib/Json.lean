/- JSON: values, their compact texts, and reading a text back. -/
import Uta.Lib.Dict
import Uta.Lib.PyText
import Mathlib.Tactic.SplitIfs

namespace Uta.Lib

/-! Numbers that are not integers. -/

namespace Json

/-- The digits at the front, and the rest. -/
def digitsOf (text : List Char) : List Char × List Char :=
  (text.takeWhile Char.isDigit, text.dropWhile Char.isDigit)

/-- `([eE][-+]?\d+)?` and nothing more. -/
def isExponent : List Char → Bool
  | [] => true
  | e :: rest =>
    (e == 'e' || e == 'E') &&
      let digits := if rest.head? = some '+' ∨ rest.head? = some '-' then rest.tail else rest
      !digits.isEmpty && digits.all Char.isDigit

/-- `(\.\d+)?([eE][-+]?\d+)?` and nothing more. -/
def isFraction : List Char → Bool
  | '.' :: rest => !(digitsOf rest).1.isEmpty && isExponent (digitsOf rest).2
  | rest => isExponent rest

/-- A minus sign, and the rest. -/
def signOf (text : List Char) : Bool × List Char :=
  if text.head? = some '-' then (true, text.tail) else (false, text)

def isWhole (digits : List Char) : Bool :=
  !digits.isEmpty && (digits.head? != some '0' || digits.length == 1)

/-- An integer literal. -/
def isInteger (text : List Char) : Bool :=
  let body := (signOf text).2
  isWhole (digitsOf body).1 && (digitsOf body).2.isEmpty

/-- A literal of a number that is not an integer. -/
def isReal (text : List Char) : Bool :=
  let body := (signOf text).2
  isWhole (digitsOf body).1 && !(digitsOf body).2.isEmpty && isFraction (digitsOf body).2 ||
    decide (text ∈ ["NaN".toList, "Infinity".toList, "-Infinity".toList])

def isTokenChar (c : Char) : Bool :=
  c.isAlphanum || c == '+' || c == '-' || c == '.'

end Json

/-- A float, by its literal. -/
structure FloatLiteral where
  literal : List Char
  isReal : Json.isReal literal = true
  isToken : literal.all Json.isTokenChar = true
  deriving DecidableEq

/-- An object is its list of pairs. -/
inductive Json where
  | null
  | bool (value : Bool)
  | int (value : ℤ)
  | real (value : FloatLiteral)
  | str (value : String)
  | arr (items : List Json)
  | obj (fields : List (String × Json))

namespace Json

/-- The fields of an object. -/
def fields? : Json → Option (List (String × Json))
  | obj fields => some fields
  | _ => none

mutual

/-- `sort_keys`. -/
def sortKeys : Json → Json
  | arr items => arr (sortItems items)
  | obj fields => obj (Dict.sorted (sortFields fields))
  | v => v

def sortItems : List Json → List Json
  | [] => []
  | v :: vs => sortKeys v :: sortItems vs

def sortFields : List (String × Json) → List (String × Json)
  | [] => []
  | (k, v) :: fs => (k, sortKeys v) :: sortFields fs

end

theorem sortItems_eq_map (items : List Json) : sortItems items = items.map sortKeys := by
  induction items with
  | nil => rfl
  | cons v vs ih => rw [sortItems, ih, List.map_cons]

theorem sortFields_eq_map (fields : List (String × Json)) :
    sortFields fields = fields.map fun f => (f.1, sortKeys f.2) := by
  induction fields with
  | nil => rfl
  | cons f fs ih => rw [sortFields, ih, List.map_cons]

/-- What a sorted object holds. -/
theorem get?_sortKeys (fields : List (String × Json)) (key : String) :
    Dict.get? (Dict.sorted (sortFields fields)) key = (Dict.get? fields key).map sortKeys := by
  rw [Dict.get?_sorted, sortFields_eq_map, Dict.get?_map]

mutual

/-- Sorted keys stay as they are. -/
theorem sortKeys_sortKeys : ∀ v : Json, v.sortKeys.sortKeys = v.sortKeys
  | .null | .bool _ | .int _ | .real _ | .str _ => rfl
  | .arr items => by rw [sortKeys, sortKeys, sortItems_sortItems items]
  | .obj fields => by
      have inner := sortFields_sortFields fields
      rw [sortFields_eq_map, sortFields_eq_map] at inner
      rw [sortKeys, sortKeys, sortFields_eq_map, sortFields_eq_map,
        ← Dict.sorted_map, Dict.sorted_sorted, inner]

theorem sortItems_sortItems : ∀ items : List Json, sortItems (sortItems items) = sortItems items
  | [] => rfl
  | v :: vs => by rw [sortItems, sortItems, sortKeys_sortKeys v, sortItems_sortItems vs]

theorem sortFields_sortFields : ∀ fields : List (String × Json),
    sortFields (sortFields fields) = sortFields fields
  | [] => rfl
  | (k, v) :: fs => by
      rw [sortFields, sortFields, sortKeys_sortKeys v, sortFields_sortFields fs]

end

/-- Whether Python takes a value for true. -/
def truthy : Json → Bool
  | null => false
  | bool b => b
  | int n => n ≠ 0
  | real r => (r.literal.takeWhile fun c => c ≠ 'e' && c ≠ 'E').any fun c =>
      c.isAlphanum && c ≠ '0'
  | str s => s ≠ ""
  | arr items => !items.isEmpty
  | obj fields => !fields.isEmpty

/-! Strings. -/

def hexDigit (n : ℕ) : Char := Nat.digitChar n

/-- Four lower-case hexadecimal digits. -/
def hex4 (n : ℕ) : List Char :=
  [hexDigit (n / 4096 % 16), hexDigit (n / 256 % 16), hexDigit (n / 16 % 16), hexDigit (n % 16)]

def escapeUnit (n : ℕ) : List Char := '\\' :: 'u' :: hex4 n

/-- The UTF-16 code units of a code point. -/
def utf16 (n : ℕ) : List ℕ :=
  if n < 0x10000 then [n] else [0xd800 + (n - 0x10000) / 0x400, 0xdc00 + (n - 0x10000) % 0x400]

/-- The character that a short escape names, in the order of the pairs. -/
def shortEscapes : List (Char × Char) :=
  [('"', '"'), ('\\', '\\'), ('\x08', 'b'), ('\x0c', 'f'), ('\n', 'n'), ('\r', 'r'), ('\t', 't')]

/-- With `ascii` everything outside the printable ASCII characters is escaped. -/
def escapeChar (ascii : Bool) (c : Char) : List Char :=
  match shortEscapes.find? fun pair => pair.1 = c with
  | some pair => ['\\', pair.2]
  | none =>
    if c.toNat < 0x20 then escapeUnit c.toNat
    else if ascii && !decide (c.toNat < 0x7f) then (utf16 c.toNat).flatMap escapeUnit
    else [c]

def escape (ascii : Bool) (text : List Char) : List Char := text.flatMap (escapeChar ascii)

def quote (ascii : Bool) (text : String) : List Char :=
  '"' :: (escape ascii text.toList ++ ['"'])

/-! Texts without blanks. -/

def intText (n : ℤ) : List Char :=
  if n < 0 then '-' :: Nat.toDigits 10 n.natAbs else Nat.toDigits 10 n.natAbs

mutual

def print (ascii : Bool) : Json → List Char
  | null => "null".toList
  | bool true => "true".toList
  | bool false => "false".toList
  | int n => intText n
  | real r => r.literal
  | str s => quote ascii s
  | arr items => '[' :: (printItems ascii items ++ [']'])
  | obj fields => '{' :: (printFields ascii fields ++ ['}'])

def printItems (ascii : Bool) : List Json → List Char
  | [] => []
  | v :: vs => print ascii v ++ printMoreItems ascii vs

def printMoreItems (ascii : Bool) : List Json → List Char
  | [] => []
  | v :: vs => ',' :: (print ascii v ++ printMoreItems ascii vs)

def printFields (ascii : Bool) : List (String × Json) → List Char
  | [] => []
  | (k, v) :: fs => quote ascii k ++ ':' :: (print ascii v ++ printMoreFields ascii fs)

def printMoreFields (ascii : Bool) : List (String × Json) → List Char
  | [] => []
  | (k, v) :: fs => ',' :: (quote ascii k ++ ':' :: (print ascii v ++ printMoreFields ascii fs))

end

/-! Reading. -/

def hexValue (c : Char) : Option ℕ :=
  if '0' ≤ c ∧ c ≤ '9' then some (c.toNat - '0'.toNat)
  else if 'a' ≤ c ∧ c ≤ 'f' then some (c.toNat - 'a'.toNat + 10)
  else if 'A' ≤ c ∧ c ≤ 'F' then some (c.toNat - 'A'.toNat + 10)
  else none

def readHex4 (a b c d : Char) : Option ℕ := do
  let a ← hexValue a
  let b ← hexValue b
  let c ← hexValue c
  let d ← hexValue d
  some (a * 4096 + b * 256 + c * 16 + d)

def readShort (c : Char) : Option ℕ :=
  if c = '/' then some '/'.toNat
  else (shortEscapes.find? fun pair => pair.2 = c).map fun pair => pair.1.toNat

/-- The code units of a string, after its opening quote. -/
def readUnits : List Char → Option (List ℕ × List Char)
  | [] => none
  | c :: rest =>
    if c = '"' then some ([], rest)
    else if c = '\\' then
      match rest with
      | 'u' :: d₁ :: d₂ :: d₃ :: d₄ :: rest =>
        (readHex4 d₁ d₂ d₃ d₄).bind fun u => (readUnits rest).map fun r => (u :: r.1, r.2)
      | e :: rest => (readShort e).bind fun u => (readUnits rest).map fun r => (u :: r.1, r.2)
      | [] => none
    else if c.toNat < 0x20 then none
    else (readUnits rest).map fun r => (c.toNat :: r.1, r.2)

/-- The characters of code units; a surrogate without its partner is replaced. -/
def joinUnits : List ℕ → List Char
  | [] => []
  | u :: us =>
    if 0xd800 ≤ u ∧ u < 0xdc00 then
      match us with
      | v :: vs =>
        if 0xdc00 ≤ v ∧ v < 0xe000 then
          Char.ofNat (0x10000 + (u - 0xd800) * 0x400 + (v - 0xdc00)) :: joinUnits vs
        else '�' :: joinUnits (v :: vs)
      | [] => ['�']
    else if 0xdc00 ≤ u ∧ u < 0xe000 then '�' :: joinUnits us
    else Char.ofNat u :: joinUnits us

def readString (text : List Char) : Option (String × List Char) :=
  (readUnits text).map fun r => (String.ofList (joinUnits r.1), r.2)

def isBlank (c : Char) : Bool := c == ' ' || c == '\t' || c == '\n' || c == '\r'

def skipBlanks (text : List Char) : List Char := text.dropWhile isBlank

/-- What a word or a number stands for. -/
def tokenValue (token : List Char) : Option Json :=
  if token = "null".toList then some null
  else if token = "true".toList then some (bool true)
  else if token = "false".toList then some (bool false)
  else if isInteger token then
    let n : ℤ := PyText.intOf ((signOf token).2.map fun c => c.toNat - '0'.toNat)
    some (int (if (signOf token).1 then -n else n))
  else if real : isReal token = true ∧ token.all isTokenChar = true then
    some (.real ⟨token, real.1, real.2⟩)
  else none

def readToken (text : List Char) : Option (Json × List Char) :=
  (tokenValue (text.takeWhile isTokenChar)).map fun v => (v, text.dropWhile isTokenChar)

mutual

/-- A value and what follows it; `fuel` bounds the nesting and the number of items. -/
def readValue : ℕ → List Char → Option (Json × List Char)
  | 0, _ => none
  | fuel + 1, text =>
    match skipBlanks text with
    | '"' :: rest => (readString rest).map fun r => (str r.1, r.2)
    | '[' :: rest =>
      match skipBlanks rest with
      | ']' :: rest => some (arr [], rest)
      | rest => (readItems fuel rest).map fun r => (arr r.1, r.2)
    | '{' :: rest =>
      match skipBlanks rest with
      | '}' :: rest => some (obj [], rest)
      | rest => (readFields fuel rest).map fun r => (obj r.1, r.2)
    | rest => readToken rest

def readItems : ℕ → List Char → Option (List Json × List Char)
  | 0, _ => none
  | fuel + 1, text =>
    (readValue fuel text).bind fun v =>
      match skipBlanks v.2 with
      | ',' :: rest => (readItems fuel rest).map fun r => (v.1 :: r.1, r.2)
      | ']' :: rest => some ([v.1], rest)
      | _ => none

def readFields : ℕ → List Char → Option (List (String × Json) × List Char)
  | 0, _ => none
  | fuel + 1, text =>
    match skipBlanks text with
    | '"' :: rest =>
      (readString rest).bind fun k =>
        match skipBlanks k.2 with
        | ':' :: rest =>
          (readValue fuel rest).bind fun v =>
            match skipBlanks v.2 with
            | ',' :: rest => (readFields fuel rest).map fun r => ((k.1, v.1) :: r.1, r.2)
            | '}' :: rest => some ([(k.1, v.1)], rest)
            | _ => none
        | _ => none
    | _ => none

end

/-- `json.loads`. -/
def loads (text : List Char) : Option Json :=
  (readValue (text.length + 1) text).bind fun r =>
    if (skipBlanks r.2).isEmpty then some r.1 else none

end Json
end Uta.Lib
