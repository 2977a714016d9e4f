/- Python text: the parts of `str` that scanners rest on, over lists of code
points. -/
import Mathlib.Data.List.DropRight
import Mathlib.Data.List.Infix
import Mathlib.Data.List.Flatten
import Mathlib.Tactic.Common

namespace Uta.Lib.PyText

/-- `str.isspace` of one code point. -/
def isSpace (c : Char) : Bool :=
  let n := c.toNat
  (9 ≤ n && n ≤ 13) || (28 ≤ n && n ≤ 32) || n == 0x85 || n == 0xa0 || n == 0x1680 ||
    (0x2000 ≤ n && n ≤ 0x200a) || n == 0x2028 || n == 0x2029 || n == 0x202f || n == 0x205f ||
    n == 0x3000

/-- Texts are compared by what they hold. -/
instance lawfulText : LawfulBEq (List Char) := inferInstance

/-- `text.strip()`. -/
def strip (text : List Char) : List Char :=
  ((text.dropWhile isSpace).reverse.dropWhile isSpace).reverse

/-- What the front of a list keeps when its end is cut. -/
theorem dropWhile_take {α : Type} {p : α → Bool} {l : List α} (front : l.dropWhile p = l) (n : ℕ) :
    (l.take n).dropWhile p = l.take n := by
  cases l with
  | nil => simp
  | cons a l =>
      cases n with
      | zero => rfl
      | succ n =>
          have own : ¬ p a = true := by
            intro drops
            rw [List.dropWhile_cons_of_pos drops] at front
            have shorter := (List.dropWhile_sublist p (l := l)).length_le
            rw [front] at shorter
            rw [List.length_cons] at shorter
            omega
          rw [List.take_succ_cons, List.dropWhile_cons_of_neg own]

theorem strip_strip (text : List Char) : strip (strip text) = strip text := by
  have ended : ∀ l : List Char, ∃ n, (l.reverse.dropWhile isSpace).reverse = l.take n := by
    intro l
    have suffix := List.dropWhile_suffix isSpace (l := l.reverse)
    have start : (l.reverse.dropWhile isSpace).reverse <+: l := by
      simpa using List.reverse_prefix.mpr suffix
    exact ⟨_, (List.prefix_iff_eq_take.mp start)⟩
  obtain ⟨n, cut⟩ := ended (text.dropWhile isSpace)
  have front : (strip text).dropWhile isSpace = strip text := by
    rw [strip, cut]
    exact dropWhile_take (List.dropWhile_idempotent _ _) n
  rw [strip, front, strip, List.reverse_reverse, List.dropWhile_idempotent]

/-- `text[-n:]`, for a positive `n`. -/
def lastChars (n : Nat) (text : List Char) : List Char := text.drop (text.length - n)

/-- `marker in text.lower()`, for a marker of ASCII letters and blanks none of
which is the lower case of a code point outside ASCII. -/
def containsLower (marker : String) (text : List Char) : Bool :=
  decide (marker.toList <:+: text.map Char.toLower)

/-- `text.startswith(head)`. -/
def startsWith (head : String) (text : List Char) : Bool := decide (head.toList <+: text)

/-! Lines. -/

/-- The code points at which `str.splitlines` ends a line. -/
def isLineBreak (c : Char) : Bool :=
  c.toNat ∈ [0x0a, 0x0b, 0x0c, 0x0d, 0x1c, 0x1d, 0x1e, 0x85, 0x2028, 0x2029]

/-- `text.splitlines()`; CR LF is one break. -/
def splitlines : List Char → List (List Char)
  | [] => []
  | '\r' :: '\n' :: cs => [] :: splitlines cs
  | c :: cs =>
    if isLineBreak c then [] :: splitlines cs
    else
      match splitlines cs with
      | [] => [[c]]
      | p :: ps => (c :: p) :: ps

/-- What `splitlines` makes of one line that is ended by a newline. -/
def pieces (line : List Char) : List (List Char) := splitlines (line ++ ['\n'])

section
-- The equations are made here, once, for the lemmas that follow.
attribute [local simp] splitlines
end

/-- The piece a line starts with. -/
def first (line : List Char) : List Char := (pieces line).headD []

/-- The pieces after the first: none, unless the line holds a break of its own. -/
def extra (line : List Char) : List (List Char) := (pieces line).tail

theorem splitlines_cons (c : Char) (cs : List Char) (single : ¬ (c = '\r' ∧ cs.head? = some '\n')) :
    splitlines (c :: cs) = if isLineBreak c then [] :: splitlines cs
      else ((splitlines cs).headD []).cons c :: (splitlines cs).tail := by
  rw [splitlines.eq_3]
  · by_cases break_ : isLineBreak c
    · rw [if_pos break_, if_pos break_]
    · rw [if_neg break_, if_neg break_]
      rcases splitlines cs with _ | ⟨p, ps⟩ <;> rfl
  · rintro rest rfl rfl
    exact single ⟨rfl, rfl⟩

theorem splitlines_newline (cs : List Char) : splitlines ('\n' :: cs) = [] :: splitlines cs := by
  rw [splitlines_cons '\n' cs (fun h => absurd h.1 (by decide)), if_pos (by decide)]

@[simp] theorem pieces_nil : pieces [] = [[]] := splitlines_newline []

theorem pieces_ne_nil (line : List Char) : pieces line ≠ [] := by
  unfold pieces
  cases line with
  | nil => rw [List.nil_append, splitlines_newline]; simp
  | cons c cs =>
      by_cases double : c = '\r' ∧ (cs ++ ['\n']).head? = some '\n'
      · obtain ⟨rfl, next⟩ := double
        cases cs with
        | nil => rw [List.cons_append, List.nil_append, splitlines]; simp
        | cons d ds =>
            obtain rfl : d = '\n' := by simpa using next
            rw [List.cons_append, List.cons_append, splitlines]; simp
      · rw [List.cons_append, splitlines_cons c _ double]
        split <;> simp

theorem pieces_eq (line : List Char) : pieces line = first line :: extra line := by
  unfold first extra
  rcases h : pieces line with _ | ⟨p, ps⟩
  · exact absurd h (pieces_ne_nil line)
  · rfl

/-- Lines of a text are split one by one. -/
theorem splitlines_line (line rest : List Char) (whole : '\n' ∉ line) :
    splitlines (line ++ '\n' :: rest) = pieces line ++ splitlines rest := by
  induction line with
  | nil => rw [List.nil_append, splitlines_newline]; rfl
  | cons c cs ih =>
      obtain ⟨_, tail⟩ := not_or.mp (List.mem_cons.not.mp whole)
      have ih := ih tail
      by_cases last : c = '\r' ∧ cs = []
      · obtain ⟨rfl, rfl⟩ := last
        have alone : pieces ['\r'] = [[]] := by simp [pieces, splitlines]
        rw [alone]
        simp [splitlines]
      · have single : ∀ more : List Char, ¬ (c = '\r' ∧ (cs ++ '\n' :: more).head? = some '\n') := by
          rintro more ⟨rfl, next⟩
          cases cs with
          | nil => exact last ⟨rfl, rfl⟩
          | cons d ds =>
              obtain rfl : d = '\n' := by simpa using next
              exact tail (by simp)
        have nonempty : pieces cs = first cs :: extra cs := pieces_eq cs
        have split : pieces (c :: cs) =
            if isLineBreak c then [] :: pieces cs else (first cs).cons c :: extra cs := by
          exact splitlines_cons c (cs ++ ['\n']) (single [])
        rw [List.cons_append, splitlines_cons c _ (single rest), ih, split, nonempty]
        split <;> rfl

theorem splitlines_lines (lines : List (List Char)) (whole : ∀ l ∈ lines, '\n' ∉ l)
    (rest : List Char) : splitlines (lines.flatMap (· ++ ['\n']) ++ rest) =
      lines.flatMap pieces ++ splitlines rest := by
  induction lines with
  | nil => rfl
  | cons l ls ih =>
      have head := whole l (by simp)
      have tail := ih fun m member => whole m (by simp [member])
      rw [List.flatMap_cons, List.flatMap_cons, List.append_assoc, List.append_assoc,
        List.append_assoc, List.singleton_append, splitlines_line l _ head, tail]

theorem pieces_cons {c : Char} (plain : isLineBreak c = false) (line : List Char) :
    pieces (c :: line) = (c :: first line) :: extra line := by
  have single : ¬ (c = '\r' ∧ (line ++ ['\n']).head? = some '\n') := by
    rintro ⟨rfl, _⟩
    exact absurd plain (by decide)
  have split := splitlines_cons c (line ++ ['\n']) single
  rw [if_neg (by rw [plain]; decide)] at split
  exact split

theorem pieces_append (head line : List Char) (plain : ∀ c ∈ head, isLineBreak c = false) :
    pieces (head ++ line) = (head ++ first line) :: extra line := by
  induction head with
  | nil => exact pieces_eq line
  | cons c cs ih =>
      have tail := ih fun d member => plain d (by simp [member])
      rw [List.cons_append, pieces_cons (plain c (by simp))]
      have split := pieces_eq (cs ++ line)
      rw [tail] at split
      obtain ⟨h, t⟩ := List.cons.inj split
      rw [← h, ← t, List.cons_append]

/-! Decimal digits. -/

/-- The zeros of the blocks of ten decimal digits (category Nd, Unicode 14). -/
def decimalZeros : List ℕ :=
  [0x30, 0x660, 0x6f0, 0x7c0, 0x966, 0x9e6, 0xa66, 0xae6, 0xb66, 0xbe6, 0xc66, 0xce6, 0xd66, 0xde6,
    0xe50, 0xed0, 0xf20, 0x1040, 0x1090, 0x17e0, 0x1810, 0x1946, 0x19d0, 0x1a80, 0x1a90, 0x1b50,
    0x1bb0, 0x1c40, 0x1c50, 0xa620, 0xa8d0, 0xa900, 0xa9d0, 0xa9f0, 0xaa50, 0xabf0, 0xff10, 0x104a0,
    0x10d30, 0x11066, 0x110f0, 0x11136, 0x111d0, 0x112f0, 0x11450, 0x114d0, 0x11650, 0x116c0,
    0x11730, 0x118e0, 0x11950, 0x11c50, 0x11d50, 0x11da0, 0x16a60, 0x16ac0, 0x16b50, 0x1d7ce,
    0x1d7d8, 0x1d7e2, 0x1d7ec, 0x1d7f6, 0x1e140, 0x1e2f0, 0x1e950, 0x1fbf0]

/-- The value of a code point that `\\d` matches. -/
def digitValue (c : Char) : Option ℕ :=
  (decimalZeros.find? fun z => decide (z ≤ c.toNat ∧ c.toNat < z + 10)).map (c.toNat - ·)

/-- The longest run of digits at the front, as values, and what follows it. -/
def takeDigits : List Char → List ℕ × List Char
  | [] => ([], [])
  | c :: cs =>
    match digitValue c with
    | some d => (d :: (takeDigits cs).1, (takeDigits cs).2)
    | none => ([], c :: cs)

/-- `int(digits)`. -/
def intOf (digits : List ℕ) : ℕ := digits.foldl (fun n d => 10 * n + d) 0

theorem digitValue_of_isDigit {c : Char} (h : c.isDigit = true) :
    digitValue c = some (c.toNat - '0'.toNat) := by
  have bounds : 0x30 ≤ c.toNat ∧ c.toNat < 0x30 + 10 := by
    simp only [Char.isDigit, Bool.and_eq_true, decide_eq_true_eq, ge_iff_le] at h
    obtain ⟨low, high⟩ := h
    have low : 48 ≤ c.toNat := low
    have high : c.toNat ≤ 57 := high
    omega
  unfold digitValue decimalZeros
  rw [List.find?_cons_of_pos (by simpa using bounds)]
  rfl

theorem takeDigits_append (digits : List Char) (plain : ∀ c ∈ digits, c.isDigit = true)
    (rest : List Char) (stop : ∀ c, rest.head? = some c → digitValue c = none) :
    takeDigits (digits ++ rest) = (digits.map (fun c => c.toNat - '0'.toNat), rest) := by
  induction digits with
  | nil =>
      cases rest with
      | nil => rfl
      | cons c cs => simp [takeDigits, stop c rfl]
  | cons c cs ih =>
      have tail := ih fun d member => plain d (by simp [member])
      rw [List.cons_append, takeDigits, digitValue_of_isDigit (plain c (by simp)), tail]
      rfl

/-- `int(str(n)) = n`. -/
theorem intOf_toDigits (n : ℕ) :
    intOf ((Nat.toDigits 10 n).map (fun c => c.toNat - '0'.toNat)) = n := by
  unfold intOf
  rw [List.foldl_map, ← Nat.ofDigitChars_eq_foldl]
  exact Nat.ofDigitChars_ten_toDigits

end Uta.Lib.PyText
