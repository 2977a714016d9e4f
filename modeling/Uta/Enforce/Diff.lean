/- The added-line scanner over a zero-context git diff, and the diffs it reads
correctly. -/
import Uta.Lib.PyText
import Mathlib.Order.Interval.Finset.Nat

namespace Uta.Enforce
open Uta.Lib PyText

/-! The scanner. -/

/-- `text` without `head`, when it starts with it. -/
def after? (head : String) (text : List Char) : Option (List Char) :=
  if PyText.startsWith head text then some (text.drop head.toList.length) else none

/-- `\d+`. -/
def number? (text : List Char) : Option (ℕ × List Char) :=
  if (takeDigits text).1 = [] then none else some (intOf (takeDigits text).1, (takeDigits text).2)

/-- What follows `(?:,\d+)?`. -/
def afterCount (text : List Char) : List Char :=
  match (after? "," text).bind number? with
  | some (_, rest) => rest
  | none => text

/-- `int(HUNK_RE.match(raw_line).group(1))`. -/
def hunkStart (rawLine : List Char) : Option ℕ := do
  let rest ← after? "@@ -" rawLine
  let (_, rest) ← number? rest
  let rest ← after? " +" (afterCount rest)
  let (start, rest) ← number? rest
  let _ ← after? " @@" (afterCount rest)
  pure start

/-- The locals of the loop. -/
structure DiffScan where
  currentLine : Option ℕ
  lines : Finset ℕ

def scanLine (s : DiffScan) (rawLine : List Char) : DiffScan :=
  match hunkStart rawLine with
  | some start => { s with currentLine := some start }
  | none =>
    match s.currentLine with
    | none => s
    | some current =>
      if PyText.startsWith "+" rawLine ∧ ¬ PyText.startsWith "+++" rawLine then
        { currentLine := some (current + 1), lines := insert current s.lines }
      else if PyText.startsWith "-" rawLine ∧ ¬ PyText.startsWith "---" rawLine then s
      else { s with currentLine := some (current + 1) }

def parseAddedDiffLines (diffText : List Char) : Finset ℕ :=
  ((splitlines diffText).foldl scanLine ⟨none, ∅⟩).lines

/-! Git's rendering of a zero-context diff. -/

/-- The content of one line of a file, or a heading: no newline in it. -/
abbrev Line := { cs : List Char // '\n' ∉ cs }

structure Hunk where
  oldStart : ℕ
  newStart : ℕ
  heading : Line
  removed : List Line
  added : List Line
  /-- The old, or the new, file ends in this hunk without a newline. -/
  oldUnended : Bool := false
  newUnended : Bool := false

/-- `start,count`, the count left out when it is 1. -/
def range (start count : ℕ) : List Char :=
  Nat.toDigits 10 start ++ if count = 1 then [] else ',' :: Nat.toDigits 10 count

def noNewline (unended : Bool) : List (List Char) :=
  if unended then ["\\ No newline at end of file".toList] else []

namespace Hunk
variable (h : Hunk)

def header : List Char :=
  "@@ -".toList ++ (range h.oldStart h.removed.length ++ (" +".toList ++
    (range h.newStart h.added.length ++ " @@".toList)))

def headerLine : List Char :=
  h.header ++ if h.heading.1 = [] then [] else ' ' :: h.heading.1

def removedLines : List (List Char) := h.removed.map ('-' :: ·.1) ++ noNewline h.oldUnended

def addedLines : List (List Char) := h.added.map ('+' :: ·.1) ++ noNewline h.newUnended

def lines : List (List Char) := h.headerLine :: (h.removedLines ++ h.addedLines)

/-- The new-file numbers of the hunk's added lines. -/
def numbers : Finset ℕ := Finset.Ico h.newStart (h.newStart + h.added.length)

end Hunk

/-- A zero-context diff of one file: its hunks in order, the first lines naming
the file. -/
structure ZeroContextDiff where
  preamble : List Line
  hunks : List Hunk
  /-- No line of the preamble reads as a hunk header. -/
  quiet : ∀ l ∈ preamble, ∀ p ∈ pieces l.1, hunkStart p = none
  ordered : hunks.Pairwise fun h k => h.newStart + h.added.length ≤ k.newStart

namespace ZeroContextDiff
variable (d : ZeroContextDiff)

def lines : List (List Char) := d.preamble.map (·.1) ++ d.hunks.flatMap Hunk.lines

def render : List Char := d.lines.flatMap (· ++ ['\n'])

def addedLineNumbers : Finset ℕ := d.hunks.foldr (fun h s => h.numbers ∪ s) ∅

end ZeroContextDiff

/-! What the scanner does with a line that is no hunk header. -/

inductive Mark where
  | plus | minus | other
  deriving DecidableEq

def markOf (rawLine : List Char) : Mark :=
  if PyText.startsWith "+" rawLine ∧ ¬ PyText.startsWith "+++" rawLine then .plus
  else if PyText.startsWith "-" rawLine ∧ ¬ PyText.startsWith "---" rawLine then .minus
  else .other

/-- The numbers reported by a run of lines, from the counter on. -/
def reports : ℕ → List Mark → Finset ℕ
  | _, [] => ∅
  | k, .plus :: ms => insert k (reports (k + 1) ms)
  | k, .minus :: ms => reports k ms
  | k, .other :: ms => reports (k + 1) ms

/-- How far a run of lines moves the counter. -/
def advance : List Mark → ℕ
  | [] => 0
  | .minus :: ms => advance ms
  | .plus :: ms | .other :: ms => advance ms + 1

section
-- The equations are made here, once, for the lemmas that follow.
attribute [local simp] reports advance
end

theorem le_of_mem_reports {k m : ℕ} {ms : List Mark} (h : m ∈ reports k ms) : k ≤ m := by
  induction ms generalizing k with
  | nil => simp [reports] at h
  | cons mark ms ih =>
      cases mark with
      | plus =>
          rcases Finset.mem_insert.mp h with rfl | later
          · exact le_refl m
          · have := ih later
            omega
      | minus => exact ih h
      | other =>
          have := ih h
          omega

theorem reports_append (k : ℕ) (xs ys : List Mark) :
    reports k (xs ++ ys) = reports k xs ∪ reports (k + advance xs) ys := by
  induction xs generalizing k with
  | nil => simp [reports, advance]
  | cons mark xs ih =>
      cases mark with
      | plus => simp [reports, advance, ih, Nat.add_assoc, Nat.add_comm 1]
      | minus => simp [reports, advance, ih]
      | other => simp [reports, advance, ih, Nat.add_assoc, Nat.add_comm 1]

theorem reports_of_no_plus {ms : List Mark} (none : ∀ m ∈ ms, m ≠ .plus) (k : ℕ) :
    reports k ms = ∅ := by
  induction ms generalizing k with
  | nil => rfl
  | cons mark ms ih =>
      have tail := ih fun m member => none m (by simp [member])
      cases mark with
      | plus => exact absurd rfl (none .plus (by simp))
      | minus => exact tail k
      | other => exact tail (k + 1)

theorem advance_eq_zero {ms : List Mark} : advance ms = 0 ↔ ∀ m ∈ ms, m = .minus := by
  induction ms with
  | nil => simp [advance]
  | cons mark ms ih => cases mark <;> simp [advance, ih]

theorem advance_append (xs ys : List Mark) : advance (xs ++ ys) = advance xs + advance ys := by
  induction xs with
  | nil => simp [advance]
  | cons mark xs ih => cases mark <;> simp only [List.cons_append, advance, ih] <;> omega

theorem scanLine_plain {p : List Char} (plain : hunkStart p = none) (k : ℕ) (found : Finset ℕ) :
    scanLine ⟨some k, found⟩ p =
      ⟨some (k + advance [markOf p]), found ∪ reports k [markOf p]⟩ := by
  unfold scanLine markOf
  rw [plain]
  by_cases plus : PyText.startsWith "+" p = true ∧ ¬ PyText.startsWith "+++" p = true
  · simp [plus, advance, reports]
  · by_cases minus : PyText.startsWith "-" p = true ∧ ¬ PyText.startsWith "---" p = true
    · simp only [if_neg plus, if_pos minus, advance, reports, Nat.add_zero, Finset.union_empty]
    · simp only [if_neg plus, if_neg minus, advance, reports, Nat.zero_add, Finset.union_empty]

/-- Lines without a hunk header move the counter and report. -/
theorem scan_run {raws : List (List Char)} (plain : ∀ p ∈ raws, hunkStart p = none) (k : ℕ)
    (found : Finset ℕ) : raws.foldl scanLine ⟨some k, found⟩ =
      ⟨some (k + advance (raws.map markOf)), found ∪ reports k (raws.map markOf)⟩ := by
  induction raws generalizing k found with
  | nil => simp [advance, reports]
  | cons p ps ih =>
      rw [List.foldl_cons, scanLine_plain (plain p (by simp)),
        ih (fun q member => plain q (by simp [member]))]
      have joined : (p :: ps).map markOf = [markOf p] ++ ps.map markOf := rfl
      rw [joined, advance_append, reports_append, Finset.union_assoc, Nat.add_assoc]

theorem scan_quiet {raws : List (List Char)} (plain : ∀ p ∈ raws, hunkStart p = none)
    (found : Finset ℕ) : raws.foldl scanLine ⟨none, found⟩ = ⟨none, found⟩ := by
  induction raws with
  | nil => rfl
  | cons p ps ih =>
      have quiet : scanLine ⟨none, found⟩ p = ⟨none, found⟩ := by
        unfold scanLine
        rw [plain p (by simp)]
      rw [List.foldl_cons, quiet]
      exact ih fun q member => plain q (by simp [member])

/-! Reading the header back. -/

theorem after?_append (head : String) (rest : List Char) :
    after? head (head.toList ++ rest) = some rest := by
  simp [after?, PyText.startsWith]

theorem number?_append (n : ℕ) (rest : List Char)
    (stop : ∀ c, rest.head? = some c → digitValue c = none) :
    number? (Nat.toDigits 10 n ++ rest) = some (n, rest) := by
  have plain : ∀ c ∈ Nat.toDigits 10 n, c.isDigit = true := fun c member =>
    Nat.isDigit_of_mem_toDigits (by decide) (by decide) member
  unfold number?
  rw [takeDigits_append _ plain rest stop, if_neg (by simp [Nat.toDigits_ne_nil]), intOf_toDigits]

theorem range_read (start count : ℕ) (rest : List Char)
    (stop : ∀ c, rest.head? = some c → digitValue c = none ∧ c ≠ ',') :
    ∃ tail, number? (range start count ++ rest) = some (start, tail) ∧ afterCount tail = rest := by
  unfold range
  by_cases single : count = 1
  · refine ⟨rest, ?_, ?_⟩
    · rw [if_pos single, List.append_nil]
      exact number?_append start rest fun c head => (stop c head).1
    · unfold afterCount after?
      have comma : PyText.startsWith "," rest = false := by
        cases rest with
        | nil => rfl
        | cons c cs => simpa [PyText.startsWith] using (stop c rfl).2.symm
      rw [comma]
      rfl
  · refine ⟨',' :: Nat.toDigits 10 count ++ rest, ?_, ?_⟩
    · rw [if_neg single, List.append_assoc]
      apply number?_append
      intro c head
      obtain rfl : c = ',' := by simpa using head.symm
      decide
    · unfold afterCount
      have comma : after? "," (',' :: Nat.toDigits 10 count ++ rest) =
          some (Nat.toDigits 10 count ++ rest) := after?_append "," _
      rw [comma, Option.bind_some, number?_append count rest fun c head => (stop c head).1]

theorem hunkStart_header (h : Hunk) (rest : List Char) :
    hunkStart (h.header ++ rest) = some h.newStart := by
  have close : ∀ c, (" @@".toList ++ rest).head? = some c → digitValue c = none ∧ c ≠ ',' := by
    intro c head
    obtain rfl : c = ' ' := by simpa using head.symm
    decide
  have plus : ∀ c, (" +".toList ++ (range h.newStart h.added.length ++ (" @@".toList ++ rest))).head?
      = some c → digitValue c = none ∧ c ≠ ',' := by
    intro c head
    obtain rfl : c = ' ' := by simpa using head.symm
    decide
  obtain ⟨tail, old, oldCount⟩ := range_read h.oldStart h.removed.length _ plus
  obtain ⟨tail', new, newCount⟩ := range_read h.newStart h.added.length _ close
  unfold hunkStart Hunk.header
  rw [List.append_assoc, List.append_assoc, List.append_assoc, List.append_assoc, after?_append]
  simp only [Option.bind_eq_bind, Option.bind_some, old, oldCount, after?_append, new, newCount]
  rfl

end Uta.Enforce
