/- The coverage of the changed lines of a file, as it is read out of a coverage report. -/
import Uta.Lib.Percent
import Mathlib.Data.Finset.Card
import Mathlib.Data.Finset.Dedup

namespace Uta.Enforce
open Uta.Lib

/-! The report. -/

/-- A `line` element; an attribute may be missing. -/
structure LineNode where
  number : Option ℤ
  hits : Option ℤ
  deriving DecidableEq, Repr

/-- A `class` element with the `line` elements below it. -/
structure ClassNode where
  filename : Option String
  lines : List LineNode
  deriving DecidableEq, Repr

structure CoverageReport where
  packages : List (List ClassNode)

/-- `findall(".//class")`. -/
def CoverageReport.classes (report : CoverageReport) : List ClassNode := report.packages.flatten

/-- `int(line_node.attrib.get("number") or 0)`. -/
def LineNode.lineNumber (l : LineNode) : ℤ := l.number.getD 0

def LineNode.IsHit (l : LineNode) : Prop := 0 < l.hits.getD 0

instance (l : LineNode) : Decidable l.IsHit := inferInstanceAs (Decidable (_ < _))

/-- `str(attrib.get("filename") or "").replace("\\", "/")`. -/
def ClassNode.path (c : ClassNode) : String :=
  (c.filename.getD "").map fun x => if x = '\\' then '/' else x

/-! The summary. -/

structure CoverageResult where
  covered : ℕ
  total : ℕ
  rate : ℚ
  gate : ℚ
  passed : Bool
  testsPass : Bool
  xmlPath : String
  scope : String
  changedLines : String × List ℤ
  noExecutableChangedLines : Bool

def coverageSummary (sourcePath : String) (covered total : ℕ) (gate : ℚ) (passed : Bool)
    (xmlPath : String) (changedLines : List ℤ) (noExecutable : Bool := false)
    (testsPass : Bool := true) : CoverageResult where
  covered
  total
  rate := if total = 0 ∧ passed = true then 100 else if total = 0 then 0 else percent covered total
  gate
  passed
  testsPass
  xmlPath
  scope := "changed_lines"
  changedLines := (sourcePath, changedLines)
  noExecutableChangedLines := noExecutable

structure Tally where
  covered : ℕ := 0
  total : ℕ := 0
  sourceSeen : Bool := false

section Parse
variable (sourcePath : String) (changed : Finset ℤ)

/-- Whether an entry is taken for one of the source file. -/
def ClassNode.Matches (c : ClassNode) : Prop :=
  c.path = sourcePath ∨ ("/" ++ sourcePath).toList <:+ c.path.toList

instance (c : ClassNode) : Decidable (c.Matches sourcePath) := inferInstanceAs (Decidable (_ ∨ _))

def Tally.countLine (t : Tally) (l : LineNode) : Tally :=
  if l.lineNumber ∉ changed then t
  else { t with total := t.total + 1, covered := if l.IsHit then t.covered + 1 else t.covered }

def Tally.countClass (t : Tally) (c : ClassNode) : Tally :=
  if ¬ c.Matches sourcePath then t
  else c.lines.foldl (countLine changed) { t with sourceSeen := true }

def tallyOf (report : CoverageReport) : Tally :=
  report.classes.foldl (Tally.countClass sourcePath changed) {}

end Parse

/-- `{int(line) for line in changed_lines if int(line) > 0}`. -/
def changedSet (changedLines : List ℤ) : Finset ℤ := (changedLines.filter (0 < ·)).toFinset

def parseCoverageXml (xmlPath : String) (report : CoverageReport) (sourcePath : String)
    (changedLines : List ℤ) (gate : ℚ) : CoverageResult :=
  let changed := changedSet changedLines
  let t := tallyOf sourcePath changed report
  let requested := changed ≠ ∅
  let noExecutable := decide (requested ∧ t.sourceSeen = true ∧ t.total = 0)
  let rate :=
    if requested ∧ t.total = 0 ∧ t.sourceSeen = false then 0 else percent t.covered t.total
  coverageSummary sourcePath t.covered t.total gate (decide (gate ≤ rate)) xmlPath changedLines
    noExecutable

/-! What the loop counts. -/

section Counting
variable (sourcePath : String) (changed : Finset ℤ)

/-- The changed lines below entries. -/
def changedNodes (classes : List ClassNode) : List LineNode :=
  (classes.flatMap ClassNode.lines).filter (·.lineNumber ∈ changed)

def matching (classes : List ClassNode) : List ClassNode := classes.filter (·.Matches sourcePath)

theorem foldl_countLine (lines : List LineNode) (t : Tally) :
    let found := lines.filter (·.lineNumber ∈ changed)
    (lines.foldl (Tally.countLine changed) t).total = t.total + found.length ∧
      (lines.foldl (Tally.countLine changed) t).covered =
        t.covered + (found.filter (·.IsHit)).length := by
  induction lines generalizing t with
  | nil => exact ⟨rfl, rfl⟩
  | cons l lines ih =>
      intro found
      obtain ⟨total, covered⟩ := ih (t.countLine changed l)
      rw [List.foldl_cons, total, covered]
      by_cases counted : l.lineNumber ∈ changed
      · have step : found = l :: lines.filter (·.lineNumber ∈ changed) :=
          List.filter_cons_of_pos (decide_eq_true counted)
        rw [step, Tally.countLine, if_neg (not_not_intro counted)]
        dsimp only
        refine ⟨by rw [List.length_cons]; omega, ?_⟩
        by_cases hit : l.IsHit
        · simp only [List.filter_cons, hit, decide_true, if_true, List.length_cons]
          omega
        · simp only [List.filter_cons, hit, decide_false, if_false, Bool.false_eq_true]
      · have step : found = lines.filter (·.lineNumber ∈ changed) :=
          List.filter_cons_of_neg (by simpa using counted)
        rw [step, Tally.countLine, if_pos counted]
        exact ⟨rfl, rfl⟩

theorem foldl_countClass (classes : List ClassNode) (t : Tally) :
    let found := changedNodes changed (matching sourcePath classes)
    (classes.foldl (Tally.countClass sourcePath changed) t).total = t.total + found.length ∧
      (classes.foldl (Tally.countClass sourcePath changed) t).covered =
        t.covered + (found.filter (·.IsHit)).length := by
  induction classes generalizing t with
  | nil => exact ⟨rfl, rfl⟩
  | cons c classes ih =>
      intro found
      obtain ⟨total, covered⟩ := ih (t.countClass sourcePath changed c)
      rw [List.foldl_cons, total, covered]
      by_cases named : c.Matches sourcePath
      · have step : found = c.lines.filter (·.lineNumber ∈ changed) ++
            changedNodes changed (matching sourcePath classes) := by
          have kept : matching sourcePath (c :: classes) = c :: matching sourcePath classes :=
            List.filter_cons_of_pos (decide_eq_true named)
          rw [show found = changedNodes changed (matching sourcePath (c :: classes)) from rfl, kept,
            changedNodes, List.flatMap_cons, List.filter_append]
          rfl
        obtain ⟨lines, hits⟩ := foldl_countLine changed c.lines { t with sourceSeen := true }
        rw [step, Tally.countClass, if_neg (not_not_intro named), lines, hits, List.filter_append,
          List.length_append, List.length_append]
        dsimp only
        exact ⟨by omega, by omega⟩
      · have step : found = changedNodes changed (matching sourcePath classes) :=
          congrArg (changedNodes changed) (List.filter_cons_of_neg (by simpa using named))
        rw [step, Tally.countClass, if_pos named]
        exact ⟨rfl, rfl⟩

theorem tallyOf_counts (report : CoverageReport) :
    let found := changedNodes changed (matching sourcePath report.classes)
    (tallyOf sourcePath changed report).total = found.length ∧
      (tallyOf sourcePath changed report).covered = (found.filter (·.IsHit)).length := by
  obtain ⟨total, covered⟩ := foldl_countClass sourcePath changed report.classes {}
  exact ⟨total.trans (Nat.zero_add _), covered.trans (Nat.zero_add _)⟩

end Counting

/-! What is to be counted. -/

section Lines
variable (root sourcePath : String) (changed : Finset ℤ)

/-- An entry of the very file: its path in the checkout, or from the checkout's root. -/
def ClassNode.Own (c : ClassNode) : Prop :=
  c.path = sourcePath ∨ c.path = root ++ "/" ++ sourcePath

instance (c : ClassNode) : Decidable (c.Own root sourcePath) := inferInstanceAs (Decidable (_ ∨ _))

def own (classes : List ClassNode) : List ClassNode := classes.filter (·.Own root sourcePath)

/-- The changed lines that entries of the file list. -/
def executableLines (classes : List ClassNode) : Finset ℤ :=
  changed.filter fun n => ∃ c ∈ own root sourcePath classes, ∃ l ∈ c.lines, l.lineNumber = n

def hitLines (classes : List ClassNode) : Finset ℤ :=
  changed.filter fun n =>
    ∃ c ∈ own root sourcePath classes, ∃ l ∈ c.lines, l.lineNumber = n ∧ l.IsHit

/-- Each changed executable line is counted once, and as covered if the file's own
entry has hits for it. -/
structure CoverageResult.Accurate (result : CoverageResult) (classes : List ClassNode) : Prop where
  total : result.total = (executableLines root sourcePath changed classes).card
  covered : result.covered = (hitLines root sourcePath changed classes).card
  bounded : result.covered ≤ result.total

/-- No entry of another file lists a changed line under a path that ends in the
file's, and the file's own entries list each changed line once. -/
structure Unambiguous (classes : List ClassNode) : Prop where
  strangers : ∀ c ∈ classes, c.Matches sourcePath → ¬ c.Own root sourcePath →
    ∀ l ∈ c.lines, l.lineNumber ∉ changed
  once : ((changedNodes changed (own root sourcePath classes)).map LineNode.lineNumber).Nodup

variable {root sourcePath changed}

theorem ClassNode.Own.matches_ {c : ClassNode} (mine : c.Own root sourcePath) :
    c.Matches sourcePath := by
  rcases mine with same | rooted
  · exact .inl same
  · refine .inr ?_
    rw [rooted, String.append_assoc, String.toList_append (t := "/" ++ sourcePath)]
    exact List.suffix_append _ _

theorem executableLines_eq (classes : List ClassNode) :
    executableLines root sourcePath changed classes =
      ((changedNodes changed (own root sourcePath classes)).map LineNode.lineNumber).toFinset := by
  ext n
  simp only [executableLines, changedNodes, Finset.mem_filter, List.mem_toFinset, List.mem_map,
    List.mem_filter, List.mem_flatMap, decide_eq_true_eq]
  constructor
  · rintro ⟨member, c, mine, l, listed, rfl⟩
    exact ⟨l, ⟨⟨c, mine, listed⟩, member⟩, rfl⟩
  · rintro ⟨l, ⟨⟨c, mine, listed⟩, member⟩, rfl⟩
    exact ⟨member, c, mine, l, listed, rfl⟩

theorem hitLines_eq (classes : List ClassNode) :
    hitLines root sourcePath changed classes = (((changedNodes changed
      (own root sourcePath classes)).filter (·.IsHit)).map LineNode.lineNumber).toFinset := by
  ext n
  simp only [hitLines, changedNodes, Finset.mem_filter, List.mem_toFinset, List.mem_map,
    List.mem_filter, List.mem_flatMap, decide_eq_true_eq]
  constructor
  · rintro ⟨member, c, mine, l, listed, rfl, hit⟩
    exact ⟨l, ⟨⟨⟨c, mine, listed⟩, member⟩, hit⟩, rfl⟩
  · rintro ⟨l, ⟨⟨⟨c, mine, listed⟩, member⟩, hit⟩, rfl⟩
    exact ⟨member, c, mine, l, listed, rfl, hit⟩

/-- The matching entries of other files. -/
def strangers (root sourcePath : String) (classes : List ClassNode) : List ClassNode :=
  (matching sourcePath classes).filter (¬ ·.Own root sourcePath)

/-- The changed lines of the matching entries are those of the file's own entries
and those of the strangers. -/
theorem changedNodes_perm (root sourcePath : String) (changed : Finset ℤ)
    (classes : List ClassNode) :
    (changedNodes changed (own root sourcePath classes) ++
      changedNodes changed (strangers root sourcePath classes)).Perm
        (changedNodes changed (matching sourcePath classes)) := by
  have mine : own root sourcePath classes =
      (matching sourcePath classes).filter (·.Own root sourcePath) := by
    rw [own, matching, List.filter_filter]
    apply List.filter_congr
    intro c _
    rw [← Bool.decide_and, decide_eq_decide]
    exact ⟨fun mine => ⟨mine, mine.matches_⟩, And.left⟩
  have parts := List.filter_append_perm (·.Own root sourcePath) (matching sourcePath classes)
  rw [mine, strangers, changedNodes, changedNodes, ← List.filter_append, ← List.flatMap_append]
  simp only [decide_not]
  exact (parts.flatMap_right _).filter _

theorem strangers_nil_iff (classes : List ClassNode) :
    changedNodes changed (strangers root sourcePath classes) = [] ↔
      ∀ c ∈ classes, c.Matches sourcePath → ¬ c.Own root sourcePath →
        ∀ l ∈ c.lines, l.lineNumber ∉ changed := by
  simp only [changedNodes, strangers, matching, List.filter_eq_nil_iff, List.mem_flatMap,
    List.mem_filter, decide_eq_true_eq]
  constructor
  · intro none_ c member named other l listed
    exact none_ l ⟨c, ⟨⟨member, named⟩, other⟩, listed⟩
  · rintro none_ l ⟨c, ⟨⟨member, named⟩, other⟩, listed⟩
    exact none_ c member named other l listed

/-- The loop counts the lines of the file as they are to be counted exactly where the
report is unambiguous about it. -/
theorem parseCoverageXml_accurate_iff (root xmlPath sourcePath : String) (report : CoverageReport)
    (changedLines : List ℤ) (gate : ℚ) :
    (parseCoverageXml xmlPath report sourcePath changedLines gate).Accurate root sourcePath
        (changedSet changedLines) report.classes ↔
      Unambiguous root sourcePath (changedSet changedLines) report.classes := by
  let changed := changedSet changedLines
  let t := tallyOf sourcePath changed report
  obtain ⟨total, covered⟩ := tallyOf_counts sourcePath changed report
  have parts := changedNodes_perm root sourcePath changed report.classes
  have lengths := parts.length_eq
  rw [List.length_append] at lengths
  constructor
  · intro accurate
    have counted : t.total = (executableLines root sourcePath changed report.classes).card :=
      accurate.total
    have distinct := List.toFinset_card_le ((changedNodes changed
      (own root sourcePath report.classes)).map LineNode.lineNumber)
    rw [total, executableLines_eq] at counted
    rw [List.length_map] at distinct
    have apart : (changedNodes changed (strangers root sourcePath report.classes)).length = 0 := by
      omega
    have once : ((changedNodes changed (own root sourcePath report.classes)).map
        LineNode.lineNumber).dedup.length =
          ((changedNodes changed (own root sourcePath report.classes)).map
            LineNode.lineNumber).length := by
      rw [← List.card_toFinset, List.length_map]
      omega
    exact ⟨(strangers_nil_iff report.classes).mp (List.length_eq_zero_iff.mp apart),
      List.dedup_eq_self.mp ((List.dedup_sublist _).eq_of_length once)⟩
  · rintro ⟨apart, once⟩
    rw [(strangers_nil_iff report.classes).mpr apart, List.append_nil] at parts
    have hits : (((changedNodes changed (own root sourcePath report.classes)).filter
        (·.IsHit)).map LineNode.lineNumber).Nodup := once.sublist (List.filter_sublist.map _)
    refine ⟨?_, ?_, ?_⟩
    · rw [executableLines_eq, List.toFinset_card_of_nodup once, List.length_map, parts.length_eq]
      exact total
    · rw [hitLines_eq, List.toFinset_card_of_nodup hits, List.length_map,
        (parts.filter _).length_eq]
      exact covered
    · change t.covered ≤ t.total
      rw [total, covered]
      exact List.length_filter_le _ _

/-! A file under a directory with the path of another. -/

/-- Line 3 of `src/a.py` is not covered; line 3 of a copy in `lib/` is. -/
def copiedReport : CoverageReport where
  packages := [[⟨some "lib/src/a.py", [⟨some 3, some 1⟩]⟩, ⟨some "src/a.py", [⟨some 3, some 0⟩]⟩]]

theorem copy_counted :
    (parseCoverageXml "coverage.xml" copiedReport "src/a.py" [3] 50).total = 2 ∧
      (parseCoverageXml "coverage.xml" copiedReport "src/a.py" [3] 50).covered = 1 ∧
      ¬ (parseCoverageXml "coverage.xml" copiedReport "src/a.py" [3] 50).Accurate "/repo" "src/a.py"
        (changedSet [3]) copiedReport.classes := by
  have counts : (parseCoverageXml "coverage.xml" copiedReport "src/a.py" [3] 50).total = 2 ∧
      (parseCoverageXml "coverage.xml" copiedReport "src/a.py" [3] 50).covered = 1 := by
    decide +kernel
  have own_ : (hitLines "/repo" "src/a.py" (changedSet [3]) copiedReport.classes).card = 0 := by
    decide +kernel
  refine ⟨counts.1, counts.2, fun accurate => ?_⟩
  have covered := accurate.covered
  rw [counts.2, own_] at covered
  cases covered

end Lines
end Uta.Enforce
