/- The section [tool.mutmut] in a pyproject.toml: where its lines are taken from and put to, and what
that makes of the tables. -/
import Uta.Enforce.MutmutConfig

namespace Uta.Enforce
open Uta.Lib

/-! The section in the lines of a text. -/

/-- The line that `_replace_toml_section` looks for. -/
def ReadsHeader (line : List Char) : Prop := PyText.strip line = mutmutHeader

instance (line : List Char) : Decidable (ReadsHeader line) := inferInstanceAs (Decidable (_ = _))

/-- The lines of the section. -/
def MutmutSettings.newLines (s : MutmutSettings) : List (List Char) := mutmutHeader :: s.keyLines

/-- How the lines are taken apart: up to the first that reads the header, the lines up to the next one
in brackets, and what is kept after them. -/
structure Cut (lines before : List (List Char)) (header : List Char) (own after : List (List Char)) :
    Prop where
  lines_eq : lines = before ++ header :: (own ++ after)
  reads : ReadsHeader header
  first : ∀ line ∈ before, ¬ ReadsHeader line
  inner : ∀ line ∈ own, bracketed line = false
  next : ∀ line, after.head? = some line → bracketed line = true

theorem exists_cut {lines : List (List Char)} (found : ∃ line ∈ lines, ReadsHeader line) :
    ∃ before header own after, Cut lines before header own after := by
  obtain ⟨wanted, member, reads⟩ := found
  have split : lines.takeWhile (fun line => decide (¬ ReadsHeader line)) ++
      lines.dropWhile (fun line => decide (¬ ReadsHeader line)) = lines :=
    List.takeWhile_append_dropWhile
  cases rest : lines.dropWhile fun line => decide (¬ ReadsHeader line) with
  | nil =>
      have all := List.dropWhile_eq_nil_iff.mp rest wanted member
      exact absurd reads (of_decide_eq_true all)
  | cons header rest' =>
      have stops := List.head?_dropWhile_not (fun line => decide (¬ ReadsHeader line)) lines
      rw [rest] at stops split
      refine ⟨lines.takeWhile fun line => decide (¬ ReadsHeader line), header,
        rest'.takeWhile (fun line => !bracketed line), rest'.dropWhile (fun line => !bracketed line),
        ⟨?_, ?_, ?_, ?_, ?_⟩⟩
      · rw [List.takeWhile_append_dropWhile]
        exact split.symm
      · simpa using stops
      · intro line before
        have kept := List.mem_takeWhile_imp before
        simpa using kept
      · intro line inner
        simpa using List.mem_takeWhile_imp inner
      · intro line next
        have shape := List.head?_dropWhile_not (fun line => !bracketed line) rest'
        rw [next] at shape
        simpa using shape

/-- The section ends where the next line in brackets is. -/
theorem replaceTomlSection_cut {text body : List Char} {before own after : List (List Char)}
    {header : List Char} (cut : Cut (PyText.splitlines text) before header own after) :
    replaceTomlSection text mutmutHeader body =
      PyText.rstrip (PyText.joinLines (before ++ PyText.splitlines body ++ after)) ++ ['\n'] := by
  have start : (PyText.splitlines text).findIdx? (fun line => decide (PyText.strip line = mutmutHeader)) =
      some before.length := by
    rw [cut.lines_eq, List.findIdx?_append]
    have none_ : before.findIdx? (fun line => decide (PyText.strip line = mutmutHeader)) = none :=
      List.findIdx?_eq_none_iff.mpr fun line member => decide_eq_false (cut.first line member)
    have here : decide (PyText.strip header = mutmutHeader) = true := decide_eq_true cut.reads
    rw [none_, List.findIdx?_cons, here]
    simp
  have rest : (PyText.splitlines text).drop (before.length + 1) = own ++ after := by
    rw [cut.lines_eq, List.append_cons, List.drop_left' (by simp)]
  have own_ : own.findIdx? bracketed = none :=
    List.findIdx?_eq_none_iff.mpr fun line member => cut.inner line member
  unfold replaceTomlSection
  simp only [start, rest, List.findIdx?_append, own_, Option.none_or]
  have kept : (PyText.splitlines text).take before.length = before := by
    rw [cut.lines_eq]
    simp
  cases last : after with
  | nil =>
      have whole : (PyText.splitlines text).drop (PyText.splitlines text).length = [] := by simp
      simp [kept, whole]
  | cons line more =>
      have shape := cut.next line (by rw [last]; rfl)
      have end_ : (PyText.splitlines text).drop (before.length + 1 + own.length) = after := by
        rw [← List.drop_drop, rest]
        simp
      rw [List.findIdx?_cons, if_pos shape]
      simp only [Option.map_some, Option.getD_some, Nat.zero_add]
      rw [kept, end_, last]

theorem replaceTomlSection_append {text body : List Char}
    (none_ : ∀ line ∈ PyText.splitlines text, ¬ ReadsHeader line) :
    replaceTomlSection text mutmutHeader body =
      (PyText.joinLines [PyText.rstrip text, body]).dropWhile (· = '\n') ++ ['\n'] := by
  have start : (PyText.splitlines text).findIdx? (fun line => decide (PyText.strip line = mutmutHeader)) =
      none := List.findIdx?_eq_none_iff.mpr fun line member => decide_eq_false (none_ line member)
  unfold replaceTomlSection
  simp only [start]

theorem newLines_unbroken (s : MutmutSettings) : ∀ line ∈ s.newLines, PyText.Unbroken line := by
  intro line member
  rcases List.mem_cons.mp member with rfl | key
  · exact PyText.unbroken_of_all (by decide)
  · exact (keyLine_keyLine key).unbroken

/-- The last line of the section ends in a bracket. -/
theorem newLines_last (s : MutmutSettings) : ∃ ys y, s.newLines = ys ++ [y] ∧ y ≠ [] ∧
    PyText.rstrip y = y := by
  have some_ : s.keyLines ≠ [] := by simp [MutmutSettings.keyLines]
  obtain ⟨ys, y, split⟩ := (List.eq_nil_or_concat' s.keyLines).resolve_left some_
  have key : KeyLine y := keyLine_keyLine (s := s) (by simp [split])
  refine ⟨mutmutHeader :: ys, y, by rw [MutmutSettings.newLines, split]; rfl, ?_, ?_⟩
  · rintro rfl
    have last := key.last
    cases last
  · refine List.rdropWhile_eq_self_iff.mpr fun full => ?_
    have last := (List.getLast?_eq_some_getLast full).symm.trans key.last
    rw [Option.some.inj last]
    decide

theorem splitlines_section (s : MutmutSettings) : PyText.splitlines s.section_ = s.newLines := by
  obtain ⟨ys, y, split, full, -⟩ := newLines_last s
  have unbroken := newLines_unbroken s
  rw [split] at unbroken
  have lines := PyText.splitlines_joinLines unbroken
  rw [if_neg full, ← split] at lines
  exact lines

theorem trimEnd_newLines (s : MutmutSettings) (before : List (List Char)) :
    PyText.trimEnd (before ++ s.newLines) = before ++ s.newLines := by
  obtain ⟨ys, y, split, full, stripped⟩ := newLines_last s
  rw [split, ← List.append_assoc, PyText.trimEnd_concat (by rw [stripped]; exact full), stripped]

theorem ReadsHeader.full {line : List Char} (reads : ReadsHeader line) : PyText.rstrip line ≠ [] := by
  intro blank
  have whole := PyText.strip_rstrip line
  rw [blank, reads] at whole
  exact absurd whole (by decide)

theorem bracketed_full {line : List Char} (shape : bracketed line = true) :
    PyText.rstrip line ≠ [] := by
  intro blank
  have whole := PyText.strip_rstrip line
  rw [blank] at whole
  rw [bracketed, ← whole] at shape
  exact absurd shape (by decide)

theorem bracketed_congr {first second : List Char} (same : PyText.strip first = PyText.strip second) :
    bracketed first = bracketed second := by
  rw [bracketed, bracketed, same]

theorem rstrip_full {line : List Char} (full : PyText.rstrip line ≠ []) : line ≠ [] := by
  rintro rfl
  exact full rfl

section Cut
variable {lines before own after : List (List Char)} {header : List Char}

/-- What is kept after the section starts with a line in brackets, also without blanks at the end. -/
theorem trimEnd_after (next : ∀ line, after.head? = some line → bracketed line = true) :
    (PyText.trimEnd after = [] → after = []) ∧
      ∀ line, (PyText.trimEnd after).head? = some line → bracketed line = true := by
  cases after with
  | nil => exact ⟨fun _ => rfl, fun line first => by cases first⟩
  | cons line rest =>
      have shape := next line rfl
      obtain ⟨line', rest', same, strips, -⟩ := PyText.trimEnd_cons (bracketed_full shape) rest
      rw [same]
      refine ⟨fun none_ => (List.cons_ne_nil _ _ none_).elim, fun other first => ?_⟩
      obtain rfl := Option.some.inj first
      rw [bracketed_congr strips]
      exact shape

theorem trimEnd_newLines_after (s : MutmutSettings) (before after : List (List Char)) :
    PyText.trimEnd (before ++ s.newLines ++ after) = before ++ s.newLines ++ PyText.trimEnd after := by
  by_cases blank : PyText.trimEnd after = []
  · rw [PyText.trimEnd_append_blank blank, blank, List.append_nil]
    exact trimEnd_newLines s before
  · exact PyText.trimEnd_append blank

theorem Cut.trimEnd (cut : Cut lines before header own after) :
    ∃ header' own', Cut (PyText.trimEnd lines) before header' own' (PyText.trimEnd after) := by
  obtain ⟨solid, next⟩ := trimEnd_after cut.next
  have full := cut.reads.full
  by_cases blank : PyText.trimEnd after = []
  · obtain ⟨header', own', same, strips, later⟩ := PyText.trimEnd_cons full own
    refine ⟨header', own', ?_, ?_, cut.first, ?_, next⟩
    · rw [cut.lines_eq, solid blank, List.append_nil]
      have some_ : PyText.trimEnd (header :: own) ≠ [] := by rw [same]; exact List.cons_ne_nil _ _
      rw [PyText.trimEnd_append some_, same]
      exact congrArg _ (congrArg _ (List.append_nil own').symm)
    · exact strips.trans cut.reads
    · intro line member
      obtain ⟨whole, known, strips⟩ := later line member
      rw [bracketed_congr strips]
      exact cut.inner whole known
  · refine ⟨header, own, ?_, cut.reads, cut.first, cut.inner, next⟩
    have shape : lines = (before ++ header :: own) ++ after := by
      rw [cut.lines_eq]
      simp
    rw [shape, PyText.trimEnd_append blank]
    simp

theorem Cut.dropWhile (cut : Cut lines before header own after) :
    Cut (lines.dropWhile (· = [])) (before.dropWhile (· = [])) header own after where
  lines_eq := by
    rw [cut.lines_eq]
    exact PyText.dropWhile_append_full (rstrip_full cut.reads.full) _ _
  reads := cut.reads
  first := fun line member => cut.first line ((List.dropWhile_sublist _).mem member)
  inner := cut.inner
  next := cut.next

/-- The lines before and after are the same for every cut. -/
theorem Cut.unique {before' own' after' : List (List Char)} {header' : List Char}
    (cut : Cut lines before header own after) (other : Cut lines before' header' own' after') :
    before = before' ∧ after = after' := by
  have front : ∀ {b h o a}, Cut lines b h o a →
      b = lines.takeWhile (fun line => decide (¬ ReadsHeader line)) ∧
        a = (lines.drop (b.length + 1)).dropWhile (fun line => !bracketed line) := by
    intro b h o a cut
    constructor
    · rw [cut.lines_eq, List.takeWhile_append_of_pos fun line member => decide_eq_true
        (cut.first line member), List.takeWhile_cons_of_neg (by simpa using cut.reads), List.append_nil]
    · rw [cut.lines_eq, List.append_cons, List.drop_left' (by simp),
        List.dropWhile_append_of_pos fun line member => by simp [cut.inner line member]]
      cases a with
      | nil => rfl
      | cons line rest => rw [List.dropWhile_cons_of_neg (by simp [cut.next line rfl])]
  obtain ⟨first, last⟩ := front cut
  obtain ⟨first', last'⟩ := front other
  have same : before = before' := first.trans first'.symm
  subst same
  exact ⟨rfl, last.trans last'.symm⟩

end Cut

/-! The text after the replacement. -/

/-- The lines of a text, without empty ones in front and blanks at the end. -/
def textLines (text : List Char) : List (List Char) := PyText.trimLines (PyText.splitlines text)

theorem docLines_joinLines {text : List Char} {lines : List (List Char)}
    (same : PyText.rstrip text = PyText.joinLines (PyText.trimEnd lines))
    (whole : ∀ line ∈ lines, '\n' ∉ line) : Toml.docLines text = PyText.trimLines lines := by
  have kept : ∀ line ∈ PyText.trimEnd lines, '\n' ∉ line := fun line member own =>
    PyText.chars_trimEnd (p := (· ≠ '\n')) (fun line known c own same => whole line known (same ▸ own))
      line member '\n' own rfl
  change ((PyText.rstrip text).splitOn '\n').dropWhile (· = []) = _
  rw [same, PyText.trimLines]
  by_cases none_ : PyText.trimEnd lines = []
  · rw [none_]
    rfl
  · rw [PyText.splitOn_joinLines kept none_]

theorem newLines_head (s : MutmutSettings) : s.newLines = mutmutHeader :: s.keyLines := rfl

theorem newLines_whole (s : MutmutSettings) : ∀ line ∈ s.newLines, '\n' ∉ line :=
  fun line member => (newLines_unbroken s line member).newline

section Replaced
variable {text : List Char} {before own after : List (List Char)} {header : List Char}

/-- Where a line reads the header, the lines of the section stand in place of those of the cut. -/
theorem replaced_of_cut (cut : Cut (PyText.splitlines text) before header own after)
    (s : MutmutSettings) : replaceTomlSection text mutmutHeader s.section_ =
      PyText.joinLines (before ++ s.newLines ++ PyText.trimEnd after) ++ ['\n'] := by
  rw [replaceTomlSection_cut cut, splitlines_section, PyText.rstrip_joinLines, trimEnd_newLines_after]

/-- Where none does, they stand after all others. -/
theorem replaced_of_none (none_ : ∀ line ∈ PyText.splitlines text, ¬ ReadsHeader line)
    (s : MutmutSettings) : replaceTomlSection text mutmutHeader s.section_ =
      PyText.joinLines (Toml.docLines text ++ s.newLines) ++ ['\n'] := by
  rw [replaceTomlSection_append none_]
  congr 1
  have parts := PyText.joinLines_splitOn (PyText.rstrip text)
  have whole : ∀ line ∈ (PyText.rstrip text).splitOn '\n' ++ s.newLines, '\n' ∉ line := by
    intro line member
    rcases List.mem_append.mp member with old | new
    · exact (PyText.mem_splitOn old).1
    · exact newLines_whole s line new
  have joined : PyText.joinLines [PyText.rstrip text, s.section_] =
      PyText.joinLines ((PyText.rstrip text).splitOn '\n' ++ s.newLines) := by
    have some_ : s.newLines ≠ [] := List.cons_ne_nil _ _
    rw [PyText.joinLines_append (List.splitOn_ne_nil _ _) some_, parts]
    simp [PyText.joinLines, List.intercalate, MutmutSettings.section_, MutmutSettings.newLines]
  rw [joined, PyText.joinLines_dropWhile whole, newLines_head,
    PyText.dropWhile_append_full (by decide)]
  rfl

theorem rstrip_joinLines_newline (lines : List (List Char)) :
    PyText.rstrip (PyText.joinLines lines ++ ['\n']) = PyText.joinLines (PyText.trimEnd lines) := by
  rw [PyText.rstrip_append_blank (by decide), PyText.rstrip_joinLines]

theorem whole_append (text : List Char) (s : MutmutSettings) :
    ∀ line ∈ Toml.docLines text ++ s.newLines, '\n' ∉ line := by
  intro line member
  rcases List.mem_append.mp member with old | new
  · exact (PyText.mem_splitOn ((List.dropWhile_sublist _).mem old)).1
  · exact newLines_whole s line new

theorem docLines_of_none (none_ : ∀ line ∈ PyText.splitlines text, ¬ ReadsHeader line)
    (s : MutmutSettings) : Toml.docLines (replaceTomlSection text mutmutHeader s.section_) =
      Toml.docLines text ++ s.newLines := by
  rw [replaced_of_none none_, docLines_joinLines (rstrip_joinLines_newline _) (whole_append text s),
    PyText.trimLines, trimEnd_newLines, newLines_head, PyText.dropWhile_append_full (by decide)]
  congr 1
  exact List.dropWhile_idempotent _ _

theorem kept_unbroken (cut : Cut (PyText.splitlines text) before header own after)
    (s : MutmutSettings) :
    ∀ line ∈ before ++ s.newLines ++ PyText.trimEnd after, PyText.Unbroken line := by
  have lines := PyText.splitlines_unbroken text
  rw [cut.lines_eq] at lines
  intro line member
  rcases List.mem_append.mp member with front | last
  · rcases List.mem_append.mp front with here | new
    · exact lines line (by simp [here])
    · exact newLines_unbroken s line new
  · exact PyText.chars_trimEnd (fun line known => lines line (by simp [known])) line last

theorem reads_of_textLines (cut : Cut (textLines text) before header own after) :
    ∃ line ∈ PyText.splitlines text, ReadsHeader line := by
  have member : header ∈ textLines text := by
    rw [cut.lines_eq]
    simp
  obtain ⟨whole, known, rfl | rfl⟩ := PyText.mem_trimEnd ((List.dropWhile_sublist _).mem member)
  · exact ⟨header, known, cut.reads⟩
  · exact ⟨whole, known, (PyText.strip_rstrip whole).symm.trans cut.reads⟩

theorem docLines_of_cut (cut : Cut (textLines text) before header own after) (s : MutmutSettings) :
    Toml.docLines (replaceTomlSection text mutmutHeader s.section_) = before ++ s.newLines ++ after := by
  obtain ⟨b, h, o, a, found⟩ := exists_cut (reads_of_textLines cut)
  obtain ⟨h', o', trimmed⟩ := found.trimEnd
  obtain ⟨rfl, rfl⟩ := cut.unique trimmed.dropWhile
  have whole : ∀ line ∈ b ++ s.newLines ++ PyText.trimEnd a, '\n' ∉ line := fun line member =>
    (kept_unbroken found s line member).newline
  rw [replaced_of_cut found, docLines_joinLines (rstrip_joinLines_newline _) whole, PyText.trimLines,
    trimEnd_newLines_after, PyText.trimEnd_trimEnd, newLines_head, List.append_assoc, List.cons_append,
    PyText.dropWhile_append_full (by decide), List.append_assoc, List.cons_append]

end Replaced

/-! The tables after the replacement. -/

def isMutmutTable (t : Toml.Table) : Bool :=
  Toml.headerKeys t.header = ["tool".toList, "mutmut".toList]

/-- The table of a section. -/
def MutmutSettings.table (s : MutmutSettings) : Toml.Table := ⟨mutmutHeader, s.keyLines⟩

/-- Whatever the run tells mutmut, the document has the new table in place of the first of that name, or
after all tables, and is otherwise as it was. -/
def SectionReplaced (text : List Char) : Prop :=
  ∀ s : MutmutSettings, Toml.tables (replaceTomlSection text mutmutHeader s.section_) =
    ((Toml.tables text).1, Toml.replaceTable isMutmutTable s.table (Toml.tables text).2)

theorem isMutmutTable_table (s : MutmutSettings) : isMutmutTable s.table = true := by
  have keys : Toml.headerKeys mutmutHeader = ["tool".toList, "mutmut".toList] := by decide
  exact decide_eq_true keys

theorem SectionReplaced.others {text : List Char} (replaced : SectionReplaced text) (s : MutmutSettings) :
    (Toml.tables (replaceTomlSection text mutmutHeader s.section_)).2.filter
        (fun t => !isMutmutTable t) = (Toml.tables text).2.filter fun t => !isMutmutTable t := by
  rw [replaced s]
  exact Toml.filter_replaceTable (isMutmutTable_table s) _

/-- The section goes to the end, which is outside of strings and arrays. -/
def SectionAppended (text : List Char) : Prop :=
  (∀ line ∈ PyText.splitlines text, ¬ ReadsHeader line) ∧
    (∀ t ∈ (Toml.tables text).2, isMutmutTable t = false) ∧
    Toml.State.top.run (Toml.docLines text) = .top

/-- The lines that are kept are those of the other tables. -/
def SectionLocated (text : List Char) : Prop :=
  ∃ before t after header own,
    (Toml.tables text).2 = before ++ t :: after ∧
    (∀ u ∈ before, isMutmutTable u = false) ∧ isMutmutTable t = true ∧
    Cut (textLines text) ((Toml.tables text).1 ++ before.flatMap Toml.Table.lines) header own
      (after.flatMap Toml.Table.lines)

theorem bracketed_heads {line : List Char} (shape : bracketed line = true) :
    Toml.State.top.Heads line :=
  ⟨rfl, of_decide_eq_true ((Bool.and_eq_true _ _).mp shape).1⟩

theorem mutmutHeader_heads : Toml.State.top.Heads mutmutHeader := by decide

theorem keyLines_own {lines : List (List Char)} (keys : ∀ line ∈ lines, KeyLine line) :
    Toml.State.top.run lines = .top ∧ Toml.sections .top lines = (lines, []) := by
  induction lines with
  | nil => exact ⟨rfl, rfl⟩
  | cons line lines ih =>
      obtain ⟨stays, own⟩ := ih fun other member => keys other (List.mem_cons_of_mem _ member)
      have key := keys line List.mem_cons_self
      have noHeader : ¬ Toml.State.top.Heads line := by
        rintro ⟨-, bracket⟩
        rw [key.strip_eq] at bracket
        exact key.head bracket
      rw [Toml.run_cons, Toml.sections_own noHeader, key.next, own]
      exact ⟨stays, rfl⟩

/-- The lines of the section are one table. -/
theorem sections_newLines (s : MutmutSettings) {after : List (List Char)}
    (next : ∀ line, after.head? = some line → bracketed line = true) :
    Toml.sections .top (s.newLines ++ after) = ([], s.table :: (Toml.sections .top after).2) := by
  obtain ⟨stays, own⟩ := keyLines_own fun line (member : line ∈ s.keyLines) => keyLine_keyLine member
  have header : Toml.State.top.next mutmutHeader = .top := by decide
  have ends : Toml.State.top.run s.newLines = .top := by
    rw [newLines_head, Toml.run_cons, header, stays]
  have table : Toml.sections .top s.newLines = ([], [s.table]) := by
    rw [newLines_head, Toml.sections_head mutmutHeader_heads, header, own]
    rfl
  have joined := (@Toml.sections_append .top s.newLines after fun line first => by
    rw [ends]
    exact bracketed_heads (next line first)).1
  rw [joined, table, ends]
  rfl

/-- The lines around the section tell where it is. -/
theorem newLines_place {before before' after after' : List (List Char)}
    (same : ∀ s : MutmutSettings, before ++ (s.newLines ++ after) = before' ++ (s.newLines ++ after')) :
    before = before' ∧ after = after' := by
  have front : ∀ {x after after'},
      (∀ s : MutmutSettings, s.newLines ++ after = x ++ (s.newLines ++ after')) → x = [] := by
    intro x after after' same
    rcases x with _ | ⟨l, _ | ⟨l', x⟩⟩
    · rfl
    · -- One line further, the first key would be the header.
      have heads := congrArg (fun lines => lines[1]?) (same ⟨"", "", [], [], ""⟩)
      have key : MutmutSettings.keyLine "paths_to_mutate" [""] = mutmutHeader := Option.some.inj heads
      exact absurd key (by decide)
    · -- Further on, the first key would not depend on the settings.
      have first := congrArg (fun lines => lines[1]?) (same ⟨"a", "", [], [], ""⟩)
      have second := congrArg (fun lines => lines[1]?) (same ⟨"b", "", [], [], ""⟩)
      have both : MutmutSettings.keyLine "paths_to_mutate" ["a"] =
          MutmutSettings.keyLine "paths_to_mutate" ["b"] :=
        (Option.some.inj first).trans (Option.some.inj second).symm
      exact absurd both (by decide)
  rcases List.append_eq_append_iff.mp (same ⟨"", "", [], [], ""⟩) with ⟨x, place, -⟩ | ⟨x, place, -⟩
  · subst place
    have none_ : x = [] := front fun s => by
      have whole := same s
      rw [List.append_assoc] at whole
      exact List.append_cancel_left whole
    subst none_
    rw [List.append_nil] at same ⊢
    exact ⟨rfl, List.append_cancel_left (List.append_cancel_left (same ⟨"", "", [], [], ""⟩))⟩
  · subst place
    have none_ : x = [] := front fun s => by
      have whole := same s
      rw [List.append_assoc] at whole
      exact (List.append_cancel_left whole).symm
    subst none_
    rw [List.append_nil] at same ⊢
    exact ⟨rfl, List.append_cancel_left (List.append_cancel_left (same ⟨"", "", [], [], ""⟩))⟩

section Replaced
variable {text : List Char}

theorem appended_iff (none_ : ∀ line ∈ PyText.splitlines text, ¬ ReadsHeader line) :
    SectionReplaced text ↔ SectionAppended text := by
  have lines : (Toml.tables text).1 ++ (Toml.tables text).2.flatMap Toml.Table.lines =
      Toml.docLines text := Toml.sections_lines .top (Toml.docLines text)
  constructor
  · intro replaced
    refine ⟨none_, ?_⟩
    have result : ∀ s : MutmutSettings, Toml.sections .top (Toml.docLines text ++ s.newLines) =
        ((Toml.tables text).1, Toml.replaceTable isMutmutTable s.table (Toml.tables text).2) := by
      intro s
      rw [← docLines_of_none none_]
      exact replaced s
    have s : MutmutSettings := ⟨"", "", [], [], ""⟩
    have h := result s
    rcases Toml.exists_first isMutmutTable (Toml.tables text).2 with
      other | ⟨before, t, after, ts, other, own⟩
    · refine ⟨other, ?_⟩
      rw [Toml.replaceTable_none _ other] at h
      have heads := (Toml.sections_split h).2.1
      rw [lines] at heads
      exact heads.1
    · -- A table cannot both be replaced and stay.
      rw [ts, Toml.replaceTable_split _ other own] at h
      have longer := Toml.sections_lines .top (Toml.docLines text ++ s.newLines)
      rw [h] at longer
      have size := congrArg List.length lines
      have longerSize := congrArg List.length longer
      rw [ts] at size
      simp only [List.flatMap_append, List.flatMap_cons, List.length_append, Toml.Table.lines,
        MutmutSettings.table, MutmutSettings.newLines, List.length_cons] at size longerSize
      omega
  · rintro ⟨-, other, ends⟩ s
    have joined := (@Toml.sections_append .top (Toml.docLines text) s.newLines fun line first => by
      rw [ends]
      obtain rfl := Option.some.inj first
      exact mutmutHeader_heads).1
    have table := @sections_newLines s [] fun line first => by cases first
    rw [List.append_nil] at table
    rw [Toml.replaceTable_none _ other, Toml.tables, docLines_of_none none_, joined, ends, table]
    rfl

theorem located_replaced (located : SectionLocated text) : SectionReplaced text := by
  obtain ⟨before, t, after, header, own, ts, other, named, cut⟩ := located
  intro s
  have split : Toml.sections .top (Toml.docLines text) =
      ((Toml.tables text).1, before ++ t :: after) := Prod.ext rfl ts
  obtain ⟨front, heads, -, later, back⟩ := Toml.sections_split split
  rw [ts, Toml.replaceTable_split _ other named, Toml.tables, docLines_of_cut cut, List.append_assoc]
  have joined := (@Toml.sections_append .top _ (s.newLines ++ after.flatMap Toml.Table.lines)
    fun line first => by
      rw [heads.1]
      obtain rfl := Option.some.inj first
      exact mutmutHeader_heads).1
  rw [joined, heads.1, sections_newLines s cut.next, front]
  have rest : Toml.sections .top (after.flatMap Toml.Table.lines) = ([], after) := by
    cases lines : after.flatMap Toml.Table.lines with
    | nil =>
        rw [lines] at back
        exact back
    | cons line rest =>
        have top := (later line (by rw [lines]; rfl)).1
        rw [top, lines] at back
        exact back
  rw [rest]

/-- The header is written between the blanks. -/
theorem ink_header {before own after : List (List Char)} {header : List Char}
    (cut : Cut (textLines text) before header own after) : before ≠ Toml.docLines text := by
  intro same
  have written : (textLines text).flatMap PyText.ink = PyText.ink text := by
    rw [textLines, PyText.trimLines, PyText.ink_dropWhile, PyText.ink_trimEnd, PyText.ink_splitlines]
  have document : (Toml.docLines text).flatMap PyText.ink = PyText.ink text := by
    change (((PyText.rstrip text).splitOn '\n').dropWhile (· = [])).flatMap PyText.ink = _
    rw [PyText.ink_dropWhile, ← PyText.ink_joinLines, PyText.joinLines_splitOn, PyText.ink_rstrip]
  rw [cut.lines_eq, List.flatMap_append, same, document, List.flatMap_cons] at written
  have none_ := List.append_cancel_left (written.trans (List.append_nil _).symm)
  have blank := List.append_eq_nil_iff.mp none_
  exact cut.reads.full (PyText.ink_eq_nil.mp blank.1)

theorem replaced_located {before own after : List (List Char)} {header : List Char}
    (cut : Cut (textLines text) before header own after) (replaced : SectionReplaced text) :
    SectionLocated text := by
  have lines := Toml.sections_lines .top (Toml.docLines text)
  have shape : ∀ s : MutmutSettings, Toml.sections .top (before ++ (s.newLines ++ after)) =
      ((Toml.tables text).1, Toml.replaceTable isMutmutTable s.table (Toml.tables text).2) := by
    intro s
    have h := replaced s
    rwa [Toml.tables, docLines_of_cut cut, List.append_assoc] at h
  have flat : ∀ s : MutmutSettings, before ++ (s.newLines ++ after) = (Toml.tables text).1 ++
      (Toml.replaceTable isMutmutTable s.table (Toml.tables text).2).flatMap Toml.Table.lines := by
    intro s
    have whole := Toml.sections_lines .top (before ++ (s.newLines ++ after))
    rw [shape s] at whole
    exact whole.symm
  rcases Toml.exists_first isMutmutTable (Toml.tables text).2 with
    other | ⟨front, t, back, ts, other, own_⟩
  · -- The lines that the cut takes out would be in the result.
    obtain ⟨first, -⟩ := @newLines_place before (Toml.docLines text) after [] fun s => by
      rw [flat s, Toml.replaceTable_none _ other, List.flatMap_append, ← List.append_assoc]
      unfold Toml.tables
      rw [lines]
      simp [Toml.Table.lines, MutmutSettings.table, MutmutSettings.newLines]
    exact absurd first (ink_header cut)
  · obtain ⟨first, last⟩ := @newLines_place before
        ((Toml.tables text).1 ++ front.flatMap Toml.Table.lines) after (back.flatMap Toml.Table.lines)
        fun s => by
      rw [flat s, ts, Toml.replaceTable_split _ other own_]
      simp [Toml.Table.lines, MutmutSettings.table, MutmutSettings.newLines]
    subst first
    subst last
    exact ⟨front, t, back, header, own, ts, other, own_, cut⟩

/-- The section is replaced exactly where the guess from the shapes of lines finds the table, or where
there is none and the text ends outside of strings and arrays. -/
theorem sectionReplaced_iff : SectionReplaced text ↔ SectionAppended text ∨ SectionLocated text := by
  by_cases found : ∃ line ∈ PyText.splitlines text, ReadsHeader line
  · obtain ⟨before, header, own, after, cut⟩ := exists_cut found
    obtain ⟨header', own', trimmed⟩ := cut.trimEnd
    constructor
    · exact fun replaced => .inr (replaced_located trimmed.dropWhile replaced)
    · rintro (⟨none_, -⟩ | located)
      · obtain ⟨line, member, reads⟩ := found
        exact absurd reads (none_ line member)
      · exact located_replaced located
  · have none_ : ∀ line ∈ PyText.splitlines text, ¬ ReadsHeader line :=
      fun line member reads => found ⟨line, member, reads⟩
    rw [appended_iff none_]
    refine ⟨.inl, fun either => either.resolve_right ?_⟩
    rintro ⟨_, _, _, _, _, -, -, -, cut⟩
    exact found (reads_of_textLines cut)

end Replaced

/-! The second replacement. -/

/-- A text whose only breaks are newlines. -/
def Plain (text : List Char) : Prop := ∀ c ∈ text, PyText.isLineBreak c = true → c = '\n'

theorem plain_joinLines {lines : List (List Char)} (unbroken : ∀ line ∈ lines, PyText.Unbroken line) :
    Plain (PyText.joinLines lines) := by
  intro c member breaks
  induction lines using List.reverseRecOn with
  | nil => cases member
  | append_singleton ys y ih =>
      rw [PyText.joinLines_flatMap] at member
      rcases List.mem_append.mp member with front | last
      · obtain ⟨line, known, own⟩ := List.mem_flatMap.mp front
        rcases List.mem_append.mp own with inner | newline
        · rw [unbroken line (by simp [known]) c inner] at breaks
          cases breaks
        · exact List.mem_singleton.mp newline
      · rw [unbroken y (by simp) c last] at breaks
        cases breaks

theorem plain_newline {text : List Char} : Plain (text ++ ['\n']) ↔ Plain text := by
  constructor
  · exact fun plain c member => plain c (List.mem_append_left _ member)
  · intro plain c member breaks
    rcases List.mem_append.mp member with here | last
    · exact plain c here breaks
    · exact List.mem_singleton.mp last

theorem splitOn_unbroken {text : List Char} (plain : Plain text) :
    ∀ line ∈ text.splitOn '\n', PyText.Unbroken line := by
  intro line member c own
  obtain ⟨none_, within⟩ := PyText.mem_splitOn member
  by_contra breaks
  rw [plain c (within c own) (by simpa using breaks)] at own
  exact none_ own

section Twice
variable {text : List Char} (s : MutmutSettings)

/-- A text that has the section is as it was, but for blanks at the end. -/
theorem replaced_joinLines {before after : List (List Char)}
    (unbroken : ∀ line ∈ before ++ s.newLines ++ after, PyText.Unbroken line)
    (first : ∀ line ∈ before, ¬ ReadsHeader line)
    (next : ∀ line, after.head? = some line → bracketed line = true) :
    replaceTomlSection (PyText.joinLines (before ++ s.newLines ++ after) ++ ['\n']) mutmutHeader
        s.section_ = PyText.joinLines (before ++ s.newLines ++ PyText.trimEnd after) ++ ['\n'] := by
  have lines := PyText.splitlines_joinLines_newline unbroken (by simp [MutmutSettings.newLines])
  refine @replaced_of_cut _ before s.keyLines after mutmutHeader ?_ s
  rw [lines]
  refine ⟨by simp [MutmutSettings.newLines], by decide, first, fun line member => ?_, next⟩
  have key := keyLine_keyLine member
  rw [bracketed, key.strip_eq]
  simp [key.head]

/-- Where the section is found, replacing it again changes nothing. -/
theorem twice_of_found (found : ∃ line ∈ PyText.splitlines text, ReadsHeader line) :
    replaceTomlSection (replaceTomlSection text mutmutHeader s.section_) mutmutHeader s.section_ =
      replaceTomlSection text mutmutHeader s.section_ := by
  obtain ⟨before, header, own, after, cut⟩ := exists_cut found
  obtain ⟨-, next⟩ := trimEnd_after cut.next
  rw [replaced_of_cut cut, replaced_joinLines s (kept_unbroken cut s) cut.first next,
    PyText.trimEnd_trimEnd]

/-- A line of the stripped text is the front of a line of the text. -/
theorem splitOn_reads (plain : Plain (PyText.rstrip text)) {line : List Char}
    (member : line ∈ (PyText.rstrip text).splitOn '\n') (reads : ReadsHeader line) :
    ∃ whole ∈ PyText.splitlines text, ReadsHeader whole := by
  have unbroken := splitOn_unbroken plain
  have joined := PyText.joinLines_splitOn (PyText.rstrip text)
  obtain ⟨w, blank, split⟩ := PyText.rstrip_split text
  obtain ⟨ys, y, parts⟩ := (List.eq_nil_or_concat' ((PyText.rstrip text).splitOn '\n')).resolve_left
    (List.splitOn_ne_nil _ _)
  rw [parts] at member unbroken joined
  have first : ∀ line ∈ ys, PyText.Unbroken line := fun line member =>
    unbroken line (List.mem_append_left _ member)
  have lines : PyText.splitlines text = ys ++ PyText.splitlines (y ++ w) := by
    rw [split, ← joined, PyText.joinLines_flatMap, List.append_assoc,
      PyText.splitlines_lines ys (fun line known => (first line known).newline),
      PyText.flatMap_pieces first]
  rw [lines]
  rcases List.mem_append.mp member with here | last
  · exact ⟨line, List.mem_append_left _ here, reads⟩
  · obtain rfl := List.mem_singleton.mp last
    obtain ⟨v, rest, front, within⟩ :=
      PyText.splitlines_append (unbroken line (by simp)) (rstrip_full reads.full) w
    refine ⟨line ++ v, by rw [front]; simp, ?_⟩
    have blanks : PyText.rstrip v = [] := PyText.rstrip_eq_nil.mpr fun c own =>
      PyText.rstrip_eq_nil.mp blank c (within c own)
    exact (PyText.strip_append_blank blanks line).trans reads

/-- Of the stripped text, no more than newlines in front are left out. -/
theorem mem_joinLines_docLines {c : Char} (member : c ∈ PyText.rstrip text) (other : c ≠ '\n') :
    c ∈ PyText.joinLines (Toml.docLines text) := by
  change c ∈ PyText.joinLines (((PyText.rstrip text).splitOn '\n').dropWhile (· = []))
  rw [← PyText.joinLines_dropWhile fun line known => (PyText.mem_splitOn known).1,
    PyText.joinLines_splitOn]
  have split : (PyText.rstrip text).takeWhile (· = '\n') ++ (PyText.rstrip text).dropWhile (· = '\n') =
      PyText.rstrip text := List.takeWhile_append_dropWhile
  rw [← split] at member
  refine (List.mem_append.mp member).resolve_left fun front => other ?_
  simpa using List.mem_takeWhile_imp front

/-- Replacing the section twice is replacing it once exactly where it is found, or where the text has no
breaks but newlines. -/
theorem twice_iff :
    replaceTomlSection (replaceTomlSection text mutmutHeader s.section_) mutmutHeader s.section_ =
        replaceTomlSection text mutmutHeader s.section_ ↔
      (∃ line ∈ PyText.splitlines text, ReadsHeader line) ∨ Plain (PyText.rstrip text) := by
  by_cases found : ∃ line ∈ PyText.splitlines text, ReadsHeader line
  · exact iff_of_true (twice_of_found s found) (.inl found)
  · have none_ : ∀ line ∈ PyText.splitlines text, ¬ ReadsHeader line :=
      fun line member reads => found ⟨line, member, reads⟩
    have once := replaced_of_none none_ s
    have whole := whole_append text s
    constructor
    · intro twice
      refine .inr ?_
      -- The text after the first replacement has the section, and the second leaves newlines only.
      have again : ∃ line ∈ PyText.splitlines (replaceTomlSection text mutmutHeader s.section_),
          ReadsHeader line := by
        refine ⟨mutmutHeader, ?_, by decide⟩
        rw [once, PyText.splitlines_joinLines_pieces whole (by simp [MutmutSettings.newLines])]
        refine List.mem_flatMap.mpr ⟨mutmutHeader, by simp [MutmutSettings.newLines], ?_⟩
        rw [PyText.pieces_unbroken (newLines_unbroken s _ List.mem_cons_self)]
        exact List.mem_cons_self
      obtain ⟨before, header, own, after, cut⟩ := exists_cut again
      have plain : Plain (replaceTomlSection text mutmutHeader s.section_) := by
        rw [← twice, replaced_of_cut cut]
        exact plain_newline.mpr (plain_joinLines (kept_unbroken cut s))
      intro c member breaks
      by_contra other
      have front := mem_joinLines_docLines member other
      have some_ : Toml.docLines text ≠ [] := by
        intro none_
        rw [none_] at front
        cases front
      refine other (plain c ?_ breaks)
      have new : s.newLines ≠ [] := List.cons_ne_nil _ _
      rw [once, PyText.joinLines_append some_ new]
      simp [front]
    · intro either
      have plain := either.resolve_left found
      have unbroken : ∀ line ∈ Toml.docLines text ++ s.newLines, PyText.Unbroken line := by
        intro line member
        rcases List.mem_append.mp member with old | new
        · exact splitOn_unbroken plain line ((List.dropWhile_sublist _).mem old)
        · exact newLines_unbroken s line new
      have first : ∀ line ∈ Toml.docLines text, ¬ ReadsHeader line := fun line member reads =>
        found (splitOn_reads plain ((List.dropWhile_sublist _).mem member) reads)
      have again := @replaced_joinLines s (Toml.docLines text) [] (by rwa [List.append_nil]) first
        fun line next => by cases next
      have none_ : PyText.trimEnd [] = [] := rfl
      rw [none_, List.append_nil] at again
      rw [once, again]

end Twice

/-- Replacing the section leaves the other tables as they were exactly where the shapes of lines show
where it ends; doing so twice is doing it once exactly where it is found or the text has no other breaks;
and the files after the run are those of before exactly where they can be restored. -/
theorem mutmutConfig_frame_iff (text : List Char) (s : MutmutSettings) (files : ConfigFiles)
    (prepare : Except RunError Unit) (block : Act ConfigFiles RunError Unit)
    (restoreFails : ConfigFile → Option RestoreFailure) :
    (SectionReplaced text ↔ SectionAppended text ∨ SectionLocated text) ∧
      (replaceTomlSection (replaceTomlSection text mutmutHeader s.section_) mutmutHeader s.section_ =
          replaceTomlSection text mutmutHeader s.section_ ↔
        (∃ line ∈ PyText.splitlines text, ReadsHeader line) ∨ Plain (PyText.rstrip text)) ∧
      (Act.after (runMutationConfig prepare block restoreFails) files = files ↔
        (Entered files prepare → Restorable files block restoreFails)) :=
  ⟨sectionReplaced_iff, twice_iff s, restored_after_iff⟩

def commentedText : List Char :=
  "[tool.mutmut]\npaths_to_mutate = [\"old.py\"]\n\n[tool.black]  # formatter\nline-length = 100\n".toList

/-- A comment after the next header hides it, and its table goes with the section. -/
theorem commented_table_lost :
    (Toml.tables commentedText).2.filter (fun t => !isMutmutTable t) =
        [⟨"[tool.black]  # formatter".toList, ["line-length = 100".toList]⟩] ∧
      (Toml.tables (replaceTomlSection commentedText mutmutHeader
        (MutmutSettings.mk "a.py" "tests/test_a.py" [] [] "").section_)).2.filter
          (fun t => !isMutmutTable t) = [] := by
  decide +kernel

end Uta.Enforce
