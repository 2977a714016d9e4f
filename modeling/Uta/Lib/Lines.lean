/- Texts as lines joined by newlines: what is left of the lines when the blanks at the end of the text
are stripped, and what `splitlines` makes of the joined text. -/
import Uta.Lib.PyText

namespace Uta.Lib.PyText

/-- `text.rstrip()`. -/
def rstrip (text : List Char) : List Char := text.rdropWhile isSpace

/-- `"\n".join(lines)`. -/
def joinLines (lines : List (List Char)) : List Char := ['\n'].intercalate lines

/-- Lines without the blank ones at the end, and without the blanks at the end of the last. -/
def trimEnd (lines : List (List Char)) : List (List Char) :=
  let kept := lines.rdropWhile fun line => rstrip line = []
  kept.dropLast ++ (kept.getLast?.map rstrip).toList

/-- Lines without blanks at the end and empty lines in front. -/
def trimLines (lines : List (List Char)) : List (List Char) :=
  (trimEnd lines).dropWhile (· = [])

/-- A line without a break. -/
def Unbroken (line : List Char) : Prop := ∀ c ∈ line, isLineBreak c = false

theorem unbroken_of_all {line : List Char} (all : line.all (fun c => !isLineBreak c) = true) :
    Unbroken line := by
  intro c member
  have inside := List.all_eq_true.mp all c member
  simpa using inside

section Strip
variable {p w q : List Char}

theorem isSpace_of_isLineBreak {c : Char} (breaks : isLineBreak c = true) : isSpace c = true := by
  unfold isLineBreak at breaks
  unfold isSpace
  simp only [List.mem_cons, List.not_mem_nil, or_false, decide_eq_true_eq] at breaks
  simp only [Bool.or_eq_true, Bool.and_eq_true, decide_eq_true_eq, beq_iff_eq]
  omega

theorem rstrip_rstrip (text : List Char) : rstrip (rstrip text) = rstrip text :=
  List.rdropWhile_idempotent _ _

theorem rstrip_eq_nil : rstrip w = [] ↔ ∀ c ∈ w, isSpace c = true := List.rdropWhile_eq_nil_iff

theorem rstrip_append_blank (blank : rstrip w = []) : rstrip (p ++ w) = rstrip p := by
  have all := rstrip_eq_nil.mp blank
  clear blank
  induction w using List.reverseRecOn with
  | nil => rw [List.append_nil]
  | append_singleton w c ih =>
      have last : isSpace c = true := all c (by simp)
      rw [← List.append_assoc, rstrip, List.rdropWhile_concat_pos _ _ _ last]
      exact ih fun d member => all d (by simp [member])

theorem rstrip_append (some_ : rstrip q ≠ []) : rstrip (p ++ q) = p ++ rstrip q := by
  induction q using List.reverseRecOn with
  | nil => exact absurd rfl some_
  | append_singleton q c ih =>
      unfold rstrip at some_ ih ⊢
      rw [← List.append_assoc]
      by_cases last : isSpace c = true
      · rw [List.rdropWhile_concat_pos _ _ _ last] at some_ ⊢
        rw [List.rdropWhile_concat_pos _ _ _ last]
        exact ih some_
      · rw [List.rdropWhile_concat_neg _ _ _ last, List.rdropWhile_concat_neg _ _ _ last,
          List.append_assoc]

/-- What is stripped are blanks. -/
theorem rstrip_split (text : List Char) : ∃ w, rstrip w = [] ∧ text = rstrip text ++ w := by
  refine ⟨text.rtakeWhile isSpace, rstrip_eq_nil.mpr fun c member => ?_,
    List.rdropWhile_append_rtakeWhile.symm⟩
  exact List.mem_rtakeWhile_imp member

theorem strip_eq_rstrip (text : List Char) : strip text = rstrip (text.dropWhile isSpace) := rfl

theorem strip_append_blank (blank : rstrip w = []) (text : List Char) :
    strip (text ++ w) = strip text := by
  rw [strip_eq_rstrip, strip_eq_rstrip, List.dropWhile_append]
  split
  · next none_ =>
      rw [List.isEmpty_iff.mp none_]
      exact rstrip_eq_nil.mpr fun c member =>
        rstrip_eq_nil.mp blank c ((List.dropWhile_sublist _).mem member)
  · exact rstrip_append_blank blank

theorem strip_rstrip (text : List Char) : strip (rstrip text) = strip text := by
  obtain ⟨w, blank, split⟩ := rstrip_split text
  conv_rhs => rw [split]
  exact (strip_append_blank blank _).symm

end Strip

/-! Joined lines. -/

section Join
variable {lines first second ys : List (List Char)} {line y : List Char}

theorem joinLines_concat (some_ : ys ≠ []) (y : List Char) :
    joinLines (ys ++ [y]) = joinLines ys ++ '\n' :: y := by
  induction ys with
  | nil => exact absurd rfl some_
  | cons l ls ih =>
      cases ls with
      | nil => simp [joinLines, List.intercalate]
      | cons l' ls =>
          have deeper := ih (List.cons_ne_nil _ _)
          unfold joinLines at deeper ⊢
          rw [List.cons_append, List.cons_append, List.intercalate_cons_cons,
            List.intercalate_cons_cons, ← List.cons_append, deeper]
          simp [List.append_assoc]

theorem joinLines_flatMap (ys : List (List Char)) (y : List Char) :
    joinLines (ys ++ [y]) = ys.flatMap (· ++ ['\n']) ++ y := by
  induction ys with
  | nil => simp [joinLines, List.intercalate]
  | cons l ls ih =>
      have more : ls ++ [y] ≠ [] := by simp
      rw [List.cons_append, joinLines, List.intercalate_cons_of_ne_nil more, List.flatMap_cons]
      unfold joinLines at ih
      rw [ih]
      simp [List.append_assoc]

theorem joinLines_newline (some_ : lines ≠ []) :
    joinLines lines ++ ['\n'] = lines.flatMap (· ++ ['\n']) := by
  obtain ⟨ys, y, rfl⟩ := (List.eq_nil_or_concat' lines).resolve_left some_
  rw [joinLines_flatMap]
  simp

theorem trimEnd_concat_blank (blank : rstrip y = []) : trimEnd (ys ++ [y]) = trimEnd ys := by
  unfold trimEnd
  rw [List.rdropWhile_concat_pos _ _ _ (by simpa using blank)]

theorem trimEnd_concat (some_ : rstrip y ≠ []) : trimEnd (ys ++ [y]) = ys ++ [rstrip y] := by
  unfold trimEnd
  rw [List.rdropWhile_concat_neg _ _ _ (by simpa using some_)]
  simp

/-- Stripping a text strips its lines. -/
theorem rstrip_joinLines (lines : List (List Char)) :
    rstrip (joinLines lines) = joinLines (trimEnd lines) := by
  induction lines using List.reverseRecOn with
  | nil => rfl
  | append_singleton ys y ih =>
      have newline : rstrip ['\n'] = [] := by decide
      by_cases blank : rstrip y = []
      · rw [trimEnd_concat_blank blank, ← ih]
        by_cases none_ : ys = []
        · subst none_
          have single : joinLines ([] ++ [y]) = y := List.intercalate_singleton
          rw [single, blank]
          rfl
        · rw [joinLines_concat none_]
          apply rstrip_append_blank
          exact (rstrip_append_blank blank).trans newline
      · rw [trimEnd_concat blank]
        by_cases none_ : ys = []
        · subst none_
          simp [joinLines, List.intercalate]
        · rw [joinLines_concat none_, joinLines_concat none_, ← List.singleton_append,
            ← List.append_assoc, rstrip_append blank]
          simp

theorem trimEnd_append (some_ : trimEnd second ≠ []) :
    trimEnd (first ++ second) = first ++ trimEnd second := by
  induction second using List.reverseRecOn with
  | nil => exact absurd rfl some_
  | append_singleton ys y ih =>
      rw [← List.append_assoc]
      by_cases blank : rstrip y = []
      · rw [trimEnd_concat_blank blank] at some_ ⊢
        rw [trimEnd_concat_blank blank]
        exact ih some_
      · rw [trimEnd_concat blank, trimEnd_concat blank, List.append_assoc]

theorem trimEnd_trimEnd (lines : List (List Char)) : trimEnd (trimEnd lines) = trimEnd lines := by
  induction lines using List.reverseRecOn with
  | nil => rfl
  | append_singleton ys y ih =>
      by_cases blank : rstrip y = []
      · rw [trimEnd_concat_blank blank, ih]
      · rw [trimEnd_concat blank, trimEnd_concat (by rw [rstrip_rstrip]; exact blank), rstrip_rstrip]

/-- A kept line is a line, or the last one without its blanks. -/
theorem mem_trimEnd {line : List Char} (member : line ∈ trimEnd lines) :
    ∃ whole ∈ lines, line = whole ∨ line = rstrip whole := by
  induction lines using List.reverseRecOn with
  | nil => cases member
  | append_singleton ys y ih =>
      by_cases blank : rstrip y = []
      · rw [trimEnd_concat_blank blank] at member
        obtain ⟨whole, known, same⟩ := ih member
        exact ⟨whole, List.mem_append_left _ known, same⟩
      · rw [trimEnd_concat blank] at member
        rcases List.mem_append.mp member with here | last
        · exact ⟨line, List.mem_append_left _ here, .inl rfl⟩
        · exact ⟨y, by simp, .inr (List.mem_singleton.mp last)⟩

/-- What holds of all characters holds of those that are kept. -/
theorem chars_trimEnd {p : Char → Prop} (all : ∀ line ∈ lines, ∀ c ∈ line, p c) :
    ∀ line ∈ trimEnd lines, ∀ c ∈ line, p c := by
  intro line member c own
  obtain ⟨whole, known, rfl | rfl⟩ := mem_trimEnd member
  · exact all line known c own
  · exact all whole known c ((List.rdropWhile_prefix (p := isSpace) whole).sublist.mem own)

theorem trimEnd_append_blank (blank : trimEnd second = []) : trimEnd (first ++ second) = trimEnd first := by
  induction second using List.reverseRecOn with
  | nil => rw [List.append_nil]
  | append_singleton ys y ih =>
      by_cases last : rstrip y = []
      · rw [trimEnd_concat_blank last] at blank
        rw [← List.append_assoc, trimEnd_concat_blank last, ih blank]
      · rw [trimEnd_concat last] at blank
        exact absurd blank (by simp)

/-- From a line that is not blank on, lines are kept up to blanks at the end. -/
theorem trimEnd_cons (full : rstrip line ≠ []) (lines : List (List Char)) :
    ∃ line' lines', trimEnd (line :: lines) = line' :: lines' ∧ strip line' = strip line ∧
      ∀ kept ∈ lines', ∃ whole ∈ lines, strip kept = strip whole := by
  induction lines using List.reverseRecOn with
  | nil =>
      refine ⟨rstrip line, [], ?_, strip_rstrip line, fun kept member => by cases member⟩
      have single := @trimEnd_concat [] line full
      exact single
  | append_singleton ys y ih =>
      rw [← List.cons_append]
      by_cases blank : rstrip y = []
      · rw [trimEnd_concat_blank blank]
        obtain ⟨line', lines', same, head, later⟩ := ih
        refine ⟨line', lines', same, head, fun kept member => ?_⟩
        obtain ⟨whole, known, strips⟩ := later kept member
        exact ⟨whole, List.mem_append_left _ known, strips⟩
      · rw [trimEnd_concat blank]
        refine ⟨line, ys ++ [rstrip y], rfl, rfl, fun kept member => ?_⟩
        rcases List.mem_append.mp member with here | last
        · exact ⟨kept, List.mem_append_left _ here, rfl⟩
        · rw [List.mem_singleton.mp last]
          exact ⟨y, by simp, strip_rstrip y⟩

theorem joinLines_append (some_ : first ≠ []) (more : second ≠ []) :
    joinLines (first ++ second) = joinLines first ++ '\n' :: joinLines second := by
  induction second using List.reverseRecOn with
  | nil => exact absurd rfl more
  | append_singleton ys y ih =>
      rw [← List.append_assoc]
      by_cases none_ : ys = []
      · subst none_
        rw [List.append_nil, joinLines_concat some_]
        simp [joinLines, List.intercalate]
      · rw [joinLines_concat (by simp [none_]), ih none_, joinLines_concat none_]
        simp [List.append_assoc]

theorem joinLines_dropWhile (whole : ∀ line ∈ lines, '\n' ∉ line) :
    (joinLines lines).dropWhile (· = '\n') = joinLines (lines.dropWhile (· = [])) := by
  induction lines with
  | nil => rfl
  | cons line lines ih =>
      cases line with
      | nil =>
          rw [List.dropWhile_cons_of_pos (by rfl)]
          cases lines with
          | nil => rfl
          | cons next lines =>
              rw [← ih fun line member => whole line (List.mem_cons_of_mem _ member)]
              rw [joinLines, List.intercalate_cons_cons]
              exact List.dropWhile_cons_of_pos (by rfl)
      | cons c cs =>
          have other : c ≠ '\n' := fun same =>
            whole (c :: cs) List.mem_cons_self (same ▸ List.mem_cons_self)
          rw [List.dropWhile_cons_of_neg (by simp)]
          cases lines with
          | nil =>
              rw [joinLines, List.intercalate_singleton, List.dropWhile_cons_of_neg (by simpa using other)]
          | cons next lines =>
              rw [joinLines, List.intercalate_cons_cons, List.append_assoc, List.cons_append,
                List.dropWhile_cons_of_neg (by simpa using other)]

theorem dropWhile_append_full {line : List Char} (full : line ≠ []) (first second : List (List Char)) :
    (first ++ line :: second).dropWhile (· = []) = first.dropWhile (· = []) ++ line :: second := by
  induction first with
  | nil => exact List.dropWhile_cons_of_neg (by simpa using full)
  | cons l ls ih =>
      by_cases empty : l = []
      · rw [List.cons_append, List.dropWhile_cons_of_pos (by simpa using empty),
          List.dropWhile_cons_of_pos (by simpa using empty), ih]
      · rw [List.cons_append, List.dropWhile_cons_of_neg (by simpa using empty),
          List.dropWhile_cons_of_neg (by simpa using empty), List.cons_append]

end Join

/-! Splitting again. -/

section Split
variable {lines ys : List (List Char)} {y : List Char}

theorem Unbroken.newline {line : List Char} (unbroken : Unbroken line) : '\n' ∉ line :=
  fun member => absurd (unbroken _ member) (by decide)

theorem pieces_unbroken {line : List Char} (unbroken : Unbroken line) : pieces line = [line] := by
  have whole := pieces_append line [] unbroken
  rw [List.append_nil] at whole
  simpa [first, extra] using whole

/-- The lines of a text hold no break. -/
theorem splitlines_unbroken (text : List Char) : ∀ line ∈ splitlines text, Unbroken line := by
  induction text using splitlines.induct with
  | case1 => intro line member; cases member
  | case2 cs ih =>
      rw [splitlines]
      intro line member
      rcases List.mem_cons.mp member with rfl | later
      · intro c own
        cases own
      · exact ih line later
  | case3 c cs single breaks ih =>
      rw [splitlines.eq_3 c cs single, if_pos breaks]
      intro line member
      rcases List.mem_cons.mp member with rfl | later
      · intro c own
        cases own
      · exact ih line later
  | case4 c cs single inside none_ ih =>
      rw [splitlines.eq_3 c cs single, if_neg inside, none_]
      intro line member d own
      obtain rfl := List.mem_singleton.mp member
      obtain rfl := List.mem_singleton.mp own
      exact Bool.eq_false_iff.mpr inside
  | case5 c cs single inside l ls some_ ih =>
      rw [splitlines.eq_3 c cs single, if_neg inside, some_]
      rw [some_] at ih
      intro line member d own
      rcases List.mem_cons.mp member with rfl | later
      · rcases List.mem_cons.mp own with rfl | rest
        · exact Bool.eq_false_iff.mpr inside
        · exact ih l List.mem_cons_self d rest
      · exact ih line (List.mem_cons_of_mem _ later) d own

theorem flatMap_pieces (unbroken : ∀ line ∈ lines, Unbroken line) : lines.flatMap pieces = lines := by
  induction lines with
  | nil => rfl
  | cons l ls ih =>
      rw [List.flatMap_cons, pieces_unbroken (unbroken l List.mem_cons_self),
        ih fun line member => unbroken line (List.mem_cons_of_mem _ member)]
      rfl

theorem splitlines_line_end (unbroken : Unbroken y) :
    splitlines y = if y = [] then [] else [y] := by
  induction y with
  | nil => rfl
  | cons c cs ih =>
      have single : ¬ (c = '\r' ∧ cs.head? = some '\n') := by
        rintro ⟨rfl, -⟩
        exact absurd (unbroken _ List.mem_cons_self) (by decide)
      have inside : ¬ isLineBreak c = true := by
        rw [unbroken c List.mem_cons_self]
        decide
      rw [if_neg (List.cons_ne_nil _ _), splitlines_cons c cs single, if_neg inside]
      rw [ih fun d member => unbroken d (List.mem_cons_of_mem _ member)]
      split
      · next none_ => rw [none_]; rfl
      · rfl

/-- Joined lines are split into what they were, but for an empty last one. -/
theorem splitlines_joinLines (unbroken : ∀ line ∈ ys ++ [y], Unbroken line) :
    splitlines (joinLines (ys ++ [y])) = ys ++ if y = [] then [] else [y] := by
  have first : ∀ line ∈ ys, Unbroken line := fun line member =>
    unbroken line (List.mem_append_left _ member)
  rw [joinLines_flatMap, splitlines_lines ys (fun line member => (first line member).newline),
    flatMap_pieces first, splitlines_line_end (unbroken y (by simp))]

/-- Joined lines that are ended by a newline are split one by one. -/
theorem splitlines_joinLines_pieces (whole : ∀ line ∈ lines, '\n' ∉ line) (some_ : lines ≠ []) :
    splitlines (joinLines lines ++ ['\n']) = lines.flatMap pieces := by
  rw [joinLines_newline some_, ← List.append_nil (lines.flatMap _), splitlines_lines lines whole]
  exact List.append_nil _

theorem splitlines_joinLines_newline (unbroken : ∀ line ∈ lines, Unbroken line) (some_ : lines ≠ []) :
    splitlines (joinLines lines ++ ['\n']) = lines := by
  rw [splitlines_joinLines_pieces (fun line member => (unbroken line member).newline) some_,
    flatMap_pieces unbroken]

/-- The characters of a line are those of the text. -/
theorem mem_of_mem_splitlines {text : List Char} {line : List Char} (member : line ∈ splitlines text)
    {c : Char} (own : c ∈ line) : c ∈ text := by
  induction text using splitlines.induct generalizing line with
  | case1 => cases member
  | case2 cs ih =>
      rw [splitlines] at member
      rcases List.mem_cons.mp member with rfl | later
      · cases own
      · exact List.mem_cons_of_mem _ (List.mem_cons_of_mem _ (ih later own))
  | case3 d cs single breaks ih =>
      rw [splitlines.eq_3 d cs single, if_pos breaks] at member
      rcases List.mem_cons.mp member with rfl | later
      · cases own
      · exact List.mem_cons_of_mem _ (ih later own)
  | case4 d cs single inside none_ ih =>
      rw [splitlines.eq_3 d cs single, if_neg inside, none_] at member
      obtain rfl := List.mem_singleton.mp member
      obtain rfl := List.mem_singleton.mp own
      exact List.mem_cons_self
  | case5 d cs single inside l ls some_ ih =>
      rw [splitlines.eq_3 d cs single, if_neg inside, some_] at member
      rw [some_] at ih
      rcases List.mem_cons.mp member with rfl | later
      · rcases List.mem_cons.mp own with rfl | rest
        · exact List.mem_cons_self
        · exact List.mem_cons_of_mem _ (ih List.mem_cons_self rest)
      · exact List.mem_cons_of_mem _ (ih (List.mem_cons_of_mem _ later) own)

/-- A text goes on in the line that it ends in. -/
theorem splitlines_append {y : List Char} (unbroken : Unbroken y) (full : y ≠ []) (w : List Char) :
    ∃ v rest, splitlines (y ++ w) = (y ++ v) :: rest ∧ ∀ c ∈ v, c ∈ w := by
  induction y with
  | nil => exact absurd rfl full
  | cons c cs ih =>
      have single : ¬ (c = '\r' ∧ (cs ++ w).head? = some '\n') := by
        rintro ⟨rfl, -⟩
        exact absurd (unbroken _ List.mem_cons_self) (by decide)
      have inside : ¬ isLineBreak c = true := by
        rw [unbroken c List.mem_cons_self]
        decide
      rw [List.cons_append, splitlines_cons c _ single, if_neg inside]
      by_cases last : cs = []
      · subst last
        rw [List.nil_append]
        cases own : splitlines w with
        | nil => exact ⟨[], [], rfl, fun c member => by cases member⟩
        | cons l ls =>
            refine ⟨l, ls, rfl, fun d member => ?_⟩
            exact mem_of_mem_splitlines (own ▸ List.mem_cons_self) member
      · obtain ⟨v, rest, same, within⟩ :=
          ih (fun d member => unbroken d (List.mem_cons_of_mem _ member)) last
        rw [same]
        exact ⟨v, rest, rfl, within⟩

theorem joinLines_splitOn (text : List Char) : joinLines (text.splitOn '\n') = text :=
  List.intercalate_splitOn '\n'

theorem splitOn_joinLines (whole : ∀ line ∈ lines, '\n' ∉ line) (some_ : lines ≠ []) :
    (joinLines lines).splitOn '\n' = lines :=
  List.splitOn_intercalate '\n' whole some_

/-- A part is without the separator, and its characters are those of the text. -/
theorem mem_splitOn {a : Char} {text part : List Char} (member : part ∈ text.splitOn a) :
    a ∉ part ∧ ∀ c ∈ part, c ∈ text := by
  induction text generalizing part with
  | nil =>
      obtain rfl := List.mem_singleton.mp member
      exact ⟨List.not_mem_nil, fun c own => own⟩
  | cons d text ih =>
      rw [List.splitOn_cons_eq_if_modifyHead] at member
      split at member
      · rcases List.mem_cons.mp member with rfl | later
        · exact ⟨List.not_mem_nil, fun c own => by cases own⟩
        · obtain ⟨none_, within⟩ := ih later
          exact ⟨none_, fun c own => List.mem_cons_of_mem _ (within c own)⟩
      · next other =>
          cases parts : text.splitOn a with
          | nil => exact absurd parts (List.splitOn_ne_nil _ _)
          | cons first rest =>
              rw [parts] at member
              rcases List.mem_cons.mp member with rfl | later
              · have here : first ∈ text.splitOn a := by rw [parts]; exact List.mem_cons_self
                obtain ⟨none_, within⟩ := ih here
                refine ⟨fun own => ?_, fun c own => ?_⟩
                · rcases List.mem_cons.mp own with rfl | deeper
                  · exact other (by simp)
                  · exact none_ deeper
                · rcases List.mem_cons.mp own with rfl | deeper
                  · exact List.mem_cons_self
                  · exact List.mem_cons_of_mem _ (within c deeper)
              · obtain ⟨none_, within⟩ := ih (by rw [parts]; exact List.mem_cons_of_mem _ later)
                exact ⟨none_, fun c own => List.mem_cons_of_mem _ (within c own)⟩

theorem mem_of_mem_intercalate {c x : Char} {parts : List (List Char)} (other : c ≠ x)
    (inside : c ∈ [x].intercalate parts) : ∃ part ∈ parts, c ∈ part := by
  induction parts with
  | nil => exact absurd inside List.not_mem_nil
  | cons part parts ih =>
      cases parts with
      | nil =>
          rw [List.intercalate_singleton] at inside
          exact ⟨part, List.mem_cons_self, inside⟩
      | cons next parts =>
          rw [List.intercalate_cons_cons, List.mem_append, List.mem_append] at inside
          rcases inside with (own | separator) | later
          · exact ⟨part, List.mem_cons_self, own⟩
          · exact absurd (List.mem_singleton.mp separator) other
          · obtain ⟨found, among, own⟩ := ih later
            exact ⟨found, List.mem_cons_of_mem _ among, own⟩

theorem mem_intercalate_of_mem {c x : Char} {part : List Char} {parts : List (List Char)}
    (among : part ∈ parts) (inside : c ∈ part) : c ∈ [x].intercalate parts := by
  induction parts with
  | nil => exact absurd among List.not_mem_nil
  | cons first parts ih =>
      cases parts with
      | nil =>
          rw [List.intercalate_singleton]
          rwa [List.mem_singleton.mp among] at inside
      | cons next parts =>
          rw [List.intercalate_cons_cons, List.mem_append, List.mem_append]
          rcases List.mem_cons.mp among with rfl | later
          · exact .inl (.inl inside)
          · exact .inr (ih later)

end Split

/-! What is written between the blanks. -/

section Ink

/-- The characters that are no blanks. -/
def ink (text : List Char) : List Char := text.filter fun c => !isSpace c

theorem ink_append (p q : List Char) : ink (p ++ q) = ink p ++ ink q := List.filter_append ..

theorem ink_eq_nil {w : List Char} : ink w = [] ↔ rstrip w = [] := by
  rw [rstrip_eq_nil, ink, List.filter_eq_nil_iff]
  simp

theorem ink_rstrip (text : List Char) : ink (rstrip text) = ink text := by
  obtain ⟨w, blank, split⟩ := rstrip_split text
  conv_rhs => rw [split, ink_append, ink_eq_nil.mpr blank, List.append_nil]

theorem ink_splitlines (text : List Char) : (splitlines text).flatMap ink = ink text := by
  have skips : ∀ {c cs}, isSpace c = true → ink (c :: cs) = ink cs := fun blank =>
    List.filter_cons_of_neg (by simp [blank])
  induction text using splitlines.induct with
  | case1 => rfl
  | case2 cs ih =>
      rw [splitlines, List.flatMap_cons, ih, skips (by decide), skips (by decide)]
      rfl
  | case3 c cs single breaks ih =>
      rw [splitlines.eq_3 c cs single, if_pos breaks, List.flatMap_cons, ih,
        skips (isSpace_of_isLineBreak breaks)]
      rfl
  | case4 c cs single inside none_ ih =>
      rw [none_] at ih
      rw [splitlines.eq_3 c cs single, if_neg inside, none_]
      have front := ink_append [c] cs
      rw [← ih] at front
      exact front.symm
  | case5 c cs single inside l ls some_ ih =>
      rw [some_] at ih
      rw [splitlines.eq_3 c cs single, if_neg inside, some_]
      have front := ink_append [c] cs
      rw [← ih, List.flatMap_cons, ← List.append_assoc, ← ink_append] at front
      exact front.symm

theorem ink_joinLines (lines : List (List Char)) : ink (joinLines lines) = lines.flatMap ink := by
  induction lines using List.reverseRecOn with
  | nil => rfl
  | append_singleton ys y ih =>
      rw [List.flatMap_append, List.flatMap_cons, List.flatMap_nil, List.append_nil]
      by_cases none_ : ys = []
      · subst none_
        simp [joinLines, List.intercalate]
      · rw [joinLines_concat none_, ink_append, ih]
        rfl

theorem ink_trimEnd (lines : List (List Char)) :
    (trimEnd lines).flatMap ink = lines.flatMap ink := by
  rw [← ink_joinLines, ← ink_joinLines, ← rstrip_joinLines, ink_rstrip]

theorem ink_dropWhile (lines : List (List Char)) :
    (lines.dropWhile (· = [])).flatMap ink = lines.flatMap ink := by
  induction lines with
  | nil => rfl
  | cons line lines ih =>
      by_cases empty : line = []
      · rw [List.dropWhile_cons_of_pos (by simpa using empty), ih, empty]
        rfl
      · rw [List.dropWhile_cons_of_neg (by simpa using empty)]

end Ink

end Uta.Lib.PyText
