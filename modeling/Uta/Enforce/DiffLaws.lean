/- The diffs whose added lines the scanner numbers correctly. -/
import Uta.Enforce.Diff
import Mathlib.Data.Bool.AllAny

namespace Uta.Enforce
open Uta.Lib PyText

/-! Marks of rendered lines. -/

theorem hunkStart_of_head {c : Char} (other : c ≠ '@') (rest : List Char) :
    hunkStart (c :: rest) = none := by
  have refused : after? "@@ -" (c :: rest) = none := by
    have : ¬ '@' = c := fun same => other same.symm
    simp [after?, PyText.startsWith, this]
  unfold hunkStart
  rw [refused]
  rfl

theorem markOf_added (content : List Char) :
    markOf ('+' :: content) = if PyText.startsWith "++" content then .other else .plus := by
  by_cases doubled : PyText.startsWith "++" content = true
  · rw [if_pos doubled]
    simp_all [markOf, PyText.startsWith]
  · rw [if_neg doubled]
    simp_all [markOf, PyText.startsWith]

theorem markOf_removed (content : List Char) :
    markOf ('-' :: content) = if PyText.startsWith "--" content then .other else .minus := by
  by_cases doubled : PyText.startsWith "--" content = true
  · rw [if_pos doubled]
    simp_all [markOf, PyText.startsWith]
  · rw [if_neg doubled]
    simp_all [markOf, PyText.startsWith]

theorem startsWith_first {c : Char} (plain : isLineBreak c = false) (content : List Char) :
    PyText.startsWith (String.ofList [c, c]) (first content) =
      PyText.startsWith (String.ofList [c, c]) content := by
  have step : ∀ (d : Char) (l : List Char),
      first (d :: l) = if isLineBreak d then [] else d :: first l := by
    intro d l
    by_cases break_ : isLineBreak d = true
    · rw [if_pos break_]
      unfold first pieces
      rw [List.cons_append]
      by_cases double : d = '\r' ∧ (l ++ ['\n']).head? = some '\n'
      · obtain ⟨rfl, next⟩ := double
        rcases l with _ | ⟨e, l⟩
        · rfl
        · obtain rfl : e = '\n' := by simpa using next
          rfl
      · rw [splitlines_cons d _ double, if_pos break_]
        rfl
    · rw [if_neg break_]
      unfold first
      rw [pieces_cons (by simpa using break_)]
      rfl
  have differs : ∀ d, isLineBreak d = true → ¬ c = d := by
    rintro d break_ rfl
    rw [plain] at break_
    cases break_
  rcases content with _ | ⟨d, _ | ⟨e, rest⟩⟩
  · rfl
  · rw [step]
    by_cases break_ : isLineBreak d = true
    · simp [break_, PyText.startsWith, differs d break_]
    · simp [break_, PyText.startsWith, first]
  · rw [step, step]
    by_cases break_ : isLineBreak d = true
    · simp [break_, PyText.startsWith, differs d break_]
    · by_cases break' : isLineBreak e = true
      · simp [break_, break', PyText.startsWith, differs e break']
      · simp [break_, break', PyText.startsWith]

/-! Tame and aligned hunks. -/

/-- A piece behind a break of a line that is neither a hunk header nor reads as
an added line. -/
def Quiet (p : List Char) : Prop := hunkStart p = none ∧ markOf p ≠ .plus

instance (p : List Char) : Decidable (Quiet p) := inferInstanceAs (Decidable (_ ∧ _))

namespace Hunk
variable (h : Hunk)

/-- No piece behind a break reads as an added line or as a hunk header. -/
structure Tame : Prop where
  heading : ∀ p ∈ extra h.heading.1, Quiet p
  removed : ∀ l ∈ h.removed, ∀ p ∈ extra l.1, Quiet p
  added : ∀ l ∈ h.added, ∀ p ∈ extra l.1, Quiet p

/-- The counter stands at the hunk's start when the added lines begin. -/
structure StartsEven : Prop where
  heading : ∀ p ∈ extra h.heading.1, markOf p = .minus
  removed : ∀ l ∈ h.removed, PyText.startsWith "--" l.1 = false ∧ ∀ p ∈ extra l.1, markOf p = .minus
  ended : h.oldUnended = false

end Hunk

/-- Every added line is counted, and only the last one may move the counter on. -/
def AddedEven : List Line → Prop
  | [] => True
  | l :: ls => PyText.startsWith "++" l.1 = false ∧ (ls ≠ [] → ∀ p ∈ extra l.1, markOf p = .minus) ∧
      AddedEven ls

namespace Hunk
variable (h : Hunk)

def Aligned : Prop := h.added = [] ∨ (h.StartsEven ∧ AddedEven h.added)

def beforeMarks : List Mark :=
  (extra h.heading.1 ++ h.removedLines.flatMap pieces).map markOf

def addedMarks : List Mark := (h.addedLines.flatMap pieces).map markOf

end Hunk

theorem marker_pieces (unended : Bool) :
    (noNewline unended).flatMap pieces = noNewline unended := by
  cases unended with
  | false => rfl
  | true => decide +kernel

theorem marker_quiet {unended : Bool} {p : List Char} (member : p ∈ noNewline unended) :
    hunkStart p = none ∧ markOf p = .other := by
  cases unended with
  | false => cases member
  | true =>
      obtain rfl : p = "\\ No newline at end of file".toList := by simpa [noNewline] using member
      exact ⟨hunkStart_of_head (by decide) _, by decide⟩

/-- The pieces of a removed, or an added, line. -/
theorem pieces_prefixed {c : Char} (plain : isLineBreak c = false) (ls : List Line) :
    (ls.map (fun l => c :: l.1)).flatMap pieces =
      ls.flatMap fun l => (c :: first l.1) :: extra l.1 := by
  rw [List.flatMap_map]
  apply List.flatMap_congr
  intro l _
  exact pieces_cons plain l.1

theorem removed_pieces (h : Hunk) : h.removedLines.flatMap pieces =
    (h.removed.flatMap fun l => ('-' :: first l.1) :: extra l.1) ++ noNewline h.oldUnended := by
  rw [Hunk.removedLines, List.flatMap_append, pieces_prefixed (by decide), marker_pieces]

theorem added_pieces (h : Hunk) : h.addedLines.flatMap pieces =
    (h.added.flatMap fun l => ('+' :: first l.1) :: extra l.1) ++ noNewline h.newUnended := by
  rw [Hunk.addedLines, List.flatMap_append, pieces_prefixed (by decide), marker_pieces]

/-- In a tame hunk no line but the header reads as a header. -/
theorem body_plain {h : Hunk} (tame : h.Tame) : ∀ p ∈ extra h.heading.1 ++
    h.removedLines.flatMap pieces ++ h.addedLines.flatMap pieces, hunkStart p = none := by
  intro p member
  rw [removed_pieces, added_pieces] at member
  simp only [List.mem_append, List.mem_flatMap, List.mem_cons] at member
  rcases member with (heading | ⟨l, listed, rfl | behind⟩ | marker) | ⟨l, listed, rfl | behind⟩ | marker
  · exact (tame.heading p heading).1
  · exact hunkStart_of_head (by decide) _
  · exact (tame.removed l listed p behind).1
  · exact (marker_quiet marker).1
  · exact hunkStart_of_head (by decide) _
  · exact (tame.added l listed p behind).1
  · exact (marker_quiet marker).1

theorem before_no_plus {h : Hunk} (tame : h.Tame) : ∀ m ∈ h.beforeMarks, m ≠ .plus := by
  intro m marked
  obtain ⟨p, member, rfl⟩ := List.mem_map.mp marked
  rw [removed_pieces] at member
  simp only [List.mem_append, List.mem_flatMap, List.mem_cons] at member
  rcases member with heading | ⟨l, listed, rfl | behind⟩ | marker
  · exact (tame.heading p heading).2
  · rw [markOf_removed]
    split <;> decide
  · exact (tame.removed l listed p behind).2
  · rw [(marker_quiet marker).2]
    decide

theorem before_even_iff (h : Hunk) : advance h.beforeMarks = 0 ↔ h.StartsEven := by
  have doubled : ∀ l : Line, markOf ('-' :: first l.1) = .minus ↔ PyText.startsWith "--" l.1 = false := by
    intro l
    have same : PyText.startsWith "--" (first l.1) = PyText.startsWith "--" l.1 :=
      startsWith_first (c := '-') (by decide) l.1
    rw [markOf_removed, same]
    cases PyText.startsWith "--" l.1 <;> decide
  rw [advance_eq_zero, Hunk.beforeMarks, removed_pieces]
  simp only [List.mem_map, List.mem_append, List.mem_flatMap, List.mem_cons]
  constructor
  · intro even
    refine ⟨fun p behind => even _ ⟨p, .inl behind, rfl⟩, fun l listed => ⟨?_, ?_⟩, ?_⟩
    · exact (doubled l).mp (even _ ⟨_, .inr (.inl ⟨l, listed, .inl rfl⟩), rfl⟩)
    · exact fun p behind => even _ ⟨p, .inr (.inl ⟨l, listed, .inr behind⟩), rfl⟩
    · by_contra unended
      rw [Bool.not_eq_false] at unended
      have marker : "\\ No newline at end of file".toList ∈ noNewline h.oldUnended := by
        rw [unended]
        exact List.mem_singleton.mpr rfl
      have minus := even _ ⟨_, .inr (.inr marker), rfl⟩
      rw [(marker_quiet marker).2] at minus
      cases minus
  · rintro even m ⟨p, heading | ⟨l, listed, rfl | behind⟩ | marker, rfl⟩
    · exact even.heading p heading
    · exact (doubled l).mpr (even.removed l listed).1
    · exact (even.removed l listed).2 p behind
    · rw [even.ended] at marker
      cases marker

/-- How far the pieces behind the breaks of a line move the counter. -/
def slip (l : Line) : ℕ := advance ((extra l.1).map markOf)

theorem slip_eq_zero {l : Line} : slip l = 0 ↔ ∀ p ∈ extra l.1, markOf p = .minus := by
  rw [slip, advance_eq_zero]
  constructor
  · intro h p behind
    exact h _ (List.mem_map.mpr ⟨p, behind, rfl⟩)
  · intro h m marked
    obtain ⟨p, behind, rfl⟩ := List.mem_map.mp marked
    exact h p behind

def addedLineMarks (l : Line) : List Mark := markOf ('+' :: first l.1) :: (extra l.1).map markOf

/-- One added line reports the counter unless its content starts with `++`. -/
theorem reports_added_line {l : Line} (tame : ∀ p ∈ extra l.1, Quiet p) (rest : List Mark) (k : ℕ) :
    reports k (addedLineMarks l ++ rest) =
      (if PyText.startsWith "++" l.1 then ∅ else {k}) ∪ reports (k + 1 + slip l) rest := by
  have behind : ∀ m ∈ (extra l.1).map markOf, m ≠ .plus := by
    intro m marked
    obtain ⟨p, member, rfl⟩ := List.mem_map.mp marked
    exact (tame p member).2
  have same : PyText.startsWith "++" (first l.1) = PyText.startsWith "++" l.1 :=
    startsWith_first (c := '+') (by decide) l.1
  have later : ∀ j, reports j ((extra l.1).map markOf ++ rest) = reports (j + slip l) rest := by
    intro j
    rw [reports_append, reports_of_no_plus behind, Finset.empty_union, slip]
  rw [addedLineMarks, List.cons_append, markOf_added, same]
  by_cases doubled : PyText.startsWith "++" l.1 = true
  · rw [if_pos doubled, if_pos doubled, reports, later, Finset.empty_union]
  · rw [if_neg doubled, if_neg doubled, reports, later, Finset.insert_eq]

/-- Even added lines report their own numbers. -/
theorem reports_added_even {ls : List Line} (tame : ∀ l ∈ ls, ∀ p ∈ extra l.1, Quiet p)
    {tail : List Mark} (silent : ∀ m ∈ tail, m ≠ .plus) (even : AddedEven ls) (k : ℕ) :
    reports k (ls.flatMap addedLineMarks ++ tail) = Finset.Ico k (k + ls.length) := by
  induction ls generalizing k with
  | nil => simp [reports_of_no_plus silent]
  | cons l ls ih =>
      obtain ⟨counted, level, even⟩ := even
      have ih := ih (fun m member => tame m (by simp [member])) even (k + 1)
      have rest : reports (k + 1 + slip l) (ls.flatMap addedLineMarks ++ tail) =
          Finset.Ico (k + 1) (k + 1 + ls.length) := by
        cases ls with
        | nil => simp [reports_of_no_plus silent]
        | cons l' ls =>
            rw [slip_eq_zero.mpr (level (List.cons_ne_nil l' ls)), Nat.add_zero, ih]
      rw [List.flatMap_cons, List.append_assoc, reports_added_line (tame l (by simp)), counted, rest]
      ext m
      simp only [Bool.false_eq_true, if_false, Finset.mem_union, Finset.mem_singleton,
        Finset.mem_Ico, List.length_cons]
      omega

/-- Of uneven added lines, one number is missing. -/
theorem reports_added_uneven {ls : List Line} (tame : ∀ l ∈ ls, ∀ p ∈ extra l.1, Quiet p)
    {tail : List Mark} (uneven : ¬ AddedEven ls) (k : ℕ) :
    ∃ m ∈ Finset.Ico k (k + ls.length), m ∉ reports k (ls.flatMap addedLineMarks ++ tail) := by
  induction ls generalizing k with
  | nil => exact absurd trivial uneven
  | cons l ls ih =>
      rw [List.flatMap_cons, List.append_assoc, reports_added_line (tame l (by simp)),
        List.length_cons]
      have later : ∀ m, m ∈ reports (k + 1 + slip l) (ls.flatMap addedLineMarks ++ tail) →
          k + 1 + slip l ≤ m := fun m reported => le_of_mem_reports reported
      by_cases doubled : PyText.startsWith "++" l.1 = true
      · -- The line is not counted, and everything after it is numbered higher.
        refine ⟨k, Finset.mem_Ico.mpr ⟨le_refl k, by omega⟩, fun reported => ?_⟩
        rw [if_pos doubled, Finset.empty_union] at reported
        have := later k reported
        omega
      rw [if_neg doubled]
      by_cases level : slip l = 0
      · have tailUneven : ¬ AddedEven ls := fun even =>
          uneven ⟨by simpa using doubled, fun _ => slip_eq_zero.mp level, even⟩
        obtain ⟨m, inside, missing⟩ :=
          ih (fun m member => tame m (by simp [member])) tailUneven (k + 1)
        rw [Finset.mem_Ico] at inside
        refine ⟨m, Finset.mem_Ico.mpr ⟨by omega, by omega⟩, fun reported => ?_⟩
        rw [level, Nat.add_zero] at reported
        rcases Finset.mem_union.mp reported with here | after
        · have := Finset.mem_singleton.mp here
          omega
        · exact missing after
      · cases ls with
        | nil =>
            exact absurd ⟨by simpa using doubled, fun other => absurd rfl other, trivial⟩ uneven
        | cons l' ls =>
            -- The next line is numbered too high, so its own number is missing.
            refine ⟨k + 1, Finset.mem_Ico.mpr ⟨by omega, by simp⟩, fun reported => ?_⟩
            rcases Finset.mem_union.mp reported with here | after
            · have := Finset.mem_singleton.mp here
              omega
            · have := later (k + 1) after
              omega

/-! Whole hunks. -/

namespace Hunk

/-- What the scanner reports of a tame hunk. -/
def reported (h : Hunk) : Finset ℕ := reports h.newStart (h.beforeMarks ++ h.addedMarks)

theorem addedMarks_eq (h : Hunk) : h.addedMarks =
    h.added.flatMap addedLineMarks ++ (noNewline h.newUnended).map markOf := by
  rw [addedMarks, added_pieces, List.map_append, List.map_flatMap]
  rfl

theorem marker_silent (h : Hunk) : ∀ m ∈ (noNewline h.newUnended).map markOf, m ≠ .plus := by
  intro m marked
  obtain ⟨p, member, rfl⟩ := List.mem_map.mp marked
  rw [(marker_quiet member).2]
  decide

theorem reported_eq {h : Hunk} (tame : h.Tame) : h.reported =
    reports (h.newStart + advance h.beforeMarks) h.addedMarks := by
  rw [reported, reports_append, reports_of_no_plus (before_no_plus tame), Finset.empty_union]

theorem reported_above {h : Hunk} {m : ℕ} (reported : m ∈ h.reported) : h.newStart ≤ m :=
  le_of_mem_reports reported

theorem reported_aligned {h : Hunk} (tame : h.Tame) (aligned : h.Aligned) :
    h.reported = h.numbers := by
  rw [reported_eq tame, addedMarks_eq]
  rcases aligned with empty | ⟨even, addedEven⟩
  · rw [numbers, empty, List.flatMap_nil, List.nil_append, reports_of_no_plus h.marker_silent]
    simp
  · rw [(before_even_iff h).mpr even]
    exact reports_added_even tame.added h.marker_silent addedEven h.newStart

theorem reported_misaligned {h : Hunk} (tame : h.Tame) (misaligned : ¬ h.Aligned) :
    ∃ m ∈ h.numbers, m ∉ h.reported := by
  obtain ⟨nonempty, crooked⟩ := not_or.mp misaligned
  have some : 0 < h.added.length := List.length_pos_of_ne_nil nonempty
  rw [reported_eq tame, addedMarks_eq]
  by_cases even : h.StartsEven
  · rw [(before_even_iff h).mpr even]
    exact reports_added_uneven tame.added (fun addedEven => crooked ⟨even, addedEven⟩) h.newStart
  · have moved : advance h.beforeMarks ≠ 0 := fun zero => even ((before_even_iff h).mp zero)
    refine ⟨h.newStart, Finset.mem_Ico.mpr ⟨le_refl _, by omega⟩, fun reported => ?_⟩
    have := le_of_mem_reports reported
    omega

/-- The scanner over one tame hunk. -/
theorem scan {h : Hunk} (tame : h.Tame) (s : DiffScan) : ∃ k,
    (h.lines.flatMap pieces).foldl scanLine s = ⟨some k, s.lines ∪ h.reported⟩ := by
  have digits : ∀ start count, ∀ c ∈ range start count, isLineBreak c = false := by
    intro start count c member
    have plain : ∀ n, ∀ c ∈ Nat.toDigits 10 n, isLineBreak c = false := by
      intro n c member
      have digit := Nat.isDigit_of_mem_toDigits (by decide) (by decide) member
      by_contra break_
      simp only [Bool.not_eq_false, isLineBreak, List.mem_cons, List.not_mem_nil, or_false,
        decide_eq_true_eq] at break_
      simp only [Char.isDigit, Bool.and_eq_true, decide_eq_true_eq, ge_iff_le] at digit
      have low : 48 ≤ c.toNat := digit.1
      have high : c.toNat ≤ 57 := digit.2
      omega
    unfold range at member
    rcases List.mem_append.mp member with member | member
    · exact plain start c member
    · split at member
      · cases member
      · rcases List.mem_cons.mp member with rfl | member
        · decide
        · exact plain count c member
  have plain : ∀ c ∈ h.header, isLineBreak c = false := by
    intro c member
    simp only [header, List.mem_append] at member
    rcases member with member | member | member | member | member
    · exact (List.all_iff_forall_prop (p := (isLineBreak · = false))).mp (by decide) c member
    · exact digits _ _ c member
    · exact (List.all_iff_forall_prop (p := (isLineBreak · = false))).mp (by decide) c member
    · exact digits _ _ c member
    · exact (List.all_iff_forall_prop (p := (isLineBreak · = false))).mp (by decide) c member
  have heading : extra (if h.heading.1 = [] then [] else ' ' :: h.heading.1) = extra h.heading.1 := by
    by_cases empty : h.heading.1 = []
    · rw [if_pos empty, empty]
    · rw [if_neg empty, extra, pieces_cons (by decide)]
      rfl
  have body : h.lines.flatMap pieces = (h.header ++ first (if h.heading.1 = [] then [] else
      ' ' :: h.heading.1)) :: (extra h.heading.1 ++ h.removedLines.flatMap pieces ++
        h.addedLines.flatMap pieces) := by
    rw [lines, List.flatMap_cons, List.flatMap_append, headerLine, pieces_append _ _ plain, heading]
    simp
  have start : ∀ rest, scanLine s (h.header ++ rest) = ⟨some h.newStart, s.lines⟩ := by
    intro rest
    unfold scanLine
    rw [hunkStart_header]
  rw [body, List.foldl_cons, start, scan_run (body_plain tame), List.map_append]
  exact ⟨_, rfl⟩

end Hunk

/-! Whole diffs. -/

theorem scan_hunks {hunks : List Hunk} (tame : ∀ h ∈ hunks, h.Tame) (s : DiffScan) :
    ∃ k, ((hunks.flatMap Hunk.lines).flatMap pieces).foldl scanLine s =
      ⟨k, s.lines ∪ hunks.foldr (fun h found => h.reported ∪ found) ∅⟩ := by
  induction hunks generalizing s with
  | nil => exact ⟨s.currentLine, by simp⟩
  | cons h hunks ih =>
      obtain ⟨k, scanned⟩ := Hunk.scan (tame h (by simp)) s
      obtain ⟨k', later⟩ := ih (fun g member => tame g (by simp [member])) ⟨some k, s.lines ∪ h.reported⟩
      refine ⟨k', ?_⟩
      rw [List.flatMap_cons, List.flatMap_append, List.foldl_append, scanned, later, List.foldr_cons,
        Finset.union_assoc]

theorem mem_union {α : Type} (sets : α → Finset ℕ) (items : List α) (m : ℕ) :
    m ∈ items.foldr (fun h found => sets h ∪ found) ∅ ↔ ∃ h ∈ items, m ∈ sets h := by
  induction items with
  | nil => simp
  | cons h items ih => simp [ih]

/-- Over ordered tame hunks the reported numbers are the added ones exactly when
every hunk is aligned: the first that is not misses a number no other reports. -/
theorem reported_union_iff {hunks : List Hunk} (tame : ∀ h ∈ hunks, h.Tame)
    (ordered : hunks.Pairwise fun h k => h.newStart + h.added.length ≤ k.newStart) :
    hunks.foldr (fun h found => h.reported ∪ found) ∅ = hunks.foldr (fun h found => h.numbers ∪ found) ∅
      ↔ ∀ h ∈ hunks, h.Aligned := by
  induction hunks with
  | nil => simp
  | cons h hunks ih =>
      obtain ⟨before, ordered⟩ := List.pairwise_cons.mp ordered
      have ih := ih (fun g member => tame g (by simp [member])) ordered
      have inside : ∀ m ∈ h.numbers, m < h.newStart + h.added.length := fun m member =>
        (Finset.mem_Ico.mp member).2
      have reportedLater : ∀ m, m ∈ hunks.foldr (fun h found => h.reported ∪ found) ∅ →
          m ∉ h.numbers := by
        intro m reported member
        obtain ⟨k, listed, reported⟩ := (mem_union Hunk.reported hunks m).mp reported
        have := Hunk.reported_above reported
        have := before k listed
        have := inside m member
        omega
      have numberedLater : ∀ m, m ∈ hunks.foldr (fun h found => h.numbers ∪ found) ∅ →
          m ∉ h.numbers := by
        intro m numbered member
        obtain ⟨k, listed, numbered⟩ := (mem_union Hunk.numbers hunks m).mp numbered
        have := (Finset.mem_Ico.mp numbered).1
        have := before k listed
        have := inside m member
        omega
      rw [List.foldr_cons, List.foldr_cons, List.forall_mem_cons]
      constructor
      · intro same
        have aligned : h.Aligned := by
          by_contra misaligned
          obtain ⟨m, member, missing⟩ := Hunk.reported_misaligned (tame h (by simp)) misaligned
          have reported := same ▸ Finset.mem_union_left _ member
          rcases Finset.mem_union.mp reported with here | later
          · exact missing here
          · exact reportedLater m later member
        rw [Hunk.reported_aligned (tame h (by simp)) aligned] at same
        refine ⟨aligned, ih.mp ?_⟩
        ext m
        have at_m := Finset.ext_iff.mp same m
        rw [Finset.mem_union, Finset.mem_union] at at_m
        constructor
        · intro reported
          exact (at_m.mp (.inr reported)).resolve_left (reportedLater m reported)
        · intro numbered
          exact (at_m.mpr (.inr numbered)).resolve_left (numberedLater m numbered)
      · rintro ⟨aligned, rest⟩
        rw [Hunk.reported_aligned (tame h (by simp)) aligned, ih.mpr rest]

namespace ZeroContextDiff

/-- No hunk holds a piece behind a break that reads as an added line or header. -/
def Tame (d : ZeroContextDiff) : Prop := ∀ h ∈ d.hunks, h.Tame

def Aligned (d : ZeroContextDiff) : Prop := ∀ h ∈ d.hunks, h.Aligned

/-- The scanner returns exactly the new-file numbers of the added lines. -/
def ReadRight (d : ZeroContextDiff) : Prop := parseAddedDiffLines d.render = d.addedLineNumbers

theorem lines_whole (d : ZeroContextDiff) : ∀ l ∈ d.lines, '\n' ∉ l := by
  have digits : ∀ start count, '\n' ∉ range start count := by
    intro start count member
    have plain : ∀ n, '\n' ∉ Nat.toDigits 10 n := fun n member =>
      absurd (Nat.isDigit_of_mem_toDigits (by decide) (by decide) member) (by decide)
    unfold range at member
    rcases List.mem_append.mp member with member | member
    · exact plain start member
    · split at member
      · cases member
      · exact plain count ((List.mem_cons.mp member).resolve_left (by decide))
  have marker : ∀ unended, ∀ l ∈ noNewline unended, '\n' ∉ l := by
    intro unended l member
    cases unended with
    | false => cases member
    | true =>
        obtain rfl : l = "\\ No newline at end of file".toList := by simpa [noNewline] using member
        decide
  intro l member
  rcases List.mem_append.mp member with preamble | body
  · obtain ⟨content, _, rfl⟩ := List.mem_map.mp preamble
    exact content.2
  · obtain ⟨h, _, member⟩ := List.mem_flatMap.mp body
    simp only [Hunk.lines, Hunk.removedLines, Hunk.addedLines, List.mem_cons, List.mem_append,
      List.mem_map] at member
    rcases member with rfl | (⟨c, _, rfl⟩ | member) | ⟨c, _, rfl⟩ | member
    · have heading : '\n' ∉ (if h.heading.1 = [] then [] else ' ' :: h.heading.1) := by
        split
        · simp
        · intro member
          exact h.heading.2 ((List.mem_cons.mp member).resolve_left (by decide))
      simp only [Hunk.headerLine, Hunk.header, List.mem_append]
      rintro ((member | member | member | member | member) | member)
      · revert member; decide
      · exact digits _ _ member
      · revert member; decide
      · exact digits _ _ member
      · revert member; decide
      · exact heading member
    · intro member
      exact c.2 ((List.mem_cons.mp member).resolve_left (by decide))
    · exact marker _ l member
    · intro member
      exact c.2 ((List.mem_cons.mp member).resolve_left (by decide))
    · exact marker _ l member

theorem parse_render {d : ZeroContextDiff} (tame : d.Tame) : parseAddedDiffLines d.render =
    d.hunks.foldr (fun h found => h.reported ∪ found) ∅ := by
  have split : splitlines d.render = d.lines.flatMap pieces := by
    have cut := splitlines_lines d.lines d.lines_whole []
    rwa [List.append_nil, splitlines, List.append_nil] at cut
  have quiet : ∀ p ∈ (d.preamble.map (·.1)).flatMap pieces, hunkStart p = none := by
    intro p member
    obtain ⟨l, listed, member⟩ := List.mem_flatMap.mp member
    obtain ⟨content, kept, rfl⟩ := List.mem_map.mp listed
    exact d.quiet content kept p member
  obtain ⟨k, scanned⟩ := scan_hunks tame ⟨none, ∅⟩
  unfold parseAddedDiffLines
  rw [split, lines, List.flatMap_append, List.foldl_append, scan_quiet quiet, scanned,
    Finset.empty_union]

end ZeroContextDiff

/-- A tame diff is read right exactly when every hunk is aligned. -/
theorem parse_tame_iff {d : ZeroContextDiff} (tame : d.Tame) : d.ReadRight ↔ d.Aligned := by
  unfold ZeroContextDiff.ReadRight ZeroContextDiff.addedLineNumbers
  rw [ZeroContextDiff.parse_render tame]
  exact reported_union_iff tame d.ordered

/-- Every tame and aligned diff is read right, and of the tame ones no other. -/
theorem parse_added_lines (d : ZeroContextDiff) :
    (d.Tame ∧ d.Aligned → d.ReadRight) ∧ (d.Tame → d.ReadRight → d.Aligned) :=
  ⟨fun clean => (parse_tame_iff clean.1).mpr clean.2,
    fun tame right => (parse_tame_iff tame).mp right⟩

/-- The last line of a file without a final newline, replaced by two lines. -/
def unendedDiff : ZeroContextDiff where
  preamble := [⟨"diff --git a/mod.py b/mod.py".toList, by decide⟩, ⟨"--- a/mod.py".toList, by decide⟩,
    ⟨"+++ b/mod.py".toList, by decide⟩]
  hunks := [{ oldStart := 1
              newStart := 1
              heading := ⟨[], by decide⟩
              removed := [⟨"x = 1".toList, by decide⟩]
              added := [⟨"x = 2".toList, by decide⟩, ⟨"y = 3".toList, by decide⟩]
              oldUnended := true }]
  quiet := by decide +kernel
  ordered := List.pairwise_singleton _ _

theorem unendedDiff_shifted : parseAddedDiffLines unendedDiff.render = {2, 3} ∧
    unendedDiff.addedLineNumbers = {1, 2} ∧ ¬ unendedDiff.ReadRight := by
  have shifted : parseAddedDiffLines unendedDiff.render = {2, 3} := by decide +kernel
  have added : unendedDiff.addedLineNumbers = {1, 2} := by decide +kernel
  refine ⟨shifted, added, fun right => ?_⟩
  unfold ZeroContextDiff.ReadRight at right
  rw [shifted, added] at right
  revert right
  decide

/-- The same replacement in a file that ends with a newline. -/
def endedDiff : ZeroContextDiff where
  preamble := unendedDiff.preamble
  hunks := unendedDiff.hunks.map fun h => { h with oldUnended := false }
  quiet := unendedDiff.quiet
  ordered := List.pairwise_singleton _ _

theorem endedDiff_read_right : endedDiff.Tame ∧ endedDiff.Aligned ∧ endedDiff.ReadRight := by
  have tame : endedDiff.Tame := by
    intro h listed
    obtain rfl := List.mem_singleton.mp listed
    refine ⟨?_, ?_, ?_⟩
    · decide +kernel
    · decide +kernel
    · decide +kernel
  have aligned : endedDiff.Aligned := by
    intro h listed
    obtain rfl := List.mem_singleton.mp listed
    refine .inr ⟨⟨by decide +kernel, by decide +kernel, rfl⟩, ?_⟩
    exact ⟨by decide +kernel, fun _ => by decide +kernel, by decide +kernel,
      fun _ => by decide +kernel, trivial⟩
  exact ⟨tame, aligned, (parse_added_lines endedDiff).1 ⟨tame, aligned⟩⟩

end Uta.Enforce
