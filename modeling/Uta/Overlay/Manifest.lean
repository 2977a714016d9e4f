/- Requirement files of a repository: what a manifest comes to with the files that it
includes, and which manifest is taken for a target. -/
import Uta.Lib.Lines
import Uta.Lib.Search
import Uta.Workspace.Scan

namespace Uta.Overlay
open Uta.Lib Uta.Lib.PyText
open Uta.Workspace (RelPath parent ancestry)

/-! Lines. -/

abbrev Line := List Char

def separates (c : Char) : Bool := c == '=' || isSpace c

/-- What follows an option, after the separators. Where nothing else follows, the last of
two or more separators is taken. -/
def argumentOf (rest : Line) : Option Line :=
  let value := rest.dropWhile separates
  let front := rest.takeWhile separates
  if value = [] then (if 1 < front.length then front.getLast?.map ([·]) else none)
  else if front = [] then none else some (rstrip value)

/-- A match of `^\s*(?:short|long)(?:[=\s]+)(.+?)\s*$`. -/
def optionArgument (short long : String) (line : Line) : Option Line :=
  let text := line.dropWhile isSpace
  if short.toList <+: text then argumentOf (text.drop short.toList.length)
  else if long.toList <+: text then argumentOf (text.drop long.toList.length)
  else none

/-- `_INCLUDE_OPTION`. -/
def includeOption : Line → Option Line := optionArgument "-r" "--requirement"

/-- `raw_line.split(" #", 1)[0]`. -/
def beforeComment : Line → Line
  | ' ' :: '#' :: _ => []
  | c :: cs => c :: beforeComment cs
  | [] => []

/-- What a line requires, unless it is a comment, blank or an option. -/
def requirement (line : Line) : Option Line :=
  let text := strip (beforeComment line)
  if text.head? = some '#' ∨ text = [] ∨ text.head? = some '-' then none else some text

/-- `manifest_requirement_lines`. -/
def manifestRequirementLines (lines : List Line) : List Line := lines.filterMap requirement

/-! Includes. -/

/-- The files, by their resolved paths: the text of each, the path that an argument names from
beside a file, and how a path is written. -/
structure Manifests (α : Type) where
  text : α → Option (List Char)
  beside : α → Line → α
  shown : α → Line
  files : List α
  listed : ∀ a, text a ≠ none → a ∈ files

namespace Manifests
variable {α : Type} (m : Manifests α)

def isFile (a : α) : Bool := (m.text a).isSome

def lines (a : α) : List Line := ((m.text a).map splitlines).getD []

/-- A line that is kept, with the path of a `-c` or `-f` option made absolute. -/
def rewritten (a : α) (line : Line) : Line :=
  match optionArgument "-c" "--constraint" line with
  | some arg => "-c ".toList ++ m.shown (m.beside a arg)
  | none =>
    match optionArgument "-f" "--find-links" line with
    | some arg => "-f ".toList ++ m.shown (m.beside a arg)
    | none => line

/-- A line, or the file that stands in its place; an include of what is no file is left out. -/
def item (a : α) (line : Line) : Option (Line ⊕ α) :=
  match includeOption line with
  | some arg => if m.isFile (m.beside a arg) then some (.inr (m.beside a arg)) else none
  | none => some (.inl (m.rewritten a line))

def body (a : α) : List (Line ⊕ α) := (m.lines a).filterMap (m.item a)

variable [DecidableEq α]

/-- `flatten_manifest`. -/
def flattenManifest (a : α) : List Line := (Depth.visit m.body (m.files.length + 1) [] a).2

/-- A manifest that counts: it is a file, and declares something to install. -/
def counts (a : α) : Bool := m.isFile a && !(manifestRequirementLines (m.flattenManifest a)).isEmpty

/-- `nearest_requirements_manifest`: the directory of the manifest, where `place` is the
resolved path of `requirements.txt` in a directory. -/
def nearestRequirementsManifest (place : RelPath → α) (source : RelPath) : Option RelPath :=
  (ancestry (parent source)).find? fun dir => m.counts (place dir)

end Manifests

/-! What is read. -/

section Read
variable {α : Type} (m : Manifests α)

/-- A manifest includes a file. -/
def Includes (a b : α) : Prop :=
  ∃ line ∈ m.lines a, ∃ arg, includeOption line = some arg ∧ b = m.beside a arg ∧ m.isFile b = true

theorem names_iff {a b : α} : Depth.Names m.body a b ↔ Includes m a b := by
  unfold Depth.Names Manifests.body Includes
  rw [List.mem_filterMap]
  refine exists_congr fun line => and_congr_right fun _ => ?_
  unfold Manifests.item
  cases includeOption line with
  | none => simp
  | some arg =>
      simp only [Option.some.injEq, exists_eq_left']
      by_cases file : m.isFile (m.beside a arg) = true
      · rw [if_pos file]
        constructor
        · intro same
          cases same
          exact ⟨rfl, file⟩
        · rintro ⟨rfl, -⟩
          rfl
      · rw [if_neg file]
        constructor
        · intro same
          cases same
        · rintro ⟨rfl, there⟩
          exact absurd there file

theorem names_listed {a b : α} (named : Depth.Names m.body a b) : b ∈ m.files := by
  obtain ⟨-, -, -, -, -, file⟩ := (names_iff m).mp named
  exact m.listed b (Option.isSome_iff_ne_none.mp file)

section Flat
variable [DecidableEq α]

/-- The flattened manifest holds what every manifest that is included holds itself, however far it is
included, each manifest once, also where they include each other in a circle. -/
theorem flattenManifest_perm {a : α} (file : m.isFile a = true) :
    ∃ read : List α, read.Nodup ∧ (∀ b, b ∈ read ↔ Reached (Includes m) [a] b) ∧
      (m.flattenManifest a).Perm (read.flatMap (Depth.own m.body)) := by
  have listed : a ∈ m.files := m.listed a (Option.isSome_iff_ne_none.mp file)
  have same : Depth.Names m.body = Includes m := by
    funext x y
    exact propext (names_iff m)
  rw [← same]
  exact ⟨_, Depth.visit_reached (fun x _ y named => names_listed m named) listed (Nat.lt_succ_self _)⟩

end Flat

/-! Which manifest is taken. -/

theorem rstrip_head {c : Char} (solid : isSpace c = false) (cs : Line) :
    (rstrip (c :: cs)).head? = some c := by
  obtain ⟨w, blank, split_⟩ := rstrip_split (c :: cs)
  cases kept : rstrip (c :: cs) with
  | nil =>
      have space := rstrip_eq_nil.mp kept c List.mem_cons_self
      exact Bool.noConfusion (solid.symm.trans space)
  | cons d ds =>
      rw [kept] at split_
      cases split_
      rfl

theorem strip_beforeComment {line : Line} (dash : (line.dropWhile isSpace).head? = some '-') :
    (strip (beforeComment line)).head? = some '-' := by
  induction line with
  | nil => cases dash
  | cons c cs ih =>
      by_cases space : isSpace c = true
      · rw [List.dropWhile_cons_of_pos space] at dash
        have kept : beforeComment (c :: cs) = c :: beforeComment cs := by
          rw [beforeComment]
          rintro rest rfl rfl
          rw [List.dropWhile_cons_of_neg (by decide)] at dash
          cases dash
        rw [kept, strip, List.dropWhile_cons_of_pos space]
        exact ih dash
      · rw [List.dropWhile_cons_of_neg space] at dash
        cases dash
        rw [beforeComment, strip_eq_rstrip, List.dropWhile_cons_of_neg space]
        · exact rstrip_head (by decide) _
        · rintro rest blank
          cases blank

/-- An option is nothing to install. -/
theorem requirement_option {short long : String} (dash : short.toList.head? = some '-')
    (dashes : long.toList.head? = some '-') {line arg : Line}
    (found : optionArgument short long line = some arg) : requirement line = none := by
  have front : (line.dropWhile isSpace).head? = some '-' := by
    unfold optionArgument at found
    dsimp only at found
    have heads : ∀ flag : List Char, flag.head? = some '-' → flag <+: line.dropWhile isSpace →
        (line.dropWhile isSpace).head? = some '-' := by
      rintro flag first ⟨rest, same⟩
      cases flag with
      | nil => cases first
      | cons c cs =>
          cases first
          rw [← same]
          rfl
    split_ifs at found with here there
    · exact heads _ dash here
    · exact heads _ dashes there
  unfold requirement
  exact if_pos (.inr (.inr (strip_beforeComment front)))

theorem requirement_rewritten (a : α) (line : Line) :
    requirement (m.rewritten a line) = requirement line := by
  have option_ : ∀ (flag : String) (path : Line), flag.toList.head? = some '-' →
      requirement (flag.toList ++ path) = none := by
    intro flag path dash
    refine if_pos (.inr (.inr (strip_beforeComment ?_)))
    cases chars : flag.toList with
    | nil =>
        rw [chars] at dash
        cases dash
    | cons c cs =>
        rw [chars] at dash
        cases dash
        rfl
  unfold Manifests.rewritten
  split
  next arg constraint =>
    rw [requirement_option rfl rfl constraint]
    exact option_ "-c " _ rfl
  next =>
    split
    next arg links =>
      rw [requirement_option rfl rfl links]
      exact option_ "-f " _ rfl
    next => rfl

/-- The requirements that a manifest hands on are those of its text. -/
theorem requirements_own (a : α) :
    manifestRequirementLines (Depth.own m.body a) = manifestRequirementLines (m.lines a) := by
  unfold Depth.own Manifests.body manifestRequirementLines
  rw [List.filterMap_filterMap, List.filterMap_filterMap]
  refine List.filterMap_congr fun line _ => ?_
  unfold Manifests.item
  cases found : includeOption line with
  | none => exact requirement_rewritten m a line
  | some arg =>
      rw [requirement_option rfl rfl found]
      dsimp only
      split <;> rfl

variable [DecidableEq α]

/-- A manifest is there, and one that it includes, however far, holds a requirement. -/
def Declares (a : α) : Prop :=
  m.isFile a = true ∧ ∃ b, Reached (Includes m) [a] b ∧ ∃ line ∈ m.lines b, requirement line ≠ none

theorem counts_iff {a : α} : m.counts a = true ↔ Declares m a := by
  unfold Manifests.counts Declares
  rw [Bool.and_eq_true]
  refine and_congr_right fun file => ?_
  obtain ⟨read, -, reached, output⟩ := flattenManifest_perm m file
  have holds : ∀ lines : List Line, manifestRequirementLines lines ≠ [] ↔
      ∃ line ∈ lines, requirement line ≠ none := by
    intro lines
    unfold manifestRequirementLines
    simp only [ne_eq, List.filterMap_eq_nil_iff, not_forall, exists_prop]
  rw [Bool.not_eq_true', List.isEmpty_eq_false_iff, holds]
  constructor
  · rintro ⟨line, member, some_⟩
    obtain ⟨b, known, own⟩ := List.mem_flatMap.mp (output.mem_iff.mp member)
    have full : manifestRequirementLines (Depth.own m.body b) ≠ [] := (holds _).mpr ⟨line, own, some_⟩
    rw [requirements_own] at full
    exact ⟨b, (reached b).mp known, (holds _).mp full⟩
  · rintro ⟨b, known, full⟩
    have own := (holds _).mpr full
    rw [← requirements_own] at own
    obtain ⟨line, member, some_⟩ := (holds _).mp own
    exact ⟨line, output.mem_iff.mpr (List.mem_flatMap.mpr ⟨b, (reached b).mpr known, member⟩), some_⟩

/-- The nearest directory above the target is taken whose manifest declares something. -/
theorem nearestRequirementsManifest_iff (place : RelPath → α) {source dir : RelPath} :
    m.nearestRequirementsManifest place source = some dir ↔ Declares m (place dir) ∧
      ∃ nearer further, ancestry (parent source) = nearer ++ dir :: further ∧
        ∀ d ∈ nearer, ¬ Declares m (place d) := by
  unfold Manifests.nearestRequirementsManifest
  rw [List.find?_eq_some_iff_append, counts_iff]
  refine and_congr_right fun _ => exists_congr fun nearer => exists_congr fun further => ?_
  refine and_congr_right fun _ => forall_congr' fun d => imp_congr_right fun _ => ?_
  rw [← counts_iff, Bool.not_eq_true', Bool.not_eq_true]

end Read

end Uta.Overlay
