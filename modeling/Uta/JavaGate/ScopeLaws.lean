/- After every rewrite each failing class is in one list, and no class keeps a simple name that
an excluded one has. -/
import Uta.JavaGate.Scope
import Mathlib

namespace Uta.JavaGate
open Uta.Lib

/-! Names. -/

theorem not_space_of_word {letter : Char → Bool} {c : Char}
    (word : isWord letter c = true ∨ c.isAlpha = true ∨ c = '_' ∨ c = '$') :
    PyText.isSpace c = false := by
  have ascii : ∀ d : Char, d.isAlphanum = true → PyText.isSpace d = false := by
    intro d plain
    simp only [Char.isAlphanum, Char.isAlpha, Char.isUpper, Char.isLower, Char.isDigit,
      Bool.or_eq_true, Bool.and_eq_true, decide_eq_true_eq, ge_iff_le, UInt32.le_iff_toNat_le]
      at plain
    change ((65 ≤ d.toNat ∧ d.toNat ≤ 90) ∨ 97 ≤ d.toNat ∧ d.toNat ≤ 122) ∨
      48 ≤ d.toNat ∧ d.toNat ≤ 57 at plain
    simp only [PyText.isSpace, Bool.or_eq_false_iff, Bool.and_eq_false_imp,
      decide_eq_true_eq, decide_eq_false_iff_not, beq_eq_false_iff_ne]
    omega
  rcases word with word | alpha | rfl | rfl
  · simp only [isWord, Bool.or_eq_true, Bool.and_eq_true, Bool.not_eq_true', decide_eq_true_eq]
      at word
    rcases word with (plain | rfl) | ⟨⟨-, noSpace⟩, -⟩
    · exact ascii c plain
    · rfl
    · exact noSpace
  · exact ascii c (by rw [Char.isAlphanum, alpha, Bool.true_or])
  · rfl
  · rfl

theorem strip_of_no_space {text : List Char} (plain : ∀ c ∈ text, PyText.isSpace c = false) :
    PyText.strip text = text := by
  have front : ∀ l : List Char, (∀ c ∈ l, PyText.isSpace c = false) →
      l.dropWhile PyText.isSpace = l := by
    intro l plain
    cases l with
    | nil => rfl
    | cons c l =>
      exact List.dropWhile_cons_of_neg (by rw [plain c (List.mem_cons_self ..)]; exact Bool.noConfusion)
  rw [PyText.strip, front text plain, front text.reverse fun c mem => plain c (List.mem_reverse.mp mem),
    List.reverse_reverse]

/-- The simple name of a class that can be handed to Maven is a word. -/
theorem simpleName_excludable {letter : Char → Bool} {c : String} (clean : strip c = c)
    (java : isExcludableTestClass letter c = true) :
    simpleName c ≠ "" ∧ strip (simpleName c) = simpleName c := by
  rw [isExcludableTestClass, clean, List.all_eq_true] at java
  cases last : (parts '.' c).getLast? with
  | none =>
    have empty : parts '.' c = [] := List.getLast?_eq_none_iff.mp last
    exact absurd empty (List.splitOn_ne_nil _ _)
  | some word =>
    have identifier := java word (List.mem_of_getLast? last)
    rw [simpleName, last, Option.getD_some]
    cases word with
    | nil => cases identifier
    | cons d ds =>
      simp only [isIdentifier, Bool.and_eq_true, Bool.or_eq_true, decide_eq_true_eq,
        List.all_eq_true] at identifier
      have plain : ∀ e ∈ d :: ds, PyText.isSpace e = false := by
        intro e mem
        rcases List.mem_cons.mp mem with rfl | mem
        · rcases identifier.1 with (alpha | rfl) | rfl
          · exact @not_space_of_word letter _ (.inr (.inl alpha))
          · rfl
          · rfl
        · rcases identifier.2 e mem with word | rfl
          · exact not_space_of_word (.inl word)
          · rfl
      refine ⟨?_, ?_⟩
      · intro empty
        have := congrArg String.toList empty
        simp at this
      · rw [strip, String.toList_ofList, strip_of_no_space plain]

theorem inventoryPattern_inj {c d : String} :
    inventoryPattern c = inventoryPattern d ↔ simpleName c = simpleName d := by
  constructor
  · intro same
    have lists := congrArg String.toList same
    simp only [inventoryPattern, String.toList_append] at lists
    exact String.toList_inj.mp (List.append_cancel_left (List.append_cancel_right lists))
  · intro same
    rw [inventoryPattern, inventoryPattern, same]

/-! The failing classes. -/

/-- The failing classes that reports name, and the inventory that was made from the same
reports: class names without blanks around them, all of the failing ones in the inventory. -/
structure Failures where
  failing : List String
  modules : Inventory
  named : ∀ c ∈ failing, c ∈ known modules
  clean : ∀ c ∈ known modules, c ≠ "" ∧ strip c = c

theorem mem_known {modules : Inventory} {c : String} :
    c ∈ known modules ↔ ∃ m ∈ modules, c ∈ m.2 := by
  rw [known, List.mem_dedup, List.mem_flatMap]

theorem mem_known_update {modules : Inventory} {m : String × List String} {c : String} :
    c ∈ known (update modules m) ↔ c ∈ known modules ∨ c ∈ m.2 := by
  unfold update
  split
  · next old =>
    simp only [mem_known]
    constructor
    · rintro ⟨e, mem, inside⟩
      obtain ⟨e', there, rfl⟩ := List.mem_map.mp mem
      split at inside
      · rcases List.mem_append.mp inside with own | new
        · exact .inl ⟨e', there, own⟩
        · exact .inr new
      · exact .inl ⟨e', there, inside⟩
    · rintro (⟨e, there, inside⟩ | new)
      · refine ⟨_, List.mem_map_of_mem there, ?_⟩
        split
        · exact List.mem_append_left _ inside
        · exact inside
      · obtain ⟨e, there, same⟩ := List.mem_map.mp old
        refine ⟨_, List.mem_map_of_mem there, ?_⟩
        rw [if_pos same]
        exact List.mem_append_right _ new
  · simp [mem_known, or_and_right, exists_or]

theorem mem_known_merge {modules added : Inventory} {c : String} :
    c ∈ known (merge modules added) ↔ c ∈ known modules ∨ c ∈ known added := by
  induction added generalizing modules with
  | nil => simp [merge, mem_known]
  | cons m added ih =>
    have split : c ∈ known (m :: added) ↔ c ∈ m.2 ∨ c ∈ known added := by
      simp [mem_known]
    rw [merge, List.foldl_cons, ← merge, ih, mem_known_update, split, or_assoc]

theorem mem_known_reports {reports : List SurefireReport} {c : String} :
    c ∈ known (surefireTestClassesByModule reports) ↔
      ∃ r ∈ reports, strip r.name ≠ "" ∧ strip r.name = c := by
  rw [surefireTestClassesByModule, mem_known_merge, mem_known, mem_known]
  constructor
  · rintro (⟨m, none, -⟩ | ⟨m, mem, inside⟩)
    · cases none
    · obtain ⟨r, named, rfl⟩ := List.mem_map.mp mem
      obtain ⟨there, nonempty⟩ := List.mem_filter.mp named
      exact ⟨r, there, of_decide_eq_true nonempty, (List.mem_singleton.mp inside).symm⟩
  · rintro ⟨r, there, nonempty, rfl⟩
    have named : r ∈ reports.filter (strip ·.name ≠ "") :=
      List.mem_filter.mpr ⟨there, decide_eq_true nonempty⟩
    exact .inr ⟨_, List.mem_map_of_mem named, List.mem_singleton_self _⟩

theorem strip_strip (text : String) : strip (strip text) = strip text := by
  rw [strip, strip, String.toList_ofList, PyText.strip_strip]

/-- The failures of a run as the rerun reads them: from the reports, with the classes of the
modules that were not reached added to the inventory. -/
def Failures.ofReports (reports : List SurefireReport) (declared : Inventory)
    (clean : ∀ c ∈ known declared, c ≠ "" ∧ strip c = c) : Failures where
  failing := failingClasses reports
  modules := merge (surefireTestClassesByModule reports) declared
  named c mem := by
    have listed := List.mem_eraseDups.mp (List.mem_filter.mp mem).1
    obtain ⟨r, counted, rfl⟩ := List.mem_map.mp listed
    obtain ⟨there, named⟩ := List.mem_filter.mp counted
    rw [Bool.and_eq_true, decide_eq_true_eq] at named
    exact mem_known_merge.mpr (.inl (mem_known_reports.mpr ⟨r, there, named.1, rfl⟩))
  clean c mem := by
    rcases mem_known_merge.mp mem with reported | own
    · obtain ⟨r, -, nonempty, rfl⟩ := mem_known_reports.mp reported
      exact ⟨nonempty, strip_strip _⟩
    · exact clean c own

section Laws
variable (letter : Char → Bool) (change : Change) (f : Failures)

/-- The change is not answerable for the class, and Maven can be told to leave it out. -/
def Change.Unrelated (c : String) : Prop :=
  change.changedJava ≠ none ∧ isExcludableTestClass letter c = true ∧ change.answersFor c = false

namespace Failures

/-- The partition that the rewrites start from. -/
def initial : FailingTestPartition := change.partitionFailingTests letter f.failing

variable {letter change f}

theorem names_eq : (f.failing.map strip).filter (· ≠ "") = f.failing := by
  have same : f.failing.map strip = f.failing := by
    conv_rhs => rw [← List.map_id f.failing]
    exact List.map_congr_left fun c mem => (f.clean c (f.named c mem)).2
  rw [same, List.filter_eq_self]
  exact fun c mem => decide_eq_true (f.clean c (f.named c mem)).1

theorem mem_sorted (retained excluded : List String) (c : String) :
    (c ∈ (Change.sorted retained excluded).excluded ↔ c ∈ excluded) ∧
    (c ∈ (Change.sorted retained excluded).retained ↔ c ∈ retained) ∧
    (Change.sorted retained excluded).collateral = [] := by
  unfold Change.sorted
  split
  · next none => simp [none]
  · exact ⟨Iff.rfl, Iff.rfl, rfl⟩

theorem initial_collateral : (f.initial letter change).collateral = [] := by
  unfold initial Change.partitionFailingTests
  split
  · rfl
  · split
    · rfl
    · exact (mem_sorted _ _ "").2.2

theorem mem_initial (c : String) :
    (c ∈ (f.initial letter change).excluded ↔ c ∈ f.failing ∧ change.Unrelated letter c) ∧
    (c ∈ (f.initial letter change).retained ↔ c ∈ f.failing ∧ ¬ change.Unrelated letter c) := by
  unfold initial Change.partitionFailingTests
  split
  · next empty => simp [empty]
  · split
    · next noDiff => simp [Change.Unrelated, noDiff]
    · next diff =>
      have unrelated_iff : change.Unrelated letter c ↔
          (!isExcludableTestClass letter c || change.answersFor c) = false := by
        simp [Change.Unrelated, diff]
      rw [(mem_sorted _ _ c).1, (mem_sorted _ _ c).2.1, names_eq, List.mem_filter, List.mem_filter,
        unrelated_iff, Bool.not_eq_true', Bool.not_eq_false]
      exact ⟨Iff.rfl, Iff.rfl⟩

/-- The simple names of a failing and of an excluded class of the inventory collide. -/
theorem collides_of_ne {modules : Inventory} {c d : String} (first : c ∈ known modules)
    (second : d ∈ known modules) (other : c ≠ d) (same : simpleName c = simpleName d) :
    collides modules (simpleName c) = true := by
  have memc : c ∈ classesBySimpleName modules (simpleName c) :=
    List.mem_filter.mpr ⟨first, decide_eq_true rfl⟩
  have memd : d ∈ classesBySimpleName modules (simpleName c) :=
    List.mem_filter.mpr ⟨second, decide_eq_true same.symm⟩
  refine decide_eq_true ?_
  by_contra short
  rcases h : classesBySimpleName modules (simpleName c) with _ | ⟨a, _ | ⟨b, rest⟩⟩
  · rw [h] at memc
    cases memc
  · rw [h, List.mem_singleton] at memc memd
    exact other (memc.trans memd.symm)
  · rw [h, List.length_cons, List.length_cons] at short
    omega

end Failures

/-! What the rewrites leave in the lists. -/

namespace FailingTestPartition
variable {p : FailingTestPartition} {modules : Inventory}

theorem mem_expanded {c : String} : c ∈ p.expanded modules ↔ c ∈ known modules ∧
    (∃ x ∈ p.excluded, simpleName x = simpleName c) ∧ collides modules (simpleName c) = true := by
  simp only [expanded, List.mem_filter, Bool.and_eq_true, decide_eq_true_eq, List.mem_map]

theorem mem_expand (none : p.collateral = []) (apart : ∀ c ∈ p.excluded, c ∉ p.retained)
    (c : String) :
    (c ∈ (p.expandCollidingSimpleNameExclusions modules).excluded ↔ c ∈ p.excluded) ∧
    (c ∈ (p.expandCollidingSimpleNameExclusions modules).collateral ↔
      c ∈ p.expanded modules ∧ c ∉ p.excluded) ∧
    (c ∈ (p.expandCollidingSimpleNameExclusions modules).retained ↔
      c ∈ p.retained ∧ c ∉ p.expanded modules) := by
  unfold expandCollidingSimpleNameExclusions
  split
  · next empty =>
    have excluded : p.excluded = [] := (List.append_eq_nil_iff.mp empty).1
    simp [none, mem_expanded, excluded]
  · split
    · next same =>
      have inside : ∀ d ∈ p.expanded modules, d ∈ p.excluded := by
        intro d mem
        by_contra out
        have added : d ∈ p.added modules :=
          (List.mem_insertionSort _).mpr (List.mem_filter.mpr ⟨mem, decide_eq_true out⟩)
        rw [same] at added
        cases added
      refine ⟨Iff.rfl, ?_, ?_⟩
      · rw [none]
        exact ⟨fun mem => absurd mem List.not_mem_nil, fun mem => absurd (inside c mem.1) mem.2⟩
      · exact ⟨fun mem => ⟨mem, fun more => apart c (inside c more) mem⟩, And.left⟩
    · simp [none, added, List.mem_insertionSort]

theorem mem_protected {c : String} : c ∈ p.protectedClasses modules ↔
    ∃ m ∈ modules, p.empties m.2 = true ∧ c ∈ m.2 ∧ p.forced modules c = false := by
  simp only [protectedClasses, List.mem_flatMap]
  constructor
  · rintro ⟨m, mem, inside⟩
    split at inside
    · next empties =>
      obtain ⟨there, free⟩ := List.mem_filter.mp inside
      exact ⟨m, mem, empties, there, by simpa using free⟩
    · cases inside
  · rintro ⟨m, mem, empties, there, free⟩
    refine ⟨m, mem, ?_⟩
    rw [if_pos empties]
    exact List.mem_filter.mpr ⟨there, by rw [free]; rfl⟩

theorem mem_guard (quiet : ∀ c ∈ p.collateral, c ∉ p.protectedClasses modules) (c : String) :
    (c ∈ (p.withoutModuleEmptyingExclusions modules).excluded ↔
      c ∈ p.excluded ∧ c ∉ p.protectedClasses modules) ∧
    (c ∈ (p.withoutModuleEmptyingExclusions modules).collateral ↔ c ∈ p.collateral) ∧
    (c ∈ (p.withoutModuleEmptyingExclusions modules).retained ↔
      c ∈ p.retained ∨ c ∈ p.excluded ∧ c ∈ p.protectedClasses modules) := by
  have all : p.collateral.filter (· ∉ p.protectedClasses modules) = p.collateral :=
    List.filter_eq_self.mpr fun d mem => decide_eq_true (quiet d mem)
  unfold withoutModuleEmptyingExclusions
  split
  · next empty =>
    obtain ⟨excluded, collateral⟩ := List.append_eq_nil_iff.mp empty
    simp [excluded, collateral]
  · split
    · next none => simp [none]
    · rw [all, guarded]
      split
      · next gone =>
        obtain ⟨kept, collateral⟩ := gone
        refine ⟨?_, ?_, ?_⟩
        · rw [← kept, List.mem_filter, decide_eq_true_eq]
        · rw [collateral]
        · rw [List.mem_append, List.mem_filter, decide_eq_true_eq]
      · refine ⟨?_, Iff.rfl, ?_⟩
        · rw [List.mem_filter, decide_eq_true_eq]
        · rw [List.mem_append, List.mem_filter, decide_eq_true_eq]

end FailingTestPartition

/-! What the runner promises of its lists. -/

/-- Just one of three holds. -/
def ExactlyOne (a b c : Prop) : Prop := a ∧ ¬ b ∧ ¬ c ∨ ¬ a ∧ b ∧ ¬ c ∨ ¬ a ∧ ¬ b ∧ c

/-- Each failing class is in one list; what the change is answerable for is left out only with
an unrelated failure of the same name; a module is emptied only by names that several classes
share, all of them excluded; and the classes of one simple name are excluded together. -/
structure Scoped (p : FailingTestPartition) : Prop where
  one : ∀ c ∈ f.failing, ExactlyOne (c ∈ p.excluded) (c ∈ p.collateral) (c ∈ p.retained)
  answered : ∀ c ∈ p.allExcluded, change.answersFor c = true →
    ∃ x ∈ p.excluded, change.Unrelated letter x ∧ simpleName x = simpleName c
  emptied : ∀ m ∈ f.modules, m.2 ≠ [] → (∀ c ∈ m.2, c ∈ p.allExcluded) →
    ∀ c ∈ m.2, collides f.modules (simpleName c) = true ∧
      ∀ d ∈ known f.modules, simpleName d = simpleName c → d ∈ p.allExcluded
  together : ∀ c ∈ p.allExcluded, ∀ d, d ∈ known f.modules ∨ d ∈ f.failing →
    simpleName d = simpleName c → d ∈ p.allExcluded

namespace Failures

/-- Both rewrites of the partition. -/
def final : FailingTestPartition := (f.initial letter change).narrowed f.modules

/-- The partitions that the runner can report. -/
inductive Outcome : FailingTestPartition → Prop
  | nothing (empty : (f.initial letter change).excluded = []) : Outcome (f.initial letter change)
  | refused (excludes : (f.initial letter change).excluded ≠ []) (reason : String) :
    Outcome ((f.initial letter change).withoutExclusions reason)
  | narrowed (excludes : (f.initial letter change).excluded ≠ []) : Outcome (f.final letter change)
  | takenBack (excludes : (f.final letter change).allExcluded ≠ []) (reason : String) :
    Outcome ((f.final letter change).withoutExclusions reason)

/-- An inventory on the command line selects no excluded class and every other one. -/
def Inventoried (versions : Versions) (excluded : List String) : Prop :=
  ∀ (cmd : List Arg) (writes : Bool),
    (excludingTestClasses letter cmd excluded versions writes f.modules).2 = "" →
    ∀ c ∈ known f.modules,
      selects (excludingTestClasses letter cmd excluded versions writes f.modules).1 c = true ↔
        c ∉ excluded

/-- What the claim asks of a run with these failures. -/
def Promised (versions : Versions) : Prop :=
  (∀ p, f.Outcome letter change p → Scoped letter change f p) ∧
    ((f.final letter change).allExcluded ≠ [] →
      f.Inventoried letter versions (f.final letter change).allExcluded)

/-- No failing class that stays has the simple name of one that is excluded. -/
def Apart : Prop := ∀ r ∈ f.failing, ∀ x ∈ f.failing, ¬ change.Unrelated letter r →
  change.Unrelated letter x → simpleName r ≠ simpleName x

/-- The classes that a rerun keeps. -/
def kept : List String := keptClasses f.modules (f.final letter change).allExcluded

/-- The inventory goes on the command line as one `-Dtest`. -/
def Legacy (versions : Versions) : Prop :=
  supportsIncludesFile versions = false ∧ (f.final letter change).allExcluded ≠ [] ∧
    excludable letter (f.kept letter change) ≠ [] ∧
    selectorBytes (surefireTestSelector (excludable letter (f.kept letter change))) ≤
      maxSurefireTestSelectorBytes

/-- Every class of the inventory can be named to Maven, or has the simple name of one that can. -/
def Nameable : Prop := ∀ c ∈ known f.modules,
  ∃ d ∈ known f.modules, isExcludableTestClass letter d = true ∧ simpleName d = simpleName c

variable {letter change f}

theorem initial_apart (c : String) (out : c ∈ (f.initial letter change).excluded) :
    c ∉ (f.initial letter change).retained := fun stays =>
  ((mem_initial c).2.mp stays).2 ((mem_initial c).1.mp out).2

/-- The classes that the expansion adds, or had. -/
def Widened (letter : Char → Bool) (change : Change) (f : Failures) (c : String) : Prop :=
  (c ∈ f.failing ∧ change.Unrelated letter c) ∨ c ∈ (f.initial letter change).expanded f.modules

theorem mem_expandInitial (c : String) :
    let q := (f.initial letter change).expandCollidingSimpleNameExclusions f.modules
    (c ∈ q.excluded ↔ c ∈ f.failing ∧ change.Unrelated letter c) ∧
    (c ∈ q.collateral ↔ c ∈ (f.initial letter change).expanded f.modules ∧
      ¬ (c ∈ f.failing ∧ change.Unrelated letter c)) ∧
    (c ∈ q.retained ↔ (c ∈ f.failing ∧ ¬ change.Unrelated letter c) ∧
      c ∉ (f.initial letter change).expanded f.modules) ∧
    (c ∈ q.allExcluded ↔ f.Widened letter change c) := by
  obtain ⟨excluded, collateral, retained⟩ :=
    @FailingTestPartition.mem_expand _ f.modules initial_collateral initial_apart c
  rw [(mem_initial c).1] at excluded collateral
  rw [(mem_initial c).2] at retained
  refine ⟨excluded, collateral, retained, ?_⟩
  rw [FailingTestPartition.allExcluded, List.mem_append, excluded, collateral, Widened]
  tauto

/-- A class with the name of a widened one is widened, and so are all of that name. -/
theorem widened_of_same {c d : String} (wide : f.Widened letter change c)
    (there : d ∈ known f.modules) (same : simpleName d = simpleName c) :
    f.Widened letter change d := by
  rcases eq_or_ne d c with rfl | other
  · exact wide
  · rcases wide with out | added
    · have collides := collides_of_ne there (f.named c out.1) other same
      exact .inr (FailingTestPartition.mem_expanded.mpr
        ⟨there, ⟨c, (mem_initial c).1.mpr out, same.symm⟩, collides⟩)
    · obtain ⟨-, ⟨x, out, alike⟩, collides⟩ := FailingTestPartition.mem_expanded.mp added
      exact .inr (FailingTestPartition.mem_expanded.mpr
        ⟨there, ⟨x, out, alike.trans same.symm⟩, same ▸ collides⟩)

theorem widened_known {c : String} (wide : f.Widened letter change c) : c ∈ known f.modules := by
  rcases wide with out | added
  · exact f.named c out.1
  · exact (FailingTestPartition.mem_expanded.mp added).1

/-- A widened class whose name collides is not protected. -/
theorem forced_iff {c : String} (wide : f.Widened letter change c) :
    ((f.initial letter change).expandCollidingSimpleNameExclusions f.modules).forced f.modules c
      = true ↔ collides f.modules (simpleName c) = true := by
  rw [FailingTestPartition.forced, Bool.and_eq_true, List.all_eq_true, and_iff_left]
  intro d mem
  obtain ⟨there, same⟩ := List.mem_filter.mp mem
  exact decide_eq_true ((mem_expandInitial d).2.2.2.mpr
    (widened_of_same wide there (of_decide_eq_true same)))

/-- The classes that the guard puts back. -/
def Protected (letter : Char → Bool) (change : Change) (f : Failures) (c : String) : Prop :=
  c ∈ ((f.initial letter change).expandCollidingSimpleNameExclusions f.modules).protectedClasses
    f.modules

theorem not_protected {c : String} (wide : f.Widened letter change c)
    (collides : collides f.modules (simpleName c) = true) : ¬ f.Protected letter change c := by
  intro back
  obtain ⟨-, -, -, -, free⟩ := FailingTestPartition.mem_protected.mp back
  exact Bool.noConfusion (free.symm.trans ((forced_iff wide).mpr collides))

theorem not_protected_of_expanded {c : String}
    (added : c ∈ (f.initial letter change).expanded f.modules) : ¬ f.Protected letter change c :=
  not_protected (.inr added) (FailingTestPartition.mem_expanded.mp added).2.2

/-- What is out, or added to it, is left out unless it is put back. -/
theorem left_out_iff {out added back : Prop} (quiet : added → ¬ back) :
    out ∧ ¬ back ∨ added ∧ ¬ out ↔ (out ∨ added) ∧ ¬ back := by
  tauto

theorem exactlyOne_lists {failing unrelated added back : Prop} (mem : failing)
    (quiet : added → ¬ back) :
    ExactlyOne ((failing ∧ unrelated) ∧ ¬ back) (added ∧ ¬ (failing ∧ unrelated))
      ((failing ∧ ¬ unrelated) ∧ ¬ added ∨ (failing ∧ unrelated) ∧ back) := by
  unfold ExactlyOne
  tauto

/-- The lists after both rewrites. -/
theorem mem_final (c : String) :
    (c ∈ (f.final letter change).excluded ↔
      (c ∈ f.failing ∧ change.Unrelated letter c) ∧ ¬ f.Protected letter change c) ∧
    (c ∈ (f.final letter change).collateral ↔
      c ∈ (f.initial letter change).expanded f.modules ∧
        ¬ (c ∈ f.failing ∧ change.Unrelated letter c)) ∧
    (c ∈ (f.final letter change).retained ↔
      ((c ∈ f.failing ∧ ¬ change.Unrelated letter c) ∧
        c ∉ (f.initial letter change).expanded f.modules) ∨
      (c ∈ f.failing ∧ change.Unrelated letter c) ∧ f.Protected letter change c) ∧
    (c ∈ (f.final letter change).allExcluded ↔
      f.Widened letter change c ∧ ¬ f.Protected letter change c) := by
  obtain ⟨excluded, collateral, retained, -⟩ := @mem_expandInitial letter change f c
  obtain ⟨excluded', collateral', retained'⟩ := @FailingTestPartition.mem_guard
    ((f.initial letter change).expandCollidingSimpleNameExclusions f.modules) f.modules
    (fun d mem => not_protected_of_expanded ((mem_expandInitial d).2.1.mp mem).1) c
  rw [excluded] at excluded' retained'
  rw [collateral] at collateral'
  rw [retained] at retained'
  refine ⟨excluded', collateral', retained', ?_⟩
  have quiet : c ∈ (f.initial letter change).expanded f.modules → ¬ f.Protected letter change c :=
    not_protected_of_expanded
  rw [FailingTestPartition.allExcluded, List.mem_append]
  exact (or_congr excluded' collateral').trans (left_out_iff quiet)

/-- The rewritten lists keep the promise of `Scoped`. -/
theorem scoped_final : Scoped letter change f (f.final letter change) where
  one c mem := by
    obtain ⟨excluded, collateral, retained, -⟩ := @mem_final letter change f c
    rw [excluded, collateral, retained]
    exact exactlyOne_lists mem not_protected_of_expanded
  answered c out related := by
    obtain ⟨wide, free⟩ := (mem_final c).2.2.2.mp out
    rcases wide with ⟨-, unrelated⟩ | added
    · exact Bool.noConfusion (unrelated.2.2.symm.trans related)
    · obtain ⟨-, ⟨x, outX, same⟩, collides⟩ := FailingTestPartition.mem_expanded.mp added
      have unrelated := (mem_initial x).1.mp outX
      exact ⟨x, (mem_final x).1.mpr ⟨unrelated, not_protected (.inl unrelated) (same ▸ collides)⟩,
        unrelated.2, same⟩
  emptied m there nonempty gone c inside := by
    obtain ⟨wide, free⟩ := (mem_final c).2.2.2.mp (gone c inside)
    have collides : collides f.modules (simpleName c) = true := by
      by_contra lone
      refine free (FailingTestPartition.mem_protected.mpr ⟨m, there, ?_, inside, ?_⟩)
      · rw [FailingTestPartition.empties, Bool.and_eq_true, List.all_eq_true]
        refine ⟨decide_eq_true nonempty, fun d mem => decide_eq_true ?_⟩
        exact (mem_expandInitial d).2.2.2.mpr ((mem_final d).2.2.2.mp (gone d mem)).1
      · exact Bool.eq_false_iff.mpr fun forced => lone ((forced_iff wide).mp forced)
    refine ⟨collides, fun d known same => (mem_final d).2.2.2.mpr ?_⟩
    have wide' := widened_of_same wide known same
    exact ⟨wide', not_protected wide' (same ▸ collides)⟩
  together c out d there same := by
    obtain ⟨wide, free⟩ := (mem_final c).2.2.2.mp out
    have known : d ∈ known f.modules := there.elim id (f.named d)
    rcases eq_or_ne d c with rfl | other
    · exact out
    · have collides := collides_of_ne known (widened_known wide) other same
      have wide' := widened_of_same wide known same
      exact (mem_final d).2.2.2.mpr ⟨wide', not_protected wide' collides⟩

/-- A partition without exclusions promises only that every failing class is retained. -/
theorem scoped_withoutExclusions {p : FailingTestPartition} {reason : String}
    (all : ∀ c ∈ f.failing, c ∈ p.retained ++ p.excluded) :
    Scoped letter change f (p.withoutExclusions reason) where
  one c mem := .inr (.inr ⟨List.not_mem_nil, List.not_mem_nil, all c mem⟩)
  answered c out := absurd out List.not_mem_nil
  emptied m there nonempty gone := by
    obtain ⟨c, inside⟩ := List.exists_mem_of_ne_nil m.2 nonempty
    exact absurd (gone c inside) List.not_mem_nil
  together c out := absurd out List.not_mem_nil

/-- Where nothing is excluded, every failing class is retained. -/
theorem scoped_nothing (nothing : (f.initial letter change).excluded = []) :
    Scoped letter change f (f.initial letter change) := by
  have empty : (f.initial letter change).allExcluded = [] := by
    rw [FailingTestPartition.allExcluded, nothing, initial_collateral, List.append_nil]
  have out : ∀ c, c ∉ (f.initial letter change).allExcluded := fun c mem =>
    List.not_mem_nil (empty ▸ mem)
  refine ⟨fun c mem => .inr (.inr ⟨?_, ?_, ?_⟩), fun c mem => absurd mem (out c), ?_,
    fun c mem => absurd mem (out c)⟩
  · exact fun mem => out c (List.mem_append_left _ mem)
  · exact fun mem => out c (List.mem_append_right _ mem)
  · refine (mem_initial c).2.mpr ⟨mem, fun unrelated => ?_⟩
    exact out c (List.mem_append_left _ ((mem_initial c).1.mpr ⟨mem, unrelated⟩))
  · intro m there nonempty gone
    obtain ⟨c, inside⟩ := List.exists_mem_of_ne_nil m.2 nonempty
    exact absurd (gone c inside) (out c)

/-- Taking the exclusion back keeps all failing classes exactly when none of them that stays has
the name of an excluded one. -/
theorem all_retained_iff :
    ((f.final letter change).allExcluded ≠ [] →
      ∀ c ∈ f.failing, c ∈ (f.final letter change).retained ++ (f.final letter change).excluded) ↔
    f.Apart letter change := by
  constructor
  · intro all r mem x memX stays out same
    have added : r ∈ (f.initial letter change).expanded f.modules := by
      have other : r ≠ x := fun h => stays (h ▸ out)
      exact FailingTestPartition.mem_expanded.mpr ⟨f.named r mem,
        ⟨x, (mem_initial x).1.mpr ⟨memX, out⟩, same.symm⟩,
        collides_of_ne (f.named r mem) (f.named x memX) other same⟩
    have outR : r ∈ (f.final letter change).allExcluded :=
      (mem_final r).2.2.2.mpr ⟨.inr added, not_protected_of_expanded added⟩
    rcases List.mem_append.mp (all (List.ne_nil_of_mem outR) r mem) with retained | excluded
    · rcases (mem_final r).2.2.1.mp retained with ⟨-, free⟩ | ⟨⟨-, unrelated⟩, -⟩
      · exact free added
      · exact stays unrelated
    · exact stays ((mem_final r).1.mp excluded).1.2
  · intro apart _ c mem
    rw [List.mem_append, (mem_final c).1, (mem_final c).2.2.1]
    by_cases unrelated : change.Unrelated letter c
    · by_cases back : f.Protected letter change c
      · exact .inl (.inr ⟨⟨mem, unrelated⟩, back⟩)
      · exact .inr ⟨⟨mem, unrelated⟩, back⟩
    · refine .inl (.inl ⟨⟨mem, unrelated⟩, fun added => ?_⟩)
      obtain ⟨-, ⟨x, out, same⟩, -⟩ := FailingTestPartition.mem_expanded.mp added
      have outX := (mem_initial x).1.mp out
      exact apart c mem x outX.1 unrelated outX.2 same.symm

end Failures

end Laws

/-! What the command line selects. -/

section Selection
variable {letter : Char → Bool}

theorem findSome?_filter_none {α β : Type} (read : α → Option β) (l : List α) (p : α → Bool)
    (blind : ∀ a ∈ l, p a = true → read a = none) : (l.filter p).findSome? read = none := by
  rw [List.findSome?_eq_none_iff]
  intro a mem
  exact blind a (List.mem_filter.mp mem).1 (List.mem_filter.mp mem).2

theorem findSome?_withFlag {read : Arg → Option (List String)} (cmd : List Arg) {flag : Arg}
    (blind : read flag = none) : (withFlag cmd flag).findSome? read = cmd.findSome? read := by
  unfold withFlag
  split
  · rfl
  · simp [List.findSome?_append, blind]

/-- The arguments for the excluded classes are none of the selectors. -/
theorem findSome?_withExcludedTestClasses {read : Arg → Option (List String)} (cmd : List Arg)
    (drop : List String) (blind : ∀ a, a.excludedNames ≠ none → read a = none) :
    (withExcludedTestClasses cmd drop).findSome? read = cmd.findSome? read := by
  unfold withExcludedTestClasses
  rw [List.findSome?_append, List.findSome?_singleton,
    blind (.excludedTestClasses _) (Option.some_ne_none _), Option.or_none]
  induction cmd with
  | nil => rfl
  | cons a cmd ih =>
    by_cases own : a.excludedNames = none
    · rw [List.filter_cons_of_pos (by simpa using own), List.findSome?_cons, List.findSome?_cons, ih]
    · rw [List.filter_cons_of_neg (by simpa using own), List.findSome?_cons, blind a own, ih]

theorem testWords_of_excluded (a : Arg) (own : a.excludedNames ≠ none) : a.testWords = none := by
  cases a with
  | excludedTestClasses names => rfl
  | _ => exact absurd rfl own

theorem filePatterns_of_excluded (a : Arg) (own : a.excludedNames ≠ none) :
    a.filePatterns = none := by
  cases a with
  | excludedTestClasses names => rfl
  | _ => exact absurd rfl own

theorem selects_withSelectedTestFile {cmd : List Arg} {patterns excluded : List String}
    (drops : excludable letter excluded ≠ []) (c : String) :
    selects (withSelectedTestFile letter cmd patterns excluded) c = true ↔
      inventoryPattern c ∈ patterns := by
  have noWords : (withSelectedTestFile letter cmd patterns excluded).findSome? Arg.testWords
      = none := by
    rw [withSelectedTestFile, if_neg drops, findSome?_withFlag _ rfl, findSome?_withFlag _ rfl,
      findSome?_withExcludedTestClasses _ _ testWords_of_excluded, List.findSome?_append,
      findSome?_filter_none]
    · rfl
    · intro a _ kept
      simp only [Bool.and_eq_true, decide_eq_true_eq] at kept
      exact kept.1.1
  have file : (withSelectedTestFile letter cmd patterns excluded).findSome? Arg.filePatterns
      = some patterns := by
    rw [withSelectedTestFile, if_neg drops, findSome?_withFlag _ rfl, findSome?_withFlag _ rfl,
      findSome?_withExcludedTestClasses _ _ filePatterns_of_excluded, List.findSome?_append,
      findSome?_filter_none]
    · rfl
    · intro a _ kept
      simp only [Bool.and_eq_true, decide_eq_true_eq] at kept
      exact kept.2
  rw [selects, noWords]
  simp only [file, decide_eq_true_eq]

theorem testWords_withSelectedTestClasses {cmd : List Arg} {kept excluded : List String}
    (keeps : excludable letter kept ≠ []) (out : excludable letter excluded ≠ [])
    (fits : selectorBytes (surefireTestSelector (excludable letter kept)) ≤
      maxSurefireTestSelectorBytes) :
    (withSelectedTestClasses letter cmd kept excluded).findSome? Arg.testWords =
      some (surefireTestSelector (excludable letter kept)) := by
  unfold withSelectedTestClasses
  rw [if_neg (not_or.mpr ⟨keeps, out⟩), if_neg (Nat.not_lt_of_le fits), findSome?_withFlag _ rfl,
    findSome?_withExcludedTestClasses _ _ testWords_of_excluded, List.findSome?_append,
    findSome?_filter_none]
  · rfl
  · exact fun a _ kept => of_decide_eq_true kept

/-- The words of `-Dtest` are the simple names. -/
theorem mem_surefireTestSelector (targets : List String) (word : String) :
    word ∈ surefireTestSelector targets ↔
      word ≠ "" ∧ ∃ d ∈ targets, strip (simpleName d) = word := by
  have general : ∀ start, word ∈ targets.foldl (fun selectors target =>
      let selector := strip (simpleName target)
      if selector ≠ "" ∧ selector ∉ selectors then selectors ++ [selector] else selectors) start ↔
      word ∈ start ∨ word ≠ "" ∧ ∃ d ∈ targets, strip (simpleName d) = word := by
    induction targets with
    | nil => simp
    | cons d targets ih =>
      intro start
      rw [List.foldl_cons, ih, List.exists_mem_cons_iff]
      by_cases new : strip (simpleName d) ≠ "" ∧ strip (simpleName d) ∉ start
      · rw [if_pos new, List.mem_append, List.mem_singleton]
        constructor
        · rintro ((old | rfl) | later)
          · exact .inl old
          · exact .inr ⟨new.1, .inl rfl⟩
          · exact .inr ⟨later.1, .inr later.2⟩
        · rintro (old | ⟨nonempty, rfl | later⟩)
          · exact .inl (.inl old)
          · exact .inl (.inr rfl)
          · exact .inr ⟨nonempty, later⟩
      · rw [if_neg new]
        constructor
        · rintro (old | later)
          · exact .inl old
          · exact .inr ⟨later.1, .inr later.2⟩
        · rintro (old | ⟨nonempty, rfl | later⟩)
          · exact .inl old
          · exact .inl (not_not.mp fun fresh => new ⟨nonempty, fresh⟩)
          · exact .inr ⟨nonempty, later⟩
  rw [surefireTestSelector, general]
  simp

end Selection

namespace Failures
variable {letter : Char → Bool} {change : Change} {f : Failures}

theorem mem_kept {c : String} : c ∈ f.kept letter change ↔
    c ∈ known f.modules ∧ c ∉ (f.final letter change).allExcluded := by
  rw [kept, keptClasses, List.mem_insertionSort, List.mem_filter, decide_eq_true_eq]

/-- Of the kept classes the words are those that Maven can be told. -/
theorem mem_keptWords (c : String) :
    simpleName c ∈ surefireTestSelector (excludable letter (f.kept letter change)) ↔
      ∃ d ∈ f.kept letter change, isExcludableTestClass letter d = true ∧
        simpleName d = simpleName c := by
  rw [mem_surefireTestSelector]
  constructor
  · rintro ⟨-, d, mem, same⟩
    obtain ⟨e, found, rfl⟩ := List.mem_map.mp mem
    obtain ⟨kept, java⟩ := List.mem_filter.mp found
    have clean := (f.clean e (mem_kept.mp kept).1).2
    rw [clean, (simpleName_excludable clean java).2] at same
    exact ⟨e, kept, java, same⟩
  · rintro ⟨d, kept, java, same⟩
    have clean := (f.clean d (mem_kept.mp kept).1).2
    obtain ⟨nonempty, stripped⟩ := simpleName_excludable clean java
    refine ⟨same ▸ nonempty, strip d, List.mem_map_of_mem (List.mem_filter.mpr ⟨kept, java⟩), ?_⟩
    rw [clean, stripped, same]

/-- What is left out has a class that Maven can be told to leave out. -/
theorem excludable_final (narrow : (f.final letter change).allExcluded ≠ []) :
    excludable letter (f.final letter change).allExcluded ≠ [] := by
  obtain ⟨c, out⟩ := List.exists_mem_of_ne_nil _ narrow
  obtain ⟨wide, free⟩ := (mem_final c).2.2.2.mp out
  have present : ∃ x ∈ (f.final letter change).allExcluded,
      isExcludableTestClass letter x = true := by
    rcases wide with ⟨-, unrelated⟩ | added
    · exact ⟨c, out, unrelated.2.1⟩
    · obtain ⟨-, ⟨x, outX, same⟩, collides⟩ := FailingTestPartition.mem_expanded.mp added
      have unrelated := (mem_initial x).1.mp outX
      exact ⟨x, (mem_final x).2.2.2.mpr
        ⟨.inl unrelated, not_protected (.inl unrelated) (same ▸ collides)⟩, unrelated.2.2.1⟩
  obtain ⟨x, mem, java⟩ := present
  exact List.ne_nil_of_mem (List.mem_map_of_mem (List.mem_filter.mpr ⟨mem, java⟩))

/-- A class whose name a kept class has is kept. -/
theorem kept_of_same {c d : String} (kept : d ∈ f.kept letter change) (there : c ∈ known f.modules)
    (same : simpleName d = simpleName c) : c ∈ f.kept letter change := by
  obtain ⟨thereD, free⟩ := mem_kept.mp kept
  exact mem_kept.mpr ⟨there, fun out => free (scoped_final.together c out d (.inl thereD) same)⟩

/-- An includes file selects the kept classes. -/
theorem selects_file (narrow : (f.final letter change).allExcluded ≠ []) (cmd : List Arg) {c : String}
    (there : c ∈ known f.modules) :
    selects (withSelectedTestFile letter cmd ((f.kept letter change).map inventoryPattern)
      (f.final letter change).allExcluded) c = true ↔ c ∉ (f.final letter change).allExcluded := by
  rw [selects_withSelectedTestFile (excludable_final narrow), List.mem_map]
  constructor
  · rintro ⟨d, kept, same⟩
    exact (mem_kept.mp (kept_of_same kept there (inventoryPattern_inj.mp same))).2
  · intro free
    exact ⟨c, mem_kept.mpr ⟨there, free⟩, rfl⟩

theorem selects_legacy {versions : Versions} (legacy : f.Legacy letter change versions)
    (cmd : List Arg) (c : String) :
    selects (withSelectedTestClasses letter cmd (f.kept letter change)
      (f.final letter change).allExcluded) c = true ↔
      ∃ d ∈ f.kept letter change, isExcludableTestClass letter d = true ∧
        simpleName d = simpleName c := by
  rw [selects, testWords_withSelectedTestClasses legacy.2.2.1 (excludable_final legacy.2.1)
    legacy.2.2.2]
  simp only [decide_eq_true_eq]
  exact mem_keptWords c

/-- A `-Dtest` selects the kept classes exactly when every class can be named. -/
theorem legacy_iff {versions : Versions} (legacy : f.Legacy letter change versions) (cmd : List Arg) :
    (∀ c ∈ known f.modules, selects (withSelectedTestClasses letter cmd (f.kept letter change)
      (f.final letter change).allExcluded) c = true ↔ c ∉ (f.final letter change).allExcluded) ↔
    f.Nameable letter := by
  constructor
  · intro all c there
    by_cases out : c ∈ (f.final letter change).allExcluded
    · rcases ((mem_final c).2.2.2.mp out).1 with unrelated | added
      · exact ⟨c, there, unrelated.2.2.1, rfl⟩
      · obtain ⟨-, ⟨x, outX, same⟩, -⟩ := FailingTestPartition.mem_expanded.mp added
        have unrelated := (mem_initial x).1.mp outX
        exact ⟨x, f.named x unrelated.1, unrelated.2.2.1, same⟩
    · obtain ⟨d, kept, java, same⟩ := (selects_legacy legacy cmd c).mp ((all c there).mpr out)
      exact ⟨d, (mem_kept.mp kept).1, java, same⟩
  · intro nameable c there
    rw [selects_legacy legacy cmd c]
    constructor
    · rintro ⟨d, kept, -, same⟩
      exact (mem_kept.mp (kept_of_same kept there same)).2
    · intro free
      obtain ⟨d, thereD, java, same⟩ := nameable c there
      exact ⟨d, kept_of_same (mem_kept.mpr ⟨there, free⟩) thereD same.symm, java, same⟩

/-- A command that a `-Dtest` was put on has kept classes to name, and room for them. -/
theorem legacy_of_selected {versions : Versions} (old : supportsIncludesFile versions = false)
    (narrow : (f.final letter change).allExcluded ≠ []) {cmd : List Arg}
    (changed : withSelectedTestClasses letter cmd (f.kept letter change)
      (f.final letter change).allExcluded ≠ cmd) : f.Legacy letter change versions := by
  dsimp only [withSelectedTestClasses] at changed
  split at changed
  · exact absurd rfl changed
  · next keep =>
    split at changed
    · exact absurd rfl changed
    · next fits => exact ⟨old, narrow, (not_or.mp keep).1, Nat.le_of_not_lt fits⟩

theorem inventoried_iff (versions : Versions) (narrow : (f.final letter change).allExcluded ≠ []) :
    f.Inventoried letter versions (f.final letter change).allExcluded ↔
      (f.Legacy letter change versions → f.Nameable letter) := by
  constructor
  · intro selected legacy
    have words := @testWords_withSelectedTestClasses letter [] _ _ legacy.2.2.1
      (excludable_final narrow) legacy.2.2.2
    have put : withSelectedTestClasses letter [] (f.kept letter change)
        (f.final letter change).allExcluded ≠ [] := by
      intro same
      rw [same] at words
      cases words
    have keep : f.kept letter change ≠ [] := by
      intro empty
      exact legacy.2.2.1 (by rw [empty]; rfl)
    have shape : excludingTestClasses letter [] (f.final letter change).allExcluded versions true
        f.modules = (withSelectedTestClasses letter [] (f.kept letter change)
          (f.final letter change).allExcluded, "") := by
      rw [kept] at keep put ⊢
      rw [excludingTestClasses, if_neg keep, if_neg (Bool.eq_false_iff.mp legacy.1), if_pos put]
    have all := selected [] true (by rw [shape])
    rw [shape] at all
    exact (legacy_iff legacy []).mp all
  · intro nameable cmd writes put c there
    unfold excludingTestClasses at put ⊢
    split at put
    · simp at put
    · next keep =>
      rw [if_neg keep]
      split at put
      · next file =>
        rw [if_pos file]
        split at put
        · next writes =>
          rw [if_pos writes]
          exact selects_file narrow cmd there
        · simp at put
      · next old =>
        rw [if_neg old]
        have changed : withSelectedTestClasses letter cmd (f.kept letter change)
            (f.final letter change).allExcluded ≠ cmd := by
          intro same
          rw [kept] at same
          rw [if_neg (not_not.mpr same)] at put
          simp at put
        have legacy := legacy_of_selected (Bool.eq_false_iff.mpr old) narrow changed
        exact (legacy_iff legacy cmd).mpr (nameable legacy) c there

/-- A command that an inventory was put on selects only classes with the name of a kept one. -/
theorem namesake_of_selects {versions : Versions} {writes : Bool}
    (narrow : (f.final letter change).allExcluded ≠ []) {cmd : List Arg} {c : String}
    (changed : (excludingTestClasses letter cmd (f.final letter change).allExcluded versions writes
      f.modules).1 ≠ cmd)
    (selected : selects (excludingTestClasses letter cmd (f.final letter change).allExcluded versions
      writes f.modules).1 c = true) :
    ∃ d ∈ f.kept letter change, simpleName d = simpleName c := by
  unfold excludingTestClasses at changed selected
  split at changed
  · exact absurd rfl changed
  · next keep =>
    rw [if_neg keep] at selected
    split at changed
    · next file =>
      rw [if_pos file] at selected
      split at changed
      · next writes =>
        rw [if_pos writes, selects_withSelectedTestFile (excludable_final narrow)] at selected
        obtain ⟨d, kept, same⟩ := List.mem_map.mp selected
        exact ⟨d, kept, inventoryPattern_inj.mp same⟩
      · exact absurd rfl changed
    · next old =>
      rw [if_neg old] at selected
      have legacy := legacy_of_selected (Bool.eq_false_iff.mpr old) narrow changed
      obtain ⟨d, kept, -, same⟩ := (selects_legacy legacy cmd c).mp selected
      exact ⟨d, kept, same⟩

/-- No excluded class is selected. -/
theorem not_selected {versions : Versions} {writes : Bool} {cmd : List Arg} {c : String}
    (out : c ∈ (f.final letter change).allExcluded)
    (changed : (excludingTestClasses letter cmd (f.final letter change).allExcluded versions writes
      f.modules).1 ≠ cmd) :
    selects (excludingTestClasses letter cmd (f.final letter change).allExcluded versions
      writes f.modules).1 c = false := by
  by_contra selected
  obtain ⟨d, kept, same⟩ := namesake_of_selects (List.ne_nil_of_mem out) changed
    (Bool.not_eq_false _ ▸ selected)
  have there := widened_known ((mem_final c).2.2.2.mp out).1
  exact (mem_kept.mp (kept_of_same kept there same)).2 out

/-- The lists and the command line keep their promise exactly when no failing class that stays has
the simple name of an excluded one, and every class can be named where the names go on the command
line. -/
theorem promised_iff (versions : Versions) : f.Promised letter change versions ↔
    f.Apart letter change ∧ (f.Legacy letter change versions → f.Nameable letter) := by
  constructor
  · rintro ⟨lists, selected⟩
    refine ⟨all_retained_iff.mp fun narrow c mem => ?_, fun legacy =>
      (inventoried_iff versions legacy.2.1).mp (selected legacy.2.1) legacy⟩
    have one := (lists _ (.takenBack narrow "")).one c mem
    rcases one with ⟨out, -⟩ | ⟨-, out, -⟩ | ⟨-, -, stays⟩
    · exact absurd out List.not_mem_nil
    · exact absurd out List.not_mem_nil
    · exact stays
  · rintro ⟨apart, nameable⟩
    refine ⟨fun p outcome => ?_, fun narrow => (inventoried_iff versions narrow).mpr nameable⟩
    cases outcome with
    | nothing empty => exact scoped_nothing empty
    | refused _ reason =>
      refine scoped_withoutExclusions fun c mem => ?_
      rw [List.mem_append, (mem_initial c).1, (mem_initial c).2]
      by_cases unrelated : change.Unrelated letter c
      · exact .inr ⟨mem, unrelated⟩
      · exact .inl ⟨mem, unrelated⟩
    | narrowed _ => exact scoped_final
    | takenBack narrow reason =>
      exact scoped_withoutExclusions (all_retained_iff.mpr apart narrow)

end Failures

/-- Two classes of one simple name have failed; the second one was changed. -/
def namesakes : Failures where
  failing := ["a.RedTest", "b.RedTest"]
  modules := [("app", ["a.RedTest", "b.RedTest", "b.GreenTest"])]
  named := by decide +kernel
  clean := by decide +kernel

def namesakesChange : Change where
  changedJava := some ["app/src/test/java/b/RedTest.java"]
  changedProductionJava := some []
  targetsType _ _ := false

/-- When the exclusion is taken back, the changed class is in no list. -/
theorem namesake_lost : ¬ ∀ (letter : Char → Bool) (change : Change) (f : Failures)
    (versions : Versions), f.Promised letter change versions := by
  intro promised
  have taken := (promised (fun _ => false) namesakesChange namesakes []).1 _
    (.takenBack (by decide +kernel) "rerun-produced-no-evidence")
  have one := taken.one "b.RedTest" (by decide +kernel)
  unfold ExactlyOne at one
  exact absurd one (by decide +kernel)

end Uta.JavaGate
