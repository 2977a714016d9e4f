/- The survivors that a Maven gate counted against its score, rebuilt from its PIT reports by the
readings that reproduce the printed counts. -/
import Uta.Enforce.Equivalence
import Mathlib.Data.Finset.Card
import Mathlib.Data.List.Dedup
import Mathlib.Data.Prod.Lex
import Mathlib.Data.String.Basic

namespace Uta.JavaGate.Survivors
open Uta.Lib Uta.Enforce

/-! Rows. -/

/-- A `<mutation>` of a PIT report. -/
structure Row where
  status : String
  sourceFile : String
  mutatedClass : String
  method : String
  methodDescription : String
  line : ℕ
  mutator : String
  indexes : String
  blocks : String
  description : String
  deriving DecidableEq, Repr

/-- The text after the last dot, or all of it. -/
def afterLastDot (text : String) : String :=
  String.ofList (text.toList.reverse.takeWhile (· ≠ '.')).reverse

/-- The text before the last dot, or none. -/
def beforeLastDot (text : List Char) : List Char :=
  ((text.reverse.dropWhile (· ≠ '.')).drop 1).reverse

/-- `_identity`. -/
def identity (sha1 : String → String) (sourcePath : String) (row : Row) : MutantIdentity where
  key := sha1 <| "|".intercalate [row.sourceFile, row.mutatedClass, row.method,
    row.methodDescription, toString row.line, row.mutator, row.indexes, row.blocks]
  sourcePath := sourcePath
  line := row.line
  operator := afterLastDot row.mutator
  description := row.method ++ ": " ++ row.description

/-- `src/main/java/` and the file of a class, below its package. -/
def sourceSuffix (mutatedClass sourceFile : String) : List Char :=
  let package := beforeLastDot (mutatedClass.toList.takeWhile (· ≠ '$'))
  let folder := package.map fun c => if c = '.' then '/' else c
  "src/main/java/".toList ++
    ['/'].intercalate ([folder, sourceFile.toList].filter (decide <| · ≠ []))

/-- The one tracked production file of a class. -/
def resolveSource (tracked : List String) (mutatedClass sourceFile : String) : Option String :=
  let suffix := sourceSuffix mutatedClass sourceFile
  match tracked.filter fun path =>
    decide (path.toList = suffix ∨ '/' :: suffix <:+ path.toList) with
  | [path] => if sourceFile = "" then none else some path
  | _ => none

/-! Readings. -/

/-- `_PIT_DETECTED`. -/
def pitDetected : List String := ["KILLED", "TIMED_OUT", "MEMORY_ERROR", "RUN_ERROR", "NON_VIABLE"]

/-- `_KILLED_ONLY`. -/
def killedOnly : List String := ["KILLED"]

/-- A rule by which the gate may have counted. -/
structure Reading where
  inDiff : Bool
  detected : List String
  dropNonViable : Bool
  deriving DecidableEq, Repr

/-- The product of the rules, in its order. -/
def readings : List Reading :=
  [true, false].flatMap fun inDiff => [pitDetected, killedOnly].flatMap fun detected =>
    [false, true].map fun dropNonViable => ⟨inDiff, detected, dropNonViable⟩

/-- What a gate has left behind: its rows, those on changed lines, the identity of each, and the
counts that it printed. -/
structure Measured where
  rows : List Row
  inDiff : List Row
  identity : Row → MutantIdentity
  detected : ℕ
  total : ℕ

namespace Measured
variable (m : Measured) (r : Reading)

/-- The rows that are counted. -/
def counted : List Row :=
  (if r.inDiff then m.inDiff else m.rows).filter fun row =>
    ¬ (r.dropNonViable = true ∧ row.status = "NON_VIABLE")

def hits : ℕ := (m.counted r).countP (decide <| ·.status ∈ r.detected)

/-- The reading reproduces both printed numbers. -/
def Consistent : Prop := m.hits r = m.detected ∧ (m.counted r).length = m.total

instance : Decidable (m.Consistent r) := inferInstanceAs (Decidable (_ ∧ _))

/-- The survivors of a reading, one for each row. -/
def reviewable : List MutantIdentity :=
  ((m.counted r).filter fun row => row.status ∉ r.detected ∧ row.status = "SURVIVED").map m.identity

/-- The other rows that lower the score. -/
def unreviewed : ℕ :=
  (m.counted r).countP fun row => row.status ∉ r.detected ∧ row.status ≠ "SURVIVED"

/-- `_failures`. -/
def failures : Finset MutantIdentity × ℕ := ((m.reviewable r).toFinset, m.unreviewed r)

/-- `readings`, of those that are consistent. -/
def believed : List Reading := readings.filter fun r => m.Consistent r

end Measured

/-- `(mutant.source_path, mutant.line, mutant.key)`. -/
def place (m : MutantIdentity) : Lex (String × Lex (ℤ × String)) :=
  toLex (m.sourcePath, toLex (m.line, m.key))

/-- `output_evidence_detail(output).get("mutation")`. -/
structure MutationDetail where
  source : String
  killed : ℕ
  generated : ℕ
  rate : FloatLiteral

/-- What `java_scoring_survivors` is given: the printed detail, the reports of the gate's own PIT
run, unless one cannot be parsed, and the repository. -/
structure Gate where
  detail : Option MutationDetail
  reports : Option (List (List Row))
  tracked : List String
  ref : String
  changed : String → List ℕ
  sha1 : String → String
  sha256 : String → String
  diffMutationGate : FloatLiteral

namespace Gate
variable (g : Gate)

/-- The file of a row. -/
def source (row : Row) : Option String := resolveSource g.tracked row.mutatedClass row.sourceFile

/-- The rows and counts, if the gate scored a diff and its rows can be placed. -/
def measured : Option (Measured × MutationDetail) :=
  match g.detail, g.reports with
  | some detail, some (report :: reports) =>
    let rows := (report :: reports).flatten
    if detail.source ≠ "diff" then none
    else if ¬ ∀ row ∈ rows, (g.source row).isSome then none
    else if g.ref = "" ∨ ['-'] <+: g.ref.toList then none
    else
      let path := fun row => (g.source row).getD ""
      some ({
        rows
        inDiff := rows.filter fun row => row.line ∈ g.changed (path row)
        identity := fun row => identity g.sha1 (path row) row
        detected := detail.killed
        total := detail.generated }, detail)
  | _, _ => none

/-- The set of a reading, in the order of its places. -/
def survivorsOf (detail : MutationDetail) (m : Measured) (r : Reading) : ScoringSurvivors :=
  let mutants := (m.reviewable r).dedup.mergeSort fun a b => decide (place a ≤ place b)
  { language := "java"
    mutants := mutants
    unreviewedScoringFailures := m.unreviewed r
    sourceFingerprints := (mutants.map MutantIdentity.sourcePath).dedup.map fun path =>
      (path, g.sha256 path)
    mutationRate := detail.rate
    mutationGate := g.diffMutationGate }

/-- `java_scoring_survivors`. -/
def javaScoringSurvivors : Option ScoringSurvivors :=
  match g.measured with
  | none => none
  | some (m, detail) =>
    match m.believed with
    | [] => none
    | first :: rest =>
      if ∃ r ∈ rest, m.failures r ≠ m.failures first then none
      else some (g.survivorsOf detail m first)

end Gate

/-! What is asked of the set. -/

/-- The set is what every reading of the printed counts gives, and stands for each row that scored
against the gate. -/
structure Proven (m : Measured) (s : ScoringSurvivors) : Prop where
  believed : ∃ r ∈ readings, m.Consistent r
  only : ∀ r ∈ readings, m.Consistent r →
    m.failures r = (s.mutants.toFinset, s.unreviewedScoringFailures.toNat)
  /-- As many survivors as there are rows that scored against the gate. -/
  counted : (s.mutants.length : ℤ) + s.unreviewedScoringFailures = m.total - m.detected
  /-- A key excuses as many rows as there are reviewed mutants under it. -/
  excused : ∀ r ∈ readings, m.Consistent r → ∀ key,
    ((m.reviewable r).filter fun mutant => mutant.key = key).length =
      (s.mutants.filter fun mutant => mutant.key = key).length

/-- Two readings reproduce the counts and differ about the survivors. -/
def Measured.Disputed (m : Measured) : Prop :=
  ∃ r ∈ readings, ∃ r' ∈ readings, m.Consistent r ∧ m.Consistent r' ∧ m.failures r ≠ m.failures r'

/-- A set that is returned is proven, and where the readings differ there is none. -/
def SurvivorsProven (g : Gate) : Prop :=
  ∀ m detail, g.measured = some (m, detail) →
    (∀ s, g.javaScoringSurvivors = some s → Proven m s) ∧
      (m.Disputed → g.javaScoringSurvivors = none)

/-- The readings differ, or those that reproduce the counts see each survivor once. -/
def SurvivorsDistinct (g : Gate) : Prop :=
  ∀ m detail, g.measured = some (m, detail) →
    m.Disputed ∨ ∀ r ∈ readings, m.Consistent r → (m.reviewable r).Nodup

/-! The rows of a reading. -/

section Rows
variable {m : Measured} {r r' : Reading}

theorem mem_believed : r ∈ m.believed ↔ r ∈ readings ∧ m.Consistent r := by
  unfold Measured.believed
  rw [List.mem_filter, decide_eq_true_iff]

/-- Each row that is counted is detected, a survivor, or unreviewed. -/
theorem countP_split {α : Type} (detected survived : α → Bool) (l : List α) :
    l.countP detected + (l.filter fun a => !detected a && survived a).length +
      l.countP (fun a => !detected a && !survived a) = l.length := by
  induction l with
  | nil => rfl
  | cons a l ih =>
      cases d : detected a <;> cases s : survived a <;> simp [d, s] at ih ⊢ <;> omega

theorem counted_split (m : Measured) (r : Reading) :
    m.hits r + (m.reviewable r).length + m.unreviewed r = (m.counted r).length := by
  have split := countP_split (fun row : Row => decide (row.status ∈ r.detected))
    (fun row => decide (row.status = "SURVIVED")) (m.counted r)
  unfold Measured.hits Measured.reviewable Measured.unreviewed
  rw [List.length_map]
  simpa [Bool.decide_and] using split

/-- The rows that score against the gate, under a reading of its counts. -/
theorem scored (consistent : m.Consistent r) :
    ((m.reviewable r).length : ℤ) + m.unreviewed r = m.total - m.detected := by
  have split := counted_split m r
  rw [consistent.1, consistent.2] at split
  omega

theorem undisputed (calm : ¬ m.Disputed) (first : r ∈ readings) (consistent : m.Consistent r)
    (second : r' ∈ readings) (consistent' : m.Consistent r') : m.failures r = m.failures r' := by
  by_contra differ
  exact calm ⟨r, first, r', second, consistent, consistent', differ⟩

end Rows

/-! The result. -/

section Result
variable {g : Gate} {m : Measured} {detail : MutationDetail}

theorem javaScoringSurvivors_none (measured : g.measured = some (m, detail))
    (disputed : m.Disputed) : g.javaScoringSurvivors = none := by
  unfold Gate.javaScoringSurvivors
  rw [measured]
  dsimp only
  obtain ⟨r, first, r', second, consistent, consistent', differ⟩ := disputed
  have inside := mem_believed.mpr ⟨first, consistent⟩
  have inside' := mem_believed.mpr ⟨second, consistent'⟩
  cases believed : m.believed with
  | nil => rfl
  | cons head rest =>
      rw [believed] at inside inside'
      dsimp only
      refine if_pos ?_
      by_contra same
      have all : ∀ s ∈ head :: rest, m.failures s = m.failures head := by
        intro s member
        rcases List.mem_cons.mp member with rfl | later
        · rfl
        · by_contra other
          exact same ⟨s, later, other⟩
      exact differ ((all r inside).trans (all r' inside').symm)

/-- Where the readings agree, the set is that of the first of them. -/
theorem javaScoringSurvivors_some (measured : g.measured = some (m, detail)) (calm : ¬ m.Disputed)
    {r : Reading} (listed : r ∈ readings) (consistent : m.Consistent r) :
    ∃ first ∈ readings, m.Consistent first ∧
      g.javaScoringSurvivors = some (g.survivorsOf detail m first) := by
  unfold Gate.javaScoringSurvivors
  rw [measured]
  dsimp only
  have inside := mem_believed.mpr ⟨listed, consistent⟩
  have sound : ∀ s ∈ m.believed, s ∈ readings ∧ m.Consistent s := fun s => mem_believed.mp
  cases believed : m.believed with
  | nil =>
      rw [believed] at inside
      exact nomatch inside
  | cons head rest =>
      rw [believed] at sound
      obtain ⟨listed, consistent⟩ := sound head List.mem_cons_self
      refine ⟨head, listed, consistent, if_neg ?_⟩
      rintro ⟨s, later, differ⟩
      obtain ⟨listed', consistent'⟩ := sound s (List.mem_cons_of_mem _ later)
      exact differ (undisputed calm listed' consistent' listed consistent)

theorem javaScoringSurvivors_unbelieved (measured : g.measured = some (m, detail))
    (none_ : ∀ r ∈ readings, ¬ m.Consistent r) : g.javaScoringSurvivors = none := by
  have believed : m.believed = [] := List.eq_nil_iff_forall_not_mem.mpr fun r member =>
    none_ r (mem_believed.mp member).1 (mem_believed.mp member).2
  unfold Gate.javaScoringSurvivors
  rw [measured]
  dsimp only
  rw [believed]

/-- What is returned is the set of one of the readings, which do not differ. -/
theorem returned (measured : g.measured = some (m, detail)) {s : ScoringSurvivors}
    (some_ : g.javaScoringSurvivors = some s) :
    ¬ m.Disputed ∧ ∃ first ∈ readings, m.Consistent first ∧ s = g.survivorsOf detail m first := by
  have calm : ¬ m.Disputed := fun disputed =>
    nomatch some_.symm.trans (javaScoringSurvivors_none measured disputed)
  refine ⟨calm, ?_⟩
  by_cases consistent : ∃ r ∈ readings, m.Consistent r
  · obtain ⟨r, listed, consistent⟩ := consistent
    obtain ⟨first, listed, consistent, same⟩ :=
      javaScoringSurvivors_some measured calm listed consistent
    exact ⟨first, listed, consistent, Option.some.inj (some_.symm.trans same)⟩
  · have none_ := javaScoringSurvivors_unbelieved measured fun r listed consistent_ =>
      consistent ⟨r, listed, consistent_⟩
    exact nomatch some_.symm.trans none_

theorem survivorsOf_perm (first : Reading) :
    (g.survivorsOf detail m first).mutants.Perm (m.reviewable first).dedup :=
  List.mergeSort_perm _ _

theorem survivorsOf_toFinset (first : Reading) :
    (g.survivorsOf detail m first).mutants.toFinset = (m.reviewable first).toFinset := by
  rw [List.toFinset_eq_of_perm _ _ (survivorsOf_perm first)]
  ext mutant
  simp only [List.mem_toFinset, List.mem_dedup]

/-- The readings that reproduce the counts see as many survivors, of the same identities. -/
theorem reviewable_alike {first r : Reading} (calm : ¬ m.Disputed) (listed : first ∈ readings)
    (consistent : m.Consistent first) (listed' : r ∈ readings) (consistent' : m.Consistent r) :
    (m.reviewable r).toFinset = (m.reviewable first).toFinset ∧
      (m.reviewable r).length = (m.reviewable first).length := by
  have same := undisputed calm listed' consistent' listed consistent
  rw [Measured.failures, Measured.failures, Prod.mk.injEq] at same
  have scored_first := scored consistent
  have scored_other := scored consistent'
  rw [same.2] at scored_other
  exact ⟨same.1, by omega⟩

/-- A set that is returned is proven exactly if no reading of the counts sees a survivor twice. -/
theorem proven_iff {first : Reading} (calm : ¬ m.Disputed) (listed : first ∈ readings)
    (consistent : m.Consistent first) :
    Proven m (g.survivorsOf detail m first) ↔
      ∀ r ∈ readings, m.Consistent r → (m.reviewable r).Nodup := by
  have perm : (g.survivorsOf detail m first).mutants.Perm (m.reviewable first).dedup :=
    survivorsOf_perm first
  constructor
  · intro proven r listed' consistent'
    obtain ⟨same, long⟩ := reviewable_alike calm listed consistent listed' consistent'
    have counted := proven.counted
    rw [perm.length_eq, ← scored consistent] at counted
    have short : (m.reviewable first).dedup.length = (m.reviewable first).length := by
      change _ + (m.unreviewed first : ℤ) = _ at counted
      omega
    rw [← List.dedup_eq_self, ← (List.dedup_sublist _).length_eq, long, ← short,
      ← List.card_toFinset, ← List.card_toFinset, same]
  · intro distinct
    have own : (m.reviewable first).dedup = m.reviewable first :=
      List.dedup_eq_self.mpr (distinct first listed consistent)
    rw [own] at perm
    refine ⟨⟨first, listed, consistent⟩, fun r listed' consistent' => ?_, ?_,
      fun r listed' consistent' key => ?_⟩
    · rw [undisputed calm listed' consistent' listed consistent, survivorsOf_toFinset]
      rfl
    · rw [perm.length_eq]
      exact scored consistent
    · obtain ⟨same, _⟩ := reviewable_alike calm listed consistent listed' consistent'
      have alike : (m.reviewable r).Perm (m.reviewable first) :=
        List.perm_of_nodup_nodup_toFinset_eq (distinct r listed' consistent')
          (distinct first listed consistent) same
      exact ((alike.trans perm.symm).filter _).length_eq

end Result

/-- The set that is returned stands for every row that scored against the gate exactly if no reading
of the counts sees a survivor twice. -/
theorem survivorsProven_iff (g : Gate) : SurvivorsProven g ↔ SurvivorsDistinct g := by
  constructor
  · intro proven m detail measured
    by_cases disputed : m.Disputed
    · exact .inl disputed
    refine .inr fun r listed consistent => ?_
    obtain ⟨first, listed', consistent', same⟩ :=
      javaScoringSurvivors_some measured disputed listed consistent
    have sound := (proven m detail measured).1 _ same
    exact (proven_iff disputed listed' consistent').mp sound r listed consistent
  · intro distinct m detail measured
    refine ⟨fun s some_ => ?_, javaScoringSurvivors_none measured⟩
    obtain ⟨calm, first, listed, consistent, rfl⟩ := returned measured some_
    exact (proven_iff calm listed consistent).mpr
      ((distinct m detail measured).resolve_left calm)

/-! Two survivors under one identity. -/

/-- A survivor of a report that says nothing of indexes and blocks. -/
def plainSurvivor : Row where
  status := "SURVIVED"
  sourceFile := "A.java"
  mutatedClass := "a.A"
  method := "sum"
  methodDescription := "(II)I"
  line := 3
  mutator := "MathMutator"
  indexes := ""
  blocks := ""
  description := "Replaced integer addition with subtraction"

/-- Both additions of one line survive. -/
def twinGate : Gate where
  detail := some ⟨"diff", 0, 2, zero⟩
  reports := some [[plainSurvivor, plainSurvivor]]
  tracked := ["src/main/java/a/A.java"]
  ref := "origin/master"
  changed := fun _ => [3]
  sha1 := id
  sha256 := id
  diffMutationGate := zero

theorem twinGate_unproven :
    (twinGate.javaScoringSurvivors.map fun s =>
      (s.mutants.length, s.unreviewedScoringFailures)) = some (1, 0) ∧
      ¬ SurvivorsProven twinGate := by
  have set : (twinGate.javaScoringSurvivors.map fun s =>
      (s.mutants.length, s.unreviewedScoringFailures)) = some (1, 0) := by decide +kernel
  refine ⟨set, fun proven => ?_⟩
  obtain ⟨s, returned, counts⟩ := Option.map_eq_some_iff.mp set
  rw [Prod.mk.injEq] at counts
  cases measured : twinGate.measured with
  | none =>
      rw [Gate.javaScoringSurvivors, measured] at returned
      exact nomatch returned
  | some found =>
      have counted := ((proven found.1 found.2 measured).1 s returned).counted
      have printed : (found.1.total, found.1.detected) = (2, 0) := by
        have all : twinGate.measured.map (fun found => (found.1.total, found.1.detected)) =
            some (2, 0) := by decide +kernel
        rw [measured] at all
        exact Option.some.inj all
      rw [Prod.mk.injEq] at printed
      rw [counts.1, counts.2, printed.1, printed.2] at counted
      exact absurd counted (by decide)

end Uta.JavaGate.Survivors
