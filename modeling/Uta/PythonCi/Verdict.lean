/- What a passing verdict on a repair task says of its rows, and when it says enough. -/
import Uta.Lib.Lines
import Uta.PythonCi.Handler

namespace Uta.PythonCi
open Uta.Lib Uta.Operations Uta.Tasks

/-! What the evidence and the report are about. -/

section Evidence
variable (py : Python)

/-- The evidence shows the target as failing: its tests, coverage or mutation did not
pass, or a required mutation run was not executed. -/
def ShowsFailing (item : Fields) : Prop :=
  notPassed (get item "coverage") = true ∨ notPassed (get item "mutation") = true ∨
    isFalse (get item "testsPass") = true ∨ mutationUnexecuted py (get item "mutation") = .ok true

/-- The result is of a target whose verification was skipped. -/
def Skipped (item : Fields) : Prop := wordOf py item "reasonCode" ∈ advisorySkipReasons

/-- The source file of a target result. -/
def itemFile (item : Fields) : Option String :=
  match (targetName py (get item "target")).map normalizeTarget with
  | some (.ok target) => some (repairScopeKey target.targetId target.sourcePath)
  | _ => none

/-- The changed code of the file required mutation. -/
def MutationRequired (results : List Fields) (file : String) : Prop :=
  ∃ item ∈ results, itemFile py item = some file ∧
    candidatePlanRequiresMutationExecution
      (or (get (asDict (get item "mutation")) "candidatePlan") (.obj [])) = true

/-- The source file that a result of a report was recorded for. -/
def resultFile (entry : String × Fields) : String :=
  let target := asDict (get entry.2 "target")
  repairScopeKey
    (textOf py (or (or (get entry.2 "target_id") (get entry.2 "class_fqn"))
      (or (get target "target_id") (.str entry.1))))
    (textOf py (or (get entry.2 "source_path") (get target "source_path")))

/-- The results that have a key of the row, in the order in which they are looked up. -/
def namesakes (report : Option Json) (row : ClassRow) : List (String × Fields) :=
  row.summaryKeys.flatMap fun key =>
    (summarizedResults report).filter fun entry => decide (key ∈ resultKeys py entry.1 entry.2)

/-- The mutants of a row were measured, at a rate that meets the gate, or its code
required none and there are none that miss the gate. -/
def Measured (gate : PyFloat) (required : Prop) (row : ClassRow) : Prop :=
  0 < row.generated ∧ floatGe (orZero row.mutationScore) gate = true ∨
    ¬ required ∧ (row.generated = 0 ∧ row.survived = 0 ∨ floatGe (orZero row.mutationScore) gate = true)

/-- The rate that counts as the row's coverage meets the gate. -/
def Covered (gate : PyFloat) (summaries : List (String × Fields)) (row : ClassRow) : Prop :=
  ∃ coverage, rowCoverage py row gate (row.coverageSummary summaries) = .ok coverage ∧
    floatGe coverage.rate gate = true

end Evidence

section Verdict
variable (py : Python) (settings : Settings) (record : CiRecord) (task : RepairTask)
  (rows : List ClassRow) (report : Option Json)

/-- What a passing verdict promises. -/
structure Genuine : Prop where
  targets : ∀ results, targetResults record.enforcement = .ok results →
    ∀ item ∈ results, ShowsFailing py item → ∃ row ∈ rows, itemFile py item = some row.scopeKey
  passed : AllPass py rows
  covered : ∃ gate, gateOf py task.coverageGate (asDict (get record.evidence "coverage"))
      settings.coverageGate = .ok gate ∧
    ∀ row ∈ rows, Covered py gate (coverageSummariesFromLatestReport py report) row
  measured : ∃ gate, gateOf py task.mutationGate (asDict (get record.evidence "mutation"))
      settings.mutationGate = .ok gate ∧
    ∀ results, targetResults record.enforcement = .ok results →
      ∀ row ∈ rows, Measured gate (MutationRequired py results row.scopeKey) row
  summaries : ∀ row ∈ rows, ∀ entry ∈ (namesakes py report row).head?,
    resultFile py entry = row.scopeKey

/-- When it keeps that promise. -/
structure Founded : Prop where
  /-- A failing target has a name, and a row where its verification was skipped. -/
  named : ∀ results, targetResults record.enforcement = .ok results →
    ∀ item ∈ results, ShowsFailing py item →
      (targetName py (get item "target")).isSome = true ∧
        (Skipped py item → ∃ row ∈ rows, itemFile py item = some row.scopeKey)
  /-- A summary that a row is given has a rate at the task's gate. -/
  rated : ∀ gate, gateOf py task.coverageGate (asDict (get record.evidence "coverage"))
      settings.coverageGate = .ok gate →
    ∀ row ∈ rows, ∀ summary,
      row.coverageSummary (coverageSummariesFromLatestReport py report) = some summary →
      summary ≠ [] → Covered py gate (coverageSummariesFromLatestReport py report) row
  /-- A row whose code required mutation has generated a mutant. -/
  generated : ∀ results, targetResults record.enforcement = .ok results →
    ∀ row ∈ rows, MutationRequired py results row.scopeKey → 0 < row.generated
  /-- A result of another file that shares a key with a row is looked up after one of
  the row's own file. -/
  distinguished : ∀ row ∈ rows, ∀ before entry after,
    namesakes py report row = before ++ entry :: after → resultFile py entry ≠ row.scopeKey →
      ∃ own ∈ before, resultFile py own = row.scopeKey

end Verdict

/-! Summaries. -/

section Summaries
variable (py : Python)

/-- The first is right where every wrong one comes after a right one. -/
theorem head_iff_preceded {α : Type} (l : List α) (own : α → Prop) :
    (∀ a ∈ l.head?, own a) ↔
      ∀ before a after, l = before ++ a :: after → ¬ own a → ∃ b ∈ before, own b := by
  cases l with
  | nil => simp
  | cons a l =>
      constructor
      · intro first before b after cut other
        cases before with
        | nil =>
            obtain ⟨rfl, _⟩ := List.cons.inj cut
            exact absurd (first a rfl) other
        | cons c before =>
            obtain ⟨rfl, _⟩ := List.cons.inj cut
            exact ⟨a, List.mem_cons_self, first a rfl⟩
      · intro preceded b head
        obtain rfl : a = b := Option.some.inj head
        by_contra other
        obtain ⟨c, inside, _⟩ := preceded [] a l rfl other
        exact absurd inside List.not_mem_nil

end Summaries

/-! Paths. -/

section Paths

/-- Joined again without its empty parts, a path keeps every letter. -/
theorem mem_joined {c : Char} {path : List Char} (other : c ≠ '/') (inside : c ∈ path) :
    c ∈ ['/'].intercalate ((path.splitOn '/').filter fun part => !part.isEmpty) := by
  have joined : ['/'].intercalate (path.splitOn '/') = path := List.intercalate_splitOn '/'
  rw [← joined] at inside
  obtain ⟨part, among, own⟩ := PyText.mem_of_mem_intercalate other inside
  refine PyText.mem_intercalate_of_mem (List.mem_filter.mpr ⟨among, ?_⟩) own
  cases part with
  | nil => exact absurd own List.not_mem_nil
  | cons => rfl

theorem mem_dropWhile {c : Char} {p : Char → Bool} (kept : p c = false) {l : List Char}
    (inside : c ∈ l) : c ∈ l.dropWhile p := by
  rw [← List.takeWhile_append_dropWhile (p := p) (l := l), List.mem_append] at inside
  rcases inside with front | back
  · have dropped := List.mem_takeWhile_imp front
    rw [kept] at dropped
    exact nomatch dropped
  · exact back

theorem mem_strip {c : Char} (plain : PyText.isSpace c = false) {l : List Char} (inside : c ∈ l) :
    c ∈ PyText.strip l := by
  unfold PyText.strip
  rw [List.mem_reverse]
  exact mem_dropWhile plain (List.mem_reverse.mpr (mem_dropWhile plain inside))

theorem normalizeSourcePath_ends {path normal : String} (made : normalizeSourcePath path = .ok normal) :
    'y' ∈ normal.toList := by
  have letter : 'y' ∈ ".py".toList := by decide
  unfold normalizeSourcePath at made
  dsimp only at made
  split at made
  · exact nomatch made
  · split at made
    · exact nomatch made
    · split at made
      · exact nomatch made
      next python =>
        have ended := (not_not.mp python).subset letter
        rw [← Except.ok.inj made, String.toList_ofList]
        exact mem_joined (by decide) ended

theorem targetRef_sourcePath (sourcePath : String) (symbol : Option String) :
    (targetRef sourcePath symbol).sourcePath = sourcePath := by
  cases symbol <;> rfl

theorem normalizeTarget_sourcePath {value : String} {target : TargetRef}
    (made : normalizeTarget value = .ok target) :
    ∃ path, normalizeSourcePath path = .ok target.sourcePath := by
  unfold normalizeTarget parsePythonSelection at made
  cases parts : stripPrefixedTarget value with
  | error e =>
      rw [parts] at made
      exact nomatch made
  | ok parts' =>
      rw [parts] at made
      dsimp only [bind, Except.bind] at made
      cases normal : normalizeSourcePath parts'.1 with
      | error e =>
          rw [normal] at made
          exact nomatch made
      | ok sourcePath =>
          rw [normal] at made
          refine ⟨parts'.1, normal.trans ?_⟩
          rw [← Except.ok.inj made]
          exact congrArg Except.ok (targetRef_sourcePath _ _).symm

/-- A target's key is never empty. -/
theorem scopeKey_ne_nil {value : String} {target : TargetRef}
    (made : normalizeTarget value = .ok target) :
    repairScopeKey target.targetId target.sourcePath ≠ "" := by
  obtain ⟨path, normal⟩ := normalizeTarget_sourcePath made
  have ended := normalizeSourcePath_ends normal
  have kept : 'y' ∈ (strip (slashed target.sourcePath)).toList := by
    unfold strip slashed
    rw [String.toList_ofList, String.toList_ofList]
    refine mem_strip (by decide) (List.mem_map.mpr ⟨'y', ended, by decide⟩)
  have filled : strip (slashed target.sourcePath) ≠ "" := by
    intro empty
    rw [empty] at kept
    exact absurd kept (by decide)
  unfold repairScopeKey
  dsimp only
  rwa [if_pos filled]

end Paths

/-! Required targets. -/

theorem bind_ok {α β : Type} {x : Except Raised α} {f : α → Except Raised β} {b : β}
    (h : (x >>= f) = .ok b) : ∃ a, x = .ok a ∧ f a = .ok b := by
  cases x with
  | error e => exact nomatch h
  | ok a => exact ⟨a, rfl, h⟩

theorem mapM_ok {α β : Type} {f : α → Except Raised β} {l : List α} {r : List β}
    (h : l.mapM f = .ok r) : List.Forall₂ (fun a b => f a = .ok b) l r := by
  induction l generalizing r with
  | nil =>
      rw [List.mapM_nil] at h
      cases h
      exact .nil
  | cons a l ih =>
      rw [List.mapM_cons] at h
      obtain ⟨b, own, h⟩ := bind_ok h
      obtain ⟨bs, others, h⟩ := bind_ok h
      cases h
      exact .cons own (ih others)

theorem forall₂_left {α β : Type} {R : α → β → Prop} {l : List α} {r : List β}
    (related : List.Forall₂ R l r) {a : α} (inside : a ∈ l) : ∃ b ∈ r, R a b := by
  induction related with
  | nil => exact absurd inside List.not_mem_nil
  | cons own _ ih =>
      rcases List.mem_cons.mp inside with rfl | later
      · exact ⟨_, List.mem_cons_self, own⟩
      · obtain ⟨b, among, related⟩ := ih later
        exact ⟨b, List.mem_cons_of_mem _ among, related⟩

section Required
variable {py : Python}

/-- A failing target whose verification was not skipped needs repair. -/
theorem needsRepair_of_failing {item : Fields} {needed : Bool} (failing : ShowsFailing py item)
    (verified : ¬ Skipped py item) (judged : targetResultNeedsRepair py item = .ok needed) :
    needed = true := by
  unfold Skipped at verified
  unfold targetResultNeedsRepair at judged
  rw [if_neg verified] at judged
  split at judged
  · exact (Except.ok.inj judged).symm
  next coverage =>
    split at judged
    · exact (Except.ok.inj judged).symm
    next mutation =>
      obtain ⟨unexecuted, ran, judged⟩ := bind_ok judged
      rcases failing with failed | failed | failed | failed
      · exact absurd failed coverage
      · exact absurd failed mutation
      · by_cases missing : unexecuted = true
        · rw [if_pos missing] at judged
          exact (Except.ok.inj judged).symm
        · rw [if_neg missing, if_pos failed] at judged
          exact (Except.ok.inj judged).symm
      · obtain rfl : true = unexecuted := Except.ok.inj (failed.symm.trans ran)
        rw [if_pos rfl] at judged
        exact (Except.ok.inj judged).symm

theorem mem_failingNames {results : List Fields} {names : List String}
    (collected : failingNames py results = .ok names) {item : Fields} (inside : item ∈ results)
    (failing : ShowsFailing py item) (verified : ¬ Skipped py item) {name : String}
    (named : targetName py (get item "target") = some name) : name ∈ names := by
  induction results generalizing names with
  | nil => exact absurd inside List.not_mem_nil
  | cons first rest ih =>
      unfold failingNames at collected
      obtain ⟨needed, judged, collected⟩ := bind_ok collected
      obtain ⟨others, later, collected⟩ := bind_ok collected
      have collected := Except.ok.inj collected
      rcases List.mem_cons.mp inside with rfl | among
      · rw [needsRepair_of_failing failing verified judged, if_pos rfl, named] at collected
        rw [← collected]
        exact List.mem_cons_self
      · have inside := ih later among
        rw [← collected]
        split
        · exact List.mem_append_right _ inside
        · exact inside

theorem mem_repairValues {enforcement : Fields} {values : List String} {results : List Fields}
    (read : targetResults enforcement = .ok results)
    (collected : repairValues py enforcement = .ok values) {item : Fields} (inside : item ∈ results)
    (failing : ShowsFailing py item) (verified : ¬ Skipped py item) {name : String}
    (named : targetName py (get item "target") = some name) : name ∈ values := by
  unfold repairValues at collected
  obtain ⟨results', again, collected⟩ := bind_ok collected
  obtain rfl : results = results' := Except.ok.inj (read.symm.trans again)
  obtain ⟨names, gathered, collected⟩ := bind_ok collected
  have among := mem_failingNames gathered inside failing verified named
  have filled : ¬ (names.isEmpty = true ∧ results.isEmpty = true) := by
    rintro ⟨_, empty⟩
    rw [List.isEmpty_iff.mp empty] at inside
    exact absurd inside List.not_mem_nil
  rw [if_neg filled] at collected
  rwa [← Except.ok.inj collected]

/-- A named failing target that was not skipped is required. -/
theorem required_of_failing {enforcement : Fields} {targets : List TargetRef}
    {results : List Fields} (read : targetResults enforcement = .ok results)
    (selected : repairTargets py [] enforcement = .ok targets) {item : Fields}
    (inside : item ∈ results) (failing : ShowsFailing py item) (verified : ¬ Skipped py item)
    (named : (targetName py (get item "target")).isSome = true) :
    ∃ key ∈ repairScopeKeys targets, itemFile py item = some key := by
  obtain ⟨name, named⟩ := Option.isSome_iff_exists.mp named
  unfold repairTargets at selected
  obtain ⟨values, collected, selected⟩ := bind_ok selected
  have among := mem_repairValues read collected inside failing verified named
  obtain ⟨target, present, made⟩ := forall₂_left (mapM_ok selected) (List.mem_eraseDups.mpr among)
  refine ⟨_, List.mem_filter.mpr ⟨List.mem_map.mpr ⟨target, present, rfl⟩, ?_⟩, ?_⟩
  · exact decide_eq_true (scopeKey_ne_nil made)
  · unfold itemFile
    rw [named, Option.map_some, made]

end Required

/-! Verdicts. -/

section Returned
variable {py : Python} {settings : Settings} {record : CiRecord} {task : RepairTask}
  {rows : List ClassRow}

/-- What the code has checked where it returns a verdict. -/
structure Checked (py : Python) (settings : Settings) (record : CiRecord) (task : RepairTask)
    (rows : List ClassRow) (report : Option Json) (coverageGate mutationGate : PyFloat) : Prop where
  passed : AllPass py rows
  targets : ∃ targets, repairTargets py [] record.enforcement = .ok targets ∧
    repairScopeKeys targets ⊆ completedSources rows
  coverageGated : gateOf py task.coverageGate (asDict (get record.evidence "coverage"))
    settings.coverageGate = .ok coverageGate
  mutationGated : gateOf py task.mutationGate (asDict (get record.evidence "mutation"))
    settings.mutationGate = .ok mutationGate
  coverage : ∀ row ∈ rows, ∃ coverage, rowCoverage py row coverageGate
    (row.coverageSummary (coverageSummariesFromLatestReport py report)) = .ok coverage ∧
      coverage.passed = true
  mutation : ∀ row ∈ rows, floatGe row.mutationRate mutationGate = true

theorem evidence_of_row {coverageGate mutationGate : PyFloat} {summaries : List (String × Fields)}
    {row : ClassRow} {result : TargetEvidence}
    (made : targetEvidenceFromTaskRow py coverageGate mutationGate summaries row = .ok result) :
    rowCoverage py row coverageGate (row.coverageSummary summaries) = .ok result.coverage ∧
      result.mutation.passed = floatGe row.mutationRate mutationGate := by
  unfold targetEvidenceFromTaskRow at made
  obtain ⟨coverage, read, made⟩ := bind_ok made
  rw [← Except.ok.inj made]
  exact ⟨read, rfl⟩

theorem checked_of_returned {read : Except Raised (Option Json)} {r : QualityGateResult}
    (returned : completedTaskEnforcementResult py settings record task rows read = .ok (some r)) :
    ∃ report, read = .ok report ∧ ∃ coverageGate mutationGate,
      Checked py settings record task rows report coverageGate mutationGate := by
  unfold completedTaskEnforcementResult at returned
  split at returned
  · exact nomatch returned
  · split at returned
    · exact nomatch returned
    · split at returned
      · exact nomatch returned
      next complete =>
        obtain ⟨targets, selected, returned⟩ := bind_ok returned
        split at returned
        · exact nomatch returned
        next verified =>
          obtain ⟨coverageGate, first, returned⟩ := bind_ok returned
          obtain ⟨mutationGate, second, returned⟩ := bind_ok returned
          obtain ⟨report, there, returned⟩ := bind_ok returned
          obtain ⟨results, made, returned⟩ := bind_ok returned
          have related := mapM_ok made
          dsimp only at returned
          split at returned
          · exact nomatch returned
          next cleared =>
            rw [not_or, not_not, not_not] at cleared
            unfold aggregateTaskCoverage aggregateTaskMutation at cleared
            simp only [Bool.and_eq_true, List.all_eq_true] at cleared
            obtain ⟨⟨_, covered⟩, _, scored⟩ := cleared
            refine ⟨report, there, coverageGate, mutationGate,
              ⟨not_not.mp (not_or.mp complete).2, ⟨targets, selected, not_not.mp verified⟩, first,
                second, ?_, ?_⟩⟩
            · intro row inside
              obtain ⟨result, among, own⟩ := forall₂_left related inside
              exact ⟨result.coverage, (evidence_of_row own).1, covered result among⟩
            · intro row inside
              obtain ⟨result, among, own⟩ := forall₂_left related inside
              rw [← (evidence_of_row own).2]
              exact scored result among

variable {report : Option Json} {coverageGate mutationGate : PyFloat}

theorem exists_row_of_source {key : String} (inside : key ∈ completedSources rows) :
    ∃ row ∈ rows, row.scopeKey = key := by
  obtain ⟨row, among, same⟩ := List.mem_map.mp (List.mem_filter.mp inside).1
  exact ⟨row, among, same⟩

theorem name_of_file {item : Fields} {file : String} (known : itemFile py item = some file) :
    (targetName py (get item "target")).isSome = true := by
  unfold itemFile at known
  cases named : targetName py (get item "target") with
  | none =>
      rw [named] at known
      exact nomatch known
  | some name => rfl

theorem genuine_of_founded
    (checked : Checked py settings record task rows report coverageGate mutationGate)
    (founded : Founded py settings record task rows report) :
    Genuine py settings record task rows report where
  targets := by
    intro results read item inside failing
    obtain ⟨named, skipped⟩ := founded.named results read item inside failing
    by_cases verified : Skipped py item
    · exact skipped verified
    · obtain ⟨targets, selected, within⟩ := checked.targets
      obtain ⟨key, required, own⟩ := required_of_failing read selected inside failing verified named
      obtain ⟨row, among, same⟩ := exists_row_of_source (within required)
      exact ⟨row, among, same ▸ own⟩
  passed := checked.passed
  covered := by
    refine ⟨coverageGate, checked.coverageGated, fun row inside => ?_⟩
    obtain ⟨coverage, read, passed⟩ := checked.coverage row inside
    have rated := founded.rated coverageGate checked.coverageGated row inside
    refine ⟨coverage, read, ?_⟩
    rcases given : row.coverageSummary (coverageSummariesFromLatestReport py report) with
      _ | _ | ⟨field, summary⟩
    · rw [given] at read
      rw [← Except.ok.inj read] at passed ⊢
      exact passed
    · rw [given] at read
      rw [← Except.ok.inj read] at passed ⊢
      exact passed
    · obtain ⟨same, again, met⟩ := rated _ given (List.cons_ne_nil _ _)
      obtain rfl : coverage = same := Except.ok.inj (read.symm.trans again)
      exact met
  measured := by
    refine ⟨mutationGate, checked.mutationGated, fun results read row inside => ?_⟩
    have met := checked.mutation row inside
    have generated := founded.generated results read row inside
    unfold ClassRow.mutationRate at met
    by_cases empty : row.generated = 0 ∧ row.survived = 0
    · exact .inr ⟨fun required => absurd empty.1 (Int.ne_of_gt (generated required)), .inl empty⟩
    · rw [if_neg empty] at met
      by_cases some_ : 0 < row.generated
      · exact .inl ⟨some_, met⟩
      · exact .inr ⟨fun required => some_ (generated required), .inr met⟩
  summaries := by
    intro row inside
    exact (head_iff_preceded _ fun entry => resultFile py entry = row.scopeKey).mpr
      (founded.distinguished row inside)

theorem founded_of_genuine (genuine : Genuine py settings record task rows report) :
    Founded py settings record task rows report where
  named := by
    intro results read item inside failing
    obtain ⟨row, among, own⟩ := genuine.targets results read item inside failing
    exact ⟨name_of_file own, fun _ => ⟨row, among, own⟩⟩
  rated := by
    intro gate gated row inside summary _ _
    obtain ⟨own, same, covered⟩ := genuine.covered
    obtain rfl : gate = own := Except.ok.inj (gated.symm.trans same)
    exact covered row inside
  generated := by
    intro results read row inside required
    obtain ⟨gate, _, measured⟩ := genuine.measured
    rcases measured results read row inside with ⟨some_, _⟩ | ⟨none_, _⟩
    · exact some_
    · exact absurd required none_
  distinguished := by
    intro row inside
    exact (head_iff_preceded _ fun entry => resultFile py entry = row.scopeKey).mp
      (genuine.summaries row inside)

end Returned

/-! A verdict on a target that was not measured. -/

/-- The conversions of integers and of ASCII text. -/
def asciiPython : Python where
  str _ := ""
  int _ := .error .type
  float
    | .int n => .ok (.finite n)
    | _ => .error .type
  lower text := String.ofList (text.toList.map Char.toLower)
  upper text := String.ofList (text.toList.map Char.toUpper)

/-- A target that has mutants to run, of which none were generated. -/
def unmutatedItem : Fields :=
  [("target", .obj [("target_id", .str "pyfile:src/a.py"), ("source_path", .str "src/a.py")]),
    ("coverage", .obj [("passed", .bool true)]),
    ("mutation", .obj
      [("passed", .bool false), ("generated", .int 0),
        ("candidatePlan", .obj [("activeSelected", .arr [.str "m1"])])])]

/-- The failed enforcement of the one target. -/
def unmutatedRecord : CiRecord where
  language := "python"
  enforcementResult := some [("evidence", .obj [("targetResults", .arr [.obj unmutatedItem])])]

def repairTask : RepairTask where
  language := some "python"
  status := .completed
  coverageGate := some (.finite 95)
  mutationGate := some (.finite 95)

def defaultSettings : Settings := ⟨.finite 80, .finite 70⟩

/-- The row of the file, with so many mutants. -/
def passedRow (mutants : Option ℤ) (score : Option PyFloat) : ClassRow where
  status := "PASS"
  classFqn := "pyfile:src/a.py"
  targetId := some "pyfile:src/a.py"
  sourcePath := some "src/a.py"
  coverageLine := some (.finite 100)
  totalMutants := mutants
  mutationScore := score

def verdict (rows : List ClassRow) : Except Raised (Option QualityGateResult) :=
  completedTaskEnforcementResult asciiPython defaultSettings unmutatedRecord repairTask rows (.ok none)

def passes : Except Raised (Option QualityGateResult) → Bool
  | .ok (some _) => true
  | _ => false

theorem returned_of_passes {x : Except Raised (Option QualityGateResult)} (passed : passes x = true) :
    ∃ r, x = .ok (some r) := by
  rcases x with e | _ | r
  · exact nomatch passed
  · exact nomatch passed
  · exact ⟨r, rfl⟩

end Uta.PythonCi
