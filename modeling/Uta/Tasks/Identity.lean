/- The identity of a target: its columns, and the migration that fills them in the rows of earlier
versions. -/
import Uta.Lib.Sql
import Uta.Lib.Table
import Uta.Enforce.Saving

namespace Uta.Tasks.Identity
open Uta.Lib Uta.Lib.Sql
open Uta.Enforce (jsonLoads jsonDumps jsonLoads_jsonDumps get?_reread)

/-! Rows. -/

/-- What a row of `repo_tasks` says of its language. -/
structure TaskRow where
  id : ℕ
  selectionJson : String
  language : Option String
  /-- A selection names its language by a text. -/
  named : ∀ v, Dict.get? (jsonLoads selectionJson.toList) "language" = some v →
    v.truthy = true → ∃ s, v = .str s

/-- What a row of `class_tasks` says of its target. -/
structure ClassRow where
  id : ℕ
  classFqn : String
  language : Option String
  targetId : Option String
  symbol : Option String
  targetGranularity : Option String
  displayName : Option String
  deriving DecidableEq, Repr

@[ext] structure Database where
  repoTasks : Table TaskRow.id
  classTasks : Table ClassRow.id

/-- `ALTER TABLE repo_tasks ADD COLUMN language TEXT NOT NULL DEFAULT 'java'`. -/
def TaskRow.ofVersionOne (id : ℕ) (selectionJson : String)
    (named : ∀ v, Dict.get? (jsonLoads selectionJson.toList) "language" = some v →
      v.truthy = true → ∃ s, v = .str s) : TaskRow :=
  ⟨id, selectionJson, some "java", named⟩

/-! The conditions of the statements. -/

/-- `COALESCE(NULLIF(value, ''), default)`. -/
def filled (value default : Option String) : Option String := (nullif value (some "")).or default

namespace ClassRow

def isMissing (value : Option String) : List (Option Bool) :=
  [isNull value, eq value (some "")]

/-- Where an identity is incomplete: a column is empty, or a symbol that the target has to have. -/
def gaps (r : ClassRow) : List (Option Bool) :=
  isMissing r.targetId ++ isMissing r.language ++ isMissing r.targetGranularity ++
    isMissing r.displayName ++
    [allOf [eq (filled r.language (some "java")) (some "java"),
        eq (filled r.targetGranularity (some "class")) (some "class"), anyOf (isMissing r.symbol)],
      allOf [ne (filled r.language (some "java")) (some "java"),
        notIn (filled r.targetGranularity (some "class")) ["file", "module"],
        anyOf (isMissing r.symbol)]]

/-- A file or a module whose symbol is its own id. -/
def stale (r : ClassRow) : Option Bool :=
  allOf [ne r.language (some "java"), inList r.targetGranularity ["file", "module"],
    eq r.symbol r.targetId]

/-- The `CASE` of the symbol. -/
def ownSymbol (r : ClassRow) : Option String :=
  if Holds (anyOf [eq (filled r.language (some "java")) (some "java"),
    notIn (filled r.targetGranularity (some "class")) ["file", "module"]]) then some r.classFqn
  else none

/-- The first `UPDATE class_tasks`. -/
def fill (r : ClassRow) : ClassRow :=
  { r with
    language := filled r.language (some "java")
    targetId := filled r.targetId (some r.classFqn)
    targetGranularity := filled r.targetGranularity (some "class")
    displayName := filled r.displayName (some r.classFqn)
    symbol := filled r.symbol r.ownSymbol }

/-- The second `UPDATE class_tasks`. -/
def clearSymbol (r : ClassRow) : ClassRow := { r with symbol := none }

theorem fill_id (r : ClassRow) : r.fill.id = r.id := rfl

theorem clearSymbol_id (r : ClassRow) : r.clearSymbol.id = r.id := rfl

end ClassRow

namespace TaskRow

/-- `selection.get("language")`, where it is true. -/
def selectedLanguage (row : TaskRow) : Option String :=
  match Dict.get? (jsonLoads row.selectionJson.toList) "language" with
  | some (.str s) => if s = "" then none else some s
  | _ => none

/-- `selected_language or row["language"] or "java"`. -/
def chosenLanguage (row : TaskRow) : String :=
  (row.selectedLanguage.or (row.language.filter fun s => decide (s ≠ ""))).getD "java"

def setLanguage (language : String) (row : TaskRow) : TaskRow :=
  { row with language := some language }

theorem setLanguage_id (language : String) (row : TaskRow) :
    (row.setLanguage language).id = row.id := rfl

end TaskRow

/-- One row of the loop over `repo_tasks`. -/
def migrateTask (tasks : Table TaskRow.id) (row : TaskRow) : Table TaskRow.id :=
  if some row.chosenLanguage ≠ row.language then
    tasks.modify row.id (TaskRow.setLanguage row.chosenLanguage)
      (TaskRow.setLanguage_id row.chosenLanguage)
  else tasks

/-- `_migrate_target_identity`. -/
def migrateTargetIdentity (db : Database) : Database where
  repoTasks := db.repoTasks.rows.foldl migrateTask db.repoTasks
  classTasks := updateWhere
    (updateWhere db.classTasks (fun r => anyOf r.gaps) ClassRow.fill ClassRow.fill_id)
    ClassRow.stale ClassRow.clearSymbol ClassRow.clearSymbol_id

/-- A task has no language. -/
def TaskRow.Incomplete (row : TaskRow) : Prop :=
  Holds (anyOf (ClassRow.isMissing row.language))

instance (row : TaskRow) : Decidable row.Incomplete := inferInstanceAs (Decidable (Holds _))

def ClassRow.Incomplete (r : ClassRow) : Prop := Holds (anyOf (r.gaps ++ [r.stale]))

instance (r : ClassRow) : Decidable r.Incomplete := inferInstanceAs (Decidable (Holds _))

/-- `_has_incomplete_target_identity`. -/
def hasIncompleteTargetIdentity (db : Database) : Bool :=
  db.repoTasks.rows.any (fun row => decide row.Incomplete) ||
    db.classTasks.rows.any fun r => decide r.Incomplete

/-! Columns. -/

/-- Neither NULL nor empty. -/
def Given (value : Option String) : Prop := value ≠ none ∧ value ≠ some ""

instance (value : Option String) : Decidable (Given value) := inferInstanceAs (Decidable (_ ∧ _))

theorem isMissing_iff (value : Option String) :
    Holds (anyOf (ClassRow.isMissing value)) ↔ ¬ Given value := by
  rw [holds_anyOf, Given, not_and_or, not_ne_iff, not_ne_iff]
  simp [ClassRow.isMissing, eq_comm]

theorem filled_given {value : Option String} (given : Given value) (default : Option String) :
    filled value default = value := by
  rcases value with _ | s
  · exact absurd rfl given.1
  · rw [filled, (nullif_eq_some _ _ s).mpr ⟨rfl, fun empty => given.2 (empty ▸ rfl)⟩,
      Option.some_or]

theorem filled_missing {value : Option String} (missing : ¬ Given value)
    (default : Option String) : filled value default = default := by
  rw [Given, not_and_or, not_ne_iff, not_ne_iff] at missing
  rw [filled, (nullif_eq_none value "").mpr missing, Option.none_or]

theorem filled_idem (value default : Option String) :
    filled (filled value default) default = filled value default :=
  filled_filled value "" default

theorem given_filled (value : Option String) (default : String) :
    Given (filled value (some default)) ↔ Given value ∨ default ≠ "" := by
  by_cases given : Given value
  · rw [filled_given given]
    exact ⟨.inl, fun _ => given⟩
  · rw [filled_missing given]
    simp [Given]
    exact fun none_ empty => absurd ⟨none_, empty⟩ given

theorem filled_some (value : Option String) (default : String) :
    ∃ s, filled value (some default) = some s := by
  rcases given : nullif value (some "") with _ | s
  · exact ⟨default, by rw [filled, given, Option.none_or]⟩
  · exact ⟨s, by rw [filled, given, Option.some_or]⟩

namespace ClassRow

/-! One row. -/

/-- The kind of target that has a symbol. -/
def NeedsSymbol (r : ClassRow) : Prop :=
  filled r.language (some "java") = some "java" ∧
      filled r.targetGranularity (some "class") = some "class" ∨
    filled r.language (some "java") ≠ some "java" ∧
      filled r.targetGranularity (some "class") ∉ [some "file", some "module"]

/-- A row that can be completed: it has a class name, or what would be made of one. -/
def Named (r : ClassRow) : Prop :=
  r.classFqn ≠ "" ∨
    Given r.targetId ∧ Given r.displayName ∧ (r.NeedsSymbol → Given r.symbol)

theorem gaps_iff (r : ClassRow) : Holds (anyOf r.gaps) ↔
    ¬ (Given r.targetId ∧ Given r.language ∧ Given r.targetGranularity ∧ Given r.displayName ∧
      (r.NeedsSymbol → Given r.symbol)) := by
  have symbol : Holds (anyOf [allOf [eq (filled r.language (some "java")) (some "java"),
        eq (filled r.targetGranularity (some "class")) (some "class"), anyOf (isMissing r.symbol)],
      allOf [ne (filled r.language (some "java")) (some "java"),
        notIn (filled r.targetGranularity (some "class")) ["file", "module"],
        anyOf (isMissing r.symbol)]]) ↔ ¬ (r.NeedsSymbol → Given r.symbol) := by
    rw [Classical.not_imp, ← isMissing_iff, NeedsSymbol, or_and_right]
    obtain ⟨l, language⟩ := filled_some r.language "java"
    obtain ⟨g, granularity⟩ := filled_some r.targetGranularity "class"
    rw [language, granularity, holds_anyOf]
    simp only [List.mem_cons, List.not_mem_nil, or_false, exists_eq_or_imp, exists_eq_left,
      holds_allOf, forall_eq_or_imp, forall_eq, holds_eq, holds_ne, holds_notIn, Option.some.injEq]
    simp [eq_comm (a := "java"), eq_comm (a := "class"), and_assoc, -holds_anyOf]
  rw [gaps, holds_anyOf_append, holds_anyOf_append, holds_anyOf_append, holds_anyOf_append,
    isMissing_iff, isMissing_iff, isMissing_iff, isMissing_iff, symbol]
  tauto

theorem stale_iff (r : ClassRow) : Holds r.stale ↔
    (r.language ≠ none ∧ r.language ≠ some "java") ∧
      r.targetGranularity ∈ [some "file", some "module"] ∧
      r.symbol ≠ none ∧ r.symbol = r.targetId := by
  rw [stale, holds_allOf]
  rcases r.language with _ | l <;> rcases r.symbol with _ | s <;>
    rcases r.targetGranularity with _ | g <;> simp [eq_comm]

theorem incomplete_iff (r : ClassRow) :
    r.Incomplete ↔ Holds (anyOf r.gaps) ∨ Holds r.stale := by
  rw [Incomplete, holds_anyOf_append, holds_anyOf [r.stale]]
  simp [-holds_anyOf]

/-! Filling a row. -/

theorem fill_ownSymbol (r : ClassRow) : r.fill.ownSymbol = r.ownSymbol := by
  simp only [ownSymbol, fill, filled_idem]

theorem fill_needsSymbol (r : ClassRow) : r.fill.NeedsSymbol ↔ r.NeedsSymbol := by
  simp only [NeedsSymbol, fill, filled_idem]

theorem fill_fill (r : ClassRow) : r.fill.fill = r.fill := by
  have symbol := r.fill_ownSymbol
  unfold fill at symbol ⊢
  simp only [symbol, filled_idem]

theorem ownSymbol_needed {r : ClassRow} (needs : r.NeedsSymbol) :
    r.ownSymbol = some r.classFqn := by
  apply if_pos
  rw [holds_anyOf]
  obtain ⟨g, granularity⟩ := filled_some r.targetGranularity "class"
  rcases needs with ⟨java, -⟩ | ⟨-, other⟩
  · exact ⟨_, List.mem_cons_self, (holds_eq _ _).mpr ⟨"java", java, rfl⟩⟩
  · refine ⟨_, List.mem_cons_of_mem _ List.mem_cons_self,
      (holds_notIn _ _).mpr ⟨g, granularity, ?_⟩⟩
    rw [granularity] at other
    simpa using other

/-- Both updates leave gaps where there is no name to fill them with. -/
theorem fill_gaps (r : ClassRow) : Holds (anyOf r.fill.gaps) ↔ ¬ r.Named := by
  rw [gaps_iff, not_iff_not, fill_needsSymbol]
  have language : Given r.fill.language := (given_filled _ "java").mpr (.inr (by decide))
  have granularity : Given r.fill.targetGranularity :=
    (given_filled _ "class").mpr (.inr (by decide))
  have symbol : (r.NeedsSymbol → Given r.fill.symbol) ↔
      r.classFqn ≠ "" ∨ (r.NeedsSymbol → Given r.symbol) := by
    by_cases needs : r.NeedsSymbol
    · have filled_ : r.fill.symbol = filled r.symbol (some r.classFqn) := by
        rw [← ownSymbol_needed needs]; rfl
      rw [filled_, given_filled]
      tauto
    · simp [needs]
  rw [show Given r.fill.targetId ↔ _ from given_filled r.targetId r.classFqn,
    show Given r.fill.displayName ↔ _ from given_filled r.displayName r.classFqn, symbol, Named]
  tauto

/-- A file's symbol is not among the gaps. -/
theorem clearSymbol_gaps {r : ClassRow} (stale : Holds r.stale) :
    Holds (anyOf r.clearSymbol.gaps) ↔ Holds (anyOf r.gaps) := by
  rw [gaps_iff, gaps_iff, not_iff_not]
  obtain ⟨⟨-, notJava⟩, files, -⟩ := r.stale_iff.mp stale
  have unneeded : Given r.language → Given r.targetGranularity → ¬ r.NeedsSymbol := by
    intro language granularity
    rw [NeedsSymbol, filled_given language, filled_given granularity]
    rintro (⟨java, -⟩ | ⟨-, other⟩)
    · exact notJava java
    · exact other files
  have cleared : r.clearSymbol.NeedsSymbol ↔ r.NeedsSymbol := Iff.rfl
  rw [cleared]
  show (Given r.targetId ∧ Given r.language ∧ Given r.targetGranularity ∧
    Given r.displayName ∧ _) ↔ _
  tauto

theorem clearSymbol_stale (r : ClassRow) : ¬ Holds r.clearSymbol.stale := fun stale =>
  (r.clearSymbol.stale_iff.mp stale).2.2.1 rfl

/-- A filled file whose symbol is cleared is filled as it is. -/
theorem fill_clearSymbol {r : ClassRow} (stale : Holds r.fill.stale) :
    r.fill.clearSymbol.fill = r.fill.clearSymbol := by
  obtain ⟨⟨-, notJava⟩, files, -⟩ := r.fill.stale_iff.mp stale
  have none_ : r.fill.clearSymbol.ownSymbol = none := by
    apply if_neg
    rw [holds_anyOf]
    rintro ⟨c, member, held⟩
    have language : filled r.fill.clearSymbol.language (some "java") = r.fill.language :=
      filled_idem _ _
    have granularity : filled r.fill.clearSymbol.targetGranularity (some "class") =
        r.fill.targetGranularity := filled_idem _ _
    rw [language, granularity] at member
    rcases List.mem_cons.mp member with rfl | member
    · obtain ⟨x, own, same⟩ := (holds_eq _ _).mp held
      exact notJava (own.trans same.symm)
    · rw [List.mem_singleton.mp member, holds_notIn] at held
      obtain ⟨x, own, other⟩ := held
      rw [own] at files
      exact other (by simpa using files)
  have again : r.fill.clearSymbol.fill =
      { r.fill.fill with symbol := filled none r.fill.clearSymbol.ownSymbol } := rfl
  rw [again, fill_fill, none_]
  rfl

/-! Both updates. -/

def completed (r : ClassRow) : ClassRow := if Holds (anyOf r.gaps) then r.fill else r

def withoutStaleSymbol (r : ClassRow) : ClassRow := if Holds r.stale then r.clearSymbol else r

/-- What the two updates make of a row. -/
def migrate (r : ClassRow) : ClassRow := r.completed.withoutStaleSymbol

theorem migrate_complete {r : ClassRow} (complete : ¬ r.Incomplete) : r.migrate = r := by
  rw [incomplete_iff, not_or] at complete
  rw [migrate, completed, if_neg complete.1, withoutStaleSymbol, if_neg complete.2]

theorem migrate_stale (r : ClassRow) : ¬ Holds r.migrate.stale := by
  by_cases stale : Holds r.completed.stale
  · rw [migrate, withoutStaleSymbol, if_pos stale]
    exact clearSymbol_stale _
  · rwa [migrate, withoutStaleSymbol, if_neg stale]

theorem migrate_gaps (r : ClassRow) : Holds (anyOf r.migrate.gaps) ↔
    Holds (anyOf r.gaps) ∧ ¬ r.Named := by
  have first : Holds (anyOf r.migrate.gaps) ↔ Holds (anyOf r.completed.gaps) := by
    by_cases stale : Holds r.completed.stale
    · rw [migrate, withoutStaleSymbol, if_pos stale, clearSymbol_gaps stale]
    · rw [migrate, withoutStaleSymbol, if_neg stale]
  by_cases open_ : Holds (anyOf r.gaps)
  · rw [first, completed, if_pos open_, fill_gaps]
    exact (and_iff_right open_).symm
  · rw [first, completed, if_neg open_]
    exact ⟨fun held => absurd held open_, fun held => held.1⟩

theorem migrate_incomplete (r : ClassRow) : r.migrate.Incomplete ↔ ¬ r.Named := by
  rw [incomplete_iff, migrate_gaps, or_iff_left r.migrate_stale]
  constructor
  · exact And.right
  · intro unnamed
    refine ⟨?_, unnamed⟩
    rw [gaps_iff]
    rintro ⟨target, -, -, display, symbol⟩
    exact unnamed (.inr ⟨target, display, symbol⟩)

theorem migrate_migrate (r : ClassRow) : r.migrate.migrate = r.migrate := by
  by_cases open_ : Holds (anyOf r.migrate.gaps)
  · have first : r.completed = r.fill := if_pos ((migrate_gaps r).mp open_).1
    have again : r.migrate.fill = r.migrate := by
      by_cases stale : Holds r.fill.stale
      · rw [migrate, first, withoutStaleSymbol, if_pos stale, fill_clearSymbol stale]
      · rw [migrate, first, withoutStaleSymbol, if_neg stale, fill_fill]
    have filled_ : r.migrate.completed = r.migrate := by rw [completed, if_pos open_, again]
    conv_lhs => rw [migrate, filled_, withoutStaleSymbol, if_neg r.migrate_stale]
  · apply migrate_complete
    rw [incomplete_iff, not_or]
    exact ⟨open_, r.migrate_stale⟩

end ClassRow

theorem migrate_classTasks (db : Database) :
    (migrateTargetIdentity db).classTasks.rows = db.classTasks.rows.map ClassRow.migrate := by
  rw [migrateTargetIdentity, updateWhere_rows, updateWhere_rows, List.map_map]
  rfl

/-! Tasks. -/

namespace TaskRow

/-- What the loop makes of a row. -/
def migrate (row : TaskRow) : TaskRow := row.setLanguage row.chosenLanguage

theorem chosenLanguage_ne (row : TaskRow) : row.chosenLanguage ≠ "" := by
  rw [chosenLanguage]
  rcases selected : row.selectedLanguage with _ | s
  · rw [Option.none_or]
    rcases own : row.language.filter fun s => decide (s ≠ "") with _ | s
    · decide
    · simpa using (Option.filter_eq_some_iff.mp own).2
  · rw [Option.some_or, Option.getD_some]
    rintro rfl
    unfold selectedLanguage at selected
    split at selected
    · split at selected
      · cases selected
      · injection selected with same
        exact absurd same ‹_›
    · cases selected

theorem incomplete_iff (row : TaskRow) : row.Incomplete ↔ ¬ Given row.language := isMissing_iff _

theorem migrate_complete (row : TaskRow) : ¬ row.migrate.Incomplete := by
  rw [incomplete_iff, not_not]
  refine ⟨Option.some_ne_none _, ?_⟩
  intro empty
  exact row.chosenLanguage_ne (Option.some.inj empty)

/-- The choice is made once. -/
theorem migrate_migrate (row : TaskRow) : row.migrate.migrate = row.migrate := by
  have chosen : row.migrate.chosenLanguage = row.chosenLanguage := by
    have kept : row.migrate.language.filter (fun s => decide (s ≠ "")) =
        some row.chosenLanguage := by
      apply Option.filter_eq_some_iff.mpr
      exact ⟨rfl, decide_eq_true row.chosenLanguage_ne⟩
    rw [chosenLanguage, kept]
    show (row.selectedLanguage.or (some row.chosenLanguage)).getD "java" = _
    rcases selected : row.selectedLanguage with _ | s
    · rfl
    · rw [chosenLanguage, selected]; rfl
  rw [migrate, chosen]
  rfl

/-- A language that the selection does not overrule. -/
theorem migrate_given {row : TaskRow} (given : Given row.language) :
    row.migrate = { row with language := row.selectedLanguage.or row.language } := by
  have kept : row.language.filter (fun s => decide (s ≠ "")) = row.language := by
    rcases own : row.language with _ | s
    · rfl
    · rw [Option.filter_some, if_pos]
      exact decide_eq_true fun empty => given.2 (by rw [own, empty])
  rw [migrate, setLanguage, chosenLanguage, kept]
  rcases row.selectedLanguage with _ | s
  · rcases own : row.language with _ | l
    · exact absurd own given.1
    · rfl
  · rfl

end TaskRow

theorem migrate_repoTasks (db : Database) :
    (migrateTargetIdentity db).repoTasks.rows = db.repoTasks.rows.map TaskRow.migrate := by
  apply foldl_modify
  · intro s row member
    have only : ∀ q ∈ s.rows, q.id = row.id → q = row := fun q other same =>
      s.eq_of_key other member same
    by_cases changed : some row.chosenLanguage ≠ row.language
    · rw [migrateTask, if_pos changed, Table.modify_rows]
      apply List.map_congr_left
      intro q other
      by_cases same : q.id = row.id
      · rw [if_pos same, if_pos same, only q other same]; rfl
      · rw [if_neg same, if_neg same]
    · rw [migrateTask, if_neg changed]
      conv_lhs => rw [← List.map_id s.rows]
      apply List.map_congr_left
      intro q other
      by_cases same : q.id = row.id
      · rw [if_pos same, only q other same, id, TaskRow.migrate, TaskRow.setLanguage,
          not_ne_iff.mp changed]
      · rw [if_neg same]; rfl
  · intro row
    rfl

/-! The whole migration. -/

theorem hasIncomplete_iff (db : Database) : hasIncompleteTargetIdentity db = false ↔
    (∀ row ∈ db.repoTasks.rows, ¬ row.Incomplete) ∧ ∀ r ∈ db.classTasks.rows, ¬ r.Incomplete := by
  simp only [hasIncompleteTargetIdentity, Bool.or_eq_false_iff, List.any_eq_false,
    decide_eq_true_eq]

theorem find?_map {α : Type} {key : α → ℕ} {s t : Table key} {f : α → α}
    (rows : t.rows = s.rows.map f) (same : ∀ r, key (f r) = key r) {r : α} (member : r ∈ s.rows) :
    t.find? (key r) = some (f r) :=
  Table.find?_some.mpr ⟨rows ▸ List.mem_map_of_mem member, same r⟩

theorem ClassRow.migrate_id (r : ClassRow) : r.migrate.id = r.id := by
  unfold ClassRow.migrate ClassRow.withoutStaleSymbol ClassRow.completed
  split <;> split <;> rfl

/-- Every row that has a name for its target is completed, and once; a target's identity that was
complete stays, and so does a task's language, where its selection names no other. -/
theorem migrateTargetIdentity_completes (db : Database) :
    (hasIncompleteTargetIdentity (migrateTargetIdentity db) = false ↔
      ∀ r ∈ db.classTasks.rows, r.Named) ∧
    (∀ r ∈ db.classTasks.rows, ¬ r.Incomplete →
      (migrateTargetIdentity db).classTasks.find? r.id = some r) ∧
    (∀ row ∈ db.repoTasks.rows, ¬ row.Incomplete →
      (migrateTargetIdentity db).repoTasks.find? row.id =
        some { row with language := row.selectedLanguage.or row.language }) ∧
    migrateTargetIdentity (migrateTargetIdentity db) = migrateTargetIdentity db := by
  refine ⟨?_, ?_, ?_, ?_⟩
  · rw [hasIncomplete_iff, migrate_repoTasks, migrate_classTasks]
    simp only [List.forall_mem_map, ClassRow.migrate_incomplete, not_not]
    exact and_iff_right fun row _ => row.migrate_complete
  · intro r member complete
    rw [find?_map (migrate_classTasks db) ClassRow.migrate_id member,
      ClassRow.migrate_complete complete]
  · intro row member complete
    rw [TaskRow.incomplete_iff, not_not] at complete
    rw [find?_map (migrate_repoTasks db) (fun _ => rfl) member, TaskRow.migrate_given complete]
  · apply Database.ext
    · apply Table.ext_rows
      rw [migrate_repoTasks, migrate_repoTasks, List.map_map]
      exact List.map_congr_left fun row _ => row.migrate_migrate
    · apply Table.ext_rows
      rw [migrate_classTasks, migrate_classTasks, List.map_map]
      exact List.map_congr_left fun r _ => r.migrate_migrate

/-- The selection of a Python task. -/
def pythonSelection : List (String × Json) := [("language", .str "python"), ("targets", .arr [])]

theorem pythonSelection_language : Dict.get?
    (jsonLoads (String.ofList (jsonDumps (.obj pythonSelection))).toList) "language" =
      some (.str "python") := by
  rw [String.toList_ofList, jsonLoads_jsonDumps, get?_reread]
  rfl

/-- A Python task of the first version. -/
def pythonTask : TaskRow :=
  .ofVersionOne 2 (String.ofList (jsonDumps (.obj pythonSelection))) (by
    rintro v read -
    rw [pythonSelection_language] at read
    exact ⟨"python", (Option.some.inj read).symm⟩)

theorem pythonTask_given : ¬ pythonTask.Incomplete := by
  rw [TaskRow.incomplete_iff, not_not]
  exact ⟨Option.some_ne_none "java", by decide⟩

theorem pythonTask_chosenLanguage : pythonTask.chosenLanguage = "python" := by
  have selected : pythonTask.selectedLanguage = some "python" := by
    have read : Dict.get? (jsonLoads pythonTask.selectionJson.toList) "language" =
      some (.str "python") := pythonSelection_language
    rw [TaskRow.selectedLanguage, read]
    decide
  rw [TaskRow.chosenLanguage, selected]
  rfl

/-- What `create_class_task` writes for an empty class name. -/
def unnamedRow : ClassRow := ⟨1, "", some "java", some "", some "", some "class", some ""⟩

theorem unnamedRow_unnamed : ¬ unnamedRow.Named := by
  rintro (name | ⟨target, -⟩)
  · exact name rfl
  · exact target.2 rfl

/-- The new column of a Python task says Java, and the migration writes Python over it; a row
without a name stays as incomplete as it was. -/
theorem pythonTask_overruled : (¬ ∀ db : Database,
    hasIncompleteTargetIdentity (migrateTargetIdentity db) = false ∧
    (∀ r ∈ db.classTasks.rows, ¬ r.Incomplete →
      (migrateTargetIdentity db).classTasks.find? r.id = some r) ∧
    (∀ row ∈ db.repoTasks.rows, ¬ row.Incomplete →
      (migrateTargetIdentity db).repoTasks.find? row.id = some row) ∧
    migrateTargetIdentity (migrateTargetIdentity db) = migrateTargetIdentity db) ∧
    hasIncompleteTargetIdentity (migrateTargetIdentity
      ⟨.empty, ⟨[unnamedRow], List.nodup_singleton _⟩⟩) = true := by
  refine ⟨fun claimed => ?_, ?_⟩
  · have kept := (claimed ⟨⟨[pythonTask], List.nodup_singleton _⟩, .empty⟩).2.2.1 pythonTask
      List.mem_cons_self pythonTask_given
    have member : pythonTask ∈ (migrateTargetIdentity
        ⟨⟨[pythonTask], List.nodup_singleton _⟩, .empty⟩).repoTasks.rows :=
      (Table.find?_some.mp kept).1
    rw [migrate_repoTasks] at member
    have same : some "java" = some pythonTask.chosenLanguage :=
      congrArg TaskRow.language (List.mem_singleton.mp member)
    rw [pythonTask_chosenLanguage] at same
    exact absurd same (by decide)
  · rw [← Bool.not_eq_false, hasIncomplete_iff, migrate_classTasks]
    rintro ⟨-, complete⟩
    exact complete unnamedRow.migrate (List.mem_singleton_self _)
      (unnamedRow.migrate_incomplete.mpr unnamedRow_unnamed)

end Uta.Tasks.Identity
