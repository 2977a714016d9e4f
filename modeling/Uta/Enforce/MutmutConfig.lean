/- The mutmut configuration of a run: the section that is written into pyproject.toml, and the user's
files after the run. -/
import Uta.Lib.Toml
import Uta.Lib.Lines
import Uta.Lib.JsonLaws
import Uta.Lib.Transaction

namespace Uta.Enforce
open Uta.Lib

/-! The section. -/

def mutmutHeader : List Char := "[tool.mutmut]".toList

/-- `json.dumps(items)`. -/
def dumpsStrings (items : List String) : List Char :=
  '[' :: (", ".toList.intercalate (items.map (Json.quote true)) ++ [']'])

/-- What a run tells mutmut. `testsDir` is the test path, or its directory for Python 2; `runner` is
for setup.cfg alone. -/
structure MutmutSettings where
  sourcePath : String
  testsDir : String
  pytestArgs : List String
  supportPaths : List String
  runner : String := ""

namespace MutmutSettings
variable (s : MutmutSettings)

/-- A key and the items of its array. -/
def keyLine (key : String) (items : List String) : List Char :=
  key.toList ++ " = ".toList ++ dumpsStrings items

/-- The keys of the section. -/
def keyLines : List (List Char) :=
  [keyLine "paths_to_mutate" [s.sourcePath], keyLine "tests_dir" [s.testsDir]] ++
    (if s.pytestArgs ≠ [] then [keyLine "pytest_add_cli_args" s.pytestArgs] else []) ++
    (if s.supportPaths ≠ [] then [keyLine "also_copy" s.supportPaths] else [])

/-- The section of pyproject.toml. -/
def section_ : List Char := PyText.joinLines (mutmutHeader :: s.keyLines)

/-- The lines of setup.cfg. -/
def setupCfg : List Char :=
  PyText.joinLines
    (["[mutmut]".toList, "paths_to_mutate=".toList ++ s.sourcePath.toList,
        "tests_dir=".toList ++ s.testsDir.toList] ++
      (if s.pytestArgs ≠ [] then
        ["pytest_add_cli_args=".toList ++ "\n  ".toList.intercalate (s.pytestArgs.map String.toList)]
      else []) ++
      (if s.supportPaths ≠ [] then
        ["also_copy=\n  ".toList ++ "\n  ".toList.intercalate (s.supportPaths.map String.toList)]
      else []) ++
      ["runner=".toList ++ s.runner.toList]) ++ ['\n']

end MutmutSettings

/-- A line that starts and ends with brackets. -/
def bracketed (line : List Char) : Bool :=
  (PyText.strip line).head? = some '[' && (PyText.strip line).getLast? = some ']'

/-- `_replace_toml_section`. -/
def replaceTomlSection (text header body : List Char) : List Char :=
  let lines := PyText.splitlines text
  match lines.findIdx? fun line => PyText.strip line = header with
  | none => (PyText.joinLines [PyText.rstrip text, body]).dropWhile (· = '\n') ++ ['\n']
  | some start =>
    let end_ := (((lines.drop (start + 1)).findIdx? bracketed).map (start + 1 + ·)).getD lines.length
    PyText.rstrip (PyText.joinLines
      (lines.take start ++ PyText.splitlines body ++ lines.drop end_)) ++ ['\n']

/-! Files. -/

inductive ConfigFile where
  | setupCfg | pyproject
  deriving DecidableEq, Repr

/-- The content of a file: text, or bytes that are not UTF-8. -/
inductive FileContent where
  | text (chars : List Char)
  | undecodable (bytes : List UInt8)
  deriving DecidableEq, Repr

/-- `none` where there is no file. -/
abbrev ConfigFiles := ConfigFile → Option FileContent

inductive RunError where
  | unicodeDecode
  | raised (message : String)
  deriving DecidableEq, Repr

/-- What `read_text` makes of the line ends. -/
def universalNewlines : List Char → List Char
  | [] => []
  | '\r' :: '\n' :: cs => '\n' :: universalNewlines cs
  | c :: cs => (if c = '\r' then '\n' else c) :: universalNewlines cs

/-- `path.read_text(encoding="utf-8") if path.exists() else None`. -/
def readIfExists : Option FileContent → Except RunError (Option (List Char))
  | none => .ok none
  | some (.text chars) => .ok (some (universalNewlines chars))
  | some (.undecodable _) => .error .unicodeDecode

/-- `write_mutmut_setup`. -/
def writeMutmutSetup (s : MutmutSettings) (python2 : Bool) : Act ConfigFiles RunError Unit := do
  let files ← Act.read
  let pyproject ← Act.lift (if python2 then .ok none else readIfExists (files .pyproject))
  match pyproject with
  | some original =>
    Act.write (Function.update files .pyproject
      (some (.text (replaceTomlSection original mutmutHeader s.section_))))
  | none => Act.write (Function.update files .setupCfg (some (.text s.setupCfg)))

/-- A restoring step that raises, and what it leaves of the file, which it may have opened for writing. -/
structure RestoreFailure where
  error : RunError
  leaves : Option FileContent → Option FileContent

/-- `_restore_config_file`. -/
def restoreConfigFile (file : ConfigFile) (original : Option (List Char))
    (fails : Option RestoreFailure) : Act ConfigFiles RunError Unit := do
  let files ← Act.read
  match fails with
  | some failure =>
    Act.write (Function.update files file (failure.leaves (files file)))
    Act.raise failure.error
  | none => Act.write (Function.update files file (original.map .text))

/-- `run_mutation`, as far as the two files go. `prepare` comes before the `try`, and `block` is what
stands in it: it starts with `write_mutmut_setup`, runs mutmut and the tests, which may do anything to
the files, and may raise at any point. -/
def runMutationConfig (prepare : Except RunError Unit) (block : Act ConfigFiles RunError Unit)
    (restoreFails : ConfigFile → Option RestoreFailure) : Act ConfigFiles RunError Unit := do
  let files ← Act.read
  let beforeSetup ← Act.lift (readIfExists (files .setupCfg))
  let beforePyproject ← Act.lift (readIfExists (files .pyproject))
  Act.lift prepare
  Act.tryFinally block do
    restoreConfigFile .setupCfg beforeSetup (restoreFails .setupCfg)
    restoreConfigFile .pyproject beforePyproject (restoreFails .pyproject)

/-! The files after the run. -/

/-- Text mode reads what it has written. -/
def NoReturns : Option FileContent → Prop
  | some (.text chars) => '\r' ∉ chars
  | _ => True

theorem universalNewlines_noReturns (chars : List Char) : '\r' ∉ universalNewlines chars := by
  induction chars using universalNewlines.induct with
  | case1 => exact List.not_mem_nil
  | case2 cs ih =>
      rw [universalNewlines]
      exact fun member => (List.mem_cons.mp member).elim (by decide) ih
  | case3 c cs single ih =>
      rw [universalNewlines.eq_3 c cs single]
      intro member
      rcases List.mem_cons.mp member with here | later
      · split at here
        · cases here
        · next other => exact other here.symm
      · exact ih later

theorem universalNewlines_eq_iff {chars : List Char} : universalNewlines chars = chars ↔ '\r' ∉ chars := by
  constructor
  · intro same
    rw [← same]
    exact universalNewlines_noReturns chars
  · intro none_
    induction chars with
    | nil => rfl
    | cons c cs ih =>
        have other : c ≠ '\r' := fun same => none_ (same ▸ List.mem_cons_self)
        rw [universalNewlines.eq_3 c cs fun _ same => absurd same other, if_neg other,
          ih fun member => none_ (List.mem_cons_of_mem c member)]

theorem restored_iff {content : Option FileContent} {original : Option (List Char)}
    (read : readIfExists content = .ok original) :
    original.map FileContent.text = content ↔ NoReturns content := by
  match content with
  | none =>
      cases read
      exact iff_of_true rfl trivial
  | some (.text chars) =>
      cases read
      rw [Option.map_some, Option.some_inj, FileContent.text.injEq]
      exact universalNewlines_eq_iff
  | some (.undecodable _) => cases read

section Run
variable (files : ConfigFiles) (prepare : Except RunError Unit) (block : Act ConfigFiles RunError Unit)
  (restoreFails : ConfigFile → Option RestoreFailure)

/-- The run gets to its `try`. -/
def Entered : Prop :=
  (∃ text, readIfExists (files .setupCfg) = .ok text) ∧
    (∃ text, readIfExists (files .pyproject) = .ok text) ∧ prepare = .ok ()

/-- What a file is after its restoring, or after the step that failed in its place. -/
def RestoredTo (before left : Option FileContent) : Option RestoreFailure → Prop
  | none => NoReturns before
  | some failure => failure.leaves left = before

/-- Each file that is restored has no carriage return, and one that is not is left as it was. -/
def Restorable : Prop :=
  RestoredTo (files .setupCfg) (Act.after block files .setupCfg) (restoreFails .setupCfg) ∧
    if restoreFails .setupCfg = none then
      RestoredTo (files .pyproject) (Act.after block files .pyproject) (restoreFails .pyproject)
    else Act.after block files .pyproject = files .pyproject

variable {files prepare block restoreFails}

theorem not_entered (out : ¬ Entered files prepare) :
    Act.after (runMutationConfig prepare block restoreFails) files = files := by
  unfold runMutationConfig Act.after
  cases setup : readIfExists (files .setupCfg) with
  | error e => simp [Act.bind_run, setup]
  | ok setupText =>
      cases project : readIfExists (files .pyproject) with
      | error e => simp [Act.bind_run, setup, project]
      | ok projectText =>
          cases ready : prepare with
          | error e => simp [Act.bind_run, setup, project]
          | ok _ => exact absurd ⟨⟨_, setup⟩, ⟨_, project⟩, ready⟩ out

theorem entered_after {setupText projectText : Option (List Char)}
    (setup : readIfExists (files .setupCfg) = .ok setupText)
    (project : readIfExists (files .pyproject) = .ok projectText) (ready : prepare = .ok ()) :
    Act.after (runMutationConfig prepare block restoreFails) files =
      Act.after (do
        restoreConfigFile .setupCfg setupText (restoreFails .setupCfg)
        restoreConfigFile .pyproject projectText (restoreFails .pyproject)) (Act.after block files) := by
  rw [← Act.after_tryFinally]
  unfold runMutationConfig Act.after
  simp [Act.bind_run, setup, project, ready]

/-- However the run ends, the files are what they were exactly where the run does not get to its `try`
or can restore them. -/
theorem restored_after_iff :
    Act.after (runMutationConfig prepare block restoreFails) files = files ↔
      (Entered files prepare → Restorable files block restoreFails) := by
  by_cases entered : Entered files prepare
  · obtain ⟨⟨setupText, setup⟩, ⟨projectText, project⟩, ready⟩ := id entered
    rw [entered_after setup project ready, forall_prop_of_true entered, Restorable]
    generalize Act.after block files = left
    have ext : ∀ after : ConfigFiles, after = files ↔
        after .setupCfg = files .setupCfg ∧ after .pyproject = files .pyproject := by
      intro after
      constructor
      · rintro rfl
        exact ⟨rfl, rfl⟩
      · rintro ⟨first, second⟩
        funext file
        cases file <;> assumption
    rw [ext]
    cases first : restoreFails .setupCfg with
    | some failure => simp [Act.after, Act.bind_run, restoreConfigFile, RestoredTo]
    | none =>
        cases second : restoreFails .pyproject with
        | some failure =>
            simp [Act.after, Act.bind_run, restoreConfigFile, RestoredTo, restored_iff setup]
        | none =>
            simp [Act.after, Act.bind_run, restoreConfigFile, RestoredTo, restored_iff setup,
              restored_iff project]
  · exact iff_of_true (not_entered entered) fun h => absurd h entered

end Run

section Setup
variable (s : MutmutSettings) {files : ConfigFiles}

/-- pyproject.toml is rewritten where there is one, and only for Python 3. -/
theorem after_writeMutmutSetup_pyproject {original : List Char}
    (read : readIfExists (files .pyproject) = .ok (some original)) :
    Act.after (writeMutmutSetup s false) files = Function.update files .pyproject
      (some (.text (replaceTomlSection original mutmutHeader s.section_))) := by
  simp [Act.after, Act.bind_run, writeMutmutSetup, read]

theorem after_writeMutmutSetup_setupCfg {python2 : Bool}
    (none_ : python2 = true ∨ files .pyproject = none) :
    Act.after (writeMutmutSetup s python2) files =
      Function.update files .setupCfg (some (.text s.setupCfg)) := by
  rcases none_ with rfl | missing
  · simp [Act.after, Act.bind_run, writeMutmutSetup]
  · cases python2 <;> simp [Act.after, Act.bind_run, writeMutmutSetup, missing, readIfExists]

/-- Files without carriage returns are what they were, whatever the run does with the new ones. -/
theorem after_run {prepare : Except RunError Unit} (python2 : Bool) (rest : Act ConfigFiles RunError Unit)
    (noReturns : ∀ file, NoReturns (files file)) :
    Act.after (runMutationConfig prepare (do writeMutmutSetup s python2; rest) fun _ => none) files =
      files := by
  refine restored_after_iff.mpr fun _ => ⟨noReturns .setupCfg, ?_⟩
  rw [if_pos rfl]
  exact noReturns .pyproject

end Setup

/-! The lines of the section. -/

theorem run_dumpsStrings (depth : ℕ) (items : List String) :
    (dumpsStrings items).foldl Toml.State.step ⟨.plain, depth⟩ = ⟨.plain, depth⟩ := by
  rw [dumpsStrings, List.foldl_cons, List.foldl_append]
  have open_ : Toml.State.step ⟨.plain, depth⟩ '[' = ⟨.plain, depth + 1⟩ := rfl
  rw [open_]
  exact (Toml.run_items items).step_eq (by decide)

theorem escapeChar_unbroken (c : Char) : ∀ d ∈ Json.escapeChar true c, PyText.isLineBreak d = false := by
  have unit : ∀ n, ∀ d ∈ Json.escapeUnit n, PyText.isLineBreak d = false := by
    have digits : ∀ k < 16, PyText.isLineBreak (Json.hexDigit k) = false := by decide
    have digit : ∀ k, PyText.isLineBreak (Json.hexDigit (k % 16)) = false :=
      fun k => digits _ (Nat.mod_lt _ (by decide))
    intro n d member
    simp only [Json.escapeUnit, Json.hex4, List.mem_cons, List.not_mem_nil, or_false] at member
    rcases member with rfl | rfl | rfl | rfl | rfl | rfl
    · decide
    · decide
    · exact digit _
    · exact digit _
    · exact digit _
    · exact digit _
  unfold Json.escapeChar
  split
  · next pair found =>
      have short : ∀ pair ∈ Json.shortEscapes, PyText.isLineBreak pair.2 = false := by decide
      intro d member
      rcases List.mem_cons.mp member with rfl | last
      · decide
      · obtain rfl := List.mem_singleton.mp last
        exact short pair (List.mem_of_find?_eq_some found)
  · split
    · exact unit _
    · next large =>
        split
        · intro d member
          obtain ⟨n, -, own⟩ := List.mem_flatMap.mp member
          exact unit n d own
        · next ascii =>
            intro d member
            obtain rfl := List.mem_singleton.mp member
            have small : d.toNat < 0x7f := by simpa using ascii
            have printable : ∀ n, 0x20 ≤ n → n < 0x7f →
                n ∉ [0x0a, 0x0b, 0x0c, 0x0d, 0x1c, 0x1d, 0x1e, 0x85, 0x2028, 0x2029] := by
              intro n low high member
              simp only [List.mem_cons, List.not_mem_nil, or_false] at member
              omega
            exact decide_eq_false (printable _ (by omega) small)

theorem dumpsStrings_unbroken (items : List String) : PyText.Unbroken (dumpsStrings items) := by
  have quote : ∀ item, PyText.Unbroken (Json.quote true item) := by
    intro item d member
    rcases List.mem_cons.mp member with rfl | rest
    · decide
    · rcases List.mem_append.mp rest with inner | last
      · obtain ⟨c, -, own⟩ := List.mem_flatMap.mp inner
        exact escapeChar_unbroken c d own
      · obtain rfl := List.mem_singleton.mp last
        decide
  have joined : PyText.Unbroken (", ".toList.intercalate (items.map (Json.quote true))) := by
    induction items with
    | nil => intro d member; cases member
    | cons item items ih =>
        cases items with
        | nil =>
            rw [List.map_cons, List.map_nil, List.intercalate_singleton]
            exact quote item
        | cons next items =>
            rw [List.map_cons] at ih ⊢
            rw [List.map_cons, List.intercalate_cons_cons]
            intro d member
            rcases List.mem_append.mp member with front | rest
            · rcases List.mem_append.mp front with own | comma
              · exact quote item d own
              · exact @PyText.unbroken_of_all ", ".toList (by decide) d comma
            · exact ih d rest
  intro d member
  rcases List.mem_cons.mp member with rfl | rest
  · decide
  · rcases List.mem_append.mp rest with inner | last
    · exact joined d inner
    · obtain rfl := List.mem_singleton.mp last
      decide

/-- The keys that a run sets. -/
def mutmutKeys : List String := ["paths_to_mutate", "tests_dir", "pytest_add_cli_args", "also_copy"]

theorem mem_keyLines {s : MutmutSettings} {line : List Char} (member : line ∈ s.keyLines) :
    ∃ key ∈ mutmutKeys, ∃ items, line = MutmutSettings.keyLine key items := by
  simp only [MutmutSettings.keyLines, List.mem_append, List.mem_cons, List.not_mem_nil, or_false] at member
  rcases member with ((rfl | rfl) | more) | last
  · exact ⟨_, by simp [mutmutKeys], _, rfl⟩
  · exact ⟨_, by simp [mutmutKeys], _, rfl⟩
  · split at more
    · obtain rfl := List.mem_singleton.mp more
      exact ⟨_, by simp [mutmutKeys], _, rfl⟩
    · cases more
  · split at last
    · obtain rfl := List.mem_singleton.mp last
      exact ⟨_, by simp [mutmutKeys], _, rfl⟩
    · cases last

/-- A line that leaves a reader outside of everything, in one piece, and is no header. -/
structure KeyLine (line : List Char) : Prop where
  unbroken : PyText.Unbroken line
  strip_eq : PyText.strip line = line
  head : line.head? ≠ some '['
  last : line.getLast? = some ']'
  next : Toml.State.top.next line = .top

theorem strip_of_ends {line : List Char} (head : ∀ c, line.head? = some c → PyText.isSpace c = false)
    (last : ∀ c, line.getLast? = some c → PyText.isSpace c = false) : PyText.strip line = line := by
  have front : line.dropWhile PyText.isSpace = line := by
    cases line with
    | nil => rfl
    | cons c cs => exact List.dropWhile_cons_of_neg (by rw [head c rfl]; decide)
  rw [PyText.strip_eq_rstrip, front]
  refine (List.rdropWhile_eq_self_iff).mpr fun some_ => ?_
  rw [last _ (List.getLast?_eq_some_getLast some_)]
  decide

theorem keyLine_keyLine {s : MutmutSettings} {line : List Char} (member : line ∈ s.keyLines) :
    KeyLine line := by
  obtain ⟨key, known, items, rfl⟩ := mem_keyLines member
  have front : ∀ key ∈ mutmutKeys, PyText.Unbroken (key.toList ++ " = ".toList) ∧
      (key.toList ++ " = ".toList).foldl Toml.State.step .top = .top ∧
      ∃ c rest, key.toList = c :: rest ∧ PyText.isSpace c = false ∧ c ≠ '[' := by
    intro key known
    simp only [mutmutKeys, List.mem_cons, List.not_mem_nil, or_false] at known
    rcases known with rfl | rfl | rfl | rfl
    · exact ⟨PyText.unbroken_of_all (by decide), by decide, 'p', "aths_to_mutate".toList, rfl, by decide,
        by decide⟩
    · exact ⟨PyText.unbroken_of_all (by decide), by decide, 't', "ests_dir".toList, rfl, by decide,
        by decide⟩
    · exact ⟨PyText.unbroken_of_all (by decide), by decide, 'p', "ytest_add_cli_args".toList, rfl, by decide,
        by decide⟩
    · exact ⟨PyText.unbroken_of_all (by decide), by decide, 'a', "lso_copy".toList, rfl, by decide,
        by decide⟩
  obtain ⟨plain, stays, c, rest, first, letter, noBracket⟩ := front key known
  have head : (MutmutSettings.keyLine key items).head? = some c := by
    rw [MutmutSettings.keyLine, first]
    rfl
  have last : (MutmutSettings.keyLine key items).getLast? = some ']' := by
    rw [MutmutSettings.keyLine, dumpsStrings, ← List.cons_append, ← List.append_assoc]
    exact List.getLast?_concat
  constructor
  case unbroken =>
    intro d member
    rcases List.mem_append.mp member with here | there
    · exact plain d here
    · exact dumpsStrings_unbroken items d there
  case strip_eq =>
    refine strip_of_ends (fun d own => ?_) (fun d own => ?_)
    · rw [head] at own
      exact Option.some.inj own ▸ letter
    · rw [last] at own
      exact Option.some.inj own ▸ by decide
  case head =>
    rw [head]
    exact fun same => noBracket (Option.some.inj same)
  case last => exact last
  case next =>
    rw [Toml.State.next, MutmutSettings.keyLine, List.foldl_append, stays, Toml.State.top,
      run_dumpsStrings]
    rfl

end Uta.Enforce
