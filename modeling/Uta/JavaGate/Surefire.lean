/- The lifecycles of test classes in a Surefire log: how they are read off its lines, and what the
modules of a reactor print of them. -/
import Uta.JavaGate.Scope
import Uta.Lib.Lines
import Uta.Lib.Run

namespace Uta.JavaGate.Surefire
open Uta.Lib Uta.Lib.PyText

/-! The reading of a line. -/

def escape : Char := Char.ofNat 27

/-- `[0-9;]`. -/
def isCode (c : Char) : Bool := c.isDigit || c = ';'

/-- What `\[[0-9;]*m` takes at the front of a text. -/
def sequenceLength : List Char → Option ℕ
  | '[' :: text =>
    if (text.dropWhile isCode).head? = some 'm' then some ((text.takeWhile isCode).length + 2)
    else none
  | _ => none

/-- `re.sub(r"\x1b\[[0-9;]*m", "", text)`, behind a number of characters that a match has taken. -/
def dropSequences : ℕ → List Char → List Char
  | _, [] => []
  | n + 1, _ :: text => dropSequences n text
  | 0, c :: text =>
    match if c = escape then sequenceLength text else none with
    | some n => dropSequences n text
    | none => c :: dropSequences 0 text

inductive Level where
  | info
  | warning
  | error
  deriving DecidableEq

def Level.tag : Level → List Char
  | .info => "[INFO]".toList
  | .warning => "[WARNING]".toList
  | .error => "[ERROR]".toList

/-- `re.sub(r"^\[(?:INFO|WARNING|ERROR)\]\s*", "", line)`. -/
def dropLevel (line : List Char) : List Char :=
  match [Level.info, .warning, .error].find? fun level => level.tag.isPrefixOf line with
  | some level => (line.drop level.tag.length).dropWhile isSpace
  | none => line

def cleaned (raw : List Char) : List Char := dropLevel (PyText.strip (dropSequences 0 raw))

/-- What a line is taken for. -/
inductive Sign where
  | opens (name : List Char)
  | closes (name : List Char)
  | closesLast
  deriving DecidableEq

section Reading
variable (letter : Char → Bool)

/-- `[\w.$]`. -/
def isTypeChar (c : Char) : Bool := isWord letter c || c = '.' || c = '$'

/-- The name that `\s+([\w.$]+)` reads at the front of a text: no blank is part of a name. -/
def blankName (text : List Char) : Option (List Char) :=
  let name := (text.dropWhile isSpace).takeWhile (isTypeChar letter)
  if text.takeWhile isSpace = [] ∨ name = [] then none else some name

/-- `re.fullmatch(r"Running\s+([\w.$]+)", line)`. -/
def openedClass (line : List Char) : Option (List Char) :=
  if "Running".toList.isPrefixOf line then
    (blankName letter (line.drop 7)).filter fun name => (line.drop 7).dropWhile isSpace = name
  else none

/-- `(?:- in|-- in)\s+([\w.$]+)` at the front of a text. -/
def inClass (text : List Char) : Option (List Char) :=
  if "- in".toList.isPrefixOf text then blankName letter (text.drop 4)
  else if "-- in".toList.isPrefixOf text then blankName letter (text.drop 5)
  else none

/-- The first place in a line that names the class. -/
def namedClass : List Char → Option (List Char)
  | [] => none
  | c :: text => (inClass letter (c :: text)).or (namedClass text)

def signOf (line : List Char) : Option Sign :=
  match openedClass letter line with
  | some name => some (.opens name)
  | none =>
    if "Tests run:".toList.isPrefixOf line then
      match namedClass letter line with
      | some name => some (.closes name)
      | none => some .closesLast
    else none

/-- What a line does to the classes that are pending. -/
def Sign.update (pending : List (List Char)) : Option Sign → List (List Char)
  | some (.opens name) => pending ++ [name]
  | some (.closes name) => pending.erase name
  | some .closesLast => pending.dropLast
  | none => pending

def readLine (pending : List (List Char)) (raw : List Char) : List (List Char) :=
  Sign.update pending (signOf letter (cleaned raw))

/-- `unfinished_surefire_class`. -/
def unfinishedSurefireClass (output : List Char) : Option (List Char) :=
  ((splitlines output).foldl (readLine letter) []).getLast?

end Reading

/-! What is printed. -/

/-- The name of a test class. -/
abbrev TypeName (letter : Char → Bool) :=
  { name : List Char // name ≠ [] ∧ name.all (isTypeChar letter) = true }

inductive Event (letter : Char → Bool) where
  | running (c : TypeName letter)
  | completed (c : TypeName letter) (named : Bool)
  /-- The total of a module, at its end. -/
  | total
  deriving DecidableEq

inductive Mark where
  | none
  | failure
  | error

def Mark.text : Mark → List Char
  | .none => []
  | .failure => " <<< FAILURE!".toList
  | .error => " <<< ERROR!".toList

/-- The figures of a line, and how Surefire's version puts them. -/
structure Details where
  run : ℕ
  failures : ℕ
  errors : ℕ
  skipped : ℕ
  seconds : ℕ
  fraction : ℕ
  mark : Mark
  longUnit : Bool
  longDash : Bool

def numeral (n : ℕ) : List Char := Nat.toDigits 10 n

namespace Details
variable (d : Details)

def counts : List Char :=
  "Tests run: ".toList ++ numeral d.run ++ ", Failures: ".toList ++ numeral d.failures ++
    ", Errors: ".toList ++ numeral d.errors ++ ", Skipped: ".toList ++ numeral d.skipped

def elapsed : List Char :=
  ", Time elapsed: ".toList ++ numeral d.seconds ++ ['.'] ++ numeral d.fraction ++
    (if d.longUnit then " sec".toList else " s".toList) ++ d.mark.text

def dash : List Char := if d.longDash then " --".toList else " -".toList

end Details

def Event.text {letter : Char → Bool} (d : Details) : Event letter → List Char
  | .running c => "Running ".toList ++ c.1
  | .completed c true => d.counts ++ d.elapsed ++ d.dash ++ " in ".toList ++ c.1
  | .completed _ false => d.counts ++ d.elapsed
  | .total => d.counts

namespace Event
variable {letter : Char → Bool} (d : Details) (c : TypeName letter)

theorem text_running : text d (running c) = "Running ".toList ++ c.1 := rfl

theorem text_named : text d (completed c true) =
    d.counts ++ d.elapsed ++ d.dash ++ " in ".toList ++ c.1 := rfl

theorem text_unnamed : text d (completed c false) = d.counts ++ d.elapsed := rfl

theorem text_total : text d (total : Event letter) = d.counts := rfl

end Event

/-- A line in colours: its characters, and the sequences among them. -/
inductive Piece where
  | char (c : Char)
  | colour (codes : List { c : Char // isCode c = true })

namespace Piece

def raw : Piece → List Char
  | .char c => [c]
  | .colour codes => escape :: '[' :: (codes.map Subtype.val ++ ['m'])

def shown : Piece → Option Char
  | .char c => some c
  | .colour _ => none

end Piece

def levelText : Option Level → List Char
  | some level => level.tag ++ [' ']
  | none => []

/-- A line of the log: what happens in a module, printed with or without a level and colours, or
anything that is not taken for that. -/
inductive Line (letter : Char → Bool) where
  | event (module : ℕ) (e : Event letter) (d : Details) (level : Option Level)
    (pieces : List Piece) (shows : pieces.filterMap Piece.shown = levelText level ++ e.text d)
  | other (text : List Char) (whole : Unbroken text) (silent : signOf letter (cleaned text) = none)

section Log
variable {letter : Char → Bool}

namespace Line

def raw : Line letter → List Char
  | .event _ _ _ _ pieces _ => pieces.flatMap Piece.raw
  | .other text _ _ => text

def event? : Line letter → Option (ℕ × Event letter)
  | .event module e _ _ _ _ => some (module, e)
  | .other _ _ _ => none

end Line

def output (log : List (Line letter)) : List Char := log.flatMap fun line => line.raw ++ ['\n']

/-! The run that prints it. -/

/-- The classes that are running, in the order of their starts, and the modules that have ended. -/
structure Board (letter : Char → Bool) where
  running : List (ℕ × TypeName letter) := []
  ended : List ℕ := []

namespace Board
variable (b : Board letter)

def step (line : Line letter) : Board letter :=
  match line.event? with
  | some (module, .running c) => { b with running := b.running ++ [(module, c)] }
  | some (module, .completed c _) => { b with running := b.running.erase (module, c) }
  | some (module, .total) => { b with ended := module :: b.ended }
  | none => b

/-- The line can come next: a module that has not ended starts a class; a running class completes,
unnamed only when no other runs; a module ends when none of its classes runs. -/
def Admits (line : Line letter) : Prop :=
  match line.event? with
  | some (module, .running _) => module ∉ b.ended
  | some (module, .completed c named) =>
    (module, c) ∈ b.running ∧ (named = true ∨ b.running = [(module, c)])
  | some (module, .total) => module ∉ b.ended ∧ module ∉ b.running.map Prod.fst
  | none => True

/-- A total is printed while no class runs. -/
def Quiet (line : Line letter) : Prop :=
  match line.event? with
  | some (_, .total) => b.running = []
  | _ => True

instance (line : Line letter) : Decidable (b.Admits line) := by
  unfold Admits
  split <;> infer_instance

instance (line : Line letter) : Decidable (b.Quiet line) := by
  unfold Quiet
  split <;> infer_instance

end Board

def Board.after (log : List (Line letter)) : Board letter := run Board.step {} log

/-- The log interleaves lifecycles of classes. -/
def Interleaves (log : List (Line letter)) : Prop := Meets Board.step Board.Admits {} log

/-- Every module of the log ends while no class of another one runs. -/
def QuietTotals (log : List (Line letter)) : Prop := Meets Board.step Board.Quiet {} log

instance (log : List (Line letter)) : Decidable (Interleaves log) :=
  inferInstanceAs (Decidable (Meets _ _ _ _))

instance (log : List (Line letter)) : Decidable (QuietTotals log) :=
  inferInstanceAs (Decidable (Meets _ _ _ _))

/-- The class starts in the line. -/
def Line.Starts (line : Line letter) (c : TypeName letter) : Prop :=
  line.event?.map Prod.snd = some (.running c)

def Line.Ends (line : Line letter) (c : TypeName letter) : Prop :=
  ∃ named, line.event?.map Prod.snd = some (.completed c named)

instance (line : Line letter) (c : TypeName letter) : Decidable (line.Starts c) :=
  inferInstanceAs (Decidable (_ = _))

instance (line : Line letter) (c : TypeName letter) : Decidable (line.Ends c) :=
  inferInstanceAs (Decidable (∃ _, _))

def starts (c : TypeName letter) (log : List (Line letter)) : ℕ :=
  log.countP fun line => decide (line.Starts c)

def ends (c : TypeName letter) (log : List (Line letter)) : ℕ :=
  log.countP fun line => decide (line.Ends c)

/-- The answer for the log: none exactly when all that was started has completed, and otherwise a
class that was started more often than it completed. -/
structure Answered (log : List (Line letter)) : Prop where
  none_iff : unfinishedSurefireClass letter (output log) = none ↔
    ∀ c : TypeName letter, starts c log = ends c log
  unfinished : ∀ name, unfinishedSurefireClass letter (output log) = some name →
    ∃ c : TypeName letter, c.1 = name ∧ ends c log < starts c log

/-- The answer is right after every front of the log, whichever of the classes that then run
complete, and in whatever order. -/
def AnsweredOnwards (log : List (Line letter)) : Prop :=
  ∀ done rest later, log = done ++ rest → (∀ line ∈ later, ∃ c, line.Ends c) →
    Interleaves (done ++ later) → Answered (done ++ later)

end Log

end Uta.JavaGate.Surefire
