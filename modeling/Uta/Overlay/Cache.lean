/- The overlay directory that processes of one digest share: one of them installs under the lock
and leaves a marker, and the others take what is there. A process can end at any step, also in the
middle of a removal, of a call of pip, or of writing the marker. -/
import Uta.Overlay.Install
import Uta.Lib.Run

namespace Uta.Overlay
open Uta.Lib Uta.Lib.PyText

/-! The directory. -/

inductive Request where
  | manifest (lines : List Line)
  | specs (specs : List Line)

/-- A call of pip into the directory, with its result unless it was cut short. -/
structure Call where
  request : Request
  result : Option Result

/-- The directory: the marker's text, whether the last removal has left files behind, and the calls
of pip since. -/
structure Dir where
  marker : Option (List Char)
  left : Bool
  calls : List Call

/-- What the processes have in common; the digest is hexadecimal. -/
structure Shared extends Setting where
  lower : List Char → List Char
  digest : List Char
  solid : ∀ c ∈ digest, isSpace c = false

/-- What a process brings: the flattened manifest, and the requirements of its target where the
manifest is the repository's own, with the front of their digest. -/
structure Process where
  lines : List Line
  full : manifestRequirementLines lines ≠ []
  compatible : List Line
  compatDigest : List Char
  solid : ∀ c ∈ compatDigest, isSpace c = false

section Shared
variable (shared : Shared)

def compatMark : List Char := shared.digest ++ ":compat:".toList

/-- The marker is that of the digest: `cache_valid`. -/
def accepts (marker : Option (List Char)) : Bool :=
  marker.any fun text => strip text == shared.digest || decide (compatMark shared <+: strip text)

/-- The evidence where the marker is accepted. -/
def cached (marker : List Char) : Evidence where
  name := if ":compat:".toList <:+: strip marker then "dependency_overlay_compat_cached"
    else "dependency_overlay_cached"
  command := [shared.pythonBin] ++ ["-m", "pip", "install", "--target"].map String.toList ++
    [shared.depRoot, "-r".toList, shared.requirementsPath]
  exitCode := 0
  stdout := []
  stderr := []

/-- The evidence of the fallback. -/
def compatEvidence (p : Process) (error : List Char) (r : Result) : Evidence where
  name := "dependency_overlay_compat_install"
  command := shared.pip p.compatible
  exitCode := r.exitCode
  stdout := lastChars 4000 r.stdout
  stderr := joinFull [("UTA: whole manifest failed for the selected Python runtime; " ++
    "retried unpinned target-import requirements.\n").toList ++ lastChars 2000 error,
    lastChars 2000 r.stderr]

/-- `whole_manifest_error`. -/
def wholeManifestError (e : Evidence) : List Char := if e.stderr = [] then e.stdout else e.stderr

/-! Processes. -/

/-- What follows a removal. -/
inductive After where
  | install
  | fallback (error : List Char)
  | give (e : Evidence)

inductive Phase where
  | starting
  | looking
  | clearing (after : After)
  | installing (t : Turn)
  | fallback (error : List Char)
  | marking (text : List Char) (e : Evidence)
  | returned (e : Evidence)
  | gone

/-- A step of a process. A removal may leave files behind, or the marker. A process that ends early may
have removed something, have called pip, or have written a front of the marker. -/
inductive Event where
  | lock
  | look
  | clear (files marker : Bool)
  | pip (r : Result)
  | mark
  | crash (files marker : Bool) (called : Bool) (written : Option ℕ)

structure State where
  dir : Dir
  holder : Option ℕ
  phase : ℕ → Phase

variable (process : ℕ → Process)

def State.enter (s : State) (p : ℕ) (phase : Phase) : State :=
  { s with phase := Function.update s.phase p phase }

/-- A process ends, and its lock with it. -/
def State.leave (s : State) (p : ℕ) (phase : Phase) : State :=
  { s.enter p phase with holder := if s.holder = some p then none else s.holder }

def Dir.call (dir : Dir) (request : Request) (result : Option Result) : Dir :=
  { dir with calls := dir.calls ++ [⟨request, result⟩] }

def Dir.clear (dir : Dir) (files marker : Bool) : Dir :=
  ⟨if marker then dir.marker else none, files, []⟩

/-- What an early end leaves of the step that a process is in. -/
def Phase.cut (p : Process) (dir : Dir) (files marker called : Bool) (written : Option ℕ) : Phase → Dir
  | .clearing _ => dir.clear files marker
  | .installing t => if called then dir.call (.manifest t.lines) none else dir
  | .fallback _ => if called then dir.call (.specs p.compatible) none else dir
  | .marking text _ =>
    match written with
    | none => dir
    | some n => { dir with marker := some (text.take n) }
  | _ => dir

/-- Where the whole manifest has been dealt with. -/
def afterManifest (p : Process) (e : Evidence) : Phase :=
  if e.exitCode = 0 then .marking shared.digest e
  else if p.compatible = [] ∨
      "refusing to cache an empty dependency overlay".toList <:+: wholeManifestError e then
    .clearing (.give e)
  else .clearing (.fallback (wholeManifestError e))

def afterFallback (p : Process) (error : List Char) (r : Result) : Phase :=
  let e := compatEvidence shared p error r
  if r.exitCode = 0 then .marking (compatMark shared ++ p.compatDigest) e else .clearing (.give e)

/-- `prepare_dependency_overlay`, from the lock on, in any interleaving; an event that a process
cannot take in its phase changes nothing. -/
def step (s : State) (event : ℕ × Event) : State :=
  let p := event.1
  match s.phase p, event.2 with
  | .starting, .lock => if s.holder = none then { s.enter p .looking with holder := some p } else s
  | .looking, .look =>
    if accepts shared s.dir.marker then s.leave p (.returned (cached shared (s.dir.marker.getD [])))
    else s.enter p (.clearing .install)
  | .clearing after, .clear files marker =>
    let s := { s with dir := s.dir.clear files marker }
    match after with
    | .install => s.enter p (.installing ⟨(process p).lines, []⟩)
    | .fallback error => s.enter p (.fallback error)
    | .give e => s.leave p (.returned e)
  | .installing t, .pip r =>
    let s := { s with dir := s.dir.call (.manifest t.lines) (some r) }
    match t.next shared.lower shared.toSetting r with
    | .inl later => s.enter p (.installing later)
    | .inr e => s.enter p (afterManifest shared (process p) e)
  | .fallback error, .pip r =>
    { s with dir := s.dir.call (.specs (process p).compatible) (some r) }.enter p
      (afterFallback shared (process p) error r)
  | .marking text e, .mark =>
    { s with dir := { s.dir with marker := some text } }.leave p (.returned e)
  | .returned _, .crash .. => s
  | phase, .crash files marker called written =>
    { s with dir := phase.cut (process p) s.dir files marker called written }.leave p .gone
  | _, _ => s

/-- No directory yet, and no process at work. -/
def initial : State := ⟨⟨none, false, []⟩, none, fun _ => .starting⟩

end Shared
end Uta.Overlay
