/- Installing a manifest: pip is called until it succeeds, each time without the line that it
last found no distribution for. -/
import Uta.Overlay.Manifest
import Uta.Tasks.Daemon

namespace Uta.Overlay
open Uta.Lib Uta.Lib.PyText

/-! What pip reports. -/

/-- What a command leaves behind. -/
structure Result where
  exitCode : ℤ
  stdout : List Char
  stderr : List Char

def Result.output (r : Result) : List Char := r.stdout ++ '\n' :: r.stderr

/-- The word after the phrase, where the text starts with both. -/
def namedHere (text : List Char) : Option (List Char) :=
  let phrase := "No matching distribution found for"
  let rest := text.drop phrase.toList.length
  let word := (rest.dropWhile isSpace).takeWhile fun c => !isSpace c
  if Tasks.matchesAt (Tasks.literal phrase) text ∧ rest.takeWhile isSpace ≠ [] ∧ word ≠ [] then some word
  else none

/-- `_NO_MATCHING_DISTRIBUTION.search(output)`. -/
def noMatchingDistribution (output : List Char) : Option (List Char) :=
  output.tails.findSome? namedHere

def specEnd (c : Char) : Bool := c ∈ "<>=!~;[".toList

def joins (c : Char) : Bool := c ∈ "-_.".toList

/-- `re.sub(r"[-_.]+", "-", text)`, where `run` says that the last character was one of them. -/
def hyphened (run : Bool) : List Char → List Char
  | [] => []
  | c :: cs =>
    if joins c then (if run then hyphened true cs else '-' :: hyphened true cs)
    else c :: hyphened false cs

section Install
variable (lower : List Char → List Char)

/-- `_distribution_name`, where `lower` is `str.lower`. -/
def distributionName (requirement : Line) : List Char :=
  lower (hyphened false (strip (requirement.takeWhile fun c => !specEnd c)))

/-- `_unavailable_line`. -/
def unavailableLine (output : List Char) (lines : List Line) : Option Line :=
  (noMatchingDistribution output).bind fun missing =>
    lines.find? fun raw =>
      (requirement raw).any fun r => distributionName lower r == distributionName lower missing

/-! The evidence. -/

structure Evidence where
  name : String
  command : List (List Char)
  exitCode : ℤ
  stdout : List Char
  stderr : List Char

/-- `"\n".join(part for part in parts if part)`. -/
def joinFull (parts : List (List Char)) : List Char :=
  joinLines (parts.filter fun part => !part.isEmpty)

/-- `_dependency_install_evidence`. -/
def dependencyInstallEvidence (command : List (List Char)) (exitCode : ℤ) (stdout stderr : List Char)
    (skipped : List Line) : Evidence where
  name := "dependency_overlay_install"
  command := command
  exitCode := exitCode
  stdout := lastChars 4000 stdout
  stderr := lastChars 4000 (joinFull
    [joinLines (skipped.map ("UTA: Skipped unavailable dependency: ".toList ++ ·)), stderr])

/-- The interpreter, the directory of the overlay, the copy of the manifest beside it, and the index
of the environment, stripped. -/
structure Setting where
  pythonBin : List Char
  depRoot : List Char
  requirementsPath : List Char
  indexUrl : List Char

def Setting.pip (setting : Setting) (targets : List (List Char)) : List (List Char) :=
  [setting.pythonBin] ++ ["-m", "pip", "install", "--disable-pip-version-check"].map String.toList ++
    (if setting.indexUrl = [] then [] else ["--index-url".toList, setting.indexUrl]) ++
    ["--target".toList, setting.depRoot] ++ targets

variable (setting : Setting)

def manifestCommand : List (List Char) := setting.pip ["-r".toList, setting.requirementsPath]

/-- What is added to the errors where no requirement is left. -/
def refusal : List Char :=
  ("UTA: no requirement in the manifest could be installed from the configured index; " ++
    "refusing to cache an empty dependency overlay.\n").toList

/-! The loop. -/

/-- The lines that pip is still to be called with, and the requirements that were dropped. -/
structure Turn where
  lines : List Line
  skipped : List Line

/-- What a call of pip with the lines of the turn leads to: another turn, or the evidence. -/
def Turn.next (t : Turn) (r : Result) : Turn ⊕ Evidence :=
  let command := manifestCommand setting
  if r.exitCode = 0 then .inr (dependencyInstallEvidence command r.exitCode r.stdout r.stderr t.skipped)
  else
    match unavailableLine lower r.output t.lines with
    | none => .inr (dependencyInstallEvidence command r.exitCode r.stdout r.stderr t.skipped)
    | some raw =>
      let later : Turn := ⟨t.lines.erase raw, t.skipped ++ [strip raw]⟩
      if manifestRequirementLines later.lines = [] then
        .inr (dependencyInstallEvidence command r.exitCode r.stdout (refusal ++ r.stderr) later.skipped)
      else .inl later

/-- `install_manifest_requirements`, with a pip that has a state of its own. -/
def installManifestRequirements {σ : Type} (pip : σ → List Line → Result × σ) :
    ℕ → σ → Turn → Option (Evidence × σ)
  | 0, _, _ => none
  | fuel + 1, s, t =>
    match t.next lower setting (pip s t.lines).1 with
    | .inr evidence => some (evidence, (pip s t.lines).2)
    | .inl later => installManifestRequirements pip fuel (pip s t.lines).2 later

/-! What was dropped. -/

/-- A failed call named the distribution of a line. -/
def Blames (r : Result) (raw : Line) : Prop :=
  r.exitCode ≠ 0 ∧ ∃ missing spec, noMatchingDistribution r.output = some missing ∧
    requirement raw = some spec ∧ distributionName lower spec = distributionName lower missing

/-- A turn, after calls of pip with the lines of theirs: each has blamed a line that is dropped. -/
structure Account (lines : List Line) (calls : List (List Line × Result)) (dropped : List Line)
    (t : Turn) : Prop where
  blamed : List.Forall₂ (fun call raw => Blames lower call.2 raw ∧ raw ∈ call.1) calls dropped
  shared : lines.Perm (dropped ++ t.lines)
  ordered : t.lines.Sublist lines
  skipped : t.skipped = dropped.map strip
  full : manifestRequirementLines t.lines ≠ []

variable {lower setting}

theorem account_start {lines : List Line} (full : manifestRequirementLines lines ≠ []) :
    Account lower lines [] [] ⟨lines, []⟩ where
  blamed := .nil
  shared := .refl _
  ordered := .refl _
  skipped := rfl
  full := full

theorem unavailableLine_some {r : Result} {lines : List Line} {raw : Line} (failed : r.exitCode ≠ 0)
    (found : unavailableLine lower r.output lines = some raw) : Blames lower r raw ∧ raw ∈ lines := by
  obtain ⟨missing, named, found⟩ := Option.bind_eq_some_iff.mp found
  refine ⟨⟨failed, missing, ?_⟩, List.mem_of_find?_eq_some found⟩
  have hit := List.find?_some found
  obtain ⟨spec, required, same⟩ := (Option.any_eq_true _ _).mp hit
  exact ⟨spec, named, required, beq_iff_eq.mp same⟩

variable (lower setting) in
/-- What a turn leads to. -/
theorem Turn.next_cases (t : Turn) (r : Result) :
    (∃ raw, Blames lower r raw ∧ raw ∈ t.lines ∧ manifestRequirementLines (t.lines.erase raw) ≠ [] ∧
      t.next lower setting r = .inl ⟨t.lines.erase raw, t.skipped ++ [strip raw]⟩) ∨
    ∃ e, t.next lower setting r = .inr e ∧ e.exitCode = r.exitCode ∧
      (r.exitCode = 0 → e = dependencyInstallEvidence (manifestCommand setting) 0 r.stdout r.stderr
        t.skipped) := by
  unfold Turn.next
  dsimp only
  by_cases good : r.exitCode = 0
  · rw [if_pos good]
    exact .inr ⟨_, rfl, rfl, fun _ => by rw [good]⟩
  · rw [if_neg good]
    cases found : unavailableLine lower r.output t.lines with
    | none => exact .inr ⟨_, rfl, rfl, fun zero => absurd zero good⟩
    | some raw =>
        dsimp only
        obtain ⟨blames, member⟩ := unavailableLine_some good found
        by_cases empty : manifestRequirementLines (t.lines.erase raw) = []
        · rw [if_pos empty]
          exact .inr ⟨_, rfl, rfl, fun zero => absurd zero good⟩
        · rw [if_neg empty]
          exact .inl ⟨raw, blames, member, empty, rfl⟩

theorem Account.drop {lines : List Line} {calls : List (List Line × Result)} {dropped : List Line}
    {t : Turn} (account : Account lower lines calls dropped t) {r : Result} {raw : Line}
    (blames : Blames lower r raw) (member : raw ∈ t.lines)
    (full : manifestRequirementLines (t.lines.erase raw) ≠ []) :
    Account lower lines (calls ++ [(t.lines, r)]) (dropped ++ [raw])
      ⟨t.lines.erase raw, t.skipped ++ [strip raw]⟩ where
  blamed := List.rel_append account.blamed (.cons ⟨blames, member⟩ .nil)
  shared := by
    refine account.shared.trans ?_
    rw [List.append_assoc]
    exact (List.perm_cons_erase member).append_left dropped
  ordered := List.erase_sublist.trans account.ordered
  skipped := by rw [account.skipped, List.map_append, List.map_singleton]
  full := full

/-- Every call costs a requirement. -/
theorem Account.count {lines : List Line} {calls : List (List Line × Result)} {dropped : List Line}
    {t : Turn} (account : Account lower lines calls dropped t) :
    calls.length + (manifestRequirementLines t.lines).length = (manifestRequirementLines lines).length := by
  have all : (manifestRequirementLines dropped).length = calls.length := by
    rw [account.blamed.length_eq]
    have each := account.blamed
    clear account
    induction each with
    | nil => rfl
    | cons head _ ih =>
        obtain ⟨⟨-, missing, spec, -, required, -⟩, -⟩ := head
        rw [manifestRequirementLines, List.filterMap_cons_some required, List.length_cons,
          List.length_cons, ← ih]
        rfl
  have shared := (account.shared.filterMap requirement).length_eq
  rw [List.filterMap_append, List.length_append] at shared
  unfold manifestRequirementLines at all ⊢
  omega

/-! What the loop returns. -/

section Loop
variable {σ : Type} {pip : σ → List Line → Result × σ}

variable (lower setting pip) in
theorem installManifestRequirements_from {lines : List Line} (fuel : ℕ) (s : σ)
    {calls : List (List Line × Result)} {dropped : List Line} {t : Turn}
    (account : Account lower lines calls dropped t)
    (made : ∀ call ∈ calls, ∃ before, call.2 = (pip before call.1).1)
    (enough : (manifestRequirementLines t.lines).length ≤ fuel) :
    ∃ e after, installManifestRequirements lower setting pip fuel s t = some (e, after) ∧
      ∃ calls dropped t before, Account lower lines calls dropped t ∧
        (∀ call ∈ calls, ∃ before, call.2 = (pip before call.1).1) ∧
        t.next lower setting (pip before t.lines).1 = .inr e := by
  induction fuel generalizing s calls dropped t with
  | zero => exact absurd (List.length_eq_zero_iff.mp (Nat.le_zero.mp enough)) account.full
  | succ fuel ih =>
      rw [installManifestRequirements]
      rcases Turn.next_cases lower setting t (pip s t.lines).1 with
        ⟨raw, blames, member, full, next⟩ | ⟨e, next, -⟩
      · rw [next]
        have later := account.drop blames member full
        refine ih (pip s t.lines).2 later ?_ ?_
        · intro call inside
          rcases List.mem_append.mp inside with old | new
          · exact made call old
          · rw [List.mem_singleton.mp new]
            exact ⟨s, rfl⟩
        · have before := account.count
          have after := later.count
          rw [List.length_append, List.length_singleton] at after
          omega
      · rw [next]
        exact ⟨e, _, rfl, calls, dropped, t, s, account, made, next⟩

variable (lower setting pip) in
/-- The evidence of an install: that of a last call, which was still for some requirement, after
failed calls that have each blamed a line. -/
def Ended (lines : List Line) (e : Evidence) : Prop :=
  ∃ calls dropped t before, Account lower lines calls dropped t ∧
    (∀ call ∈ calls, ∃ before, call.2 = (pip before call.1).1) ∧
    calls.length < (manifestRequirementLines lines).length ∧
    e.exitCode = (pip before t.lines).1.exitCode ∧
    (e.exitCode = 0 → e = dependencyInstallEvidence (manifestCommand setting) 0
      (pip before t.lines).1.stdout (pip before t.lines).1.stderr (dropped.map strip))

end Loop
end Install

def plainSetting : Setting := ⟨"python".toList, "deps".toList, "deps.txt".toList, []⟩

/-- An index without `flask`; the calls are counted. -/
def withoutFlask (calls : ℕ) (lines : List Line) : Result × ℕ :=
  (if "flask".toList ∈ lines then
      ⟨1, [], "ERROR: No matching distribution found for Flask".toList⟩ else ⟨0, [], []⟩, calls + 1)

end Uta.Overlay
