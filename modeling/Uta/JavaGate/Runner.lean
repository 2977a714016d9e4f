/- The runs of Maven in one enforcement: repeated without the class that stalls, then once more
without the failures that the change is not answerable for. -/
import Uta.JavaGate.Hanging
import Uta.Lib.Run

namespace Uta.JavaGate
open Uta.Lib

/-! What Maven answers. -/

/-- What the output and the workspace say after a run. -/
structure Reading where
  stalled : Bool := false
  unfinished : Option TestClass := none
  hasMarker : Bool := false
  hasRequiredEvidence : Bool := false
  versions : Versions := []
  leftModulesUnbuilt : Bool := false
  skippedModules : List String := []
  reports : List SurefireReport := []
  /-- The reports that do not predate the invocation. -/
  freshReports : List SurefireReport := []
  filteredChangedProductionFiles : List String := []
  writes : Bool := false

/-- `subprocess.CompletedProcess`; `args` is what was executed, where that is a list. -/
structure Completed where
  args : Option (List Arg)
  returncode : ℤ
  output : String
  reading : Reading

/-- A run ends, times out, does not start, or raises `PitCompatibilityError`. -/
inductive Outcome where
  | ran (completed : Completed)
  | timedOut
  | notStarted
  | incompatible (message : String) (completed : Option Completed)

/-! The evidence and the result. -/

structure Evidence where
  /-- `excludedFailingTestClasses`, `excludedCollidingTestClasses` and the keys beside them. -/
  scope : FailingTestPartition := {}
  hanging : Option HangingRun := none
  repairEligible : Bool := true
  failureKind : Option String := none
  sourceInventoriedModules : List String := []

inductive Kind where
  | classified
  | stallFailure
  | timeout
  | commandError
  | missingEvidence
  deriving DecidableEq

structure Result where
  kind : Kind
  command : List Arg
  completed : Option Completed
  evidence : Evidence

/-- What `_rerun_without_unrelated_failures` decides after the first run. -/
inductive Plan where
  | keep (scope : FailingTestPartition)
  | rerun (cmd : List Arg) (scope : FailingTestPartition) (sourceInventoried : List String)

inductive Phase where
  | running
  | rerunning (first : Completed) (cmd : List Arg) (scope : FailingTestPartition)
    (sourceInventoried : List String)
  | ended (result : Result)
  | escaped

/-- A run of Maven that was made, in the stall loop or as the rerun: its command, the lists it was
made without, the classes listed as hanging before it, and its outcome. -/
structure MavenRun where
  rerun : Bool
  command : List Arg
  leftOut : List String × List String
  listed : List String
  outcome : Outcome

structure Progress where
  phase : Phase
  cmd : List Arg
  hanging : HangingRun
  runs : List MavenRun := []

/-- A run of Maven has ended. -/
def Progress.record (s : Progress) (m : MavenRun) : Progress := { s with runs := s.runs ++ [m] }

def Progress.endWith (s : Progress) (result : Result) : Progress :=
  { s with phase := .ended result }

namespace Setting
variable (w : Setting)

/-! The rerun. -/

/-- The inventory of the rerun, with the modules that were named from source. -/
def rerunInventory (reading : Reading) : Option (Inventory × List String) :=
  let reported := surefireTestClassesByModule reading.freshReports
  if reading.leftModulesUnbuilt then
    (w.layout.declaredTestClassesByModule w.letter reading.skippedModules
      (defaultsIncludeTestsSuffix reading.versions)).map fun declared =>
        (merge reported declared, (declared.map Prod.fst).insertionSort (· ≤ ·))
  else some (reported, [])

/-- `partition_failing_tests`, for the sources that carry an obligation. -/
def failurePartition (reading : Reading) : FailingTestPartition :=
  { w.change with
    changedProductionJava := some reading.filteredChangedProductionFiles
    generatedTestClasses := [] }.partitionFailingTests w.letter (failingClasses reading.freshReports)

/-- The command of the rerun, with the reason there is none. -/
def rerunCommand (cmd : List Arg) (reading : Reading) (modules : Inventory) : List Arg × String :=
  excludingTestClasses w.letter cmd ((w.failurePartition reading).narrowed modules).allExcluded
    reading.versions reading.writes modules

/-- What is done with an inventory. -/
def planFor (cmd : List Arg) (reading : Reading) (modules : Inventory)
    (sourceInventoried : List String) : Plan :=
  if ((w.failurePartition reading).narrowed modules).allExcluded = [] then
    .keep ((w.failurePartition reading).narrowed modules)
  else if (w.rerunCommand cmd reading modules).1 = cmd then
    .keep (((w.failurePartition reading).narrowed modules).withoutExclusions
      (if (w.rerunCommand cmd reading modules).2 ≠ "" then (w.rerunCommand cmd reading modules).2
        else "no-usable-test-selector"))
  else
    .rerun (w.rerunCommand cmd reading modules).1 ((w.failurePartition reading).narrowed modules)
      sourceInventoried

/-- `_rerun_without_unrelated_failures`, up to the run. -/
def plan (cmd : List Arg) (reading : Reading) : Plan :=
  if !w.excludeUnrelatedFailingTests then .keep {}
  else if (w.failurePartition reading).excluded = [] then .keep (w.failurePartition reading)
  else
    match w.rerunInventory reading with
    | none => .keep ((w.failurePartition reading).withoutExclusions "incomplete-test-inventory")
    | some (modules, sourceInventoried) => w.planFor cmd reading modules sourceInventoried

/-! The steps. -/

/-- `HangingRun.evidence`. -/
def withHanging (h : HangingRun) (evidence : Evidence) : Evidence :=
  if w.stallDetectionEnabled || w.hangingTestQuarantineEnabled then
    { evidence with hanging := some h }
  else evidence

/-- The verdict on a run, as its classification ends it. -/
def classified (s : Progress) (cmd : List Arg) (completed : Completed) (evidence : Evidence) :
    Progress :=
  s.endWith
    { kind := .classified
      command := completed.args.getD cmd
      completed := some completed
      evidence := w.withHanging s.hanging evidence }

/-- `HangingRun.failure`. -/
def stallFailure (s : Progress) (h : HangingRun) (completed : Completed) : Progress :=
  { s with hanging := h }.endWith
    { kind := .stallFailure
      command := s.cmd
      completed := some completed
      evidence := { w.withHanging h {} with repairEligible := false } }

/-- After the loop: the marker, then the rerun. -/
def afterLoop (s : Progress) (completed : Completed) : Progress :=
  if !w.fullRun then w.classified s s.cmd completed {}
  else if completed.returncode = 0 ∧ completed.reading.hasMarker = false then
    s.endWith ⟨.missingEvidence, s.cmd, some completed, {}⟩
  else
    match w.plan s.cmd completed.reading with
    | .keep scope => w.classified s s.cmd completed { scope }
    | .rerun cmd scope sources => { s with phase := .rerunning completed cmd scope sources }

/-- The scene after a run that stalled. -/
def sceneOf (reading : Reading) : Scene :=
  { versions := reading.versions, reports := reading.reports, writes := reading.writes }

/-- The command without the classes listed and the one that stalled. -/
def retryCommand (s : Progress) (name : TestClass) (reading : Reading) :
    List Arg × List String × String :=
  w.command s.cmd (s.hanging.listed ++ [name.1]) (sceneOf reading)

/-- One pass of the stall loop, for a run that stalled. -/
def afterStall (s : Progress) (completed : Completed) : Progress :=
  let h := w.detect s.hanging completed.reading.unfinished
  match completed.reading.unfinished with
  | none => w.stallFailure s h completed
  | some name =>
    if h.reason ≠ "" then w.stallFailure s h completed
    else if (w.retryCommand s name completed.reading).2.1 = [] then
      let reason := (w.retryCommand s name completed.reading).2.2
      let h := { h with reason := if reason ≠ "" then reason else "test-could-not-be-quarantined" }
      w.stallFailure s h completed
    else
      { s with
        hanging := h.quarantine name
        cmd := (w.retryCommand s name completed.reading).1 }

/-- `PitCompatibilityError` without a run. -/
def incompatibleEvidence : Evidence :=
  { repairEligible := false, failureKind := some "pit_compatibility_failed" }

/-- A run of the loop has ended. -/
def afterRun (s : Progress) : Outcome → Progress
  | .ran completed =>
    if w.stallDetectionEnabled && completed.reading.stalled then w.afterStall s completed
    else w.afterLoop s completed
  | .timedOut => s.endWith ⟨.timeout, s.cmd, none, w.withHanging s.hanging {}⟩
  | .notStarted => s.endWith ⟨.commandError, s.cmd, none, w.withHanging s.hanging {}⟩
  | .incompatible _ (some completed) =>
    s.endWith
      { kind := .classified
        command := completed.args.getD s.cmd
        completed := some completed
        evidence := { failureKind := some "pit_compatibility_failed" } }
  | .incompatible _ none =>
    s.endWith ⟨.commandError, s.cmd, none, w.withHanging s.hanging incompatibleEvidence⟩

/-- The process that stands in for a rerun that PIT refused. -/
def standIn (cmd : List Arg) (message : String) : Completed :=
  { args := some cmd, returncode := 2, output := message, reading := {} }

/-- The rerun has ended. -/
def afterRerun (s : Progress) (first : Completed) (cmd : List Arg) (scope : FailingTestPartition)
    (sources : List String) : Outcome → Progress
  | .timedOut => { s with phase := .escaped }
  | .incompatible message _ =>
    w.classified s cmd (standIn cmd message) { incompatibleEvidence with scope }
  -- `except OSError`: the evidence already describes the rerun.
  | .notStarted => w.classified s s.cmd first { scope }
  | .ran completed =>
    if first.reading.hasRequiredEvidence && !completed.reading.hasRequiredEvidence then
      w.classified s s.cmd first { scope := scope.withoutExclusions "rerun-produced-no-evidence" }
    else w.classified s cmd completed { scope, sourceInventoriedModules := sources }

/-- `MavenEnforcementRunner.run`, by one outcome of Maven after the other. -/
def step (s : Progress) (outcome : Outcome) : Progress :=
  match s.phase with
  | .running =>
    w.afterRun (s.record ⟨false, s.cmd, ([], []), s.hanging.listed, outcome⟩) outcome
  | .rerunning first cmd scope sources =>
    w.afterRerun (s.record
      ⟨true, cmd, (scope.excluded, scope.collateral), s.hanging.listed, outcome⟩)
      first cmd scope sources outcome
  | .ended _ | .escaped => s

/-- Before the first run of Maven. -/
def start (cmd : List Arg) (scene : Scene) : Progress where
  phase := .running
  cmd := (w.preexclude cmd scene).1
  hanging := { pre := (w.preexclude cmd scene).2 }

end Setting

end Uta.JavaGate
