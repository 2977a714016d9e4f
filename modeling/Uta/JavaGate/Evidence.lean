/- The evidence of an enforcement names what was left out of the run that it reports, unless the
rerun times out or does not start. -/
import Uta.JavaGate.Runner

namespace Uta.JavaGate
open Uta.Lib

/-- The result reports the command of the run and how it ended. -/
def MavenRun.IsReportedBy (m : MavenRun) (r : Result) : Prop :=
  match m.outcome with
  | .ran c => r.completed = some c ∧ (r.command = m.command ∨ c.args = some r.command)
  | .incompatible message c =>
    r.completed = some (Setting.standIn m.command message) ∧ r.command = m.command ∨
      r.completed = c ∧ (r.command = m.command ∨ ∃ d, c = some d ∧ d.args = some r.command)
  | .timedOut | .notStarted => r.completed = none ∧ r.command = m.command

/-- What the evidence reports as left out. -/
def Evidence.leftOut (e : Evidence) : List String × List String :=
  (e.scope.excluded, e.scope.collateral)

/-- Nothing escapes, and a result names the classes that its run was made without. -/
structure Truthful (s : Progress) : Prop where
  returned : s.phase ≠ .escaped
  evident : ∀ r, s.phase = .ended r → ∃ m ∈ s.runs, m.IsReportedBy r ∧ m.leftOut = r.evidence.leftOut

/-- A rerun does not time out, and it starts. -/
def Completes (s : Progress) (outcome : Outcome) : Prop :=
  match s.phase with
  | .rerunning .. => outcome ≠ .timedOut ∧ outcome ≠ .notStarted
  | _ => True

instance (s : Progress) (outcome : Outcome) : Decidable (Completes s outcome) := by
  unfold Completes
  cases s.phase with
  | rerunning =>
    cases outcome with
    | timedOut => exact isFalse fun h => h.1 rfl
    | notStarted => exact isFalse fun h => h.2 rfl
    | ran | incompatible => exact isTrue ⟨Outcome.noConfusion, Outcome.noConfusion⟩
  | _ => exact isTrue trivial

/-- The runs so far were made with everything, and a rerun leaves something out. -/
structure Sequential (s : Progress) : Prop where
  whole : (∀ r, s.phase ≠ .ended r) → s.phase ≠ .escaped → ∀ m ∈ s.runs, m.leftOut = ([], [])
  narrows : ∀ first cmd scope sources, s.phase = .rerunning first cmd scope sources →
    scope.allExcluded ≠ [] ∧ ∃ m ∈ s.runs, m.outcome = .ran first ∧ m.command = s.cmd

section Steps
variable (w : Setting)

theorem leftOut_withHanging (h : HangingRun) (e : Evidence) :
    (w.withHanging h e).leftOut = e.leftOut := by
  unfold Setting.withHanging
  split <;> rfl

/-- What is kept after the first run leaves nothing out; a rerun does. -/
theorem plan_cases (cmd : List Arg) (reading : Reading) :
    (∃ scope, w.plan cmd reading = .keep scope ∧ scope.allExcluded = []) ∨
    ∃ modules sources, w.rerunInventory reading = some (modules, sources) ∧
      (w.rerunCommand cmd reading modules).1 ≠ cmd ∧
      ((w.failurePartition reading).narrowed modules).allExcluded ≠ [] ∧
      w.plan cmd reading = .rerun (w.rerunCommand cmd reading modules).1
        ((w.failurePartition reading).narrowed modules) sources := by
  have collateral : (w.failurePartition reading).collateral = [] := by
    unfold Setting.failurePartition Change.partitionFailingTests
    split
    · rfl
    · split
      · rfl
      · exact (Failures.mem_sorted _ _ "").2.2
  unfold Setting.plan
  split
  · exact .inl ⟨{}, rfl, rfl⟩
  · split
    · next none => exact .inl ⟨_, rfl, List.append_eq_nil_iff.mpr ⟨none, collateral⟩⟩
    · split
      · exact .inl ⟨_, rfl, rfl⟩
      · next modules sources found =>
        unfold Setting.planFor
        split
        · next empty => exact .inl ⟨_, rfl, empty⟩
        · next nonempty =>
          split
          · exact .inl ⟨_, rfl, rfl⟩
          · next changed => exact .inr ⟨modules, sources, found, changed, nonempty, rfl⟩

theorem leftOut_of_empty {scope : FailingTestPartition} (empty : scope.allExcluded = []) :
    (scope.excluded, scope.collateral) = (([], []) : List String × List String) := by
  obtain ⟨excluded, collateral⟩ := List.append_eq_nil_iff.mp empty
  rw [excluded, collateral]

/-- A classified run is reported by the verdict. -/
theorem truthful_classified (s : Progress) {m : MavenRun} (made : m ∈ s.runs) {completed : Completed}
    (outcome : m.outcome = .ran completed) {e : Evidence} (left : m.leftOut = e.leftOut) :
    Truthful (w.classified s m.command completed e) := by
  refine ⟨Phase.noConfusion, fun r ended => ?_⟩
  obtain rfl := Phase.ended.inj ended
  refine ⟨m, made, ?_, left.trans (leftOut_withHanging w s.hanging e).symm⟩
  unfold MavenRun.IsReportedBy
  rw [outcome]
  refine ⟨rfl, ?_⟩
  cases args : completed.args with
  | none => exact .inl (by rw [Option.getD_none])
  | some executed => exact .inr (by rw [Option.getD_some])

/-- A result that is returned without an exclusion. -/
theorem truthful_endWith (s : Progress) {m : MavenRun} (made : m ∈ s.runs) {r : Result}
    (reported : m.IsReportedBy r) (left : m.leftOut = r.evidence.leftOut) :
    Truthful (s.endWith r) := by
  refine ⟨Phase.noConfusion, fun r' ended => ?_⟩
  obtain rfl := Phase.ended.inj ended
  exact ⟨m, made, reported, left⟩

/-- A run of the loop that has completed. -/
def loopRun (s : Progress) (outcome : Outcome) : MavenRun :=
  ⟨false, s.cmd, ([], []), s.hanging.listed, outcome⟩

theorem truthful_stallFailure (s : Progress) (h : HangingRun) {m : MavenRun} (made : m ∈ s.runs)
    {completed : Completed} (outcome : m.outcome = .ran completed) (command : m.command = s.cmd)
    (left : m.leftOut = ([], [])) : Truthful (w.stallFailure s h completed) := by
  have silent : ({ w.withHanging h {} with repairEligible := false } : Evidence).leftOut
      = ([], []) := leftOut_withHanging w h {}
  refine truthful_endWith { s with hanging := h } made ?_ (left.trans silent.symm)
  unfold MavenRun.IsReportedBy
  rw [outcome]
  exact ⟨rfl, .inl command.symm⟩

/-- The stall loop goes on, or has ended with what its last run said. -/
theorem afterStall_cases (s : Progress) (completed : Completed) :
    (∃ h, w.afterStall s completed = w.stallFailure s h completed ∧ h.pre = s.hanging.pre ∧
      h.quarantined = s.hanging.quarantined) ∨
    ∃ name h, w.reasonFor s.hanging name = "" ∧
      completed.reading.unfinished = some name ∧
      h = w.detect s.hanging (some name) ∧
      (w.retryCommand s name completed.reading).2.1 ≠ [] ∧
      w.afterStall s completed = { s with
        hanging := h.quarantine name
        cmd := (w.retryCommand s name completed.reading).1 } := by
  unfold Setting.afterStall
  cases unfinished : completed.reading.unfinished with
  | none => exact .inl ⟨_, rfl, rfl, rfl⟩
  | some name =>
    dsimp only
    split
    · exact .inl ⟨_, rfl, rfl, rfl⟩
    · next fine =>
      split
      · exact .inl ⟨_, rfl, rfl, rfl⟩
      · next excludes => exact .inr ⟨name, _, not_not.mp fine, rfl, rfl, excludes, rfl⟩

theorem sequential_of_ended {s : Progress} {r : Result} (ended : s.phase = .ended r) :
    Sequential s where
  whole still := absurd ended (still r)
  narrows _ _ _ _ phase := Phase.noConfusion (ended.symm.trans phase)

/-- After a run of the loop: truthful, and without exclusions so far. -/
theorem afterRun_truthful (s : Progress) (outcome : Outcome) (running : s.phase = .running)
    {m : MavenRun} (made : m ∈ s.runs) (own : m.outcome = outcome) (command : m.command = s.cmd)
    (whole : ∀ m ∈ s.runs, m.leftOut = ([], [])) :
    Truthful (w.afterRun s outcome) ∧ Sequential (w.afterRun s outcome) := by
  have left := whole m made
  cases outcome with
  | timedOut =>
    refine ⟨truthful_endWith s made ?_ (left.trans (leftOut_withHanging w s.hanging {}).symm), sequential_of_ended rfl⟩
    unfold MavenRun.IsReportedBy
    rw [own]
    exact ⟨rfl, command.symm⟩
  | notStarted =>
    refine ⟨truthful_endWith s made ?_ (left.trans (leftOut_withHanging w s.hanging {}).symm), sequential_of_ended rfl⟩
    unfold MavenRun.IsReportedBy
    rw [own]
    exact ⟨rfl, command.symm⟩
  | incompatible message completed =>
    cases completed with
    | none =>
      refine ⟨truthful_endWith s made ?_ (left.trans
        (leftOut_withHanging w s.hanging Setting.incompatibleEvidence).symm), sequential_of_ended rfl⟩
      unfold MavenRun.IsReportedBy
      rw [own]
      exact .inr ⟨rfl, .inl command.symm⟩
    | some completed =>
      refine ⟨truthful_endWith s made ?_ left, sequential_of_ended rfl⟩
      unfold MavenRun.IsReportedBy
      rw [own]
      refine .inr ⟨rfl, ?_⟩
      cases args : completed.args with
      | none => exact .inl command.symm
      | some executed => exact .inr ⟨completed, rfl, args⟩
  | ran completed =>
    have classified : ∀ e : Evidence, e.leftOut = ([], []) →
        Truthful (w.classified s s.cmd completed e) := fun e silent =>
      command ▸ truthful_classified w s made own (left.trans silent.symm)
    unfold Setting.afterRun
    dsimp only
    split
    · rcases afterStall_cases w s completed with ⟨h, same, -⟩ | ⟨name, h, -, -, -, -, same⟩
      · rw [same]
        exact ⟨truthful_stallFailure w s h made own command left, sequential_of_ended rfl⟩
      · rw [same]
        refine ⟨⟨?_, fun r phase => ?_⟩, fun _ _ => whole, fun _ _ _ _ phase => ?_⟩
        · rw [running]
          exact Phase.noConfusion
        · exact Phase.noConfusion (running.symm.trans phase)
        · exact Phase.noConfusion (running.symm.trans phase)
    · unfold Setting.afterLoop
      split
      · exact ⟨classified {} rfl, sequential_of_ended rfl⟩
      · split
        · refine ⟨truthful_endWith s made ?_ left, sequential_of_ended rfl⟩
          unfold MavenRun.IsReportedBy
          rw [own]
          exact ⟨rfl, .inl command.symm⟩
        · rcases plan_cases w s.cmd completed.reading with
            ⟨scope, same, empty⟩ | ⟨modules, sources, -, -, nonempty, same⟩
          · rw [same]
            exact ⟨classified { scope } (leftOut_of_empty empty), sequential_of_ended rfl⟩
          · rw [same]
            refine ⟨⟨Phase.noConfusion, fun r phase => Phase.noConfusion phase⟩,
              fun _ _ => whole, ?_⟩
            rintro first cmd scope sources' phase
            obtain ⟨rfl, rfl, rfl, -⟩ := Phase.rerunning.inj phase
            exact ⟨nonempty, m, made, own, command⟩

/-- After the rerun: truthful exactly when it has completed. -/
theorem afterRerun_truthful_iff (s : Progress) (outcome : Outcome) {first : Completed}
    {cmd : List Arg} {scope : FailingTestPartition} (sources : List String)
    (nonempty : scope.allExcluded ≠ []) {m₁ m₂ : MavenRun}
    (before : m₁ ∈ s.runs) (ran : m₁.outcome = .ran first) (command₁ : m₁.command = s.cmd)
    (made : m₂ ∈ s.runs) (own : m₂.outcome = outcome) (command₂ : m₂.command = cmd)
    (left : m₂.leftOut = (scope.excluded, scope.collateral))
    (left₁ : m₁.leftOut = ([], [])) (whole : ∀ m ∈ s.runs, m = m₂ ∨ m.leftOut = ([], [])) :
    Truthful (w.afterRerun s first cmd scope sources outcome) ↔
      outcome ≠ .timedOut ∧ outcome ≠ .notStarted := by
  cases outcome with
  | timedOut =>
    refine iff_of_false (fun truthful => truthful.returned rfl) fun completes => completes.1 rfl
  | notStarted =>
    refine iff_of_false (fun truthful => ?_) fun completes => completes.2 rfl
    obtain ⟨m, there, reported, same⟩ := truthful.evident _ rfl
    rw [leftOut_withHanging] at same
    rcases whole m there with rfl | empty
    · unfold MavenRun.IsReportedBy at reported
      rw [own] at reported
      exact absurd reported.1 (Option.some_ne_none first)
    · rw [empty] at same
      obtain ⟨excluded, collateral⟩ := Prod.mk.inj same
      exact nonempty (List.append_eq_nil_iff.mpr ⟨excluded.symm, collateral.symm⟩)
  | incompatible message completed =>
    refine iff_of_true ?_ ⟨Outcome.noConfusion, Outcome.noConfusion⟩
    refine truthful_endWith s made ?_ (left.trans (leftOut_withHanging w s.hanging
      { Setting.incompatibleEvidence with scope }).symm)
    unfold MavenRun.IsReportedBy
    rw [own, command₂]
    exact .inl ⟨rfl, rfl⟩
  | ran completed =>
    refine iff_of_true ?_ ⟨Outcome.noConfusion, Outcome.noConfusion⟩
    unfold Setting.afterRerun
    dsimp only
    split
    · exact command₁ ▸ truthful_classified w s before ran left₁
    · exact command₂ ▸ truthful_classified w s made own left

theorem truthful_start (cmd : List Arg) (scene : Scene) : Truthful (w.start cmd scene) :=
  ⟨Phase.noConfusion, fun _ phase => Phase.noConfusion phase⟩

theorem sequential_start (cmd : List Arg) (scene : Scene) : Sequential (w.start cmd scene) where
  whole _ _ _ made := absurd made List.not_mem_nil
  narrows _ _ _ _ phase := Phase.noConfusion phase

/-- The verdict of the rerun ends the enforcement, unless it escapes. -/
theorem afterRerun_phase (s : Progress) (first : Completed) (cmd : List Arg)
    (scope : FailingTestPartition) (sources : List String) (outcome : Outcome) :
    (w.afterRerun s first cmd scope sources outcome).phase = .escaped ∨
      ∃ r, (w.afterRerun s first cmd scope sources outcome).phase = .ended r := by
  cases outcome with
  | timedOut => exact .inl rfl
  | notStarted => exact .inr ⟨_, rfl⟩
  | incompatible message completed => exact .inr ⟨_, rfl⟩
  | ran completed =>
    unfold Setting.afterRerun
    dsimp only
    split
    · exact .inr ⟨_, rfl⟩
    · exact .inr ⟨_, rfl⟩

/-- A run with its outcome is added to those made. -/
theorem mem_made {s : Progress} {m m' : MavenRun} (there : m' ∈ s.runs ++ [m])
    (whole : ∀ m ∈ s.runs, m.leftOut = ([], [])) : m' = m ∨ m'.leftOut = ([], []) := by
  rcases List.mem_append.mp there with before | now
  · exact .inr (whole m' before)
  · exact .inl (List.mem_singleton.mp now)

theorem step_truthful {s : Progress} (inv : Sequential s) (outcome : Outcome) :
    Sequential (w.step s outcome) ∧
      (Truthful s → (Truthful (w.step s outcome) ↔ Completes s outcome)) := by
  unfold Setting.step Completes
  cases phase : s.phase with
  | running =>
    have whole := inv.whole (fun r => by rw [phase]; exact Phase.noConfusion)
      (by rw [phase]; exact Phase.noConfusion)
    obtain ⟨told, next⟩ := afterRun_truthful w
      (s.record ⟨false, s.cmd, ([], []), s.hanging.listed, outcome⟩) outcome phase
      (List.mem_append_right _ (List.mem_singleton_self _)) rfl rfl
      (fun m there => (mem_made there whole).elim (fun own => own ▸ rfl) id)
    exact ⟨next, fun _ => iff_of_true told trivial⟩
  | rerunning first cmd scope sources =>
    have whole := inv.whole (fun r => by rw [phase]; exact Phase.noConfusion)
      (by rw [phase]; exact Phase.noConfusion)
    obtain ⟨nonempty, m₁, before, ran, command₁⟩ := inv.narrows first cmd scope sources phase
    refine ⟨?_, fun _ => afterRerun_truthful_iff w _ outcome sources nonempty
      (List.mem_append_left _ before) ran command₁
      (List.mem_append_right _ (List.mem_singleton_self _)) rfl rfl rfl (whole m₁ before)
      (fun m there => mem_made there whole)⟩
    rcases afterRerun_phase w (s.record
      ⟨true, cmd, (scope.excluded, scope.collateral), s.hanging.listed, outcome⟩) first cmd scope
      sources outcome with escaped | ⟨r, ended⟩
    · exact ⟨fun _ still => absurd escaped still, fun _ _ _ _ next =>
        Phase.noConfusion (escaped.symm.trans next)⟩
    · exact sequential_of_ended ended
  | ended r => exact ⟨inv, fun truthful => iff_of_true truthful trivial⟩
  | escaped => exact ⟨inv, fun truthful => iff_of_true truthful trivial⟩

/-! The end of an enforcement. -/

/-- How many more runs of Maven there can be. -/
def runsLeft (s : Progress) : ℕ :=
  match s.phase with
  | .running => w.stallRetries - s.hanging.retries + 2
  | .rerunning .. => 1
  | .ended _ | .escaped => 0

theorem reasonFor_nil {h : HangingRun} {name : TestClass} (fine : w.reasonFor h name = "") :
    name.1 ∉ (w.partition [name.1]).retained ∧ h.retries < w.stallRetries := by
  unfold Setting.reasonFor at fine
  split at fine
  · simp at fine
  · next unrelated =>
    split at fine
    · simp at fine
    · split at fine
      · simp at fine
      · next more => exact ⟨unrelated, Nat.lt_of_not_le more⟩

theorem runsLeft_afterRun (s : Progress) (outcome : Outcome) (running : s.phase = .running) :
    runsLeft w (w.afterRun s outcome) + 1 ≤ runsLeft w s := by
  have now : runsLeft w s = w.stallRetries - s.hanging.retries + 2 := by rw [runsLeft, running]
  rw [now]
  cases outcome with
  | timedOut => exact Nat.le_add_left 1 _
  | notStarted => exact Nat.le_add_left 1 _
  | incompatible message completed =>
    cases completed with
    | none => exact Nat.le_add_left 1 _
    | some completed => exact Nat.le_add_left 1 _
  | ran completed =>
    unfold Setting.afterRun
    dsimp only
    split
    · rcases afterStall_cases w s completed with
        ⟨h, same, -⟩ | ⟨name, h, fine, -, rfl, -, same⟩
      · rw [same]
        exact Nat.le_add_left 1 _
      · have more := (reasonFor_nil w fine).2
        rw [same, runsLeft]
        simp only [running, Setting.detect, HangingRun.quarantine]
        omega
    · unfold Setting.afterLoop
      split
      · exact Nat.le_add_left 1 _
      · split
        · exact Nat.le_add_left 1 _
        · split
          · exact Nat.le_add_left 1 _
          · exact Nat.le_add_left 2 _

theorem runsLeft_step (s : Progress) (outcome : Outcome) :
    runsLeft w (w.step s outcome) ≤ runsLeft w s - 1 := by
  unfold Setting.step
  cases phase : s.phase with
  | running =>
    exact Nat.le_sub_one_of_lt (runsLeft_afterRun w (s.record _) outcome phase)
  | rerunning first cmd scope sources =>
    rcases afterRerun_phase w (s.record
      ⟨true, cmd, (scope.excluded, scope.collateral), s.hanging.listed, outcome⟩) first cmd scope
      sources outcome with escaped | ⟨r, ended⟩
    · rw [runsLeft, escaped]
      exact Nat.zero_le _
    · rw [runsLeft, ended]
      exact Nat.zero_le _
  | ended r =>
    rw [runsLeft, phase]
    exact Nat.zero_le _
  | escaped =>
    rw [runsLeft, phase]
    exact Nat.zero_le _

theorem runsLeft_run (s : Progress) (outcomes : List Outcome) :
    runsLeft w (run w.step s outcomes) ≤ runsLeft w s - outcomes.length := by
  induction outcomes generalizing s with
  | nil => exact Nat.le_refl _
  | cons outcome outcomes ih =>
    have one := runsLeft_step w s outcome
    have rest := ih (w.step s outcome)
    rw [run_cons, List.length_cons]
    omega

theorem always_truthful_iff (cmd : List Arg) (scene : Scene) (outcomes : List Outcome) :
    Always w.step Truthful (w.start cmd scene) outcomes ↔
      Meets w.step Completes (w.start cmd scene) outcomes :=
  @always_iff_meets_of _ _ w.step Sequential Truthful Completes
    (fun _ outcome inv => (step_truthful w inv outcome).1)
    (fun _ outcome inv => (step_truthful w inv outcome).2) _ outcomes (sequential_start w cmd scene)
    (truthful_start w cmd scene)

end Steps

/-- A full run that leaves unrelated failures out, without retries. -/
def plainSetting : Setting where
  fullRun := true
  excludeUnrelatedFailingTests := true
  stallDetectionEnabled := true
  stallRetries := 0
  hangingTestQuarantineEnabled := false
  active := []
  change := { changedJava := some ["app/src/main/java/a/Card.java"],
              changedProductionJava := some ["app/src/main/java/a/Card.java"],
              targetsType := fun _ _ => false }
  letter _ := false
  layout := { poms := [("app", "app")], tests := [] }

/-- A first run in which an unrelated test fails. -/
def redRun : Completed where
  args := none
  returncode := 1
  output := "[test-enforcer]"
  reading :=
    { hasMarker := true
      hasRequiredEvidence := true
      freshReports := [⟨"app", "a.RedTest", some 1⟩, ⟨"app", "a.CardTest", some 0⟩]
      filteredChangedProductionFiles := ["app/src/main/java/a/Card.java"] }

end Uta.JavaGate
