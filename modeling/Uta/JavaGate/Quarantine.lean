/- The classes listed as hanging: how many runs they cost, and that no later run selects them while
no guard puts one back. -/
import Uta.JavaGate.Evidence

namespace Uta.JavaGate
open Uta.Lib

/-! The failures of a stall and of a rerun. -/

theorem mapM_some {α β : Type} (f : α → Option β) :
    ∀ (l : List α) (r : List β), l.mapM f = some r → ∀ b ∈ r, ∃ a ∈ l, f a = some b := by
  intro l
  induction l with
  | nil =>
    intro r made b mem
    obtain rfl := Option.some.inj made
    cases mem
  | cons a l ih =>
    intro r made b mem
    rw [List.mapM_cons] at made
    obtain ⟨c, first, made⟩ := Option.bind_eq_some_iff.mp made
    obtain ⟨rest, later, made⟩ := Option.bind_eq_some_iff.mp made
    obtain rfl := Option.some.inj made
    rcases List.mem_cons.mp mem with rfl | mem
    · exact ⟨a, List.mem_cons_self .., first⟩
    · obtain ⟨a', there, same⟩ := ih rest later b mem
      exact ⟨a', List.mem_cons_of_mem _ there, same⟩

/-- The declared classes are test sources of the layout. -/
theorem declared_clean {l : Layout} {letter : Char → Bool} {names : List String} {suffix : Bool}
    {declared : Inventory}
    (found : l.declaredTestClassesByModule letter names suffix = some declared) :
    ∀ c ∈ known declared, c ≠ "" ∧ strip c = c := by
  intro c mem
  unfold Layout.declaredTestClassesByModule at found
  split at found
  · cases found
  · obtain ⟨pairs, made, rfl⟩ := Option.map_eq_some_iff.mp found
    obtain ⟨m, there, inside⟩ := mem_known.mp mem
    obtain ⟨name, -, own⟩ := mapM_some _ _ _ made m (List.mem_dedup.mp there)
    split at own
    · next module _ =>
      obtain rfl := Option.some.inj own
      obtain ⟨t, -, rfl⟩ := List.mem_map.mp (List.mem_filter.mp inside).1
      exact t.2.2
    · cases own

section Setting
variable (w : Setting)

/-- The failures that `HangingRun.command` narrows: the names, and their inventory. -/
def Setting.failures (declared : Inventory) (scene : Scene) (names : List String)
    (ready : ∀ c ∈ known declared, c ≠ "" ∧ strip c = c) (own : ∀ c ∈ names, c ≠ "" ∧ strip c = c)
    (sourced : ∀ c ∈ names, w.layout.modulesOf c ≠ []) : Failures where
  failing := names
  modules := w.inventory declared scene names
  named c mem := by
    obtain ⟨module, there⟩ := List.exists_mem_of_ne_nil _ (sourced c mem)
    refine mem_known_merge.mpr (.inr (mem_known.mpr ⟨(module, [c]), ?_, List.mem_singleton_self c⟩))
    exact List.mem_flatMap.mpr ⟨c, mem, List.mem_map_of_mem there⟩
  clean c mem := by
    rcases mem_known_merge.mp mem with before | named
    · rcases mem_known_merge.mp before with declared | reported
      · exact ready c declared
      · obtain ⟨r, -, nonempty, rfl⟩ := mem_known_reports.mp reported
        exact ⟨nonempty, strip_strip _⟩
    · obtain ⟨m, there, inside⟩ := mem_known.mp named
      obtain ⟨name, mem, made⟩ := List.mem_flatMap.mp there
      obtain ⟨module, -, rfl⟩ := List.mem_map.mp made
      exact List.mem_singleton.mp inside ▸ own name mem

/-- The class is not put back by the guard against modules without tests. -/
def Setting.Held (declared : Inventory) (scene : Scene) (names : List String) : Prop :=
  ∀ c ∈ names, c ∉ ((w.partition names).expandCollidingSimpleNameExclusions
    (w.inventory declared scene names)).protectedClasses (w.inventory declared scene names)

/-- Each listed class is unrelated to the change, or has the name of a listed one that is. -/
def Setting.Backed (names : List String) : Prop := ∀ c ∈ names, (c ≠ "" ∧ strip c = c) ∧
  ∃ x ∈ names, w.change.Unrelated w.letter x ∧ simpleName x = simpleName c

variable {w}

/-- A command that leaves something out selects none of what it leaves out. -/
theorem command_excludes {cmd : List Arg} {names : List String} {scene : Scene}
    (own : ∀ c ∈ names, c ≠ "" ∧ strip c = c) (excludes : (w.command cmd names scene).2.1 ≠ []) :
    ∃ declared, ∃ f : Failures, w.declared scene = some declared ∧ f.failing = names ∧
      f.modules = w.inventory declared scene names ∧
      (w.command cmd names scene).2.1 = (f.final w.letter w.change).allExcluded ∧
      ∀ c ∈ (w.command cmd names scene).2.1, selects (w.command cmd names scene).1 c = false := by
  unfold Setting.command at excludes ⊢
  split at excludes
  · exact absurd rfl excludes
  · next declared found =>
    split at excludes
    · exact absurd rfl excludes
    · next sources =>
      have sourced : ∀ c ∈ names, w.layout.modulesOf c ≠ [] := by
        intro c mem none
        exact sources (List.any_eq_true.mpr ⟨c, mem, decide_eq_true none⟩)
      split at excludes
      · exact absurd rfl excludes
      · next nonempty =>
        let f := w.failures declared scene names (declared_clean found) own sourced
        have final : w.narrowedPartition declared scene names = f.final w.letter w.change := rfl
        refine ⟨declared, f, found, rfl, rfl, ?_⟩
        simp only [if_neg sources, if_neg nonempty] at excludes ⊢
        unfold Setting.select at excludes ⊢
        simp only at excludes ⊢
        split at excludes
        · next changed =>
          rw [if_pos changed]
          refine ⟨rfl, fun c out => ?_⟩
          rw [final] at out changed ⊢
          exact Failures.not_selected out changed
        · exact absurd rfl excludes

/-- A listed class that no guard puts back is left out. -/
theorem listed_excluded {f : Failures} {declared : Inventory} {scene : Scene} {names : List String}
    (failing : f.failing = names) (modules : f.modules = w.inventory declared scene names)
    (backed : w.Backed names) (held : w.Held declared scene names) :
    ∀ c ∈ names, c ∈ (f.final w.letter w.change).allExcluded := by
  intro c mem
  obtain ⟨-, x, there, unrelated, same⟩ := backed c mem
  have memF : ∀ d ∈ names, d ∈ f.failing := fun d mem => failing ▸ mem
  have wideX : f.Widened w.letter w.change x := .inl ⟨memF x there, unrelated⟩
  refine (Failures.mem_final c).2.2.2.mpr ⟨?_, ?_⟩
  · exact Failures.widened_of_same wideX (f.named c (memF c mem)) same.symm
  · have free := held c mem
    rw [← modules] at free
    unfold Failures.Protected Failures.initial
    rw [failing]
    exact free

/-- What is left out is backed. -/
theorem excluded_backed {f : Failures} :
    w.Backed (f.final w.letter w.change).allExcluded := by
  intro c out
  obtain ⟨wide, free⟩ := (Failures.mem_final c).2.2.2.mp out
  refine ⟨f.clean c (Failures.widened_known wide), ?_⟩
  rcases wide with unrelated | added
  · exact ⟨c, out, unrelated.2, rfl⟩
  · obtain ⟨-, ⟨x, outX, same⟩, collides⟩ := FailingTestPartition.mem_expanded.mp added
    have unrelated := (Failures.mem_initial x).1.mp outX
    exact ⟨x, (Failures.mem_final x).2.2.2.mpr ⟨.inl unrelated,
      Failures.not_protected (.inl unrelated) (same ▸ collides)⟩, unrelated.2, same⟩

/-- A class that stays out of `retained` is unrelated. -/
theorem unrelated_of_not_retained {name : TestClass}
    (out : name.1 ∉ (w.partition [name.1]).retained) : w.change.Unrelated w.letter name.1 := by
  by_contra related
  let f : Failures :=
    { failing := [name.1]
      modules := [("", [name.1])]
      named := fun c mem => mem_known.mpr ⟨_, List.mem_singleton_self _, mem⟩
      clean := fun c mem => by
        obtain ⟨m, there, inside⟩ := mem_known.mp mem
        obtain rfl := List.mem_singleton.mp there
        exact List.mem_singleton.mp inside ▸ name.2 }
  exact out ((@Failures.mem_initial w.letter w.change f name.1).2.mpr
    ⟨List.mem_singleton_self _, related⟩)

/-- The rerun selects only classes with the name of one that its inventory keeps. -/
theorem rerun_selects {cmd : List Arg} {reading : Reading} {modules : Inventory}
    {sources : List String} (found : w.rerunInventory reading = some (modules, sources))
    (nonempty : ((w.failurePartition reading).narrowed modules).allExcluded ≠ [])
    (changed : (w.rerunCommand cmd reading modules).1 ≠ cmd) {c : String}
    (selected : selects (w.rerunCommand cmd reading modules).1 c = true) :
    ∃ d ∈ known modules, d ∉ ((w.failurePartition reading).narrowed modules).allExcluded ∧
      simpleName d = simpleName c := by
  have ready : ∃ declared, modules =
      merge (surefireTestClassesByModule reading.freshReports) declared ∧
      ∀ c ∈ known declared, c ≠ "" ∧ strip c = c := by
    unfold Setting.rerunInventory at found
    dsimp only at found
    split at found
    · obtain ⟨declared, made, same⟩ := Option.map_eq_some_iff.mp found
      exact ⟨declared, (Prod.mk.inj same).1.symm, declared_clean made⟩
    · exact ⟨[], (Prod.mk.inj (Option.some.inj found)).1.symm, fun c mem => by cases mem⟩
  obtain ⟨declared, rfl, clean⟩ := ready
  obtain ⟨d, kept, same⟩ := @Failures.namesake_of_selects w.letter
    { w.change with
      changedProductionJava := some reading.filteredChangedProductionFiles
      generatedTestClasses := [] }
    (Failures.ofReports reading.freshReports declared clean) _ _ nonempty cmd c changed selected
  obtain ⟨there, free⟩ := Failures.mem_kept.mp kept
  exact ⟨d, there, free, same⟩

end Setting

/-! The runs. -/

section Runs
variable (w : Setting)

/-- The loop makes at most one run more than it has retries, only unrelated classes are
quarantined, and no run selects a class that was listed before it. -/
structure Quarantined (s : Progress) : Prop where
  bounded : (s.runs.filter (!·.rerun)).length ≤ 1 + w.stallRetries
  unrelated : ∀ c ∈ s.hanging.quarantined, w.change.Unrelated w.letter c.1
  spared : ∀ m ∈ s.runs, ∀ c ∈ m.listed, selects m.command c = false

/-- What a stall should find: no listed class is put back by the guard. -/
def HeldBack (h : HangingRun) (reading : Reading) : Prop :=
  ∀ name ∈ reading.unfinished, w.reasonFor h name = "" →
    ∀ declared ∈ w.declared (Setting.sceneOf reading),
      w.Held declared (Setting.sceneOf reading) (h.listed ++ [name.1])

/-- What a rerun should find: its inventory keeps no class with the name of a listed one. -/
def Forgotten (h : HangingRun) (reading : Reading) : Prop :=
  ∀ inventory ∈ w.rerunInventory reading, ∀ c ∈ h.listed, ∀ d ∈ known inventory.1,
    simpleName d = simpleName c →
      d ∈ ((w.failurePartition reading).narrowed inventory.1).allExcluded

/-- What the outcome of a run in the loop should leave. -/
def Careful (s : Progress) (outcome : Outcome) : Prop :=
  match s.phase, outcome with
  | .running, .ran completed =>
    if w.stallDetectionEnabled && completed.reading.stalled then
      HeldBack w s.hanging completed.reading
    else Forgotten w s.hanging completed.reading
  | _, _ => True

instance (declared : Inventory) (scene : Scene) (names : List String) :
    Decidable (w.Held declared scene names) := by unfold Setting.Held; infer_instance

instance (h : HangingRun) (reading : Reading) : Decidable (HeldBack w h reading) := by
  unfold HeldBack; infer_instance

instance (h : HangingRun) (reading : Reading) : Decidable (Forgotten w h reading) := by
  unfold Forgotten; infer_instance

instance (s : Progress) (outcome : Outcome) : Decidable (Careful w s outcome) := by
  unfold Careful
  generalize s.phase = phase
  refine Phase.casesOn phase (Outcome.casesOn outcome ?_ ?_ ?_ ?_) ?_ ?_ ?_ <;> intros <;>
    dsimp only <;> infer_instance

/-- What holds between the runs. -/
structure Watched (s : Progress) : Prop extends Quarantined w s where
  counted : s.phase = .running →
    (s.runs.filter (!·.rerun)).length = s.hanging.retries ∧ s.hanging.retries ≤ w.stallRetries
  backed : w.Backed s.hanging.listed
  commanded : s.phase = .running → ∀ c ∈ s.hanging.listed, selects s.cmd c = false
  recommanded : ∀ first cmd scope sources, s.phase = .rerunning first cmd scope sources →
    ∀ c ∈ s.hanging.listed, selects cmd c = false

/-- Where the enforcement ends, only the runs and the lists count. -/
theorem Watched.of_closed {s : Progress} (kept : Quarantined w s) (backed : w.Backed s.hanging.listed)
    (closed : (∃ r, s.phase = .ended r) ∨ s.phase = .escaped) : Watched w s where
  toQuarantined := kept
  counted running := by
    rcases closed with ⟨r, ended⟩ | escaped
    · exact Phase.noConfusion (running.symm.trans ended)
    · exact Phase.noConfusion (running.symm.trans escaped)
  backed := backed
  commanded running := by
    rcases closed with ⟨r, ended⟩ | escaped
    · exact Phase.noConfusion (running.symm.trans ended)
    · exact Phase.noConfusion (running.symm.trans escaped)
  recommanded _ _ _ _ phase := by
    rcases closed with ⟨r, ended⟩ | escaped
    · exact Phase.noConfusion (phase.symm.trans ended)
    · exact Phase.noConfusion (phase.symm.trans escaped)

variable {w}

/-- A class that stalled is listed after the others. -/
theorem listed_quarantine (h : HangingRun) (name : TestClass) :
    (h.quarantine name).listed = h.listed ++ [name.1] := by
  rw [HangingRun.listed, HangingRun.listed, HangingRun.quarantine, List.map_append,
    List.append_assoc]
  rfl

theorem backed_append {names : List String} (backed : w.Backed names) {name : TestClass}
    (unrelated : w.change.Unrelated w.letter name.1) : w.Backed (names ++ [name.1]) := by
  intro c mem
  rcases List.mem_append.mp mem with old | new
  · obtain ⟨clean, x, there, rest⟩ := backed c old
    exact ⟨clean, x, List.mem_append_left _ there, rest⟩
  · obtain rfl := List.mem_singleton.mp new
    exact ⟨name.2, name.1, mem, unrelated, rfl⟩

/-- The run is made without the listed classes, and counted. -/
theorem quarantined_record {s : Progress} (kept : Quarantined w s) {m : MavenRun}
    (spares : ∀ c ∈ m.listed, selects m.command c = false)
    (room : m.rerun = true ∨ (s.runs.filter (!·.rerun)).length ≤ w.stallRetries) :
    Quarantined w (s.record m) where
  bounded := by
    rw [Progress.record, List.filter_append, List.length_append]
    rcases room with own | room
    · have bound := kept.bounded
      rw [List.filter_cons_of_neg (by rw [own]; exact Bool.false_ne_true)]
      exact bound
    · have one := List.length_filter_le (fun m : MavenRun => !m.rerun) [m]
      rw [List.length_singleton] at one
      omega
  unrelated := kept.unrelated
  spared m' there := by
    rcases List.mem_append.mp there with before | now
    · exact kept.spared m' before
    · obtain rfl := List.mem_singleton.mp now
      exact spares

theorem count_record (s : Progress) {m : MavenRun} (own : m.rerun = false) :
    ((s.record m).runs.filter (!·.rerun)).length = (s.runs.filter (!·.rerun)).length + 1 := by
  rw [Progress.record, List.filter_append, List.length_append,
    List.filter_cons_of_pos (by rw [own]; rfl)]
  rfl

/-- A stalled run is repeated without what is listed, or the enforcement ends. -/
theorem watched_afterStall {s : Progress} (running : s.phase = .running) (kept : Quarantined w s)
    (counted : (s.runs.filter (!·.rerun)).length = s.hanging.retries + 1)
    (backed : w.Backed s.hanging.listed) (completed : Completed)
    (held : HeldBack w s.hanging completed.reading) : Watched w (w.afterStall s completed) := by
  rcases afterStall_cases w s completed with
    ⟨h, same, pre, quarantined⟩ | ⟨name, h, fine, unfinished, rfl, excludes, same⟩
  · have listed : h.listed = s.hanging.listed := by
      rw [HangingRun.listed, HangingRun.listed, pre, quarantined]
    rw [same]
    refine .of_closed w ⟨kept.bounded, ?_, kept.spared⟩ ?_ (.inl ⟨_, rfl⟩)
    · intro c mem
      exact kept.unrelated c (quarantined ▸ mem)
    · exact (congrArg w.Backed listed).mpr backed
  · obtain ⟨stays, more⟩ := reasonFor_nil w fine
    have unrelated := unrelated_of_not_retained stays
    have backed' := backed_append backed unrelated
    obtain ⟨declared, f, found, failing, modules, left, blind⟩ :=
      command_excludes (fun c mem => (backed' c mem).1) excludes
    have out := listed_excluded failing modules backed' (held name unfinished fine declared found)
    have listed : ((w.detect s.hanging (some name)).quarantine name).listed =
        s.hanging.listed ++ [name.1] := listed_quarantine _ name
    rw [same]
    refine ⟨⟨kept.bounded, ?_, kept.spared⟩, fun _ => ⟨counted, more⟩, ?_, fun _ => ?_, ?_⟩
    · intro c mem
      rcases List.mem_append.mp mem with old | new
      · exact kept.unrelated c old
      · obtain rfl := List.mem_singleton.mp new
        exact unrelated
    · exact (congrArg w.Backed listed).mpr backed'
    · intro c mem
      refine blind c (left ▸ out c ?_)
      exact listed ▸ mem
    · exact fun _ _ _ _ phase => Phase.noConfusion (running.symm.trans phase)

/-- After the loop there is a rerun without the listed classes, or the end. -/
theorem watched_afterLoop {s : Progress} (kept : Quarantined w s)
    (backed : w.Backed s.hanging.listed) (completed : Completed)
    (forgotten : Forgotten w s.hanging completed.reading) : Watched w (w.afterLoop s completed) := by
  have ended : ∀ r, Watched w (s.endWith r) := fun r =>
    .of_closed w ⟨kept.bounded, kept.unrelated, kept.spared⟩ backed (.inl ⟨r, rfl⟩)
  unfold Setting.afterLoop
  split
  · exact ended _
  · split
    · exact ended _
    · rcases plan_cases w s.cmd completed.reading with
        ⟨scope, same, -⟩ | ⟨modules, sources, found, changed, nonempty, same⟩
      · rw [same]
        exact ended _
      · rw [same]
        refine ⟨⟨kept.bounded, kept.unrelated, kept.spared⟩, fun running => ?_, backed,
          fun running => ?_, ?_⟩
        · exact Phase.noConfusion running
        · exact Phase.noConfusion running
        · intro first cmd scope sources' phase c mem
          obtain ⟨-, rfl, -, -⟩ := Phase.rerunning.inj phase
          by_contra selected
          obtain ⟨d, there, free, alike⟩ := rerun_selects found nonempty changed
            (Bool.not_eq_false _ ▸ selected)
          exact free (forgotten _ found c mem d there alike)

theorem watched_step {s : Progress} (watched : Watched w s) {outcome : Outcome}
    (careful : Careful w s outcome) : Watched w (w.step s outcome) := by
  unfold Setting.step
  cases phase : s.phase with
  | running =>
    obtain ⟨count, room⟩ := watched.counted phase
    have kept := quarantined_record watched.toQuarantined
      (m := ⟨false, s.cmd, ([], []), s.hanging.listed, outcome⟩) (watched.commanded phase)
      (.inr (count ▸ room))
    have ended : ∀ r, Watched w ((s.record _).endWith r) := fun r =>
      .of_closed w ⟨kept.bounded, kept.unrelated, kept.spared⟩ watched.backed (.inl ⟨r, rfl⟩)
    cases outcome with
    | timedOut => exact ended _
    | notStarted => exact ended _
    | incompatible message completed => cases completed <;> exact ended _
    | ran completed =>
      unfold Careful at careful
      rw [phase] at careful
      unfold Setting.afterRun
      dsimp only at careful ⊢
      split at careful
      · next stalls =>
        rw [if_pos stalls]
        have counted : ((s.record ⟨false, s.cmd, ([], []), s.hanging.listed,
            .ran completed⟩).runs.filter (!·.rerun)).length = s.hanging.retries + 1 := by
          rw [count_record s rfl, count]
        exact watched_afterStall (s := s.record _) phase kept counted watched.backed completed careful
      · next goes =>
        rw [if_neg goes]
        exact watched_afterLoop kept watched.backed completed careful
  | rerunning first cmd scope sources =>
    have kept := quarantined_record watched.toQuarantined
      (m := ⟨true, cmd, (scope.excluded, scope.collateral), s.hanging.listed, outcome⟩)
      (watched.recommanded first cmd scope sources phase) (.inl rfl)
    have closed := afterRerun_phase w (s.record
      ⟨true, cmd, (scope.excluded, scope.collateral), s.hanging.listed, outcome⟩) first cmd scope
      sources outcome
    have same : ∀ t : Progress, t = w.afterRerun (s.record
        ⟨true, cmd, (scope.excluded, scope.collateral), s.hanging.listed, outcome⟩) first cmd scope
        sources outcome → t.hanging = s.hanging ∧ t.runs = (s.record
        ⟨true, cmd, (scope.excluded, scope.collateral), s.hanging.listed, outcome⟩).runs := by
      rintro t rfl
      cases outcome with
      | ran completed =>
        unfold Setting.afterRerun
        dsimp only
        split <;> exact ⟨rfl, rfl⟩
      | _ => exact ⟨rfl, rfl⟩
    obtain ⟨hanging, runs⟩ := same _ rfl
    refine .of_closed w ⟨?_, ?_, ?_⟩ ?_ closed.symm
    · rw [runs]
      exact kept.bounded
    · rw [hanging]
      exact watched.unrelated
    · rw [runs]
      exact kept.spared
    · rw [hanging]
      exact watched.backed
  | ended r => exact watched
  | escaped => exact watched

/-- Nothing is listed but what the first command leaves out. -/
theorem watched_start (cmd : List Arg) (scene : Scene) : Watched w (w.start cmd scene) := by
  have pre : w.Backed (w.preexclude cmd scene).2 ∧
      ∀ c ∈ (w.preexclude cmd scene).2, selects (w.preexclude cmd scene).1 c = false := by
    unfold Setting.preexclude
    split
    · exact ⟨fun c mem => absurd mem List.not_mem_nil, fun c mem => absurd mem List.not_mem_nil⟩
    · dsimp only
      by_cases empty : (w.command cmd (w.active.map Subtype.val)
          { scene with versions := [] }).2.1 = []
      · rw [empty]
        exact ⟨fun c mem => absurd mem List.not_mem_nil, fun c mem => absurd mem List.not_mem_nil⟩
      · have clean : ∀ c ∈ w.active.map Subtype.val, c ≠ "" ∧ strip c = c := by
          intro c mem
          obtain ⟨name, -, rfl⟩ := List.mem_map.mp mem
          exact name.2
        obtain ⟨declared, f, -, -, -, left, blind⟩ := command_excludes clean empty
        refine ⟨?_, blind⟩
        rw [left]
        exact excluded_backed
  have listed : (w.start cmd scene).hanging.listed = (w.preexclude cmd scene).2 :=
    List.append_nil _
  refine ⟨⟨Nat.zero_le _, fun c mem => absurd mem List.not_mem_nil, fun m mem =>
    absurd mem List.not_mem_nil⟩, fun _ => ⟨rfl, Nat.zero_le _⟩, ?_, fun _ => ?_,
    fun _ _ _ _ phase => Phase.noConfusion phase⟩
  · rw [listed]
    exact pre.1
  · rw [listed]
    exact pre.2

end Runs

/-- Two modules; a class of the first one hung before. -/
def slowSetting (tests : List (String × TestClass)) : Setting where
  fullRun := true
  excludeUnrelatedFailingTests := true
  stallDetectionEnabled := true
  stallRetries := 1
  hangingTestQuarantineEnabled := true
  active := [⟨"a.SlowTest", by decide +kernel⟩]
  change := { changedJava := some ["a/src/main/java/a/Card.java"],
              changedProductionJava := some ["a/src/main/java/a/Card.java"],
              targetsType := fun _ _ => false }
  letter _ := false
  layout :=
    { poms := [("a", "a"), ("b", "b")]
      tests := [("a", ⟨"a.SlowTest", by decide +kernel⟩), ("a", ⟨"a.CardTest", by decide +kernel⟩),
        ("b", ⟨"b.StuckTest", by decide +kernel⟩)] ++ tests }

/-- A run in which the class of the second module stalls. -/
def stuckRun : Completed where
  args := none
  returncode := -15
  output := "Running b.StuckTest"
  reading := { stalled := true, unfinished := some ⟨"b.StuckTest", by decide +kernel⟩ }

def pairedSetting : Setting := slowSetting [("b", ⟨"b.OtherTest", by decide +kernel⟩)]

end Uta.JavaGate
