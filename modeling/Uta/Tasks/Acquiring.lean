/- Which task a runner is handed: the first eligible one, past the tasks that have to wait. -/
import Uta.Tasks.Board

namespace Uta.Tasks
open Uta.Lib

/-- No later in the queue: by priority, and then by creation time. -/
def RepoTask.Ahead (r s : RepoTask) : Prop :=
  r.priority < s.priority ∨ (r.priority = s.priority ∧ r.createdAt ≤ s.createdAt)

instance : DecidableRel RepoTask.Ahead := fun _ _ => inferInstanceAs (Decidable (_ ∨ _))

namespace World
variable (w : World) (args : AcquireArgs)

/-- The rows that the query selects, before they are sorted and cut. -/
def selected : List RepoTask :=
  w.tasks.rows.filter fun r => Acquirable args r.status ∧ r.id ∉ args.excludeTaskIds

/-- A task that may run, but not next to the task that runs in its checkout. -/
def Waits (r : RepoTask) : Prop :=
  r.engineBlocker = none ∧ args.allowSameRepoConcurrency = false ∧ w.ActiveSibling r.repoPath r.id

instance (r : RepoTask) : Decidable (w.Waits args r) := inferInstanceAs (Decidable (_ ∧ _))

structure Eligible (r : RepoTask) : Prop where
  selected : r ∈ w.selected args
  durable : r.engineBlocker = none
  free : args.allowSameRepoConcurrency = true ∨ ¬ w.ActiveSibling r.repoPath r.id

/-- What becomes of an attempt to acquire a task, as one would have it. -/
def Hands (runnerId : String) : Prop :=
  match (Stmt.acquireNextTask runnerId args).exec w with
  | (.error _, _) => False
  | (.ok none, _) => ∀ r, ¬ w.Eligible args r
  | (.ok (some task), _) =>
    ∃ r, w.Eligible args r ∧ task = acquiredRow w.now r ∧ ∀ s, w.Eligible args s → r.Ahead s

variable {w args}

theorem Eligible.not_waits {r : RepoTask} (eligible : w.Eligible args r) : ¬ w.Waits args r := by
  rintro ⟨_, alone, busy⟩
  rcases eligible.free with allowed | free
  · rw [alone] at allowed
    cases allowed
  · exact free busy

/-! The loop. -/

variable (w args) in
/-- The loop passes the rows that wait, and ends at the first that does not. -/
theorem firstEligible_cases (rows : List RepoTask) :
    (∃ before r after, rows = before ++ r :: after ∧ (∀ s ∈ before, w.Waits args s) ∧
      r.engineBlocker ≠ none ∧
      ∃ e, w.firstEligible args.allowSameRepoConcurrency rows = .error e) ∨
    ((∀ s ∈ rows, w.Waits args s) ∧
      w.firstEligible args.allowSameRepoConcurrency rows = .ok none) ∨
    ∃ before r after, rows = before ++ r :: after ∧ (∀ s ∈ before, w.Waits args s) ∧
      r.engineBlocker = none ∧
      (args.allowSameRepoConcurrency = true ∨ ¬ w.ActiveSibling r.repoPath r.id) ∧
      w.firstEligible args.allowSameRepoConcurrency rows = .ok (some r) := by
  induction rows with
  | nil => exact .inr (.inl ⟨by simp, rfl⟩)
  | cons r rest ih =>
      cases blocker : r.engineBlocker with
      | some reason =>
          refine .inl ⟨[], r, rest, rfl, by simp, by simp [blocker], ?_⟩
          rw [firstEligible, requireDurableGenerationTask, blocker]
          exact ⟨_, rfl⟩
      | none =>
          by_cases busy : args.allowSameRepoConcurrency = false ∧ w.ActiveSibling r.repoPath r.id
          · have step : w.firstEligible args.allowSameRepoConcurrency (r :: rest) =
                w.firstEligible args.allowSameRepoConcurrency rest := by
              rw [firstEligible, requireDurableGenerationTask, blocker]
              exact if_pos busy
            have waits : w.Waits args r := ⟨blocker, busy⟩
            rw [step]
            rcases ih with ⟨before, s, after, rfl, passed, legacy⟩ | ⟨passed, none_⟩ |
              ⟨before, s, after, rfl, passed, chosen⟩
            · exact .inl ⟨r :: before, s, after, rfl, List.forall_mem_cons.mpr ⟨waits, passed⟩,
                legacy⟩
            · exact .inr (.inl ⟨List.forall_mem_cons.mpr ⟨waits, passed⟩, none_⟩)
            · exact .inr (.inr ⟨r :: before, s, after, rfl,
                List.forall_mem_cons.mpr ⟨waits, passed⟩, chosen⟩)
          · refine .inr (.inr ⟨[], r, rest, rfl, by simp, blocker, ?_, ?_⟩)
            · by_cases allowed : args.allowSameRepoConcurrency = true
              · exact .inl allowed
              · exact .inr fun sibling => busy ⟨by simpa using allowed, sibling⟩
            · rw [firstEligible, requireDurableGenerationTask, blocker]
              exact if_neg busy

/-! The queue. -/

variable (w args) in
theorem pairwise_sorted : ((w.selected args).insertionSort RepoTask.Ahead).Pairwise
    RepoTask.Ahead := by
  have total : Std.Total RepoTask.Ahead := ⟨fun r s => by
    rcases lt_trichotomy r.priority s.priority with less | same | greater
    · exact .inl (.inl less)
    · rcases le_total r.createdAt s.createdAt with older | younger
      · exact .inl (.inr ⟨same, older⟩)
      · exact .inr (.inr ⟨same.symm, younger⟩)
    · exact .inr (.inl greater)⟩
  have trans : IsTrans RepoTask RepoTask.Ahead := ⟨fun r s t first second => by
    rcases first with less | ⟨same, older⟩ <;> rcases second with less' | ⟨same', older'⟩
    · exact .inl (less.trans less')
    · exact .inl (same' ▸ less)
    · exact .inl (same ▸ less')
    · exact .inr ⟨same.trans same', older.trans older'⟩⟩
  exact List.pairwise_insertionSort _ _

theorem queue_eq : w.queue args = ((w.selected args).insertionSort RepoTask.Ahead).take 20 := rfl

/-- A row of the queue before which all rows wait is ahead of the eligible ones. -/
theorem ahead_of_queued {before after : List RepoTask} {r s : RepoTask}
    (split : w.queue args = before ++ r :: after) (passed : ∀ t ∈ before, w.Waits args t)
    (eligible : w.Eligible args s) : r.Ahead s := by
  have sorted := pairwise_sorted w args
  have whole := List.take_append_drop 20 ((w.selected args).insertionSort RepoTask.Ahead)
  rw [← queue_eq, split, List.append_assoc] at whole
  have member : s ∈ (w.selected args).insertionSort RepoTask.Ahead :=
    (List.mem_insertionSort _).mpr eligible.selected
  rw [← whole] at member sorted
  rcases List.mem_append.mp member with earlier | later
  · exact absurd (passed s earlier) eligible.not_waits
  · rcases List.mem_cons.mp later with rfl | later
    · exact .inr ⟨rfl, le_refl _⟩
    · exact List.rel_of_pairwise_cons (List.pairwise_append.mp sorted).2.1 later

theorem mem_selected_of_queued {r : RepoTask} (queued : r ∈ w.queue args) : r ∈ w.selected args :=
  (List.mem_insertionSort _).mp (List.mem_of_mem_take queued)

/-- A queue of rows that all wait holds every selected row, or twenty that wait. -/
theorem crowded_of_waiting (passed : ∀ r ∈ w.queue args, w.Waits args r) {r : RepoTask}
    (eligible : w.Eligible args r) : 20 ≤ ((w.selected args).filter (w.Waits args ·)).length := by
  let sorted := (w.selected args).insertionSort RepoTask.Ahead
  have full : (w.queue args).length = 20 := by
    rw [queue_eq, List.length_take]
    apply min_eq_left
    by_contra short
    have all : w.queue args = sorted := List.take_of_length_le (le_of_not_ge short)
    apply eligible.not_waits
    apply passed
    rw [all]
    exact (List.mem_insertionSort _).mpr eligible.selected
  have kept : (w.queue args).filter (w.Waits args ·) = w.queue args :=
    List.filter_eq_self.mpr fun r member => decide_eq_true (passed r member)
  calc 20 = ((w.queue args).filter (w.Waits args ·)).length := by rw [kept, full]
    _ ≤ (sorted.filter (w.Waits args ·)).length :=
        ((List.take_sublist 20 sorted).filter _).length_le
    _ = ((w.selected args).filter (w.Waits args ·)).length :=
        ((List.perm_insertionSort _ _).filter _).length_eq

end World

/-- Whoever is handed a task is handed the first eligible one; a task of an older
engine that no eligible one precedes is refused, and nothing changes; and while fewer
than twenty tasks wait for a checkout, no task is left out. -/
theorem acquire_first (w : World) (runnerId : String) (args : AcquireArgs) :
    match (Stmt.acquireNextTask runnerId args).exec w with
    | (.error _, v) => v = w ∧ ∃ legacy ∈ w.selected args, legacy.engineBlocker ≠ none ∧
        ∀ r, w.Eligible args r → legacy.Ahead r
    | (.ok none, v) => v = w ∧
        (((w.selected args).filter (w.Waits args ·)).length < 20 → ∀ r, ¬ w.Eligible args r)
    | (.ok (some task), v) => ∃ r, w.Eligible args r ∧ task = World.acquiredRow w.now r ∧
        v = w.acquire runnerId r.id ∧ ∀ s, w.Eligible args s → r.Ahead s := by
  rcases World.firstEligible_cases w args (w.queue args) with
    ⟨before, r, after, split, passed, legacy, e, refused⟩ | ⟨passed, none_⟩ |
      ⟨before, r, after, split, passed, durable, free, chosen⟩
  · simp only [Stmt.exec, refused]
    refine ⟨trivial, r, World.mem_selected_of_queued (by rw [split]; simp), legacy, ?_⟩
    exact fun s eligible => World.ahead_of_queued split passed eligible
  · simp only [Stmt.exec, none_]
    refine ⟨trivial, fun room s eligible => ?_⟩
    exact absurd (World.crowded_of_waiting passed eligible) (not_le.mpr room)
  · simp only [Stmt.exec, chosen]
    refine ⟨r, ⟨World.mem_selected_of_queued (by rw [split]; simp), durable, free⟩, rfl, rfl, ?_⟩
    exact fun s eligible => World.ahead_of_queued split passed eligible

/-! Queues in which an eligible task is not found. -/

/-- A task of an older engine stands before one that could run. -/
def legacyWorld : World :=
  ((World.fresh ["r"]).createRepoTask "/a" 1 (some "missing_generation_engine_version")).createRepoTask
    "/b" 2 none

/-- Twenty tasks wait for the checkout of a running one, before one that could run. -/
def crowdedWorld : World :=
  let queued := (List.range 21).foldl (fun w _ => w.createRepoTask "/a" 1 none) (World.fresh ["r"])
  (queued.updateRepoTask 1 { status := some .running }).createRepoTask "/b" 2 none

theorem eligible_hidden : (¬ legacyWorld.Hands {} "r" ∧ ∃ r, legacyWorld.Eligible {} r) ∧
    (¬ crowdedWorld.Hands {} "r" ∧ ∃ r, crowdedWorld.Eligible {} r) := by
  have waiting : ∃ r ∈ legacyWorld.selected {}, r.engineBlocker = none ∧
      ¬ legacyWorld.ActiveSibling r.repoPath r.id := by decide
  have free : ∃ r ∈ crowdedWorld.selected {}, r.engineBlocker = none ∧
      ¬ crowdedWorld.ActiveSibling r.repoPath r.id := by decide +kernel
  obtain ⟨r, selected, durable, alone⟩ := waiting
  obtain ⟨s, selected', durable', alone'⟩ := free
  have eligible : crowdedWorld.Eligible {} s := ⟨selected', durable', .inr alone'⟩
  refine ⟨⟨fun hands => ?_, r, selected, durable, .inr alone⟩, fun hands => ?_, s, eligible⟩
  · exact hands
  · have waits : ∀ r ∈ crowdedWorld.queue {}, crowdedWorld.Waits {} r := by decide +kernel
    rcases World.firstEligible_cases crowdedWorld {} (crowdedWorld.queue {}) with
      ⟨_, r, _, split, _, legacy, _⟩ | ⟨_, idle⟩ | ⟨_, r, _, split, _, _, busy, _⟩
    · exact legacy (waits r (by rw [split]; simp)).1
    · simp only [World.Hands, Stmt.exec, idle] at hands
      exact hands s eligible
    · exact absurd (waits r (by rw [split]; simp)).2.2 (busy.resolve_left Bool.false_ne_true)

end Uta.Tasks
