/- What an accepted marker says: the directory holds one whole install, and nobody changes it
any more. -/
import Uta.Overlay.Cache

namespace Uta.Overlay
open Uta.Lib Uta.Lib.PyText

/-! The marker. -/

theorem strip_solid {text : List Char} (solid : ∀ c ∈ text, isSpace c = false) : strip text = text := by
  have front : text.dropWhile isSpace = text := by
    cases text with
    | nil => rfl
    | cons c cs => exact List.dropWhile_cons_of_neg (by rw [solid c List.mem_cons_self]; simp)
  rw [strip_eq_rstrip, front, rstrip, List.rdropWhile_eq_self_iff]
  intro some_
  rw [solid _ (List.getLast_mem some_)]
  exact Bool.false_ne_true

theorem solid_of_all {text : List Char} (all : (text.all fun c => !isSpace c) = true) :
    ∀ c ∈ text, isSpace c = false := fun c member => by
  simpa using List.all_eq_true.mp all c member

section Marker
variable (shared : Shared)

theorem accepts_digest : accepts shared (some shared.digest) = true := by
  rw [accepts, Option.any_some, strip_solid shared.solid, beq_self_eq_true, Bool.true_or]

theorem accepts_compat (p : Process) :
    accepts shared (some (compatMark shared ++ p.compatDigest)) = true := by
  have solid : ∀ c ∈ compatMark shared ++ p.compatDigest, isSpace c = false := by
    intro c member
    rcases List.mem_append.mp member with mark | own
    · rcases List.mem_append.mp mark with digest | colon
      · exact shared.solid c digest
      · exact solid_of_all (by decide +kernel) c colon
    · exact p.solid c own
  rw [accepts, Option.any_some, strip_solid solid, decide_eq_true (List.prefix_append _ _), Bool.or_true]

end Marker

/-! The invariant. -/

/-- A process has the lock. -/
def Phase.holds : Phase → Bool
  | .starting | .returned _ | .gone => false
  | _ => true

/-- A process changes the directory. -/
def Phase.works : Phase → Bool
  | .starting | .looking | .returned _ | .gone => false
  | _ => true

/-- The failed calls of an install. -/
def made (calls : List (List Line × Result)) : List Call :=
  calls.map fun call => ⟨.manifest call.1, some call.2⟩

section Laws
variable (shared : Shared)

/-- The calls of one whole install into an empty directory: of the manifest, less the lines that
failed calls have blamed, or of the requirements of a target. -/
inductive Filled (p : Process) : List Call → Prop
  | whole {calls : List (List Line × Result)} {dropped : List Line} {t : Turn} {r : Result}
      (account : Account shared.lower p.lines calls dropped t) (good : r.exitCode = 0) :
      Filled p (made calls ++ [⟨.manifest t.lines, some r⟩])
  | fallback {r : Result} (some_ : p.compatible ≠ []) (good : r.exitCode = 0) :
      Filled p [⟨.specs p.compatible, some r⟩]

/-- What the directory holds in a phase of a process; `tidy` says that the removals leave nothing
behind. -/
def Fits (tidy : Prop) (p : Process) (dir : Dir) : Phase → Prop
  | .clearing (.fallback _) => p.compatible ≠ []
  | .clearing (.give e) => e.exitCode ≠ 0
  | .installing t => (tidy → dir.left = false) ∧
    ∃ calls dropped, dir.calls = made calls ∧ Account shared.lower p.lines calls dropped t
  | .fallback _ => (tidy → dir.left = false) ∧ dir.calls = [] ∧ p.compatible ≠ []
  | .marking text e => (tidy → dir.left = false) ∧ Filled shared p dir.calls ∧
    accepts shared (some text) = true ∧ e.exitCode = 0
  | .returned e => e.exitCode = 0 → accepts shared dir.marker = true
  | _ => True

variable (process : ℕ → Process)

/-- The directory, where its marker is accepted. -/
def Ready (tidy : Prop) (dir : Dir) : Prop :=
  accepts shared dir.marker = true →
    (tidy → dir.left = false) ∧ ∃ p, Filled shared (process p) dir.calls

structure Inv (tidy : Prop) (s : State) : Prop where
  holder : ∀ p, (s.phase p).holds = true → s.holder = some p
  working : ∀ p, (s.phase p).works = true → accepts shared s.dir.marker = false
  fits : ∀ p, Fits shared tidy (process p) s.dir (s.phase p)
  ready : Ready shared process tidy s.dir

variable {shared process} {tidy : Prop}

theorem inv_initial : Inv shared process tidy initial where
  holder := fun _ none_ => absurd none_ Bool.false_ne_true
  working := fun _ none_ => absurd none_ Bool.false_ne_true
  fits := fun _ => trivial
  ready := fun none_ => absurd none_ Bool.false_ne_true

theorem Phase.holds_of_works {phase : Phase} (works : phase.works = true) : phase.holds = true := by
  cases phase <;> first | rfl | cases works

theorem each_update {P : ℕ → Phase → Prop} {phases : ℕ → Phase} {p : ℕ} {phase : Phase}
    (here : P p phase) (there : ∀ q, q ≠ p → P q (phases q)) (q : ℕ) :
    P q (Function.update phases p phase q) := by
  by_cases same : q = p
  · subst same
    rwa [Function.update_self]
  · rw [Function.update_of_ne same]
    exact there q same

/-- Another phase of a process that leaves the directory as it is. -/
theorem Inv.move {s : State} (inv : Inv shared process tidy s) {p : ℕ} {phase : Phase} {holder : Option ℕ}
    (others : ∀ q, q ≠ p → (s.phase q).holds = true → holder = some q)
    (own : phase.holds = true → holder = some p)
    (works : phase.works = true → accepts shared s.dir.marker = false)
    (fits : Fits shared tidy (process p) s.dir phase) :
    Inv shared process tidy ⟨s.dir, holder, Function.update s.phase p phase⟩ where
  holder := @each_update (fun q f => f.holds = true → holder = some q) _ _ _ own others
  working := @each_update (fun _ f => f.works = true → accepts shared s.dir.marker = false) _ _ _
    works fun q _ => inv.working q
  fits := @each_update (fun q f => Fits shared tidy (process q) s.dir f) _ _ _ fits fun q _ => inv.fits q
  ready := inv.ready

/-- A process that leaves, and leaves the directory as it is. -/
theorem Inv.leave {s : State} (inv : Inv shared process tidy s) {p : ℕ} {phase : Phase}
    (out : phase.holds = false) (fits : Fits shared tidy (process p) s.dir phase) :
    Inv shared process tidy (s.leave p phase) := by
  refine inv.move (fun q other holds => ?_) (fun holds => ?_) (fun works => ?_) fits
  · have locked := inv.holder q holds
    rw [if_neg, locked]
    rw [locked]
    exact fun same => other (Option.some.inj same)
  · exact Bool.noConfusion (out.symm.trans holds)
  · exact Bool.noConfusion (out.symm.trans (Phase.holds_of_works works))

/-- A step of the process that is at work on the directory: the others have no lock, and none of
them has been given the directory. -/
theorem Inv.act {s : State} (inv : Inv shared process tidy s) {p : ℕ} {phase : Phase} {dir : Dir}
    {holder : Option ℕ} (at_work : (s.phase p).works = true)
    (own : phase.holds = true → holder = some p)
    (works : phase.works = true → accepts shared dir.marker = false)
    (fits : Fits shared tidy (process p) dir phase) (ready : Ready shared process tidy dir) :
    Inv shared process tidy ⟨dir, holder, Function.update s.phase p phase⟩ := by
  have locked : s.holder = some p := inv.holder p (Phase.holds_of_works at_work)
  have idle : ∀ q, q ≠ p → (s.phase q).holds = false := by
    intro q other
    by_contra holds
    have both := (inv.holder q (Bool.eq_true_of_not_eq_false holds)).symm.trans locked
    exact other (Option.some.inj both)
  have outside := inv.working p at_work
  refine ⟨@each_update (fun q f => f.holds = true → holder = some q) _ _ _ own ?_,
    @each_update (fun _ f => f.works = true → accepts shared dir.marker = false) _ _ _ works ?_,
    @each_update (fun q f => Fits shared tidy (process q) dir f) _ _ _ fits ?_, ready⟩
  · exact fun q other holds => Bool.noConfusion ((idle q other).symm.trans holds)
  · exact fun q other works =>
      Bool.noConfusion ((idle q other).symm.trans (Phase.holds_of_works works))
  · intro q other
    have out := idle q other
    have before := inv.fits q
    cases here : s.phase q with
    | starting => trivial
    | gone => trivial
    | returned e =>
        rw [here] at before
        intro good
        exact Bool.noConfusion (outside.symm.trans (before good))
    | _ =>
        rw [here] at out
        cases out

/-! Steps. -/

/-- Where a removal is over, it has left nothing behind. -/
def Tidy : Event → Prop
  | .clear files _ => files = false
  | _ => True

theorem accepts_clear {dir : Dir} (outside : accepts shared dir.marker = false) (files marker : Bool) :
    accepts shared (dir.clear files marker).marker = false := by
  cases marker with
  | false => rfl
  | true => exact outside

theorem ready_outside {dir : Dir} (outside : accepts shared dir.marker = false) :
    Ready shared process tidy dir := fun accepted => Bool.noConfusion (outside.symm.trans accepted)

theorem made_append (calls : List (List Line × Result)) (lines : List Line) (r : Result) :
    made calls ++ [⟨.manifest lines, some r⟩] = made (calls ++ [(lines, r)]) := by
  rw [made, made, List.map_append]
  rfl

section Steps
variable {s : State} {p : ℕ}

theorem clear_inv (inv : Inv shared process tidy s) {after : After} {files marker : Bool}
    (here : s.phase p = .clearing after) (clean : tidy → files = false) :
    Inv shared process tidy (step shared process s (p, .clear files marker)) := by
  have at_work : (s.phase p).works = true := by rw [here]; rfl
  have locked : s.holder = some p := inv.holder p (Phase.holds_of_works at_work)
  have outside := accepts_clear (inv.working p at_work) files marker
  have fits := inv.fits p
  rw [here] at fits
  unfold step
  dsimp only
  rw [here]
  cases after with
  | install =>
      refine inv.act at_work (fun _ => locked) (fun _ => outside) ?_ (ready_outside outside)
      exact ⟨clean, [], [], rfl, account_start (process p).full⟩
  | fallback error =>
      refine inv.act at_work (fun _ => locked) (fun _ => outside) ?_ (ready_outside outside)
      exact ⟨clean, rfl, fits⟩
  | give e =>
      refine inv.act at_work (fun none_ => absurd none_ Bool.false_ne_true)
        (fun none_ => absurd none_ Bool.false_ne_true) ?_ (ready_outside outside)
      exact fun good => absurd good fits

theorem pip_inv (inv : Inv shared process tidy s) {t : Turn} {r : Result}
    (here : s.phase p = .installing t) :
    Inv shared process tidy (step shared process s (p, .pip r)) := by
  have at_work : (s.phase p).works = true := by rw [here]; rfl
  have locked : s.holder = some p := inv.holder p (Phase.holds_of_works at_work)
  have outside := inv.working p at_work
  have fits := inv.fits p
  rw [here] at fits
  obtain ⟨clean, calls, dropped, same, account⟩ := fits
  unfold step
  dsimp only
  rw [here]
  dsimp only
  rcases Turn.next_cases shared.lower shared.toSetting t r with
    ⟨raw, blames, member, full, next⟩ | ⟨e, next, code, -⟩
  · rw [next]
    refine inv.act at_work (fun _ => locked) (fun _ => outside) ?_ (ready_outside outside)
    refine ⟨clean, _, _, ?_, account.drop blames member full⟩
    rw [Dir.call, same, made_append]
  · rw [next]
    refine inv.act at_work (fun _ => locked) (fun _ => outside) ?_ (ready_outside outside)
    unfold afterManifest
    by_cases good : e.exitCode = 0
    · rw [if_pos good]
      refine ⟨clean, ?_, accepts_digest shared, good⟩
      rw [Dir.call, same]
      exact .whole account (code.symm.trans good)
    · rw [if_neg good]
      split
      next => exact good
      next some_ => exact fun none_ => some_ (.inl none_)

theorem fallback_inv (inv : Inv shared process tidy s) {error : List Char} {r : Result}
    (here : s.phase p = .fallback error) :
    Inv shared process tidy (step shared process s (p, .pip r)) := by
  have at_work : (s.phase p).works = true := by rw [here]; rfl
  have locked : s.holder = some p := inv.holder p (Phase.holds_of_works at_work)
  have outside := inv.working p at_work
  have fits := inv.fits p
  rw [here] at fits
  obtain ⟨clean, empty, some_⟩ := fits
  unfold step
  dsimp only
  rw [here]
  refine inv.act at_work (fun _ => locked) (fun _ => outside) ?_ (ready_outside outside)
  unfold afterFallback
  dsimp only
  by_cases good : r.exitCode = 0
  · rw [if_pos good]
    refine ⟨clean, ?_, accepts_compat shared (process p), good⟩
    rw [Dir.call, empty]
    exact .fallback some_ good
  · rw [if_neg good]
    exact good

theorem mark_inv (inv : Inv shared process tidy s) {text : List Char} {e : Evidence}
    (here : s.phase p = .marking text e) :
    Inv shared process tidy (step shared process s (p, .mark)) := by
  have at_work : (s.phase p).works = true := by rw [here]; rfl
  have fits := inv.fits p
  rw [here] at fits
  obtain ⟨clean, filled, accepted, -⟩ := fits
  unfold step
  dsimp only
  rw [here]
  exact inv.act at_work (fun none_ => absurd none_ Bool.false_ne_true)
    (fun none_ => absurd none_ Bool.false_ne_true) (fun _ => accepted) fun _ => ⟨clean, p, filled⟩

/-- Also where the marker is written in part, the install is whole. -/
theorem cut_ready (inv : Inv shared process tidy s) {files marker called : Bool} {written : Option ℕ}
    (at_work : (s.phase p).works = true) :
    Ready shared process tidy ((s.phase p).cut (process p) s.dir files marker called written) := by
  have outside := inv.working p at_work
  have fits := inv.fits p
  cases here : s.phase p with
  | clearing after => exact ready_outside (accepts_clear outside files marker)
  | installing t =>
      rw [Phase.cut]
      split <;> exact ready_outside outside
  | fallback error =>
      rw [Phase.cut]
      split <;> exact ready_outside outside
  | marking text e =>
      rw [here] at fits
      obtain ⟨clean, filled, -⟩ := fits
      cases written with
      | none => exact ready_outside outside
      | some n => exact fun _ => ⟨clean, p, filled⟩
  | _ =>
      rw [here] at at_work
      cases at_work

theorem cut_idle {dir : Dir} {phase : Phase} {files marker called : Bool} {written : Option ℕ}
    (idle : phase.works = false) (b : Process) : phase.cut b dir files marker called written = dir := by
  cases phase <;> first | rfl | cases idle

theorem crash_inv (inv : Inv shared process tidy s) {files marker called : Bool} {written : Option ℕ} :
    Inv shared process tidy (step shared process s (p, .crash files marker called written)) := by
  have ended : Inv shared process tidy (State.leave
      { s with dir := (s.phase p).cut (process p) s.dir files marker called written } p .gone) := by
    cases at_work : (s.phase p).works with
    | true =>
        exact inv.act at_work (fun none_ => absurd none_ Bool.false_ne_true)
          (fun none_ => absurd none_ Bool.false_ne_true) trivial (cut_ready inv at_work)
    | false =>
        rw [cut_idle at_work]
        exact inv.leave rfl trivial
  cases here : s.phase p with
  | returned e =>
      unfold step
      dsimp only
      rw [here]
      exact inv
  | _ =>
      unfold step
      dsimp only
      rw [here] at ended ⊢
      exact ended

theorem lock_inv (inv : Inv shared process tidy s) (here : s.phase p = .starting) :
    Inv shared process tidy (step shared process s (p, .lock)) := by
  unfold step
  dsimp only
  rw [here]
  dsimp only
  split
  next free =>
    refine inv.move (fun q other holds => ?_) (fun _ => rfl) (fun none_ => ?_) trivial
    · exact absurd ((inv.holder q holds).symm.trans free) (Option.some_ne_none q)
    · exact absurd none_ Bool.false_ne_true
  next => exact inv

theorem look_inv (inv : Inv shared process tidy s) (here : s.phase p = .looking) :
    Inv shared process tidy (step shared process s (p, .look)) := by
  have locked : s.holder = some p := inv.holder p (by rw [here]; rfl)
  unfold step
  dsimp only
  rw [here]
  dsimp only
  cases accepted : accepts shared s.dir.marker with
  | true => exact inv.leave rfl fun _ => accepted
  | false => exact inv.move (fun q _ holds => inv.holder q holds) (fun _ => locked) (fun _ => accepted) trivial

end Steps

theorem step_inv {s : State} (inv : Inv shared process tidy s) (event : ℕ × Event)
    (clean : tidy → Tidy event.2) : Inv shared process tidy (step shared process s event) := by
  obtain ⟨p, ev⟩ := event
  cases ev with
  | crash files marker called written => exact crash_inv inv
  | lock =>
      cases here : s.phase p with
      | starting => exact lock_inv inv here
      | _ =>
          unfold step
          dsimp only
          rw [here]
          exact inv
  | look =>
      cases here : s.phase p with
      | looking => exact look_inv inv here
      | _ =>
          unfold step
          dsimp only
          rw [here]
          exact inv
  | clear files marker =>
      cases here : s.phase p with
      | clearing after => exact clear_inv inv here clean
      | _ =>
          unfold step
          dsimp only
          rw [here]
          exact inv
  | pip r =>
      cases here : s.phase p with
      | installing t => exact pip_inv inv here
      | fallback error => exact fallback_inv inv here
      | _ =>
          unfold step
          dsimp only
          rw [here]
          exact inv
  | mark =>
      cases here : s.phase p with
      | marking text e => exact mark_inv inv here
      | _ =>
          unfold step
          dsimp only
          rw [here]
          exact inv

/-! Runs. -/

theorem run_inv {s : State} (inv : Inv shared process tidy s) (events : List (ℕ × Event))
    (clean : tidy → ∀ i ∈ events, Tidy i.2) :
    Inv shared process tidy (run (step shared process) s events) := by
  induction events generalizing s with
  | nil => exact inv
  | cons i rest ih =>
      refine ih (step_inv inv i fun holds => clean holds i List.mem_cons_self) fun holds j member => ?_
      exact clean holds j (List.mem_cons_of_mem i member)

variable (shared process) in
/-- Only a process at work changes the directory. -/
theorem step_idle {s : State} {p : ℕ} (idle : (s.phase p).works = false) (ev : Event) :
    (step shared process s (p, ev)).dir = s.dir := by
  unfold step
  dsimp only
  cases here : s.phase p with
  | starting =>
      cases ev with
      | lock =>
          dsimp only
          split <;> rfl
      | _ => rfl
  | looking =>
      cases ev with
      | look =>
          dsimp only
          split <;> rfl
      | _ => rfl
  | returned e => cases ev <;> rfl
  | gone => cases ev <;> rfl
  | _ =>
      rw [here] at idle
      cases idle

theorem run_stays {s : State} (inv : Inv shared process False s)
    (accepted : accepts shared s.dir.marker = true) (events : List (ℕ × Event)) :
    (run (step shared process) s events).dir = s.dir := by
  induction events generalizing s with
  | nil => rfl
  | cons i rest ih =>
      obtain ⟨p, ev⟩ := i
      have idle : (s.phase p).works = false := by
        by_contra works
        have outside := inv.working p (Bool.eq_true_of_not_eq_false works)
        exact Bool.noConfusion (outside.symm.trans accepted)
      have kept := step_idle shared process idle ev
      rw [run_cons, ih (step_inv inv (p, ev) False.elim) (by rw [kept]; exact accepted), kept]

variable (shared process) in
/-- Whatever the processes do, and wherever they end, an accepted marker stands for one whole install
of one of them, in a directory that was empty unless a removal had failed; and from then on the
directory stays as it is. -/
theorem accepted_overlay (events : List (ℕ × Event))
    (accepted : accepts shared (run (step shared process) initial events).dir.marker = true) :
    (∃ p, Filled shared (process p) (run (step shared process) initial events).dir.calls) ∧
      ((∀ i ∈ events, Tidy i.2) → (run (step shared process) initial events).dir.left = false) ∧
      ∀ more, (run (step shared process) initial (events ++ more)).dir =
        (run (step shared process) initial events).dir := by
  have tidy := run_inv (inv_initial : Inv shared process (∀ i ∈ events, Tidy i.2) initial) events id
  have inv := run_inv (inv_initial : Inv shared process False initial) events False.elim
  obtain ⟨clean, filled⟩ := tidy.ready accepted
  refine ⟨filled, clean, fun more => ?_⟩
  rw [run_append]
  exact run_stays inv accepted more

variable (shared process) in
/-- A process that is given the directory with exit code 0 finds an accepted marker in it. -/
theorem returned_accepted {events : List (ℕ × Event)} {p : ℕ} {e : Evidence}
    (given : (run (step shared process) initial events).phase p = .returned e) (good : e.exitCode = 0) :
    accepts shared (run (step shared process) initial events).dir.marker = true := by
  have fits := (run_inv (inv_initial : Inv shared process False initial) events False.elim).fits p
  rw [given] at fits
  exact fits good

variable (shared process) in
/-- What a process is given with exit code 0 is one whole install, and nobody ever changes it. -/
theorem returned_overlay {events : List (ℕ × Event)} {p : ℕ} {e : Evidence}
    (given : (run (step shared process) initial events).phase p = .returned e) (good : e.exitCode = 0) :
    (∃ q, Filled shared (process q) (run (step shared process) initial events).dir.calls) ∧
      ((∀ i ∈ events, Tidy i.2) → (run (step shared process) initial events).dir.left = false) ∧
      ∀ more, (run (step shared process) initial (events ++ more)).dir =
        (run (step shared process) initial events).dir :=
  accepted_overlay shared process events (returned_accepted shared process given good)

end Laws

def digested : Shared where
  toSetting := plainSetting
  lower := id
  digest := "d1".toList
  solid := solid_of_all (by decide +kernel)

def flaskProcess : Process where
  lines := ["flask".toList]
  full := by decide +kernel
  compatible := []
  compatDigest := []
  solid := fun _ none_ => absurd none_ List.not_mem_nil

def onlyFlask : ℕ → Process := fun _ => flaskProcess

/-- One process ends in the middle of its call of pip, and the next one installs. -/
def interrupted : List (ℕ × Event) :=
  [(0, .lock), (0, .look), (1, .lock), (0, .clear false false), (0, .crash false false true none),
    (1, .lock), (1, .look), (1, .clear false false), (1, .pip ⟨0, [], []⟩), (1, .mark)]

theorem returned_overlay_interrupted :
    (∃ q : ℕ, Filled digested (onlyFlask q) (run (step digested onlyFlask) initial interrupted).dir.calls) ∧
      ((∀ i ∈ interrupted, Tidy i.2) →
        (run (step digested onlyFlask) initial interrupted).dir.left = false) ∧
      ∀ more, (run (step digested onlyFlask) initial (interrupted ++ more)).dir =
        (run (step digested onlyFlask) initial interrupted).dir :=
  @returned_overlay digested onlyFlask interrupted 1
    (dependencyInstallEvidence (manifestCommand plainSetting) 0 [] [] []) rfl rfl

end Uta.Overlay
