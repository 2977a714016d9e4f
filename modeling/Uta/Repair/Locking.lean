/- The file lock that keeps one rerun per repair session: contenders that take
turns at the system calls of `_repair_rerun_lock` on one path. -/
import Mathlib.Data.Rat.Defs
import Mathlib.Tactic.Linarith
import Uta.Lib.Run

namespace Uta.Repair.Locking
open Uta.Lib

def rerunLockStaleSeconds : ℚ := 6 * 60 * 60

/-- Where a contender is in `_repair_rerun_lock`. -/
inductive Phase where
  | opening
  | statting
  | unlinking
  | reopening
  | writing
  /-- At `yield True`: in the caller's block. -/
  | inside
  | leaving
  /-- At `yield False`. -/
  | turnedAway
  | left
  | killed
  deriving DecidableEq

/-- Between the creation of a lock file and the end of the `with` block. -/
def Phase.holds : Phase → Bool
  | .writing | .inside | .leaving => true
  | _ => false

/-- The file at the lock's path: the contender that created it, and `st_mtime`. -/
structure LockFile where
  creator : ℕ
  mtime : ℚ
  deriving DecidableEq

structure State where
  clock : ℚ
  file : Option LockFile
  contenders : List Phase

/-- A contender that enters, one that is killed, the clock that is set on or back,
and the next system call of a contender; `refused` is an `OSError` other than
`FileExistsError` and `FileNotFoundError`. -/
inductive Turn where
  | arrive
  | kill (n : ℕ)
  | wait (seconds : ℚ)
  | go (n : ℕ) (refused : Bool)

namespace State
variable (s : State)

def move (n : ℕ) (p : Phase) : State := { s with contenders := s.contenders.set n p }

def withFile (file : Option LockFile) : State := { s with file }

/-- `os.open` with `O_CREAT | O_EXCL`, and where the contender goes if there is a file. -/
def create (n : ℕ) (taken : Phase) : State :=
  match s.file with
  | none => (s.withFile (some ⟨n, s.clock⟩)).move n .writing
  | some _ => s.move n taken

/-- The file is written through its descriptor, whatever is at the path by now. -/
def touched (n : ℕ) : Option LockFile :=
  s.file.map fun f => if f.creator = n then { f with mtime := s.clock } else f

/-- The next system call of contender `n`. -/
def call (n : ℕ) (refused : Bool) : Phase → State
  | .opening => if refused then s.move n .left else s.create n .statting
  | .statting =>
    if refused then s.move n .left
    else match s.file with
      | none => s.move n .reopening
      | some f =>
        if s.clock - f.mtime < rerunLockStaleSeconds then s.move n .turnedAway
        else s.move n .unlinking
  | .unlinking =>
    if refused then s.move n .turnedAway else (s.withFile none).move n .reopening
  | .reopening => if refused then s.move n .left else s.create n .turnedAway
  | .writing =>
    if refused then s.move n .leaving else (s.withFile (s.touched n)).move n .inside
  | .inside => s.move n .leaving
  | .leaving => if refused then s.move n .left else (s.withFile none).move n .left
  | .turnedAway => s.move n .left
  | .left => s
  | .killed => s

def step : Turn → State
  | .arrive => { s with contenders := s.contenders ++ [.opening] }
  | .kill n => s.move n .killed
  | .wait seconds => { s with clock := s.clock + seconds }
  | .go n refused =>
    match s.contenders[n]? with
    | some p => s.call n refused p
    | none => s

/-- The contender has created a lock file, and has yet to leave. -/
def Live (n : ℕ) : Prop := s.contenders[n]?.any Phase.holds = true

instance (n : ℕ) : Decidable (s.Live n) := inferInstanceAs (Decidable (_ = true))

/-- At most one contender that received True is inside. -/
def Exclusive : Prop :=
  ∀ m n : ℕ, s.contenders[m]? = some .inside → s.contenders[n]? = some .inside → m = n

/-- The lock file that a turn removes, and who removes it. -/
def removes : Turn → Option (ℕ × LockFile)
  | .go n false =>
    if s.contenders[n]? = some .unlinking ∨ s.contenders[n]? = some .leaving then
      s.file.map fun f => (n, f)
    else none
  | _ => none

/-- A lock file that the turn removes is not that of another live contender. -/
def Respectful (t : Turn) : Prop :=
  ∀ r ∈ s.removes t, r.2.creator ≠ r.1 → ¬ s.Live r.2.creator

/-- No live contender is overdue when another looks at its lock file. -/
def InTime (n : ℕ) : Prop :=
  s.contenders[n]? = some .statting → ∀ f ∈ s.file, s.Live f.creator →
    s.clock - f.mtime < rerunLockStaleSeconds

/-- No contender is about to unlink what it found stale when another creates the file. -/
def Apart (n : ℕ) : Prop :=
  s.contenders[n]? = some .opening ∨ s.contenders[n]? = some .reopening → s.file = none →
    .unlinking ∉ s.contenders

def Orderly : Turn → Prop
  | .go n false => s.InTime n ∧ s.Apart n
  | _ => True

instance (t : Turn) : Decidable (s.Respectful t) :=
  inferInstanceAs (Decidable (∀ r ∈ s.removes t, r.2.creator ≠ r.1 → ¬ s.Live r.2.creator))

instance (n : ℕ) : Decidable (s.InTime n) :=
  inferInstanceAs (Decidable (_ = _ → ∀ f ∈ s.file, s.Live f.creator → _ < _))

instance (n : ℕ) : Decidable (s.Apart n) := inferInstanceAs (Decidable (_ ∨ _ → _ = _ → ¬ _ ∈ _))

instance : ∀ t, Decidable (s.Orderly t)
  | .go n false => inferInstanceAs (Decidable (s.InTime n ∧ s.Apart n))
  | .go _ true | .arrive | .kill _ | .wait _ => inferInstanceAs (Decidable True)

end State

/-- No lock file. -/
def unlocked (clock : ℚ) : State := ⟨clock, none, []⟩

/-- A lock file whose creator is inside, or was killed. -/
def locked (clock mtime : ℚ) (creator : Phase) : State := ⟨clock, some ⟨0, mtime⟩, [creator]⟩

/-- Where a run begins: no lock file, a live lock, or one left by a killed process. -/
inductive Start : State → Prop where
  | unlocked (clock : ℚ) : Start (unlocked clock)
  | live (clock mtime : ℚ) : Start (locked clock mtime .inside)
  | stale (clock mtime : ℚ) : Start (locked clock mtime .killed)

/-! What keeps the contenders apart. -/

namespace State
variable {s : State} {n : ℕ} {p : Phase}

/-- Who holds has created the file that is there, and a file found stale is nobody's. -/
structure Sound (s : State) : Prop where
  holder : ∀ n, s.Live n → ∃ mtime, s.file = some ⟨n, mtime⟩
  condemned : .unlinking ∈ s.contenders → ∀ f ∈ s.file, ¬ s.Live f.creator

theorem live_iff : s.Live n ↔ ∃ p, s.contenders[n]? = some p ∧ p.holds = true := by
  rw [Live, Option.any_eq_true]

theorem not_live (there : s.contenders[n]? = some p) (free : p.holds = false) : ¬ s.Live n := by
  rw [Live, there]
  simpa using free

theorem contenders_move (m : ℕ) (q : Phase) (there : s.contenders[n]? = some p) :
    (s.move n q).contenders[m]? = if m = n then some q else s.contenders[m]? := by
  have inRange : n < s.contenders.length := (List.getElem?_eq_some_iff.mp there).1
  rw [move, List.getElem?_set]
  by_cases same : m = n
  · rw [if_pos same.symm, if_pos same, if_pos (same ▸ inRange)]
  · rw [if_neg (Ne.symm same), if_neg same]

theorem live_move (m : ℕ) (q : Phase) (there : s.contenders[n]? = some p) :
    (s.move n q).Live m ↔ if m = n then q.holds = true else s.Live m := by
  rw [Live, contenders_move m q there]
  split <;> rfl

theorem unlinking_move {q : Phase} (member : .unlinking ∈ (s.move n q).contenders) :
    q = .unlinking ∨ .unlinking ∈ s.contenders := by
  rcases List.mem_or_eq_of_mem_set member with old | new
  · exact .inr old
  · exact .inl new.symm

theorem Sound.exclusive (sound : Sound s) : s.Exclusive := by
  intro m n first second
  obtain ⟨_, mine⟩ := sound.holder m (by rw [Live, first]; rfl)
  obtain ⟨_, yours⟩ := sound.holder n (by rw [Live, second]; rfl)
  rw [mine] at yours
  cases yours
  rfl

/-- A move that leaves the file alone and does not begin to hold. -/
theorem Sound.move (sound : Sound s) (there : s.contenders[n]? = some p) {q : Phase}
    (holds : q.holds = true → p.holds = true)
    (condemned : q = .unlinking → ∀ f ∈ s.file, ¬ s.Live f.creator) : Sound (s.move n q) := by
  have fewer : ∀ m, (s.move n q).Live m → s.Live m := by
    intro m live
    rw [live_move m q there] at live
    split at live
    · next same =>
      rw [same, Live, there]
      exact holds live
    · exact live
  refine ⟨fun m live => sound.holder m (fewer m live), ?_⟩
  intro member f found live
  rcases unlinking_move member with new | old
  · exact condemned new f found (fewer _ live)
  · exact sound.condemned old f found (fewer _ live)

/-- The file is removed, by its creator or when its creator is gone. -/
theorem Sound.remove (sound : Sound s) (there : s.contenders[n]? = some p) {q : Phase}
    (free : q.holds = false) (own : ∀ f ∈ s.file, s.Live f.creator → f.creator = n) :
    Sound ((s.withFile none).move n q) := by
  refine ⟨?_, fun _ f found => nomatch found⟩
  intro m live
  have moved := (live_move (s := s.withFile none) m q there).mp live
  split at moved
  · rw [free] at moved
    cases moved
  · next other =>
    have before : s.Live m := moved
    obtain ⟨_, found⟩ := sound.holder m before
    exact absurd (own _ found before) other

theorem Sound.create (sound : Sound s) (there : s.contenders[n]? = some p) {taken : Phase}
    (free : taken.holds = false) (waits : taken ≠ .unlinking)
    (apart : s.file = none → .unlinking ∉ s.contenders) : Sound (s.create n taken) := by
  rw [State.create]
  cases file : s.file with
  | some f =>
      exact sound.move there (fun holds => by rw [free] at holds; cases holds) fun same =>
        absurd same waits
  | none =>
      refine ⟨?_, ?_⟩
      · intro m live
        have moved := (live_move (s := s.withFile (some ⟨n, s.clock⟩)) m .writing there).mp live
        split at moved
        · next same => exact ⟨s.clock, by rw [same]; rfl⟩
        · have before : s.Live m := moved
          obtain ⟨_, found⟩ := sound.holder m before
          rw [file] at found
          cases found
      · intro member
        rcases unlinking_move member with new | old
        · cases new
        · exact absurd old (apart file)

/-- The holder writes its file. -/
theorem Sound.write (sound : Sound s) (there : s.contenders[n]? = some .writing) :
    Sound ((s.withFile (s.touched n)).move n .inside) := by
  have live : s.Live n := by rw [Live, there]; rfl
  obtain ⟨mtime, file⟩ := sound.holder n live
  have touched : s.touched n = some ⟨n, s.clock⟩ := by simp [State.touched, file]
  rw [touched]
  refine ⟨?_, ?_⟩
  · intro m live'
    have moved := (live_move (s := s.withFile (some ⟨n, s.clock⟩)) m .inside there).mp live'
    split at moved
    · next same => exact ⟨s.clock, by rw [same]; rfl⟩
    · next other =>
      have before : s.Live m := moved
      obtain ⟨_, found⟩ := sound.holder m before
      rw [file] at found
      cases found
      exact absurd rfl other
  · intro member
    rcases unlinking_move member with new | old
    · cases new
    · exact absurd live (sound.condemned old _ file)

/-- One system call. -/
theorem Sound.call (sound : Sound s) (there : s.contenders[n]? = some p) (refused : Bool)
    (orderly : s.Orderly (.go n refused)) : Sound (s.call n refused p) := by
  have quiet : ∀ q : Phase, q.holds = false → q ≠ .unlinking → Sound (s.move n q) := by
    intro q free waits
    exact sound.move there (fun holds => by rw [free] at holds; cases holds) fun same =>
      absurd same waits
  cases p <;> cases refused
  case opening.true => exact quiet .left rfl nofun
  case opening.false => exact sound.create there rfl nofun (orderly.2 (.inl there))
  case statting.true => exact quiet .left rfl nofun
  case statting.false =>
    rw [State.call, if_neg nofun]
    cases file : s.file with
    | none => exact quiet .reopening rfl nofun
    | some f =>
        by_cases fresh : s.clock - f.mtime < rerunLockStaleSeconds
        · simp only [fresh, if_true]
          exact quiet .turnedAway rfl nofun
        · simp only [fresh, if_false]
          refine sound.move there nofun fun _ g found live => ?_
          have early := orderly.1 there g found live
          rw [file] at found
          cases found
          exact fresh early
  case unlinking.true => exact quiet .turnedAway rfl nofun
  case unlinking.false =>
    have member : .unlinking ∈ s.contenders := List.mem_of_getElem? there
    exact sound.remove there rfl fun f found live =>
      absurd live (sound.condemned member f found)
  case reopening.true => exact quiet .left rfl nofun
  case reopening.false => exact sound.create there rfl nofun (orderly.2 (.inr there))
  case writing.true => exact sound.move there (fun _ => rfl) nofun
  case writing.false => exact sound.write there
  case inside.true => exact sound.move there (fun _ => rfl) nofun
  case inside.false => exact sound.move there (fun _ => rfl) nofun
  case leaving.true => exact quiet .left rfl nofun
  case leaving.false =>
    have live : s.Live n := by rw [Live, there]; rfl
    obtain ⟨_, file⟩ := sound.holder n live
    refine sound.remove there rfl fun f found _ => ?_
    rw [file] at found
    cases found
    rfl
  case turnedAway.true => exact quiet .left rfl nofun
  case turnedAway.false => exact quiet .left rfl nofun
  all_goals exact sound

theorem Sound.step (sound : Sound s) (t : Turn) (orderly : s.Orderly t) : Sound (s.step t) := by
  cases t with
  | arrive =>
      have newest : ∀ m, (s.step .arrive).Live m → s.Live m := by
        intro m live
        obtain ⟨p, there, holds⟩ := live_iff.mp live
        rw [State.step, List.getElem?_append] at there
        split at there
        · exact live_iff.mpr ⟨p, there, holds⟩
        · rw [List.mem_singleton.mp (List.mem_of_getElem? there)] at holds
          cases holds
      refine ⟨fun m live => sound.holder m (newest m live), ?_⟩
      intro member f found live
      rcases List.mem_append.mp member with old | new
      · exact sound.condemned old f found (newest _ live)
      · cases List.mem_singleton.mp new
  | kill n =>
      cases there : s.contenders[n]? with
      | some p => exact sound.move there nofun nofun
      | none =>
          have outside : s.contenders.length ≤ n := List.getElem?_eq_none_iff.mp there
          have same : s.step (.kill n) = s := by
            rw [State.step, State.move, List.set_eq_of_length_le outside]
          rwa [same]
  | wait seconds => exact ⟨sound.holder, sound.condemned⟩
  | go n refused =>
      cases there : s.contenders[n]? with
      | some p =>
          rw [State.step, there]
          exact sound.call there refused orderly
      | none =>
          rw [State.step, there]
          exact sound

theorem Sound.respectful (sound : Sound s) (t : Turn) : s.Respectful t := by
  intro r removed other live
  cases t with
  | go n refused =>
      cases refused with
      | true => cases removed
      | false =>
          rw [removes] at removed
          split at removed
          · next leaves =>
            obtain ⟨f, found, rfl⟩ := Option.map_eq_some_iff.mp removed
            rcases leaves with reclaims | leaves
            · exact sound.condemned (List.mem_of_getElem? reclaims) f found live
            · obtain ⟨_, own⟩ := sound.holder n (by rw [Live, leaves]; rfl)
              rw [found] at own
              cases own
              exact other rfl
          · cases removed
  | arrive => cases removed
  | kill n => cases removed
  | wait seconds => cases removed

/-- A live contender's file is found stale: it is removed next. -/
theorem not_inTime (late : ¬ s.InTime n) : ¬ (s.step (.go n false)).Respectful (.go n false) := by
  simp only [InTime, not_forall] at late
  obtain ⟨there, f, found, live, stale⟩ := late
  have file : s.file = some f := found
  have stepped : s.step (.go n false) = s.move n .unlinking := by
    simp [State.step, there, State.call, file, stale]
  have other : f.creator ≠ n := by
    intro same
    exact not_live there rfl (same ▸ live)
  have next : (s.move n .unlinking).contenders[n]? = some .unlinking := by
    rw [contenders_move n _ there, if_pos rfl]
  have removed : (s.move n .unlinking).removes (.go n false) = some (n, f) := by
    rw [removes, if_pos (.inl next)]
    exact congrArg (Option.map fun f => (n, f)) file
  rw [stepped]
  intro respectful
  refine respectful (n, f) removed other ?_
  rw [live_move _ _ there, if_neg other]
  exact live

/-- A file is created where another contender is about to unlink: it is removed next. -/
theorem not_apart (close : ¬ s.Apart n) :
    ∃ m, ¬ (s.step (.go n false)).Respectful (.go m false) := by
  simp only [Apart, not_forall, not_not] at close
  obtain ⟨creates, file, member⟩ := close
  obtain ⟨m, atUnlink⟩ := List.getElem?_of_mem member
  have stepped : s.step (.go n false) = (s.withFile (some ⟨n, s.clock⟩)).move n .writing := by
    rcases creates with there | there <;> simp [State.step, there, State.call, State.create, file]
  have other : n ≠ m := by
    rintro rfl
    rcases creates with there | there <;> rw [there] at atUnlink <;> cases atUnlink
  obtain ⟨p, there⟩ : ∃ p, (s.withFile (some ⟨n, s.clock⟩)).contenders[n]? = some p := by
    rcases creates with there | there <;> exact ⟨_, there⟩
  refine ⟨m, ?_⟩
  rw [stepped]
  have next : ((s.withFile (some ⟨n, s.clock⟩)).move n .writing).contenders[m]? =
      some .unlinking := by
    rw [contenders_move m _ there, if_neg (Ne.symm other)]
    exact atUnlink
  have removed : ((s.withFile (some ⟨n, s.clock⟩)).move n .writing).removes (.go m false) =
      some (m, ⟨n, s.clock⟩) := by
    rw [removes, if_pos (.inl next)]
    rfl
  intro respectful
  refine respectful _ removed other ?_
  rw [live_move _ _ there, if_pos rfl]
  rfl

end State

open State

theorem Start.sound {s : State} (start : Start s) : Sound s := by
  cases start with
  | unlocked clock => exact ⟨fun n live => (by cases live), nofun⟩
  | live clock mtime =>
      refine ⟨?_, by simp [locked]⟩
      intro n live
      match n with
      | 0 => exact ⟨mtime, rfl⟩
      | n + 1 => cases live
  | stale clock mtime =>
      refine ⟨?_, by simp [locked]⟩
      intro n live
      match n with
      | 0 => cases live
      | n + 1 => cases live

/-- Along turns in which no live contender's file is found stale and no file is
created over a pending unlink, at most one contender is inside and nobody removes
another's file. The first turn that is not so is followed by one that does. -/
theorem one_inside {s : State} (start : Start s) (turns : List Turn)
    (orderly : Meets State.step Orderly s turns) :
    Always State.step Exclusive s turns ∧ Meets State.step Respectful s turns ∧
      ∀ t, ¬ (run State.step s turns).Orderly t →
        ∃ n, ¬ ((run State.step s turns).step t).Respectful (.go n false) := by
  have always := always_of_meets (P := Sound) State.step
    (fun _ t sound orderly => sound.step t orderly) s turns start.sound orderly
  refine ⟨always_mono _ (fun _ sound => sound.exclusive) s turns always, ?_, ?_⟩
  · clear orderly
    have sound := start.sound
    clear start
    induction turns generalizing s with
    | nil => trivial
    | cons t turns ih => exact ⟨sound.respectful t, ih always.2 always.2.start⟩
  · intro t broken
    cases t with
    | go n refused =>
        cases refused with
        | true => exact absurd trivial broken
        | false =>
            rcases not_and_or.mp broken with late | close
            · exact ⟨n, not_inTime late⟩
            · exact not_apart close
    | arrive => exact absurd trivial broken
    | kill n => exact absurd trivial broken
    | wait seconds => exact absurd trivial broken

theorem one_inside_after_reclaim :
    let turns : List Turn := [.arrive, .go 1 false, .go 1 false, .go 1 false, .arrive, .go 1 false,
      .go 2 false, .go 1 false, .go 2 false, .go 2 false, .go 1 false, .go 1 false]
    Always State.step Exclusive (locked 30000 0 .killed) turns :=
  (one_inside (.stale 30000 0) _ (by decide +kernel)).1

/-- Two contenders find a stale lock; the second unlinks the first one's new file,
and both are inside. So are a holder that is overdue and who reclaims its lock. -/
theorem two_inside :
    (let found : List Turn := [.arrive, .arrive, .go 1 false, .go 2 false, .go 1 false, .go 2 false,
      .go 1 false, .go 1 false, .go 1 false]
    let t := run State.step (locked 30000 0 .killed) found
    ¬ t.Respectful (.go 2 false) ∧ ¬ Always State.step Exclusive t [.go 2 false, .go 2 false,
      .go 2 false]) ∧
    (let found : List Turn := [.wait 21600, .arrive, .go 1 false, .go 1 false]
    let t := run State.step (locked 0 0 .inside) found
    ¬ t.Respectful (.go 1 false) ∧ ¬ Always State.step Exclusive t [.go 1 false, .go 1 false,
      .go 1 false]) := by
  refine ⟨⟨by decide +kernel, ?_⟩, by decide +kernel, ?_⟩
  · intro always
    have both := always.2.2.2
    exact absurd (both 1 2 (by decide +kernel) (by decide +kernel)) (by decide)
  · intro always
    have both := always.2.2.2
    exact absurd (both 0 1 (by decide +kernel) (by decide +kernel)) (by decide)

end Uta.Repair.Locking
