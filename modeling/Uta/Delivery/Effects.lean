/- What each git command of a delivery changes, and the rules for programs of them. -/
import Uta.Delivery.Push
import Uta.Lib.Hoare

namespace Uta.Delivery
open Uta.Lib

/-! What one command does. -/

/-- The commands that have nothing to do with local changes. -/
def Command.LeavesChanges : Command → Prop
  | .add _ | .commit | .rebaseAbort | .stashSave | .stashPop => False
  | _ => True

namespace Repo

variable (s : Repo)

theorem meets_induction {P : Repo → Prop} (each : ∀ s k, P s → P (s.othersPush k)) (reply : Reply)
    (start : P s) : P (s.meets reply) := by
  unfold meets
  induction reply.others generalizing s with
  | nil => exact start
  | cons k ks ih => exact ih (s.othersPush k) (each s k start)

/-- Other pushers change the branch at the origin, and nothing in the checkout. -/
theorem meets_same (reply : Reply) :
    (s.meets reply).branch = s.branch ∧ (s.meets reply).detached = s.detached ∧
      (s.meets reply).rebasing = s.rebasing ∧ (s.meets reply).unmerged = s.unmerged ∧
      (s.meets reply).changes = s.changes ∧ (s.meets reply).stash = s.stash ∧
      (s.meets reply).base = s.base :=
  meets_induction s (P := fun t => t.branch = s.branch ∧ t.detached = s.detached ∧
    t.rebasing = s.rebasing ∧ t.unmerged = s.unmerged ∧ t.changes = s.changes ∧ t.stash = s.stash ∧
    t.base = s.base) (fun _ _ same => same) reply ⟨rfl, rfl, rfl, rfl, rfl, rfl, rfl⟩

@[simp] theorem meets_branch (reply : Reply) : (s.meets reply).branch = s.branch := (s.meets_same reply).1

@[simp] theorem meets_detached (reply : Reply) : (s.meets reply).detached = s.detached :=
  (s.meets_same reply).2.1

@[simp] theorem meets_rebasing (reply : Reply) : (s.meets reply).rebasing = s.rebasing :=
  (s.meets_same reply).2.2.1

@[simp] theorem meets_unmerged (reply : Reply) : (s.meets reply).unmerged = s.unmerged :=
  (s.meets_same reply).2.2.2.1

@[simp] theorem meets_changes (reply : Reply) : (s.meets reply).changes = s.changes :=
  (s.meets_same reply).2.2.2.2.1

@[simp] theorem meets_stash (reply : Reply) : (s.meets reply).stash = s.stash :=
  (s.meets_same reply).2.2.2.2.2.1

@[simp] theorem meets_base (reply : Reply) : (s.meets reply).base = s.base :=
  (s.meets_same reply).2.2.2.2.2.2

@[simp] theorem moveHead_rebasing (target : Option ℕ) : (s.moveHead target).rebasing = s.rebasing := by
  unfold moveHead
  split <;> rfl

@[simp] theorem moveHead_changes (target : Option ℕ) : (s.moveHead target).changes = s.changes := by
  unfold moveHead
  split <;> rfl

@[simp] theorem moveHead_stash (target : Option ℕ) : (s.moveHead target).stash = s.stash := by
  unfold moveHead
  split <;> rfl

/-- What a pull can do. -/
inductive Pulled : Result → Repo → Prop
  | refused : Pulled .failed s
  | upToDate {upstream tip : ℕ} : s.rebasing = none → s.remote = some upstream → s.head = some tip →
      s.history.UpToDate upstream tip → Pulled .ok s
  | stopped {upstream tip : ℕ} (k : ℕ) : s.rebasing = none → s.remote = some upstream →
      s.head = some tip → ¬ s.history.UpToDate upstream tip →
      Pulled .failed { s with history := (s.history.chain (some upstream) k).1
                              detached := (s.history.chain (some upstream) k).2
                              rebasing := some tip, unmerged := true }
  | rebased {upstream tip : ℕ} (k : ℕ) : s.rebasing = none → s.remote = some upstream →
      s.head = some tip → ¬ s.history.UpToDate upstream tip →
      Pulled .ok ({ s with history := (s.history.chain (some upstream) k).1 }.moveHead
        (s.history.chain (some upstream) k).2)

theorem pullRebase_pulled (exit : Exit) (replayed : ℕ) :
    s.Pulled (s.pullRebase exit replayed).1 (s.pullRebase exit replayed).2 := by
  unfold pullRebase
  split
  · exact .refused
  · next allowed =>
      have idle : s.rebasing = none := by
        rcases progress : s.rebasing with _ | tip
        · rfl
        · exact absurd (.inr (.inr (.inl (by rw [progress]; rfl)))) allowed
      split
      · next upstream tip there here =>
          split
          · next current => exact .upToDate idle there here current
          · next behind =>
              dsimp only
              split
              · exact .stopped _ idle there here behind
              · exact .rebased _ idle there here behind
      · exact .refused

variable {s} in
theorem Pulled.changes {r : Result} {t : Repo} (pulled : s.Pulled r t) :
    t.changes = s.changes ∧ t.stash = s.stash := by
  cases pulled with
  | refused | upToDate | stopped => exact ⟨rfl, rfl⟩
  | rebased => simp

/-- Only a pull and the abort of a rebase say whether a rebase is in progress. -/
theorem perform_rebasing (reply : Reply) {c : Command} (notAbort : c ≠ .rebaseAbort)
    (notPull : c ≠ .pullRebase) : (s.perform reply c).2.rebasing = s.rebasing := by
  cases c with
  | rebaseAbort => exact absurd rfl notAbort
  | pullRebase => exact absurd rfl notPull
  | add files => simp only [perform, add]; split <;> rfl
  | commit => simp only [perform, commit]; split <;> simp
  | revParseHead => simp only [perform, revParseHead]; split <;> rfl
  | push | retryPush =>
      simp only [perform, push]
      split <;> try rfl
      split <;> rfl
  | revParseGitDir => rfl
  | checkout => simp only [perform, checkout]; split <;> rfl
  | stashSave =>
      simp only [perform, stashSave]
      split <;> try rfl
      split <;> rfl
  | stashPop =>
      simp only [perform, stashPop]
      split <;> try rfl
      split <;> rfl
  | lsRemote => simp only [perform, lsRemote]; split <;> rfl

theorem rebaseAbort_rebasing (exit : Exit) :
    (s.rebaseAbort exit).2.rebasing = none ↔ s.rebasing = none ∨ (s.rebaseAbort exit).1 = .ok := by
  unfold rebaseAbort
  split
  · simp
  · simp

/-- The pull ends with a rebase in progress that was not before. -/
def BreaksOff (reply : Reply) : Prop :=
  s.rebasing = none ∧ (s.perform reply .pullRebase).2.rebasing ≠ none

theorem pullRebase_rebasing (reply : Reply) :
    (s.perform reply .pullRebase).2.rebasing = none ↔ s.rebasing = none ∧ ¬ s.BreaksOff reply := by
  rcases progress : s.rebasing with _ | tip
  · simp [BreaksOff, progress]
  · simp [perform, pullRebase, progress]

/-- The other commands leave the local changes and the stash. -/
theorem perform_changes (reply : Reply) {c : Command} (leaves : c.LeavesChanges) :
    (s.perform reply c).2.changes = s.changes ∧ (s.perform reply c).2.stash = s.stash := by
  cases c with
  | add files | commit | rebaseAbort | stashSave | stashPop => exact leaves.elim
  | revParseHead => simp only [perform, revParseHead]; split <;> exact ⟨rfl, rfl⟩
  | push | retryPush =>
      simp only [perform, push]
      split <;> try exact ⟨rfl, rfl⟩
      split <;> exact ⟨rfl, rfl⟩
  | revParseGitDir => exact ⟨rfl, rfl⟩
  | checkout => simp only [perform, checkout]; split <;> exact ⟨rfl, rfl⟩
  | pullRebase => exact (s.pullRebase_pulled reply.exit reply.replayed).changes
  | lsRemote => simp only [perform, lsRemote]; split <;> exact ⟨rfl, rfl⟩

/-- A stash that is made takes every local change. -/
theorem stashSave_cases (exit : Exit) :
    (s.stashSave exit).1 ≠ .ok ∧ (s.stashSave exit).2 = s ∨
      (s.stashSave exit).1 = .ok ∧ s.changes ≠ [] ∧
        (s.stashSave exit).2 = { s with changes := [], stash := s.changes :: s.stash } := by
  unfold stashSave
  split_ifs with allowed clean
  · exact .inl ⟨nofun, rfl⟩
  · exact .inr ⟨rfl, clean, rfl⟩
  · exact .inl ⟨nofun, rfl⟩

/-- The stash is popped, or the local changes and the stash stay as they are. -/
theorem stashPop_cases {top : List Change} {rest : List (List Change)} (stashed : s.stash = top :: rest)
    (exit : Exit) :
    (s.stashPop exit).1 = .ok ∧ (s.stashPop exit).2.changes = top ++ s.changes ∨
      (s.stashPop exit).1 ≠ .ok ∧ (s.stashPop exit).2.changes = s.changes ∧
        (s.stashPop exit).2.stash = s.stash := by
  cases exit with
  | ok =>
      simp only [stashPop, stashed]
      split
      · exact .inr ⟨nofun, rfl, stashed⟩
      · exact .inl ⟨rfl, rfl⟩
  | fails => exact .inr ⟨by simp [stashPop], rfl, rfl⟩
  | blocked => exact .inr (by simp [stashPop, stashed])

end Repo

/-! What a program does. -/

namespace Desk
variable (w : Weather) (c : Command) (d : Desk)

/-- The repository that the next command meets, what it answers, and what it leaves. -/
def met : Repo := d.repo.meets (w c)

def answer : Result := ((d.met w c).perform (w c) c).1

def after : Desk :=
  { d with repo := ((d.met w c).perform (w c) c).2, trace := d.trace ++ [(c, d.met w c)] }

@[simp] theorem after_trace : (d.after w c).trace = d.trace ++ [(c, d.met w c)] := rfl

@[simp] theorem after_records : (d.after w c).records = d.records := rfl

@[simp] theorem met_rebasing : (d.met w c).rebasing = d.repo.rebasing := Repo.meets_rebasing ..

@[simp] theorem met_changes : (d.met w c).changes = d.repo.changes := Repo.meets_changes ..

@[simp] theorem met_stash : (d.met w c).stash = d.repo.stash := Repo.meets_stash ..

theorem outcome_gitRun : (gitRun c).outcome (exec w) d =
    (if (w c).inTime then .ok (d.answer w c) else .error .timeout, d.after w c) := by
  rcases inTime : (w c).inTime with _ | _ <;>
    simp [gitRun, Prog.outcome, exec, git, inTime, answer, after, met]

/-- The command has been executed, and has done what it is for. -/
def Did : Prop := ∃ met, (c, met) ∈ d.trace ∧ (met.perform (w c) c).1 = .ok

theorem did_after (c' : Command) :
    (d.after w c').Did w c ↔ d.Did w c ∨ c' = c ∧ d.answer w c' = .ok := by
  constructor
  · rintro ⟨met, member, done⟩
    rcases List.mem_append.mp member with before | now
    · exact .inl ⟨met, before, done⟩
    · obtain ⟨rfl, rfl⟩ := Prod.mk.inj (List.mem_singleton.mp now)
      exact .inr ⟨rfl, done⟩
  · rintro (⟨met, member, done⟩ | ⟨rfl, done⟩)
    · exact ⟨met, List.mem_append_left _ member, done⟩
    · exact ⟨d.met w c', List.mem_append_right _ (List.mem_singleton_self _), done⟩

end Desk

open Uta.Lib.Prog

/-- The rule for a git command that may run into its timeout. -/
theorem triple_gitRun {w : Weather} {c : Command} {P E : Desk → Prop} {Q : Result → Desk → Prop}
    (answered : ∀ d, P d → (w c).inTime = true → Q (d.answer w c) (d.after w c))
    (late : ∀ d, P d → (w c).inTime = false → E (d.after w c)) :
    Triple (Desk.exec w) P (gitRun c) Q E := by
  intro d before
  rw [Desk.outcome_gitRun]
  rcases inTime : (w c).inTime with _ | _
  · exact late d before inTime
  · exact answered d before inTime

/-- The git commands among the statements are of `Q`. -/
def Stmt.Git (Q : Command → Prop) : Stmt → Prop
  | .git c => Q c
  | _ => True

theorem only_gitRun {Q : Command → Prop} {c : Command} (allowed : Q c) :
    (gitRun c).Only (Stmt.Git Q) := by
  refine ⟨allowed, fun answer => ?_⟩
  cases answer <;> trivial

theorem only_record {Q : Command → Prop} (r : Record) : (record r).Only (Stmt.Git Q) :=
  Prog.only_perform trivial

theorem only_unstash {Q : Command → Prop} (allowed : Q .stashPop) (stashed : Bool) :
    (unstash stashed).Only (Stmt.Git Q) := by
  cases stashed with
  | false => trivial
  | true => exact (only_gitRun allowed).bind fun _ => trivial

theorem only_commitAll {Q : Command → Prop} (files : List String) (add : Q (.add files))
    (commit : Q .commit) (head : Q .revParseHead) : (commitAll files).Only (Stmt.Git Q) := by
  refine (only_gitRun add).bind fun _ => (only_gitRun commit).bind fun r => ?_
  by_cases zero : r.Zero
  · rw [if_pos zero]
    exact (only_gitRun head).bind fun _ => trivial
  · rw [if_neg zero]
    trivial

theorem only_abortInProgressRebase {Q : Command → Prop} (gitDir : Q .revParseGitDir)
    (abort : Q .rebaseAbort) : abortInProgressRebase.Only (Stmt.Git Q) := by
  refine (only_gitRun gitDir).bind fun r => ?_
  by_cases zero : r.Zero
  · rw [if_pos zero]
    refine (Prog.only_perform trivial).bind fun progress => ?_
    cases progress with
    | false => trivial
    | true => exact (only_gitRun abort).bind fun _ => trivial
  · rw [if_neg zero]
    trivial

end Uta.Delivery
