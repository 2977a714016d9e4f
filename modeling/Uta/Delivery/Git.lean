/- The git commands of a delivery: what each does to the checkout and to the branch
at the origin, while other pushers push to that branch too. -/
import Uta.Lib.History

namespace Uta.Delivery
open Uta.Lib

/-- A local change that is not committed. -/
structure Change where
  path : String
  tracked : Bool
  staged : Bool
  deriving DecidableEq, Repr

/-- A checkout of one branch, and the origin. -/
structure Repo where
  history : History
  /-- The branch at the origin, and what a pusher starts it from when it is not there. -/
  remote : Option ℕ
  base : Option ℕ
  branch : Option ℕ
  /-- Where `HEAD` is when it is not on the branch. -/
  detached : Option ℕ
  /-- The commit that the branch had when the rebase in progress began. -/
  rebasing : Option ℕ
  /-- The index has conflicts. -/
  unmerged : Bool
  changes : List Change
  stash : List (List Change)

inductive Command where
  | add (files : List String)
  | commit
  | revParseHead
  | push
  | revParseGitDir
  | rebaseAbort
  | checkout
  | stashSave
  | pullRebase
  | retryPush
  | stashPop
  | lsRemote
  deriving DecidableEq, Repr

/-- What becomes of a command that git can carry out. -/
inductive Exit where
  | ok
  | fails
  /-- The origin declines a push; a rebase or a stash meets a conflict. -/
  | blocked
  deriving DecidableEq, Repr

structure Reply where
  /-- How many commits each push brings that others make before the command. -/
  others : List ℕ
  exit : Exit
  /-- The command ends before its timeout. -/
  inTime : Bool
  /-- How many commits a rebase has replayed when it ends. -/
  replayed : ℕ
  deriving DecidableEq, Repr

/-- How each command of one delivery turns out. -/
abbrev Weather := Command → Reply

/-- What the caller sees of a command that has ended. -/
inductive Result where
  | ok
  /-- Success with nothing to do, or with an empty output. -/
  | idle
  | sha (c : ℕ)
  /-- A failure whose output says that the push was rejected. -/
  | rejected
  | failed
  deriving DecidableEq, Repr

/-- The return code is zero. -/
def Result.Zero : Result → Prop
  | .ok | .idle | .sha _ => True
  | .rejected | .failed => False

instance : DecidablePred Result.Zero := fun r => by cases r <;> simp only [Result.Zero] <;> infer_instance

namespace Repo

/-- Every reference names a commit. -/
structure Valid (s : Repo) : Prop where
  remote : s.history.Names s.remote
  base : s.history.Names s.base
  branch : s.history.Names s.branch
  detached : s.history.Names s.detached
  rebasing : s.history.Names s.rebasing

def head (s : Repo) : Option ℕ := s.detached <|> s.branch

/-- Moves the branch, or `HEAD` alone when it is not on it. -/
def moveHead (s : Repo) (target : Option ℕ) : Repo :=
  if s.detached.isSome then { s with detached := target } else { s with branch := target }

/-- Another pusher's push of `k` commits of its own. -/
def othersPush (s : Repo) (k : ℕ) : Repo :=
  let (history, tip) := s.history.chain (s.remote <|> s.base) k
  { s with history, remote := tip }

def add (files : List String) (exit : Exit) (s : Repo) : Result × Repo :=
  if exit = .ok then
    (.ok, { s with changes := s.changes.map fun c => if c.path ∈ files then { c with staged := true } else c })
  else (.failed, s)

def commit (exit : Exit) (s : Repo) : Result × Repo :=
  if exit = .ok ∧ s.unmerged = false then
    let onto := { s with history := s.history.commit s.head.toList
                         changes := s.changes.filter fun c => !c.staged }
    (.ok, onto.moveHead (some s.history.size))
  else (.failed, s)

def revParseHead (exit : Exit) (s : Repo) : Result × Repo :=
  match exit, s.head with
  | .ok, some c => (.sha c, s)
  | _, _ => (.failed, s)

/-- A push is taken when it only adds commits to the branch at the origin. -/
def push (exit : Exit) (s : Repo) : Result × Repo :=
  match exit, s.branch with
  | .fails, _ | _, none => (.failed, s)
  | .blocked, some _ => (.rejected, s)
  | .ok, some tip =>
    if ∀ r ∈ s.remote, s.history.Reach r tip then (.ok, { s with remote := some tip }) else (.rejected, s)

def revParseGitDir (exit : Exit) (s : Repo) : Result × Repo :=
  (if exit = .ok then .ok else .failed, s)

/-- The branch is reset to what it was before the rebase; changes to tracked files go. -/
def rebaseAbort (exit : Exit) (s : Repo) : Result × Repo :=
  match exit, s.rebasing with
  | .ok, some tip =>
    (.ok, { s with branch := some tip, detached := none, rebasing := none, unmerged := false,
                   changes := s.changes.filter fun c => !c.tracked })
  | _, _ => (.failed, s)

def checkout (exit : Exit) (s : Repo) : Result × Repo :=
  if exit = .ok ∧ s.unmerged = false ∧ s.branch.isSome then (.ok, { s with detached := none })
  else (.failed, s)

def stashSave (exit : Exit) (s : Repo) : Result × Repo :=
  if exit = .ok ∧ s.unmerged = false then
    if s.changes = [] then (.idle, s) else (.ok, { s with changes := [], stash := s.changes :: s.stash })
  else (.failed, s)

/-- A fetch, then the commits that the branch at the origin lacks again on top of it.
Git refuses to begin when tracked files have changes. -/
def pullRebase (exit : Exit) (replayed : ℕ) (s : Repo) : Result × Repo :=
  if exit = .fails ∨ s.unmerged ∨ s.rebasing.isSome ∨ s.changes.any (fun c => c.tracked || c.staged) then
    (.failed, s)
  else
    match s.remote, s.head with
    | some upstream, some tip =>
      if s.history.UpToDate upstream tip then (.ok, s)
      else
        let todo := s.history.ahead upstream tip
        let (history, onto) := s.history.chain (some upstream) (min replayed todo.length)
        if exit = .blocked ∧ todo ≠ [] then
          (.failed, { s with history, detached := onto, rebasing := some tip, unmerged := true })
        else (.ok, { s with history }.moveHead onto)
    | _, _ => (.failed, s)

/-- A stash that conflicts with the working tree is kept. -/
def stashPop (exit : Exit) (s : Repo) : Result × Repo :=
  match exit, s.stash with
  | .ok, top :: rest =>
    if s.unmerged then (.failed, s) else (.ok, { s with changes := top ++ s.changes, stash := rest })
  | .blocked, _ :: _ => (.failed, { s with unmerged := true })
  | _, _ => (.failed, s)

def lsRemote (exit : Exit) (s : Repo) : Result × Repo :=
  match exit, s.remote with
  | .ok, some c => (.sha c, s)
  | .ok, none => (.idle, s)
  | _, _ => (.failed, s)

def perform (s : Repo) (reply : Reply) : Command → Result × Repo
  | .add files => s.add files reply.exit
  | .commit => s.commit reply.exit
  | .revParseHead => s.revParseHead reply.exit
  | .push | .retryPush => s.push reply.exit
  | .revParseGitDir => s.revParseGitDir reply.exit
  | .rebaseAbort => s.rebaseAbort reply.exit
  | .checkout => s.checkout reply.exit
  | .stashSave => s.stashSave reply.exit
  | .pullRebase => s.pullRebase reply.exit reply.replayed
  | .stashPop => s.stashPop reply.exit
  | .lsRemote => s.lsRemote reply.exit

/-- The repository that a command meets. -/
def meets (s : Repo) (reply : Reply) : Repo := reply.others.foldl othersPush s

end Repo
end Uta.Delivery
