/- A delivery: the commit of a batch, its push, the rebase when the push is rejected,
and what the task's rows record of it. -/
import Uta.Delivery.Git
import Uta.Lib.Interleave

namespace Uta.Delivery
open Uta.Lib

/-- What the task's ports are told. -/
inductive Record where
  | commit (commitSha : Option ℕ)
  | pushed (commitSha : Option ℕ) (remoteHead : Option ℕ)
  | pushVerified (localHead : Option ℕ) (remoteHead : Option ℕ)
  | pushFailed
  | results
  deriving DecidableEq, Repr

inductive Stmt where
  | git (c : Command)
  | rebaseInProgress
  | record (r : Record)

/-- A git command that runs into its timeout gives no result. -/
abbrev Stmt.Answer : Stmt → Type
  | .git _ => Option Result
  | .rebaseInProgress => Bool
  | .record _ => Unit

/-- `trace` has the commands so far, each with the repository that it met. -/
structure Desk where
  repo : Repo
  records : List Record
  trace : List (Command × Repo)

namespace Desk

def git (w : Weather) (c : Command) (d : Desk) : Option Result × Desk :=
  let met := d.repo.meets (w c)
  let (result, repo) := met.perform (w c) c
  (if (w c).inTime then some result else none, { d with repo, trace := d.trace ++ [(c, met)] })

def exec (w : Weather) : (s : Stmt) → Desk → s.Answer × Desk
  | .git c, d => d.git w c
  | .rebaseInProgress, d => (d.repo.rebasing.isSome, d)
  | .record r, d => ((), { d with records := d.records ++ [r] })

end Desk

inductive DeliveryError where
  | timeout
  deriving DecidableEq, Repr

abbrev DeliveryProg := Prog Stmt Stmt.Answer DeliveryError

def gitRun (c : Command) : DeliveryProg Result :=
  .stmt (.git c) fun
    | some result => .ret result
    | none => .raise .timeout

def record (r : Record) : DeliveryProg Unit := .perform (Stmt.record r)

def abortInProgressRebase : DeliveryProg Unit := do
  let gitDir ← gitRun .revParseGitDir
  if gitDir.Zero then
    if (← .perform .rebaseInProgress : Bool) then
      let _ ← gitRun .rebaseAbort

/-- The local changes that were put away come back, whatever that command says. -/
def unstash (stashed : Bool) : DeliveryProg Unit :=
  if stashed then do
    let _ ← gitRun .stashPop
  else .ret ()

/-- What follows a rejected push. -/
def rebaseRetry : DeliveryProg Result := do
  abortInProgressRebase
  let checkout ← gitRun .checkout
  if ¬ checkout.Zero then return checkout
  let stash ← gitRun .stashSave
  let stashed := decide (stash = .ok)
  let rebase ← gitRun .pullRebase
  if ¬ rebase.Zero then
    unstash stashed
    return rebase
  let retry ← gitRun .retryPush
  unstash stashed
  return retry

def pushBranchWithRebaseRetry : DeliveryProg Result := do
  let push ← gitRun .push
  if push = .rejected then rebaseRetry else return push

/-- The commit that a command has printed, if it printed one. -/
def Result.printed : Result → Option ℕ
  | .sha c => some c
  | _ => none

/-- The push of a commit, and what is recorded of it. -/
def publish (commitSha : ℕ) : DeliveryProg Unit := do
  let push ← pushBranchWithRebaseRetry
  if push.Zero then
    let remoteHead ← gitRun .lsRemote
    record (.pushVerified (some commitSha) remoteHead.printed)
    record (.pushed (some commitSha) remoteHead.printed)
  else
    record .pushFailed

def recordDelivery (commitSha : Option ℕ) : DeliveryProg Unit := do
  record (.commit commitSha)
  match commitSha with
  | some c => publish c
  | none => return ()

/-- The sha that `rev-parse HEAD` prints after a commit that was made. -/
def commitAll (files : List String) : DeliveryProg (Option ℕ) := do
  let _ ← gitRun (.add files)
  let commit ← gitRun .commit
  if commit.Zero then
    let head ← gitRun .revParseHead
    return head.printed
  else return none

/-- `commit_to_branch` for a batch that has files to add. What the recording raises is
logged, and the results are recorded all the same. -/
def commitToBranch (files : List String) : DeliveryProg Unit := do
  let commitSha ← commitAll files
  let _ ← (recordDelivery commitSha).attempt
  record .results

end Uta.Delivery
