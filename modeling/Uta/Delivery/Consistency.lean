/- When a delivery leaves its records and the checkout consistent, whatever its git commands
answer and whatever other pushers push between them. -/
import Uta.Delivery.Rebase
import Uta.Delivery.Shelf
import Uta.Delivery.Published

namespace Uta.Delivery
open Uta.Lib Uta.Lib.Prog

/-- A checkout whose references all name commits. -/
structure Checkout extends Repo where
  valid : toRepo.Valid

/-- The end of a delivery of `files`. -/
def deliver (w : Weather) (files : List String) (s : Repo) : Desk :=
  ((commitToBranch files).outcome (Desk.exec w) ⟨s, [], []⟩).2

/-- What a delivery promises when it ends. -/
structure Consistent (w : Weather) (files : List String) (s : Repo) : Prop where
  pushed : TrulyPushed (deliver w files s)
  settled : (deliver w files s).repo.rebasing = none
  restored : Restored w (deliver w files s)

/-- What its git commands have to meet and to answer for that. -/
structure Smooth (w : Weather) (files : List String) (s : Repo) : Prop where
  intact : ReadIntact w s (deliver w files s)
  stale : StaleEnded w s (deliver w files s)
  whole : PullsWhole w (deliver w files s)
  popped : Popped w (deliver w files s)

/-- What a triple says of both ends of a delivery holds when it has ended. -/
theorem deliver_ends {w : Weather} {files : List String} {s : Repo} {P Q : Desk → Prop}
    (triple : Triple (Desk.exec w) P (commitToBranch files) (fun _ => Q) Q) (start : P ⟨s, [], []⟩) :
    Q (deliver w files s) := by
  have ends := triple _ start
  unfold deliver
  rcases ended : (commitToBranch files).outcome (Desk.exec w) ⟨s, [], []⟩ with ⟨_ | _, d⟩ <;>
    rw [ended] at ends <;> exact ends

theorem no_did {w : Weather} {s : Repo} {c : Command} : ¬ Desk.Did w c ⟨s, [], []⟩ :=
  fun ⟨_, member, _⟩ => nomatch member

/-- Two commits, the second of them at the origin, and changes to two files. -/
def cleanCheckout : Checkout where
  history := (History.empty.commit []).commit [0]
  remote := some 1
  base := none
  branch := some 1
  detached := none
  rebasing := none
  unmerged := false
  changes := [⟨"src/test/java/ATest.java", true, false⟩, ⟨"pom.xml", true, false⟩]
  stash := []
  valid := by
    constructor <;> intro c named <;> cases named
    all_goals decide

/-- Somebody else pushes a commit before the first push; `pull` is how the pull ends. -/
def overtaken (pull : Exit) : Weather
  | .push => ⟨[1], .ok, true, 0⟩
  | .pullRebase => ⟨[], pull, true, 1⟩
  | _ => ⟨[], .ok, true, 0⟩

end Uta.Delivery
