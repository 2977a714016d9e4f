/- Failures that are put down to the mutation score, and the grants that waive them: in a run of
either language something else can have failed that the flags do not read. -/
import Uta.JavaGate.FlagsLaws
import Uta.PythonGate.Flags
import Uta.Repair.Granting

namespace Uta.Repair
open Uta.Lib Uta.Enforce Uta.JavaGate Uta.JavaGate.Log Uta.PythonGate

/-- A failure that the flags put down to the mutation score is one of the score alone, and so is
every failure that a grant waives. -/
structure Attributed (flags : Option GateFlags) (alone : Prop) : Prop where
  answer : flags.any GateFlags.mutationOnlyFailure = true → alone
  grant : ∀ (py : Conversions) (faults : Faults) (e : Evidence)
    (reviews : List (ReviewedRow × ReviewDecision)) (fresh : ScoringSurvivors), e.flags = flags →
    weighGrant py faults e = .ok (some (reviews, fresh)) → alone

/-- A grant goes by flags that name the mutation score. -/
theorem granted_mutationOnly {reviews : List ReviewDecision} {fresh : Option ScoringSurvivors}
    {flags : GateFlags} (granted : (decideGrant reviews fresh flags).granted = true) :
    flags.mutationOnlyFailure = true := by
  unfold decideGrant at granted
  dsimp only at granted
  split at granted
  · cases granted
  split at granted
  · cases granted
  split at granted
  · cases granted
  split at granted
  · cases granted
  split at granted
  · cases granted
  · rename_i named
    simpa using named

theorem weighGrant_mutationOnly {py : Conversions} {faults : Faults} {e : Evidence}
    {reviews : List (ReviewedRow × ReviewDecision)} {fresh : ScoringSurvivors}
    (granted : weighGrant py faults e = .ok (some (reviews, fresh))) :
    e.flags.any GateFlags.mutationOnlyFailure = true := by
  unfold weighGrant at granted
  dsimp only at granted
  split at granted
  · cases granted
  split at granted
  · cases granted
  · cases granted
  split at granted
  · cases granted
  split at granted
  · cases granted
  split at granted
  · cases granted
  rename_i flags known
  split at granted
  · cases granted
  split at granted
  · cases granted
  · rename_i allowed
    rw [known, Option.any_some]
    exact granted_mutationOnly (not_not.mp allowed)

/-- The grants are right where the answer is. -/
theorem attributed_iff_answer {flags : Option GateFlags} {alone : Prop} :
    Attributed flags alone ↔ (flags.any GateFlags.mutationOnlyFailure = true → alone) := by
  refine ⟨Attributed.answer, fun answer => ⟨answer, ?_⟩⟩
  rintro py faults e reviews fresh rfl granted
  exact answer (weighGrant_mutationOnly granted)

/-- The answers of both gates are right exactly where nothing failed unseen, or where they are
withheld. -/
theorem attributed_iff (b : Build) (t : Build.Taking) (r : Run) (returncode : ℤ)
    (gitHead : String) :
    (Attributed (javaGateFailureFlags (b.gateResult t)) b.MutationAlone ↔
      (∀ m ∈ b.modules, ¬ Build.Unseen m) ∨ b.Withheld) ∧
    (Attributed (pythonGateFailureFlags (r.gateResult returncode gitHead)) r.MutationAlone ↔
      ¬ r.Unseen ∨ r.Withheld returncode gitHead) := by
  constructor
  · exact attributed_iff_answer.trans (Build.mutationOnly_right_iff t)
  · exact attributed_iff_answer.trans (r.mutationOnly_right_iff returncode gitHead)

theorem solid_demoBiz : IsSolid "demo-biz".toList := by decide

theorem solid_invoiceBiz : IsSolid "com.demo.InvoiceBiz*".toList := by decide

theorem solid_originMaster : IsSolid "origin/master".toList := by decide

/-- A module whose tests are red in Surefire, whose gates run without the failing test, and whose
score is below its gate. -/
def redModule : TestedModule where
  name := ⟨"demo-biz".toList, solid_demoBiz⟩
  changedLines := true
  targets := [⟨"com.demo.InvoiceBiz*".toList, solid_invoiceBiz⟩]
  outcome := .gated (.measured ⟨10000⟩ 16 16) (some ⟨true, 3, 2, 67, 0, 67⟩)
    (.missed ⟨6667⟩ ⟨10000⟩ 2 3 1 0)
  red := some ⟨12, 1, 0⟩
  ran := fun _ => trivial

def redBuild : Build where
  baseRef := ⟨"origin/master".toList, solid_originMaster⟩
  modules := [redModule]

def redTaking : Build.Taking where
  gate := 100
  detectTermination := true
  returncode := 1
  details := .misses [.mutation
    ⟨"66.67".toList, by decide, List.all_iff_forall_prop.mp (by decide)⟩
    ⟨"100.00".toList, by decide, List.all_iff_forall_prop.mp (by decide)⟩
    (some (⟨"2".toList, by decide, List.all_iff_forall_prop.mp (by decide)⟩,
      ⟨"3".toList, by decide, List.all_iff_forall_prop.mp (by decide)⟩))]
  excluded := 0

/-- The failure of a build with a red test is put down to its mutation score. -/
theorem redBuild_answered :
    ¬ ((∀ (b : Build) (t : Build.Taking),
        Attributed (javaGateFailureFlags (b.gateResult t)) b.MutationAlone) ∧
      ∀ (r : Run) (returncode : ℤ) (gitHead : String),
        Attributed (pythonGateFailureFlags (r.gateResult returncode gitHead)) r.MutationAlone) := by
  rintro ⟨java, _⟩
  have listed : redModule ∈ redBuild.modules := List.mem_singleton_self _
  have alone := (java redBuild redTaking).answer <| by
    refine (Build.mutationOnly_iff redTaking).mpr
      ⟨⟨_, listed, trivial⟩, ⟨_, listed, trivial⟩, ?_, ?_⟩
    · exact List.forall_mem_singleton.mpr id
    · exact List.forall_mem_singleton.mpr id
  exact absurd (alone.green redModule listed).1 (Option.some_ne_none _)

end Uta.Repair
