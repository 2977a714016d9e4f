/- Whether the commit that a delivery records as pushed is in the branch at the origin. -/
import Uta.Delivery.Effects

namespace Uta.Delivery
open Uta.Lib Uta.Lib.Prog

/-- The commands that leave the history and its references, except where `HEAD` is. -/
def Command.LeavesRefs : Command → Prop
  | .commit | .push | .retryPush | .rebaseAbort | .pullRebase => False
  | _ => True

namespace Repo
variable {s t : Repo} {c : ℕ}

/-! References. -/

/-- A commit of the checkout that is not at the origin, nor where a rebase began. -/
structure Unpublished (c : ℕ) (s : Repo) : Prop where
  valid : s.Valid
  there : c < s.history.size
  remote : ¬ s.history.Carries c s.remote
  base : ¬ s.history.Carries c s.base
  rebasing : ¬ s.history.Carries c s.rebasing

/-- The history and its references are the same, except where `HEAD` is. -/
structure SameRefs (s t : Repo) : Prop where
  history : t.history = s.history
  remote : t.remote = s.remote
  base : t.base = s.base
  branch : t.branch = s.branch
  rebasing : t.rebasing = s.rebasing
  detached : t.detached = s.detached ∨ t.detached = none

theorem SameRefs.refl (s : Repo) : SameRefs s s := ⟨rfl, rfl, rfl, rfl, rfl, .inl rfl⟩

theorem SameRefs.valid (same : SameRefs s t) (valid : s.Valid) : t.Valid := by
  refine ⟨?_, ?_, ?_, ?_, ?_⟩
  · rw [same.history, same.remote]; exact valid.remote
  · rw [same.history, same.base]; exact valid.base
  · rw [same.history, same.branch]; exact valid.branch
  · rcases same.detached with detached | attached
    · rw [same.history, detached]; exact valid.detached
    · rw [attached]; exact nofun
  · rw [same.history, same.rebasing]; exact valid.rebasing

theorem SameRefs.unpublished (same : SameRefs s t) (unpublished : s.Unpublished c) : t.Unpublished c := by
  refine ⟨same.valid unpublished.valid, ?_, ?_, ?_, ?_⟩
  · rw [same.history]; exact unpublished.there
  · rw [same.history, same.remote]; exact unpublished.remote
  · rw [same.history, same.base]; exact unpublished.base
  · rw [same.history, same.rebasing]; exact unpublished.rebasing

theorem perform_sameRefs (s : Repo) (reply : Reply) {k : Command} (leaves : k.LeavesRefs) :
    SameRefs s (s.perform reply k).2 := by
  cases k with
  | commit | push | retryPush | rebaseAbort | pullRebase => exact leaves.elim
  | add files => simp only [perform, add]; split <;> exact ⟨rfl, rfl, rfl, rfl, rfl, .inl rfl⟩
  | revParseHead => simp only [perform, revParseHead]; split <;> exact .refl s
  | revParseGitDir => exact .refl s
  | checkout => simp only [perform, checkout]; split <;> exact ⟨rfl, rfl, rfl, rfl, rfl, by simp⟩
  | stashSave =>
      simp only [perform, stashSave]
      split <;> try exact .refl s
      split <;> exact ⟨rfl, rfl, rfl, rfl, rfl, .inl rfl⟩
  | stashPop =>
      simp only [perform, stashPop]
      split <;> try exact ⟨rfl, rfl, rfl, rfl, rfl, .inl rfl⟩
      split <;> exact ⟨rfl, rfl, rfl, rfl, rfl, .inl rfl⟩
  | lsRemote => simp only [perform, lsRemote]; split <;> exact .refl s

theorem checkout_attached {exit : Exit} (switched : (s.checkout exit).1.Zero) :
    (s.checkout exit).2.detached = none := by
  unfold checkout at *
  split at switched
  · rw [if_pos ‹_›]
  · exact switched.elim

/-! Other pushers. -/

theorem names_orElse {h : History} {a b : Option ℕ} (first : h.Names a) (second : h.Names b) :
    h.Names (a <|> b) := by
  cases a with
  | none => simpa using second
  | some _ => simpa using first

theorem Valid.grown (valid : s.Valid) {h : History} (grows : s.history.Grows h) {remote : Option ℕ}
    (names : h.Names remote) : ({ s with history := h, remote } : Repo).Valid :=
  ⟨names, valid.base.mono grows, valid.branch.mono grows, valid.detached.mono grows,
    valid.rebasing.mono grows⟩

theorem Valid.meets (valid : s.Valid) (reply : Reply) : (s.meets reply).Valid := by
  refine meets_induction s (P := Valid) (fun t k valid => ?_) reply valid
  exact valid.grown (t.history.grows_chain _ k) (History.names_chain (names_orElse valid.remote valid.base) k)

theorem Unpublished.othersPush (unpublished : s.Unpublished c) (k : ℕ) :
    (s.othersPush k).Unpublished c ∧
      ((s.othersPush k).history.Carries c (s.othersPush k).branch ↔ s.history.Carries c s.branch) := by
  have valid := unpublished.valid
  have names := names_orElse valid.remote valid.base
  have grows := s.history.grows_chain (s.remote <|> s.base) k
  have absent : ¬ s.history.Carries c (s.remote <|> s.base) := by
    rcases remote : s.remote with _ | r
    · exact unpublished.base
    · have absent := unpublished.remote
      rwa [remote] at absent
  refine ⟨⟨valid.grown grows (History.names_chain names k), unpublished.there.trans_le grows.size_le, ?_,
    ?_, ?_⟩, History.carries_of_grows grows valid.branch⟩
  · exact fun carries => absent ((History.carries_chain names unpublished.there k).mp carries)
  · exact fun carries => unpublished.base ((History.carries_of_grows grows valid.base).mp carries)
  · exact fun carries => unpublished.rebasing ((History.carries_of_grows grows valid.rebasing).mp carries)

theorem Unpublished.meets (unpublished : s.Unpublished c) (reply : Reply) :
    (s.meets reply).Unpublished c ∧
      ((s.meets reply).history.Carries c (s.meets reply).branch ↔ s.history.Carries c s.branch) := by
  refine meets_induction s (P := fun t => t.Unpublished c ∧
    (t.history.Carries c t.branch ↔ s.history.Carries c s.branch)) (fun t k holds => ?_) reply
    ⟨unpublished, Iff.rfl⟩
  obtain ⟨there, same⟩ := holds.1.othersPush k
  exact ⟨there, same.trans holds.2⟩

/-- Other pushers build on what is at the origin. -/
theorem remote_meets (valid : s.Valid) (there : c < s.history.size) (pushed : s.remote ≠ none)
    (reply : Reply) : c < (s.meets reply).history.size ∧ (s.meets reply).remote ≠ none ∧
      ((s.meets reply).history.Carries c (s.meets reply).remote ↔ s.history.Carries c s.remote) := by
  refine (meets_induction s (P := fun t => t.Valid ∧ c < t.history.size ∧ t.remote ≠ none ∧
    (t.history.Carries c t.remote ↔ s.history.Carries c s.remote)) (fun t k holds => ?_) reply
    ⟨valid, there, pushed, Iff.rfl⟩).2
  obtain ⟨valid, there, pushed, same⟩ := holds
  have grows := t.history.grows_chain (t.remote <|> t.base) k
  have names := names_orElse valid.remote valid.base
  refine ⟨valid.grown grows (History.names_chain names k), there.trans_le grows.size_le, ?_, ?_⟩
  · rcases k with _ | k
    · simpa [othersPush, History.chain] using fun absent => absurd absent pushed
    · simp [othersPush, History.chain]
  · refine (History.carries_chain names there k).trans ?_
    obtain ⟨r, remote⟩ := Option.ne_none_iff_exists'.mp pushed
    rw [← same, remote]
    rfl

/-! The commands that move references. -/

/-- A commit that is made is on the branch exactly when `HEAD` is. -/
theorem commit_made (valid : s.Valid) {exit : Exit} (made : (s.commit exit).1.Zero) :
    ∃ c, (s.commit exit).2.Unpublished c ∧ (s.commit exit).2.head = some c ∧
      ((s.commit exit).2.history.Carries c (s.commit exit).2.branch ↔ s.detached = none) := by
  have allowed : exit = .ok ∧ s.unmerged = false := by
    by_contra refused
    rw [commit, if_neg refused] at made
    exact made
  have grows := s.history.grows_commit s.head.toList
  have newest : s.history.size < (s.history.commit s.head.toList).size := by simp
  have absent : ∀ ref, s.history.Names ref → ¬ (s.history.commit s.head.toList).Carries s.history.size ref :=
    fun ref names carries => names.fresh le_rfl ((History.carries_of_grows grows names).mp carries)
  have made : (s.history.commit s.head.toList).Names (some s.history.size) :=
    fun c same => (Option.some.inj same).symm.trans_lt newest
  refine ⟨s.history.size, ?_⟩
  rw [commit, if_pos allowed]
  rcases attached : s.detached with _ | x
  · simp only [moveHead, Option.isSome_none, Bool.false_eq_true, if_false]
    have unborn : (s.history.commit s.head.toList).Names none := by
      intro c same
      cases same
    refine ⟨⟨⟨valid.remote.mono grows, valid.base.mono grows, made, ?_, valid.rebasing.mono grows⟩, newest,
      absent _ valid.remote, absent _ valid.base, absent _ valid.rebasing⟩, rfl, ?_⟩
    · exact unborn
    · exact ⟨fun _ => trivial, fun _ => ⟨_, rfl, .refl⟩⟩
  · simp only [moveHead, Option.isSome_some, if_true]
    refine ⟨⟨⟨valid.remote.mono grows, valid.base.mono grows, valid.branch.mono grows, made,
      valid.rebasing.mono grows⟩, newest, absent _ valid.remote, absent _ valid.base,
      absent _ valid.rebasing⟩, rfl, ?_⟩
    refine ⟨fun carries => absurd carries (absent _ valid.branch), fun none_ => ?_⟩
    cases none_

theorem push_taken {exit : Exit} (taken : (s.push exit).1.Zero) :
    s.branch ≠ none ∧ (s.push exit).2 = { s with remote := s.branch } := by
  unfold push at *
  split at taken
  · exact taken.elim
  · exact taken.elim
  · exact taken.elim
  · next tip branch =>
      split at taken
      · next fastForward =>
          rw [branch]
          exact ⟨nofun, by simp only [if_pos fastForward]⟩
      · exact taken.elim

theorem push_refused {exit : Exit} (refused : ¬ (s.push exit).1.Zero) : (s.push exit).2 = s := by
  unfold push at *
  split at refused <;> try rfl
  split at refused
  · exact absurd trivial refused
  · rw [if_neg ‹_›]

/-- The abort of a rebase takes the branch back to where it was before it. -/
theorem rebaseAbort_unpublished (unpublished : s.Unpublished c) (exit : Exit) :
    (s.rebaseAbort exit).2.Unpublished c ∧
      ((s.rebaseAbort exit).2.history.Carries c (s.rebaseAbort exit).2.branch ↔
        (s.rebaseAbort exit).1 ≠ .ok ∧ s.history.Carries c s.branch) := by
  have valid := unpublished.valid
  unfold rebaseAbort
  split
  · next tip progress =>
      refine ⟨⟨⟨valid.remote, valid.base, ?_, nofun, nofun⟩, unpublished.there, unpublished.remote,
        unpublished.base, History.not_carries_none⟩, ?_⟩
      · rw [← progress]
        exact unpublished.valid.rebasing
      · have absent := unpublished.rebasing
        rw [progress] at absent
        simpa using absent
  · exact ⟨unpublished, by simp⟩

/-- The branch has what the branch at the origin had, when the pull begins. -/
def UpToDate (s : Repo) : Prop :=
  ∀ upstream ∈ s.remote, ∀ tip ∈ s.head, s.history.UpToDate upstream tip

/-- A pull that succeeds keeps a commit in the branch only where it has nothing to replay. -/
theorem pullRebase_unpublished (unpublished : s.Unpublished c) (attached : s.detached = none)
    {exit : Exit} {replayed : ℕ} (pulled : (s.pullRebase exit replayed).1.Zero) :
    (s.pullRebase exit replayed).2.Unpublished c ∧
      ((s.pullRebase exit replayed).2.history.Carries c (s.pullRebase exit replayed).2.branch ↔
        s.history.Carries c s.branch ∧ s.UpToDate) := by
  have cases := s.pullRebase_pulled exit replayed
  revert pulled cases
  generalize (s.pullRebase exit replayed).1 = r
  generalize (s.pullRebase exit replayed).2 = t
  intro pulled cases
  cases cases with
  | refused | stopped => exact pulled.elim
  | upToDate idle there here current =>
      refine ⟨unpublished, (and_iff_left ?_).symm⟩
      rintro u remote tip head
      rw [there, Option.mem_some_iff] at remote
      rw [here, Option.mem_some_iff] at head
      exact remote ▸ head ▸ current
  | @rebased upstream tip k idle there here behind =>
      have valid := unpublished.valid
      have names : s.history.Names (some upstream) := there ▸ valid.remote
      have grows := s.history.grows_chain (some upstream) k
      have absent : ¬ s.history.Carries c (some upstream) := there ▸ unpublished.remote
      have lost : ¬ s.UpToDate := fun current => behind (current upstream there tip here)
      have stays := fun {ref} (names : s.history.Names ref) =>
        (History.carries_of_grows grows names (a := c))
      have moved : ({ s with history := (s.history.chain (some upstream) k).1 } : Repo).moveHead
          (s.history.chain (some upstream) k).2 =
          { s with history := (s.history.chain (some upstream) k).1
                   branch := (s.history.chain (some upstream) k).2 } := by
        simp [Repo.moveHead, attached]
      rw [moved]
      refine ⟨⟨⟨valid.remote.mono grows, valid.base.mono grows, History.names_chain names k,
        valid.detached.mono grows, valid.rebasing.mono grows⟩, unpublished.there.trans_le grows.size_le,
        ?_, ?_, ?_⟩, ?_⟩
      · exact fun carries => unpublished.remote ((stays valid.remote).mp carries)
      · exact fun carries => unpublished.base ((stays valid.base).mp carries)
      · exact fun carries => unpublished.rebasing ((stays valid.rebasing).mp carries)
      · refine (History.carries_chain names unpublished.there k).trans ?_
        exact ⟨fun carries => absurd carries absent, fun both => absurd both.2 lost⟩

end Repo

/-! The records. -/

section Recorded
variable (w : Weather) (s : Repo) (c : ℕ)

/-- The commit is still in the branch: it was made there, no abort has taken the branch
back, and no pull has replayed it. -/
def Intact (d : Desk) : Prop :=
  s.detached = none ∧ ¬ d.Did w .rebaseAbort ∧
    ∀ met, (Command.pullRebase, met) ∈ d.trace → met.UpToDate

/-- Every commit recorded as pushed is in the branch recorded with it. -/
def TrulyPushed (d : Desk) : Prop :=
  ∀ sha head, Record.pushed sha head ∈ d.records → ∃ c, sha = some c ∧ d.repo.history.Carries c head

/-- The branch at the origin could be read, and the commit is in it. -/
def ReadIntact (d : Desk) : Prop :=
  ∀ met, (Command.lsRemote, met) ∈ d.trace → (w .lsRemote).inTime = true →
    (w .lsRemote).exit = .ok ∧ Intact w s d

/-- Nothing has been recorded as pushed, nor read from the origin. -/
def Quiet (d : Desk) : Prop :=
  (∀ sha head, Record.pushed sha head ∉ d.records) ∧ ∀ met, (Command.lsRemote, met) ∉ d.trace

/-- Before the commit. -/
structure Early (d : Desk) : Prop where
  quiet : Quiet d
  valid : d.repo.Valid
  attached : d.repo.detached = none ↔ s.detached = none
  intact : Intact w s d ↔ s.detached = none

/-- Between the commit and a push that is taken. -/
structure Stage (d : Desk) : Prop where
  quiet : Quiet d
  unpublished : d.repo.Unpublished c
  carries : d.repo.history.Carries c d.repo.branch ↔ Intact w s d

/-- After a push that is taken. -/
structure Pushed (d : Desk) : Prop where
  quiet : Quiet d
  valid : d.repo.Valid
  there : c < d.repo.history.size
  pushed : d.repo.remote ≠ none
  carries : d.repo.history.Carries c d.repo.remote ↔ Intact w s d

variable {w s c} {d : Desk} {k : Command}

theorem Quiet.truly (quiet : Quiet d) : TrulyPushed d ↔ ReadIntact w s d :=
  ⟨fun _ met member => absurd member (quiet.2 met), fun _ sha head member => absurd member (quiet.1 sha head)⟩

theorem Quiet.after (quiet : Quiet d) (other : k ≠ .lsRemote) : Quiet (d.after w k) := by
  refine ⟨quiet.1, fun met member => ?_⟩
  rcases List.mem_append.mp member with before | now
  · exact quiet.2 met before
  · exact other (Prod.mk.inj (List.mem_singleton.mp now)).1.symm

theorem Quiet.record (quiet : Quiet d) {r : Record} (other : ∀ sha head, r ≠ .pushed sha head) :
    Quiet { d with records := d.records ++ [r] } := by
  refine ⟨fun sha head member => ?_, quiet.2⟩
  rcases List.mem_append.mp member with before | now
  · exact quiet.1 sha head before
  · exact other sha head (List.mem_singleton.mp now).symm

theorem intact_after : Intact w s (d.after w k) ↔ Intact w s d ∧
    (k = .rebaseAbort → d.answer w k ≠ .ok) ∧ (k = .pullRebase → (d.met w k).UpToDate) := by
  unfold Intact
  rw [Desk.did_after]
  simp only [Desk.after_trace, List.mem_append, List.mem_singleton, Prod.mk.injEq]
  constructor
  · rintro ⟨attached, kept, current⟩
    exact ⟨⟨attached, fun did => kept (.inl did), fun met member => current met (.inl member)⟩,
      fun same done => kept (.inr ⟨same, done⟩), fun same => current _ (.inr ⟨same.symm, rfl⟩)⟩
  · rintro ⟨⟨attached, kept, current⟩, unaborted, upToDate⟩
    refine ⟨attached, ?_, ?_⟩
    · rintro (did | ⟨same, done⟩)
      · exact kept did
      · exact unaborted same done
    · rintro met (member | ⟨same, rfl⟩)
      · exact current met member
      · exact upToDate same.symm

theorem intact_after_other (notAbort : k ≠ .rebaseAbort) (notPull : k ≠ .pullRebase) :
    Intact w s (d.after w k) ↔ Intact w s d := by
  rw [intact_after]
  exact and_iff_left ⟨fun same => absurd same notAbort, fun same => absurd same notPull⟩

theorem Command.LeavesRefs.ne (leaves : k.LeavesRefs) : k ≠ .rebaseAbort ∧ k ≠ .pullRebase := by
  constructor <;> rintro rfl <;> exact leaves

theorem Stage.after (stage : Stage w s c d) (leaves : k.LeavesRefs) (other : k ≠ .lsRemote) :
    Stage w s c (d.after w k) := by
  obtain ⟨there, carries⟩ := stage.unpublished.meets (w k)
  have same := (d.met w k).perform_sameRefs (w k) leaves
  refine ⟨stage.quiet.after other, same.unpublished there, ?_⟩
  rw [intact_after_other leaves.ne.1 leaves.ne.2, ← stage.carries, ← carries]
  exact iff_of_eq (congrArg₂ (History.Carries · c ·) same.history same.branch)

theorem Stage.pushed (stage : Stage w s c d) (push : k = .push ∨ k = .retryPush)
    (taken : (d.answer w k).Zero) : Pushed w s c (d.after w k) := by
  obtain ⟨there, carries⟩ := stage.unpublished.meets (w k)
  have other : k ≠ .lsRemote ∧ k ≠ .rebaseAbort ∧ k ≠ .pullRebase := by
    rcases push with rfl | rfl <;> simp
  have result : (d.answer w k).Zero ↔ ((d.met w k).push (w k).exit).1.Zero := by
    rcases push with rfl | rfl <;> exact Iff.rfl
  have left : (d.after w k).repo = ((d.met w k).push (w k).exit).2 := by
    rcases push with rfl | rfl <;> rfl
  obtain ⟨branch, moved⟩ := Repo.push_taken (result.mp taken)
  rw [moved] at left
  have valid := there.valid
  refine ⟨stage.quiet.after other.1, ?_, ?_, ?_, ?_⟩
  · rw [left]
    exact ⟨valid.branch, valid.base, valid.branch, valid.detached, valid.rebasing⟩
  · rw [left]
    exact there.there
  · rw [left]
    exact branch
  · rw [intact_after_other other.2.1 other.2.2, ← stage.carries, ← carries, left]
    rfl

theorem Stage.refused (stage : Stage w s c d) (push : k = .push ∨ k = .retryPush)
    (refused : ¬ (d.answer w k).Zero) : Stage w s c (d.after w k) := by
  obtain ⟨there, carries⟩ := stage.unpublished.meets (w k)
  have other : k ≠ .lsRemote ∧ k ≠ .rebaseAbort ∧ k ≠ .pullRebase := by
    rcases push with rfl | rfl <;> simp
  have result : (d.answer w k).Zero ↔ ((d.met w k).push (w k).exit).1.Zero := by
    rcases push with rfl | rfl <;> exact Iff.rfl
  have left : (d.after w k).repo = d.met w k := by
    rw [← Repo.push_refused (mt result.mpr refused)]
    rcases push with rfl | rfl <;> rfl
  refine ⟨stage.quiet.after other.1, ?_, ?_⟩
  · rw [left]
    exact there
  · rw [intact_after_other other.2.1 other.2.2, ← stage.carries, ← carries, left]
    rfl

theorem Stage.abort (stage : Stage w s c d) : Stage w s c (d.after w .rebaseAbort) := by
  obtain ⟨there, carries⟩ := stage.unpublished.meets (w .rebaseAbort)
  obtain ⟨ends, branch⟩ := Repo.rebaseAbort_unpublished there (w .rebaseAbort).exit
  refine ⟨stage.quiet.after (by simp), ends, branch.trans ?_⟩
  rw [intact_after, ← stage.carries, carries]
  constructor
  · rintro ⟨unaborted, kept⟩
    exact ⟨kept, fun _ => unaborted, by simp⟩
  · rintro ⟨kept, unaborted, _⟩
    exact ⟨unaborted rfl, kept⟩

theorem Stage.pull (stage : Stage w s c d) (attached : d.repo.detached = none)
    (pulled : (d.answer w .pullRebase).Zero) : Stage w s c (d.after w .pullRebase) := by
  obtain ⟨there, carries⟩ := stage.unpublished.meets (w .pullRebase)
  have here : (d.met w .pullRebase).detached = none := (Repo.meets_detached ..).trans attached
  obtain ⟨ends, branch⟩ := Repo.pullRebase_unpublished there here pulled
  refine ⟨stage.quiet.after (by simp), ends, branch.trans ?_⟩
  rw [intact_after, ← stage.carries, carries]
  constructor
  · rintro ⟨kept, current⟩
    exact ⟨kept, by simp, fun _ => current⟩
  · rintro ⟨kept, _, current⟩
    exact ⟨kept, current rfl⟩

theorem Pushed.after (pushed : Pushed w s c d) (leaves : k.LeavesRefs) (other : k ≠ .lsRemote) :
    Pushed w s c (d.after w k) := by
  obtain ⟨there, still, carries⟩ := Repo.remote_meets pushed.valid pushed.there pushed.pushed (w k)
  have same := (d.met w k).perform_sameRefs (w k) leaves
  refine ⟨pushed.quiet.after other, same.valid (pushed.valid.meets _), same.history ▸ there,
    same.remote ▸ still, ?_⟩
  rw [intact_after_other leaves.ne.1 leaves.ne.2, ← pushed.carries, ← carries]
  exact iff_of_eq (congrArg₂ (History.Carries · c ·) same.history same.remote)

/-- The rule for the commands between the commit and the push. -/
theorem triple_stage (leaves : k.LeavesRefs) (other : k ≠ .lsRemote) :
    Triple (Desk.exec w) (Stage w s c) (gitRun k) (fun _ => Stage w s c)
      (fun d => TrulyPushed d ↔ ReadIntact w s d) :=
  triple_gitRun (fun _ stage _ => stage.after leaves other)
    fun _ stage _ => (stage.after leaves other).quiet.truly

theorem triple_push (push : k = .push ∨ k = .retryPush) :
    Triple (Desk.exec w) (Stage w s c) (gitRun k)
      (fun r d => if r.Zero then Pushed w s c d else Stage w s c d)
      (fun d => TrulyPushed d ↔ ReadIntact w s d) := by
  refine triple_gitRun (fun d stage _ => ?_) fun d stage _ => ?_ <;>
    by_cases taken : (d.answer w k).Zero
  · rw [if_pos taken]
    exact stage.pushed push taken
  · rw [if_neg taken]
    exact stage.refused push taken
  · exact (stage.pushed push taken).quiet.truly
  · exact (stage.refused push taken).quiet.truly

theorem triple_abort : Triple (Desk.exec w) (Stage w s c) abortInProgressRebase (fun _ => Stage w s c)
    (fun d => TrulyPushed d ↔ ReadIntact w s d) := by
  refine .bind (triple_stage (k := .revParseGitDir) trivial (by simp)) fun r => ?_
  by_cases zero : r.Zero
  · rw [if_pos zero]
    refine .bind (Q := fun _ => Stage w s c) (.perform fun _ => id) fun progress => ?_
    cases progress with
    | false => exact .ret fun _ => id
    | true =>
        refine .bind (Q := fun _ => Stage w s c) ?_ fun _ => .ret fun _ => id
        exact triple_gitRun (fun _ stage _ => stage.abort) fun _ stage _ => stage.abort.quiet.truly
  · rw [if_neg zero]
    exact .ret fun _ => id

variable (w s c) in
/-- What holds when the push has ended. -/
def Ended (r : Result) (d : Desk) : Prop := if r.Zero then Pushed w s c d else Quiet d

theorem ended_unstash (r : Result) (stashed : Bool) :
    Triple (Desk.exec w) (Ended w s c r) (unstash stashed) (fun _ => Ended w s c r)
      (fun d => TrulyPushed d ↔ ReadIntact w s d) := by
  have popped : ∀ d, Ended w s c r d → Ended w s c r (d.after w .stashPop) := by
    intro d ended
    unfold Ended at *
    by_cases zero : r.Zero
    · rw [if_pos zero] at *
      exact Pushed.after ended trivial (by simp)
    · rw [if_neg zero] at *
      exact Quiet.after ended (by simp)
  have quiet : ∀ d, Ended w s c r d → Quiet d := by
    intro d ended
    unfold Ended at ended
    split at ended
    · exact ended.quiet
    · exact ended
  cases stashed with
  | false => exact .ret fun _ => id
  | true =>
      refine .bind (Q := fun _ => Ended w s c r) ?_ fun _ => .ret fun _ => id
      exact triple_gitRun (fun d ended _ => popped d ended) fun d ended _ => (quiet _ (popped d ended)).truly

theorem ended_of_stage {r : Result} (failed : ¬ r.Zero) (stage : Stage w s c d) : Ended w s c r d := by
  unfold Ended
  rw [if_neg failed]
  exact stage.quiet

theorem ended_of_push {r : Result} (pushed : if r.Zero then Pushed w s c d else Stage w s c d) :
    Ended w s c r d := by
  by_cases taken : r.Zero
  · rw [if_pos taken] at pushed
    rwa [Ended, if_pos taken]
  · rw [if_neg taken] at pushed
    exact ended_of_stage taken pushed

theorem triple_rebaseRetry_ended : Triple (Desk.exec w) (Stage w s c) rebaseRetry (Ended w s c)
    (fun d => TrulyPushed d ↔ ReadIntact w s d) := by
  refine .bind triple_abort fun _ => ?_
  refine .bind (Q := fun r d => Stage w s c d ∧ (r.Zero → d.repo.detached = none)) ?_ fun checkout => ?_
  · refine triple_gitRun (fun d stage _ => ⟨stage.after trivial (by simp), fun switched => ?_⟩)
      fun d stage _ => (stage.quiet.after (k := .checkout) (by simp)).truly
    exact Repo.checkout_attached switched
  by_cases switched : checkout.Zero
  · rw [if_neg (not_not.mpr switched)]
    refine .bind (Q := fun _ d => Stage w s c d ∧ d.repo.detached = none) ?_ fun stash => ?_
    · refine triple_gitRun (fun d holds _ => ⟨holds.1.after trivial (by simp), ?_⟩)
        fun d holds _ => (holds.1.quiet.after (k := .stashSave) (by simp)).truly
      have same := (d.met w .stashSave).perform_sameRefs (w .stashSave) (k := .stashSave) trivial
      exact same.detached.elim (·.trans ((Repo.meets_detached ..).trans (holds.2 switched))) id
    refine .bind (Q := fun r d => if r.Zero then Stage w s c d else Quiet d) ?_ fun rebase => ?_
    · refine triple_gitRun (fun d holds _ => ?_) fun d holds _ =>
        (holds.1.quiet.after (k := .pullRebase) (by simp)).truly
      by_cases pulled : (d.answer w .pullRebase).Zero
      · rw [if_pos pulled]
        exact holds.1.pull holds.2 pulled
      · rw [if_neg pulled]
        exact holds.1.quiet.after (by simp)
    by_cases pulled : rebase.Zero
    · rw [if_neg (not_not.mpr pulled)]
      simp only [if_pos pulled]
      refine .bind (Q := Ended w s c) ?_ fun retry => .bind (ended_unstash retry _) fun _ => .ret fun _ => id
      exact (triple_push (.inr rfl)).mono (fun _ => id) (fun _ _ => ended_of_push) fun _ => id
    · rw [if_pos pulled]
      simp only [if_neg pulled]
      refine .bind ((ended_unstash rebase _).of_pre fun d quiet => ?_) fun _ => .ret fun _ => id
      rwa [Ended, if_neg pulled]
  · rw [if_pos switched]
    exact .ret fun _ holds => ended_of_stage switched holds.1

theorem triple_pushBranch_ended : Triple (Desk.exec w) (Stage w s c) pushBranchWithRebaseRetry
    (Ended w s c) (fun d => TrulyPushed d ↔ ReadIntact w s d) := by
  refine .bind (triple_push (.inl rfl)) fun push => ?_
  by_cases rejected : push = .rejected
  · subst rejected
    exact triple_rebaseRetry_ended
  · rw [if_neg rejected]
    refine .ret fun d holds => ?_
    by_cases taken : push.Zero
    · rw [if_pos taken] at holds
      rwa [Ended, if_pos taken]
    · rw [if_neg taken] at holds
      exact ended_of_stage taken holds

theorem lsRemote_head (t : Repo) (exit : Exit) (there : t.remote ≠ none) :
    (t.lsRemote exit).2 = t ∧ (t.lsRemote exit).1.printed = if exit = .ok then t.remote else none := by
  obtain ⟨r, remote⟩ := Option.ne_none_iff_exists'.mp there
  cases exit <;> simp [Repo.lsRemote, remote, Result.printed]

variable (w s c) in
/-- What is known when `ls-remote` has answered. -/
def Read (r : Result) (d : Desk) : Prop :=
  (∀ sha head, Record.pushed sha head ∉ d.records) ∧
    (d.repo.history.Carries c r.printed ↔ ReadIntact w s d)

theorem Pushed.read (pushed : Pushed w s c d) (inTime : (w .lsRemote).inTime = true) :
    Read w s c (d.answer w .lsRemote) (d.after w .lsRemote) := by
  obtain ⟨_, still, carries⟩ := Repo.remote_meets pushed.valid pushed.there pushed.pushed (w .lsRemote)
  obtain ⟨left, head⟩ := lsRemote_head (d.met w .lsRemote) (w .lsRemote).exit still
  have ends : (d.after w .lsRemote).repo = d.met w .lsRemote := left
  have intact : ReadIntact w s (d.after w .lsRemote) ↔
      (w .lsRemote).exit = .ok ∧ Intact w s (d.after w .lsRemote) := by
    constructor
    · exact fun read => read _ (List.mem_append_right _ (List.mem_singleton_self _)) inTime
    · exact fun holds _ _ _ => holds
  have printed : (d.answer w .lsRemote).printed = _ := head
  refine ⟨pushed.quiet.1, ?_⟩
  rw [intact, intact_after_other (by simp) (by simp), ← pushed.carries, printed, ends]
  by_cases readable : (w .lsRemote).exit = .ok
  · rw [if_pos readable, and_iff_right readable]
    exact carries
  · rw [if_neg readable]
    exact ⟨fun absurdity => absurd absurdity History.not_carries_none, fun holds => absurd holds.1 readable⟩

theorem Pushed.late (pushed : Pushed w s c d) (late : (w .lsRemote).inTime = false) :
    TrulyPushed (d.after w .lsRemote) ↔ ReadIntact w s (d.after w .lsRemote) := by
  constructor
  · intro _ met _ inTime
    rw [late] at inTime
    cases inTime
  · exact fun _ sha head member => absurd member (pushed.quiet.1 sha head)

/-- The last record is true exactly when the branch could be read with the commit in it. -/
theorem Read.recorded {r : Result} (read : Read w s c r d) :
    TrulyPushed { d with records := d.records ++ [.pushVerified (some c) r.printed] ++
      [.pushed (some c) r.printed] } ↔ ReadIntact w s d := by
  rw [← read.2]
  constructor
  · intro truly
    obtain ⟨c', same, carries⟩ := truly (some c) r.printed (by simp)
    exact Option.some.inj same ▸ carries
  · intro carries sha head member
    simp only [List.mem_append, List.mem_singleton, Record.pushed.injEq, reduceCtorEq, or_false] at member
    obtain before | ⟨rfl, rfl⟩ := member
    · exact absurd before (read.1 sha head)
    · exact ⟨c, rfl, carries⟩

theorem Ended.pushed {r : Result} (zero : r.Zero) (ended : Ended w s c r d) : Pushed w s c d := by
  rwa [Ended, if_pos zero] at ended

theorem triple_publish_truly : Triple (Desk.exec w) (Stage w s c) (publish c)
    (fun _ d => TrulyPushed d ↔ ReadIntact w s d) (fun d => TrulyPushed d ↔ ReadIntact w s d) := by
  refine .bind triple_pushBranch_ended fun push => ?_
  by_cases zero : push.Zero
  · rw [if_pos zero]
    refine .bind (Q := Read w s c) (triple_gitRun (fun d ended inTime => (ended.pushed zero).read inTime)
      fun d ended late => (ended.pushed zero).late late) fun answer => ?_
    intro d read
    exact read.recorded
  · rw [if_neg zero]
    refine .perform fun d ended => ?_
    rw [Ended, if_neg zero] at ended
    exact (Quiet.record ended (r := .pushFailed) nofun).truly

theorem Early.add (early : Early w s d) (files : List String) : Early w s (d.after w (.add files)) := by
  have same := (d.met w (.add files)).perform_sameRefs (w (.add files)) (k := .add files) trivial
  refine ⟨early.quiet.after (by simp), same.valid (early.valid.meets _), ?_, ?_⟩
  · have stays : (d.after w (.add files)).repo.detached = (d.met w (.add files)).detached := by
      simp only [Desk.after, Repo.perform, Repo.add]
      split <;> rfl
    rw [stays, Desk.met, Repo.meets_detached, early.attached]
  · rw [intact_after_other (by simp) (by simp), early.intact]

theorem Early.commit (early : Early w s d) (made : (d.answer w .commit).Zero) :
    ∃ c, (d.after w .commit).repo.head = some c ∧ Stage w s c (d.after w .commit) := by
  obtain ⟨c, unpublished, head, carries⟩ := Repo.commit_made (early.valid.meets (w .commit)) made
  refine ⟨c, head, early.quiet.after (by simp), unpublished, carries.trans ?_⟩
  rw [intact_after_other (by simp) (by simp), early.intact, Repo.meets_detached, early.attached]

/-- The commit that `rev-parse HEAD` prints is the one just made. -/
theorem printed_head (head : d.repo.head = some c) {c' : ℕ}
    (printed : (d.answer w .revParseHead).printed = some c') : c = c' := by
  have same : (d.met w .revParseHead).head = some c := by
    rw [← head, Repo.head, Repo.head, Desk.met, Repo.meets_detached, Repo.meets_branch]
  simp only [Desk.answer, Repo.perform, Repo.revParseHead, same] at printed
  cases exit : (w .revParseHead).exit <;> rw [exit] at printed <;>
    simp only [Result.printed, reduceCtorEq, Option.some.injEq] at printed
  exact printed

variable (w s) in
/-- What holds when the commit has been tried. -/
def CommitTried (r : Option ℕ) (d : Desk) : Prop :=
  match r with
  | some c => Stage w s c d
  | none => Quiet d

theorem triple_commitAll_committed (files : List String) : Triple (Desk.exec w) (Early w s) (commitAll files)
    (CommitTried w s) (fun d => TrulyPushed d ↔ ReadIntact w s d) := by
  refine .bind (Q := fun _ => Early w s) (triple_gitRun (fun _ early _ => early.add files)
    fun _ early _ => (early.add files).quiet.truly) fun _ => ?_
  refine .bind (Q := fun r d => Quiet d ∧ (r.Zero → ∃ c, d.repo.head = some c ∧ Stage w s c d))
    (triple_gitRun (fun _ early _ => ⟨early.quiet.after (by simp), early.commit⟩)
      fun _ early _ => (early.quiet.after (k := .commit) (by simp)).truly) fun r => ?_
  by_cases made : r.Zero
  · rw [if_pos made]
    refine .bind (Q := fun r => CommitTried w s r.printed) (triple_gitRun (fun d holds _ => ?_)
      fun _ holds _ => (holds.1.after (k := .revParseHead) (by simp)).truly) fun r => .ret fun _ => id
    obtain ⟨c, head, stage⟩ := holds.2 made
    rcases printed : (d.answer w .revParseHead).printed with _ | c'
    · exact holds.1.after (by simp)
    · rw [← printed_head head printed]
      exact stage.after trivial (by simp)
  · rw [if_neg made]
    exact .ret fun _ => And.left

/-- When a delivery has ended, what it has recorded as pushed is in the branch recorded with
it exactly when the branch could be read with the commit intact. -/
theorem triple_commitToBranch_truly (files : List String) :
    Triple (Desk.exec w) (Early w s) (commitToBranch files)
      (fun _ d => TrulyPushed d ↔ ReadIntact w s d) (fun d => TrulyPushed d ↔ ReadIntact w s d) := by
  refine .bind (triple_commitAll_committed files) fun commitSha => ?_
  refine .bind (Triple.attempt (R := fun _ d => TrulyPushed d ↔ ReadIntact w s d) ?_ fun _ _ => id)
    fun _ => .perform fun d holds => ?_
  · cases commitSha with
    | none =>
        refine .bind (Q := fun _ => Quiet) (.perform fun d quiet => quiet.record nofun) fun _ => ?_
        exact .ret fun _ => Quiet.truly
    | some c =>
        refine .bind (Q := fun _ => Stage w s c) (.perform fun d stage => ?_) fun _ => triple_publish_truly
        exact ⟨stage.quiet.record nofun, stage.unpublished, stage.carries⟩
  · refine Iff.trans ⟨fun truly sha head member => truly sha head (List.mem_append_left _ member),
      fun truly sha head member => truly sha head ?_⟩ holds
    simpa [Desk.exec] using member

end Recorded
end Uta.Delivery
