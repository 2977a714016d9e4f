/- Histories of commits that only grow: what a commit reaches through its parents,
and what further commits leave as it was. -/
import Mathlib.Data.List.Infix
import Mathlib.Order.Nat
import Mathlib.Tactic.Common
import Mathlib.Algebra.Group.Nat.Defs

namespace Uta.Lib

/-- Commits by the order of their creation, each with its parents. -/
structure History where
  parents : List (List ℕ)
  older : ∀ (c : ℕ) (ps : List ℕ), parents[c]? = some ps → ∀ p ∈ ps, p < c

namespace History

def empty : History := ⟨[], fun _ _ found => nomatch found⟩

def size (h : History) : ℕ := h.parents.length

/-- One more commit, with those of the given parents that there are. -/
def commit (h : History) (ps : List ℕ) : History where
  parents := h.parents ++ [ps.filter (· < h.parents.length)]
  older := by
    intro c qs found p member
    rcases lt_trichotomy c h.parents.length with old | rfl | beyond
    · rw [List.getElem?_append_left old] at found
      exact h.older c qs found p member
    · rw [List.getElem?_concat_length, Option.some.injEq] at found
      subst found
      simpa using (List.mem_filter.mp member).2
    · rw [List.getElem?_eq_none (by rw [List.length_append, List.length_singleton]; omega)] at found
      cases found

/-- `k` commits on top of `onto`, each with the one before it as its parent. -/
def chain (h : History) (onto : Option ℕ) : ℕ → History × Option ℕ
  | 0 => (h, onto)
  | k + 1 => ((h.chain onto k).1.commit (h.chain onto k).2.toList, some (h.chain onto k).1.size)

/-- `a` is `c`, or an ancestor of it. -/
inductive Reach (h : History) (a : ℕ) : ℕ → Prop
  | refl : Reach h a a
  | step {p c : ℕ} {ps : List ℕ} : h.parents[c]? = some ps → p ∈ ps → Reach h a p → Reach h a c

theorem reach_le {h : History} {a c : ℕ} (reach : h.Reach a c) : a ≤ c := by
  induction reach with
  | refl => exact le_rfl
  | step found member _ ih => exact ih.trans (h.older _ _ found _ member).le

/-! Reachability by computation. -/

/-- The commits that at most `n` steps to a parent lead to. -/
def within (h : History) : ℕ → ℕ → List ℕ
  | 0, c => [c]
  | n + 1, c => c :: (h.parents[c]?.getD []).flatMap (h.within n)

theorem mem_within {h : History} {a : ℕ} (n c : ℕ) (enough : c ≤ n) :
    a ∈ h.within n c ↔ h.Reach a c := by
  induction n generalizing c with
  | zero =>
      have root : c = 0 := by omega
      subst root
      constructor
      · intro member
        rw [List.mem_singleton.mp member]
        exact .refl
      · intro reach
        rw [Nat.le_zero.mp (reach_le reach)]
        exact List.mem_singleton_self 0
  | succ n ih =>
      rw [within, List.mem_cons, List.mem_flatMap]
      constructor
      · rintro (rfl | ⟨p, member, reach⟩)
        · exact .refl
        · rcases found : h.parents[c]? with _ | ps <;> rw [found] at member
          · cases member
          · have smaller := h.older c ps found p member
            exact .step found member ((ih p (by omega)).mp reach)
      · intro reach
        cases reach with
        | refl => exact .inl rfl
        | step found member reach =>
            have smaller := h.older _ _ found _ member
            refine .inr ⟨_, ?_, (ih _ (by omega)).mpr reach⟩
            rwa [found]

instance (h : History) (a c : ℕ) : Decidable (h.Reach a c) :=
  decidable_of_iff _ (mem_within c c le_rfl)

/-! Growth. -/

/-- Every commit of the one history is a commit of the other. -/
def Grows (h h' : History) : Prop := h.parents <+: h'.parents

theorem Grows.refl (h : History) : h.Grows h := List.prefix_rfl

theorem Grows.trans {h h' h'' : History} (first : h.Grows h') (second : h'.Grows h'') : h.Grows h'' :=
  List.IsPrefix.trans first second

theorem Grows.size_le {h h' : History} (grows : h.Grows h') : h.size ≤ h'.size :=
  List.IsPrefix.length_le grows

theorem grows_commit (h : History) (ps : List ℕ) : h.Grows (h.commit ps) := List.prefix_append _ _

@[simp] theorem size_commit (h : History) (ps : List ℕ) : (h.commit ps).size = h.size + 1 := by
  simp [size, commit]

theorem Grows.parents_eq {h h' : History} (grows : h.Grows h') {c : ℕ} (old : c < h.size) :
    h'.parents[c]? = h.parents[c]? := by
  obtain ⟨more, split⟩ := grows
  rw [← split, List.getElem?_append_left old]

/-- The ancestors of an old commit stay what they were. -/
theorem reach_of_grows {h h' : History} (grows : h.Grows h') {a c : ℕ} (old : c < h.size) :
    h'.Reach a c ↔ h.Reach a c := by
  constructor
  · intro reach
    induction reach with
    | refl => exact .refl
    | step found member _ ih =>
        rw [grows.parents_eq old] at found
        exact .step found member (ih ((h.older _ _ found _ member).trans old))
  · intro reach
    induction reach with
    | refl => exact .refl
    | step found member _ ih =>
        have before := ih ((h.older _ _ found _ member).trans old)
        exact .step ((grows.parents_eq old).trans found) member before

theorem reach_commit (h : History) (ps : List ℕ) {a : ℕ} (old : a < h.size) :
    (h.commit ps).Reach a h.size ↔ ∃ p ∈ ps, p < h.size ∧ h.Reach a p := by
  have newest : (h.commit ps).parents[h.size]? = some (ps.filter (· < h.size)) :=
    List.getElem?_concat_length
  constructor
  · intro reach
    cases reach with
    | refl => exact absurd old (lt_irrefl _)
    | step found member reach =>
        rw [newest, Option.some.injEq] at found
        subst found
        obtain ⟨member, there⟩ := List.mem_filter.mp member
        have there := of_decide_eq_true there
        exact ⟨_, member, there, (reach_of_grows (h.grows_commit ps) there).mp reach⟩
  · rintro ⟨p, member, there, reach⟩
    refine .step newest (List.mem_filter.mpr ⟨member, decide_eq_true there⟩) ?_
    exact (reach_of_grows (h.grows_commit ps) there).mpr reach

/-! References. -/

/-- The reference names a commit of the history, if it names one. -/
def Names (h : History) (ref : Option ℕ) : Prop := ∀ c, ref = some c → c < h.size

/-- The commit that the reference names is `a` or has it as an ancestor. -/
def Carries (h : History) (a : ℕ) (ref : Option ℕ) : Prop := ∃ c, ref = some c ∧ h.Reach a c

instance (h : History) (a : ℕ) (ref : Option ℕ) : Decidable (h.Carries a ref) :=
  match ref with
  | none => isFalse fun ⟨_, absent, _⟩ => nomatch absent
  | some c => decidable_of_iff (h.Reach a c) ⟨fun reach => ⟨c, rfl, reach⟩,
      fun ⟨_, same, reach⟩ => Option.some.inj same ▸ reach⟩

variable {h h' : History} {a : ℕ} {ref : Option ℕ}

@[simp] theorem carries_some {c : ℕ} : h.Carries a (some c) ↔ h.Reach a c :=
  ⟨fun ⟨_, same, reach⟩ => Option.some.inj same ▸ reach, fun reach => ⟨c, rfl, reach⟩⟩

@[simp] theorem not_carries_none : ¬ h.Carries a none := fun ⟨_, absent, _⟩ => nomatch absent

theorem Names.mono (names : h.Names ref) (grows : h.Grows h') : h'.Names ref :=
  fun c same => (names c same).trans_le grows.size_le

/-- A commit that is yet to be made is an ancestor of none. -/
theorem Names.fresh (names : h.Names ref) {a : ℕ} (new : h.size ≤ a) : ¬ h.Carries a ref := by
  rintro ⟨c, same, reach⟩
  have before := reach_le reach
  have old := names c same
  omega

theorem carries_of_grows (grows : h.Grows h') (names : h.Names ref) :
    h'.Carries a ref ↔ h.Carries a ref := by
  cases ref with
  | none => simp
  | some c => simpa using reach_of_grows grows (names c rfl)

theorem grows_chain (h : History) (onto : Option ℕ) (k : ℕ) : h.Grows (h.chain onto k).1 := by
  induction k with
  | zero => exact .refl h
  | succ k ih => exact ih.trans (grows_commit _ _)

theorem names_chain (names : h.Names ref) (k : ℕ) : (h.chain ref k).1.Names (h.chain ref k).2 := by
  cases k with
  | zero => exact names
  | succ k =>
      intro c same
      rw [← Option.some.inj same, chain, size_commit]
      omega

/-- New commits on top of a reference have the old ancestors that it has. -/
theorem carries_chain (names : h.Names ref) (old : a < h.size) (k : ℕ) :
    (h.chain ref k).1.Carries a (h.chain ref k).2 ↔ h.Carries a ref := by
  induction k with
  | zero => exact Iff.rfl
  | succ k ih =>
      have there := old.trans_le (h.grows_chain ref k).size_le
      rw [chain, carries_some, reach_commit _ _ there, ← ih]
      constructor
      · rintro ⟨p, member, _, reach⟩
        exact ⟨p, Option.mem_toList.mp member, reach⟩
      · rintro ⟨p, same, reach⟩
        exact ⟨p, Option.mem_toList.mpr same, names_chain names k p same, reach⟩

/-! Divergence. -/

/-- The commits that `tip` has as ancestors, or is, and `upstream` has not. -/
def ahead (h : History) (upstream tip : ℕ) : List ℕ :=
  (List.range (tip + 1)).filter fun c => h.Reach c tip ∧ ¬ h.Reach c upstream

/-- There is nothing to replay: `tip` is ahead of `upstream` by commits with one
parent each. -/
def UpToDate (h : History) (upstream tip : ℕ) : Prop :=
  h.Reach upstream tip ∧ ∀ c ∈ h.ahead upstream tip, (h.parents[c]?.getD []).length ≤ 1

instance (h : History) (upstream tip : ℕ) : Decidable (h.UpToDate upstream tip) :=
  inferInstanceAs (Decidable (_ ∧ _))

end History
end Uta.Lib
