/- The leading items of a list that a loop keeps, as long as they fit. -/
import Mathlib.Data.List.Infix
import Mathlib.Tactic.Common

namespace Uta.Lib

variable {α : Type} (fits : List α → Bool)

/-- Items are kept one after the other: the first in any case, the next ones while the whole fits. -/
def keepLeading (kept : List α) : List α → List α
  | [] => kept
  | a :: rest =>
    if kept ≠ [] ∧ fits (kept ++ [a]) = false then kept else keepLeading (kept ++ [a]) rest

/-- What is known of the number of items that are kept behind some others. -/
structure Leads (kept rest : List α) (n : ℕ) : Prop where
  le : n ≤ rest.length
  eq : keepLeading fits kept rest = kept ++ rest.take n
  fit : ∀ m < n, kept ++ rest.take m ≠ [] → fits (kept ++ rest.take (m + 1)) = true
  stop : n < rest.length → kept ++ rest.take n ≠ [] ∧ fits (kept ++ rest.take (n + 1)) = false

variable {fits}

theorem keepLeading_leads (kept rest : List α) : ∃ n, Leads fits kept rest n := by
  induction rest generalizing kept with
  | nil =>
      refine ⟨0, le_refl 0, by simp [keepLeading], ?_, ?_⟩
      · intro m less
        exact absurd less (Nat.not_lt_zero m)
      · intro less
        exact absurd less (Nat.not_lt_zero 0)
  | cons a rest ih =>
      by_cases full : kept ≠ [] ∧ fits (kept ++ [a]) = false
      · refine ⟨0, Nat.zero_le _, ?_, ?_, ?_⟩
        · rw [keepLeading, if_pos full]
          simp
        · intro m less
          exact absurd less (Nat.not_lt_zero m)
        · intro _
          simpa using full
      · obtain ⟨n, leads⟩ := ih (kept ++ [a])
        have shift : ∀ m, kept ++ (a :: rest).take (m + 1) = (kept ++ [a]) ++ rest.take m := by
          intro m
          simp
        refine ⟨n + 1, Nat.succ_le_succ leads.le, ?_, ?_, ?_⟩
        · rw [keepLeading, if_neg full, leads.eq, shift]
        · intro m less some_
          cases m with
          | zero =>
              rw [List.take_zero, List.append_nil] at some_
              have fits_ : fits (kept ++ [a]) = true := by
                by_contra no
                exact full ⟨some_, by simpa using no⟩
              simpa using fits_
          | succ m =>
              rw [shift]
              exact leads.fit m (by omega) (by simp)
        · intro less
          rw [shift, shift]
          exact leads.stop (Nat.lt_of_succ_lt_succ less)

/-- From nothing on, the first item is kept if there is one. -/
theorem Leads.pos {l : List α} {n : ℕ} (leads : Leads fits [] l n) (some_ : l ≠ []) : 0 < n := by
  rcases Nat.eq_zero_or_pos n with rfl | pos
  · have stop := leads.stop (List.length_pos_iff.mpr some_)
    exact absurd rfl stop.1
  · exact pos

end Uta.Lib
