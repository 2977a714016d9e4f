/- Potentials of a run: how long it goes on before it is done, and what it spends. -/
import Uta.Lib.Run
import Mathlib.Algebra.Order.BigOperators.Group.List
import Mathlib.Tactic.Ring

namespace Uta.Lib

/-! What is left. -/

section Reserve
variable {κ : Type} (weight left left' : κ → ℕ)

/-- What is left of several kinds, each by its weight. -/
def reserve (kinds : List κ) : ℕ := (kinds.map fun k => weight k * left k).sum

variable {left left'}

theorem reserve_same {kinds : List κ} (same : ∀ k ∈ kinds, left k = left' k) :
    reserve weight left kinds = reserve weight left' kinds := by
  unfold reserve
  rw [List.map_congr_left fun k member => by rw [same k member]]

theorem reserve_mono {kinds : List κ} (fewer : ∀ k ∈ kinds, left k ≤ left' k) :
    reserve weight left kinds ≤ reserve weight left' kinds :=
  List.sum_le_sum fun k member => Nat.mul_le_mul_left (weight k) (fewer k member)

/-- One less of one kind. -/
theorem reserve_take {kinds : List κ} {c : κ} (distinct : kinds.Nodup) (member : c ∈ kinds)
    (taken : left c = left' c + 1) (others : ∀ k ≠ c, left k = left' k) :
    reserve weight left kinds = reserve weight left' kinds + weight c := by
  induction kinds with
  | nil => exact absurd member List.not_mem_nil
  | cons k kinds ih =>
      have ⟨fresh, distinct⟩ := List.nodup_cons.mp distinct
      rcases List.mem_cons.mp member with rfl | member
      · have rest : reserve weight left kinds = reserve weight left' kinds :=
          reserve_same weight fun k inside => others k fun same => fresh (same ▸ inside)
        unfold reserve at rest ⊢
        rw [List.map_cons, List.map_cons, List.sum_cons, List.sum_cons, rest, taken]
        ring
      · have rest := ih distinct member
        have other : left k = left' k := others k fun same => fresh (same ▸ member)
        unfold reserve at rest ⊢
        rw [List.map_cons, List.map_cons, List.sum_cons, List.sum_cons, rest, other]
        ring

end Reserve

/-! Runs. -/

variable {σ ι : Type} (step : σ → ι → σ)

/-- A run is done before it has taken `limit` steps. -/
def DoneBefore (Done : σ → Prop) (limit : ℕ) (s : σ) (is : List ι) : Prop :=
  ∃ taken rest, is = taken ++ rest ∧ taken.length < limit ∧ Done (run step s taken)

variable {step} {Done I : σ → Prop} {C : σ → ι → Prop} {potential : σ → ℕ}

/-- What stays once it holds, holds after `limit` steps of a run that is done before them. -/
theorem doneBefore_take (stays : ∀ s i, Done s → Done (step s i)) {limit : ℕ} {s : σ} {is : List ι}
    (early : DoneBefore step Done limit s is) : Done (run step s (is.take limit)) := by
  obtain ⟨taken, rest, rfl, short, reached⟩ := early
  rw [List.take_append, List.take_of_length_le (Nat.le_of_lt short), run_append]
  exact run_invariant step stays _ _ reached

/-- A potential that falls on every step until the run is done bounds its length. -/
theorem doneBefore_of_falling (kept : ∀ s i, I s → C s i → I (step s i))
    (falls : ∀ s i, I s → C s i → ¬ Done s → potential (step s i) < potential s) {limit : ℕ} (s : σ)
    (is : List ι) (start : I s) (meets : Meets step C s is) (below : potential s < limit)
    (long : limit ≤ is.length) : DoneBefore step Done limit s is := by
  induction is generalizing s limit with
  | nil => exact absurd long (by rw [List.length_nil]; omega)
  | cons i is ih =>
      by_cases done : Done s
      · exact ⟨[], i :: is, rfl, by rw [List.length_nil]; omega, done⟩
      · have lower := falls s i start meets.1 done
        rw [List.length_cons] at long
        obtain ⟨taken, rest, rfl, short, reached⟩ := ih (step s i)
          (kept s i start meets.1) meets.2 (show potential (step s i) < limit - 1 by omega) (by omega)
        exact ⟨i :: taken, rest, rfl, by rw [List.length_cons]; omega, reached⟩

/-- Where some step lowers the potential by one only, some run goes on for all of it. -/
theorem exists_run_of_tight (tight : ∀ s, I s → ¬ Done s →
    ∃ i, C s i ∧ I (step s i) ∧ potential s = potential (step s i) + 1)
    (empty : ∀ s, I s → Done s → potential s = 0) (s : σ) (start : I s) :
    ∃ is : List ι, is.length = potential s ∧ Meets step C s is ∧ I (run step s is) ∧
      Done (run step s is) ∧ ¬ DoneBefore step Done (potential s) s is := by
  generalize size : potential s = n
  induction n generalizing s with
  | zero =>
      have done : Done s := by
        by_contra going
        obtain ⟨i, -, -, falls⟩ := tight s start going
        omega
      refine ⟨[], rfl, trivial, start, done, ?_⟩
      rintro ⟨taken, -, -, short, -⟩
      exact absurd short (Nat.not_lt_zero _)
  | succ n ih =>
      have going : ¬ Done s := fun done => by
        rw [empty s start done] at size
        exact absurd size.symm (Nat.succ_ne_zero n)
      obtain ⟨i, allowed, next, falls⟩ := tight s start going
      obtain ⟨is, length, meets, last, done, early⟩ := ih (step s i) next (by omega)
      refine ⟨i :: is, by rw [List.length_cons, length], ⟨allowed, meets⟩, last, done, ?_⟩
      rintro ⟨taken, rest, split, short, reached⟩
      cases taken with
      | nil => exact going reached
      | cons j taken =>
          rw [List.cons_append, List.cons.injEq] at split
          obtain ⟨rfl, split⟩ := split
          exact early ⟨taken, rest, split, by rw [List.length_cons] at short; omega, reached⟩

/-- What every allowed step pays for out of the potential, a run pays for. -/
theorem spent_le {spent : σ → ℕ} (kept : ∀ s i, I s → C s i → I (step s i))
    (pays : ∀ s i, I s → C s i → spent (step s i) + potential (step s i) ≤ spent s + potential s)
    (s : σ) (is : List ι) (start : I s) (meets : Meets step C s is) :
    spent (run step s is) + potential (run step s is) ≤ spent s + potential s := by
  induction is generalizing s with
  | nil => exact Nat.le_refl _
  | cons i is ih =>
      calc spent (run step (step s i) is) + potential (run step (step s i) is)
          ≤ spent (step s i) + potential (step s i) := ih _ (kept s i start meets.1) meets.2
        _ ≤ spent s + potential s := pays s i start meets.1

end Uta.Lib
