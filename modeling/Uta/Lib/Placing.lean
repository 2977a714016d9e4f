/- Items that are put one after another at the places that they name: the last one stays. -/
import Mathlib.Logic.Function.Basic
import Mathlib.Data.List.Basic

namespace Uta.Lib

variable {α π υ : Type} [DecidableEq π] (place : α → π) (content : α → υ)

/-- The content of each place after the items have been put there. -/
def putAll (start : π → Option υ) (items : List α) : π → Option υ :=
  items.foldl (fun held a => Function.update held (place a) (some (content a))) start

namespace Placing
variable {place content} {start : π → Option υ} {items : List α} {p : π}

theorem putAll_cons (a : α) :
    putAll place content start (a :: items) =
      putAll place content (Function.update start (place a) (some (content a))) items := rfl

/-- Where no item is put, what was there stays. -/
theorem putAll_of_not_mem (elsewhere : ∀ a ∈ items, place a ≠ p) :
    putAll place content start items p = start p := by
  induction items generalizing start with
  | nil => rfl
  | cons a items ih =>
      rw [List.forall_mem_cons] at elsewhere
      rw [putAll_cons, ih elsewhere.2, Function.update_of_ne elsewhere.1.symm]

/-- What is found is what some item has put there, or what was there. -/
theorem putAll_cases (place : α → π) (content : α → υ) (start : π → Option υ) (items : List α)
    (p : π) :
    (∃ a ∈ items, place a = p ∧ putAll place content start items p = some (content a)) ∨
      (∀ a ∈ items, place a ≠ p) := by
  induction items generalizing start with
  | nil => exact .inr nofun
  | cons a items ih =>
      rw [putAll_cons]
      rcases ih (Function.update start (place a) (some (content a))) with
        ⟨b, later, own, found⟩ | elsewhere
      · exact .inl ⟨b, List.mem_cons_of_mem _ later, own, found⟩
      · by_cases here : place a = p
        · refine .inl ⟨a, List.mem_cons_self .., here, ?_⟩
          rw [putAll_of_not_mem elsewhere, ← here, Function.update_self]
        · exact .inr (List.forall_mem_cons.mpr ⟨here, elsewhere⟩)

/-- In whatever order the items are put, each finds its own content at its place exactly if no two
of them put different contents at one place. -/
theorem putAll_own_iff (place : α → π) (content : α → υ) (start : π → Option υ)
    (items : List α) :
    (∀ a ∈ items, putAll place content start items (place a) = some (content a)) ↔
      ∀ a ∈ items, ∀ b ∈ items, place a = place b → content a = content b := by
  constructor
  · intro own a first b second meet
    have found := own b second
    rw [← meet, own a first] at found
    exact Option.some.inj found
  · intro agree a member
    rcases putAll_cases place content start items (place a) with
      ⟨b, other, meet, found⟩ | elsewhere
    · rw [found, agree b other a member meet]
    · exact absurd rfl (elsewhere a member)

end Placing
end Uta.Lib
