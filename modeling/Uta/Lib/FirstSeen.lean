/- The elements of a list in the order in which they are first seen. -/
import Mathlib.Data.List.Induction
import Mathlib.Data.List.Nodup
import Mathlib.Tactic.Common

namespace Uta.Lib

variable {α : Type} [DecidableEq α]

/-- `if x not in seen: seen.append(x)`. -/
def addNew (seen : List α) (x : α) : List α := if x ∈ seen then seen else seen ++ [x]

def firstSeen (xs : List α) : List α := xs.foldl addNew []

theorem firstSeen_append (xs ys : List α) :
    firstSeen (xs ++ ys) = ys.foldl addNew (firstSeen xs) := List.foldl_append ..

theorem firstSeen_concat (xs : List α) (x : α) :
    firstSeen (xs ++ [x]) = addNew (firstSeen xs) x := firstSeen_append xs [x]

theorem mem_addNew {seen : List α} {x y : α} : y ∈ addNew seen x ↔ y ∈ seen ∨ y = x := by
  rw [addNew]
  split
  · next old => exact ⟨.inl, fun either => either.elim id fun same => same ▸ old⟩
  · rw [List.mem_append, List.mem_singleton]

theorem mem_foldl_addNew {xs seen : List α} {y : α} :
    y ∈ xs.foldl addNew seen ↔ y ∈ seen ∨ y ∈ xs := by
  induction xs using List.reverseRecOn with
  | nil => simp
  | append_singleton xs x ih => simp [List.foldl_append, mem_addNew, ih, or_assoc]

theorem mem_firstSeen {xs : List α} {y : α} : y ∈ firstSeen xs ↔ y ∈ xs := by
  simp [firstSeen, mem_foldl_addNew]

theorem nodup_firstSeen (xs : List α) : (firstSeen xs).Nodup := by
  induction xs using List.reverseRecOn with
  | nil => exact List.nodup_nil
  | append_singleton xs x ih =>
      rw [firstSeen_concat, addNew]
      split
      · exact ih
      · next new => exact List.Nodup.append ih (List.nodup_singleton x) (by simpa using new)

theorem firstSeen_sublist (xs : List α) : (firstSeen xs).Sublist xs := by
  induction xs using List.reverseRecOn with
  | nil => exact List.Sublist.refl []
  | append_singleton xs x ih =>
      rw [firstSeen_concat, addNew]
      split
      · exact ih.trans (List.sublist_append_left xs [x])
      · exact ih.append (List.Sublist.refl [x])

theorem firstSeen_of_nodup {xs : List α} (distinct : xs.Nodup) : firstSeen xs = xs := by
  induction xs using List.reverseRecOn with
  | nil => rfl
  | append_singleton xs x ih =>
      obtain ⟨front, _, apart⟩ := List.nodup_append.mp distinct
      have new : x ∉ xs := fun old => apart x old x (List.mem_singleton_self x) rfl
      rw [firstSeen_concat, ih front, addNew, if_neg new]

/-- A list of the length of what it is drawn from is that list, without repetitions. -/
theorem firstSeen_eq_iff {xs ys : List α} (long : xs.length = ys.length) :
    firstSeen xs = ys ↔ xs = ys ∧ ys.Nodup := by
  constructor
  · rintro rfl
    exact ⟨((firstSeen_sublist xs).eq_of_length long.symm).symm, nodup_firstSeen xs⟩
  · rintro ⟨rfl, distinct⟩
    exact firstSeen_of_nodup distinct

/-- It does not matter whether what is added was drawn together before. -/
theorem foldl_addNew_firstSeen (xs seen : List α) :
    (firstSeen xs).foldl addNew seen = xs.foldl addNew seen := by
  induction xs using List.reverseRecOn with
  | nil => rfl
  | append_singleton xs x ih =>
      rw [firstSeen_concat, addNew, List.foldl_append]
      split
      · next old =>
        have inside : x ∈ xs.foldl addNew seen := mem_foldl_addNew.mpr (.inr (mem_firstSeen.mp old))
        rw [ih, List.foldl_cons, List.foldl_nil, addNew, if_pos inside]
      · rw [List.foldl_append, ih]

theorem firstSeen_append_firstSeen (xs ys : List α) :
    firstSeen (firstSeen xs ++ firstSeen ys) = firstSeen (xs ++ ys) := by
  rw [firstSeen_append, firstSeen_append, foldl_addNew_firstSeen,
    firstSeen_of_nodup (nodup_firstSeen xs)]

end Uta.Lib
