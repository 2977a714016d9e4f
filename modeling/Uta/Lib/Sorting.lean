/- Sorting by a comparison: the result, whatever the order of the items; and grouping by a key. -/
import Mathlib.Data.List.Sort
import Mathlib.Data.List.Nodup

namespace Uta.Lib.Sorting
open Std

variable {α : Type} (cmp : α → α → Ordering) [TransCmp cmp]

theorem pairwise_sort (items : List α) :
    (items.insertionSort fun a b => cmp a b ≠ .gt).Pairwise fun a b => cmp a b ≠ .gt := by
  have total : Std.Total fun a b => cmp a b ≠ .gt := by
    refine ⟨fun a b => ?_⟩
    have swapped : cmp b a = (cmp a b).swap := OrientedCmp.eq_swap
    rw [swapped]
    cases cmp a b <;> simp
  have trans : IsTrans α fun a b => cmp a b ≠ .gt := by
    refine ⟨fun a b c first second => ?_⟩
    have upTo := TransCmp.isLE_trans (Ordering.isLE_iff_ne_gt.mpr first)
      (Ordering.isLE_iff_ne_gt.mpr second)
    exact Ordering.isLE_iff_ne_gt.mp upTo
  exact List.pairwise_insertionSort _ _

/-- Items that the comparison tells apart are sorted in one way. -/
theorem sort_eq_of_perm {items items' : List α} (perm : items.Perm items')
    (apart : ∀ a ∈ items, ∀ b ∈ items, cmp a b = .eq → a = b) :
    (items.insertionSort fun a b => cmp a b ≠ .gt) =
      items'.insertionSort fun a b => cmp a b ≠ .gt := by
  have first := List.perm_insertionSort (fun a b => cmp a b ≠ .gt) items
  have second := List.perm_insertionSort (fun a b => cmp a b ≠ .gt) items'
  refine List.Perm.eq_of_pairwise ?_ (pairwise_sort cmp items) (pairwise_sort cmp items')
    (first.trans (perm.trans second.symm))
  intro a b left right below above
  apply apart a (first.mem_iff.mp left) b (perm.mem_iff.mpr (second.mem_iff.mp right))
  have swapped : cmp b a = (cmp a b).swap := OrientedCmp.eq_swap
  cases compared : cmp a b with
  | lt => exact absurd (by rw [swapped, compared]; rfl) above
  | eq => rfl
  | gt => exact absurd compared below

/-- The first of the sorted items is before all of them. -/
theorem sort_head {items : List α} {first : α}
    (head : (items.insertionSort fun a b => cmp a b ≠ .gt).head? = some first) :
    first ∈ items ∧ ∀ a ∈ items, cmp first a ≠ .gt := by
  have sorted := pairwise_sort cmp items
  have perm := List.perm_insertionSort (fun a b => cmp a b ≠ .gt) items
  obtain ⟨rest, list⟩ := List.head?_eq_some_iff.mp head
  rw [list] at sorted perm
  refine ⟨perm.mem_iff.mp List.mem_cons_self, fun a member => ?_⟩
  rcases List.mem_cons.mp (perm.mem_iff.mpr member) with same | later
  · have equal : cmp first first = .eq := ReflCmp.compare_self
    rw [same, equal]
    exact nofun
  · exact List.rel_of_pairwise_cons sorted later

/-- The first few of the sorted items are before all the others. -/
theorem sort_take {items : List α} {n : ℕ} {kept other : α}
    (first : kept ∈ (items.insertionSort fun a b => cmp a b ≠ .gt).take n)
    (rest : other ∈ (items.insertionSort fun a b => cmp a b ≠ .gt).drop n) :
    cmp kept other ≠ .gt := by
  have sorted := pairwise_sort cmp items
  rw [← List.take_append_drop n (items.insertionSort _), List.pairwise_append] at sorted
  exact sorted.2.2 kept first other rest

/-- Items are grouped by the keys that they have. -/
theorem group_perm {κ : Type} [DecidableEq κ] {key : α → κ} {keys : List κ} {items : List α}
    (once : keys.Nodup) (known : ∀ a ∈ items, key a ∈ keys) (distinct : items.Nodup) :
    (keys.flatMap fun k => items.filter fun a => key a = k).Perm items := by
  refine (List.perm_ext_iff_of_nodup ?_ distinct).mpr fun a => ?_
  · refine List.nodup_flatMap.mpr ⟨fun k _ => distinct.filter _, ?_⟩
    refine once.imp fun {k j} apart => ?_
    intro a left right
    have first := (List.mem_filter.mp left).2
    have second := (List.mem_filter.mp right).2
    exact apart ((of_decide_eq_true first).symm.trans (of_decide_eq_true second))
  · simp only [List.mem_flatMap, List.mem_filter, decide_eq_true_eq]
    constructor
    · rintro ⟨_, _, member, _⟩
      exact member
    · intro member
      exact ⟨key a, known a member, member, rfl⟩

end Uta.Lib.Sorting
