/- Dictionaries as lists of pairs, in which a later pair hides an earlier one of
the same key. -/
import Mathlib.Data.List.Sort
import Mathlib.Data.String.Basic

namespace Uta.Lib.Dict

variable {α β : Type}

def get? : List (String × α) → String → Option α
  | [], _ => none
  | (k, v) :: rest, key => (get? rest key).or (if k = key then some v else none)

/-- The two hold the same pairs. -/
def same [DecidableEq α] (a b : List (String × α)) : Bool :=
  (a ++ b).all fun e => decide (get? a e.1 = get? b e.1)

def byKey (a b : String × α) : Prop := a.1 ≤ b.1

instance : DecidableRel (byKey (α := α)) := fun a b => inferInstanceAs (Decidable (a.1 ≤ b.1))

/-- `sorted(d.items())`. -/
def sorted (d : List (String × α)) : List (String × α) := d.insertionSort byKey

@[simp] theorem get?_nil (key : String) : get? ([] : List (String × α)) key = none := rfl

theorem get?_cons (k : String) (v : α) (rest : List (String × α)) (key : String) :
    get? ((k, v) :: rest) key = (get? rest key).or (if k = key then some v else none) := rfl

/-- `d.update(e)`. -/
theorem get?_append (d e : List (String × α)) (key : String) :
    get? (d ++ e) key = (get? e key).or (get? d key) := by
  induction d with
  | nil => simp
  | cons p d ih => rw [List.cons_append, get?_cons, get?_cons, ih, Option.or_assoc]

theorem get?_map (f : α → β) (d : List (String × α)) (key : String) :
    get? (d.map fun e => (e.1, f e.2)) key = (get? d key).map f := by
  induction d with
  | nil => rfl
  | cons p d ih =>
      rw [List.map_cons, get?_cons, get?_cons, ih]
      cases get? d key with
      | some v => rfl
      | none => by_cases own : p.1 = key <;> simp [own]

theorem mem_of_get? {d : List (String × α)} {key : String} {v : α}
    (found : get? d key = some v) : (key, v) ∈ d := by
  induction d with
  | nil => cases found
  | cons p d ih =>
      rw [get?_cons] at found
      cases later : get? d key with
      | some w =>
          rw [later] at found
          cases found
          exact List.mem_cons_of_mem _ (ih later)
      | none =>
          rw [later, Option.none_or] at found
          split at found
          · next own =>
            cases found
            exact own ▸ List.mem_cons_self ..
          · cases found

/-- With distinct keys every pair is found. -/
theorem get?_of_mem {d : List (String × α)} (distinct : (d.map Prod.fst).Nodup)
    {e : String × α} (member : e ∈ d) : get? d e.1 = some e.2 := by
  induction d with
  | nil => cases member
  | cons p d ih =>
      rw [List.map_cons, List.nodup_cons] at distinct
      rw [get?_cons]
      rcases List.mem_cons.mp member with rfl | later
      · have absent : get? d e.1 = none := by
          by_contra found
          obtain ⟨w, found⟩ := Option.ne_none_iff_exists'.mp found
          exact distinct.1 (List.mem_map.mpr ⟨_, mem_of_get? found, rfl⟩)
        rw [absent, Option.none_or, if_pos rfl]
      · rw [ih distinct.2 later, Option.some_or]
theorem same_iff [DecidableEq α] (a b : List (String × α)) :
    same a b = true ↔ ∀ key, get? a key = get? b key := by
  constructor
  · intro all key
    have agree := List.all_eq_true.mp all
    cases found : get? a key with
    | some v =>
        have here := agree (key, v) (List.mem_append_left _ (mem_of_get? found))
        rw [← found]
        exact of_decide_eq_true here
    | none =>
        cases other : get? b key with
        | none => rfl
        | some v =>
            have here := agree (key, v) (List.mem_append_right _ (mem_of_get? other))
            rw [← found, ← other]
            exact of_decide_eq_true here
  · intro agree
    exact List.all_eq_true.mpr fun e _ => decide_eq_true (agree e.1)

/-- Pairs of two keys may change places. -/
theorem get?_swap {k l : String} (ne : k ≠ l) (v w : α) (d : List (String × α)) (key : String) :
    get? ((k, v) :: (l, w) :: d) key = get? ((l, w) :: (k, v) :: d) key := by
  rw [get?_cons, get?_cons, get?_cons, get?_cons]
  by_cases first : k = key
  · have second : l ≠ key := fun same => ne (first.trans same.symm)
    simp [first, second]
  · simp [first]

theorem get?_orderedInsert (p : String × α) (d : List (String × α)) (key : String) :
    get? (d.orderedInsert byKey p) key = get? (p :: d) key := by
  induction d with
  | nil => rfl
  | cons q d ih =>
      rw [List.orderedInsert_cons]
      split
      · rfl
      · next after =>
        have ne : p.1 ≠ q.1 := fun same => after (le_of_eq same)
        rw [get?_swap ne, get?_cons, ih]
        rfl

theorem get?_sorted (d : List (String × α)) (key : String) : get? (sorted d) key = get? d key := by
  induction d with
  | nil => rfl
  | cons p d ih =>
      rw [sorted, List.insertionSort_cons, get?_orderedInsert, get?_cons, get?_cons]
      rw [sorted] at ih
      rw [ih]

/-! Sorted keys. -/

theorem sorted_map (f : α → β) (d : List (String × α)) :
    sorted (d.map fun item => (item.1, f item.2)) =
      (sorted d).map fun item => (item.1, f item.2) := by
  unfold sorted
  exact (List.map_insertionSort byKey byKey (fun item : String × α => (item.1, f item.2)) d
    fun a _ b _ => Iff.rfl).symm

theorem sorted_sorted (d : List (String × α)) : sorted (sorted d) = sorted d := by
  have total : Std.Total (byKey (α := α)) := ⟨fun a b => le_total a.1 b.1⟩
  have trans : IsTrans (String × α) byKey := ⟨fun _ _ _ => le_trans⟩
  exact (List.pairwise_insertionSort byKey d).insertionSort_eq

end Uta.Lib.Dict
