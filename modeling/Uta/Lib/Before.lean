/- What holds of each element of a list, and what is gathered from it, with what comes before it. -/
import Mathlib.Data.List.Induction
import Mathlib.Data.List.Nodup
import Mathlib.Tactic.Common

namespace Uta.Lib

variable {α : Type}

def Each (P : List α → α → Prop) (before : List α) : List α → Prop
  | [] => True
  | x :: xs => P before x ∧ Each P (before ++ [x]) xs

section
-- The equations are made here, once, for the lemmas that follow.
attribute [local simp] Each
end

variable {P Q : List α → α → Prop}

theorem each_append (before xs ys : List α) :
    Each P before (xs ++ ys) ↔ Each P before xs ∧ Each P (before ++ xs) ys := by
  induction xs generalizing before with
  | nil => simp [Each]
  | cons x xs ih => simp [Each, ih, and_assoc]

theorem each_concat (before xs : List α) (x : α) :
    Each P before (xs ++ [x]) ↔ Each P before xs ∧ P (before ++ xs) x := by
  simp [each_append, Each]

theorem each_congr (agree : ∀ before x, P before x ↔ Q before x) (before xs : List α) :
    Each P before xs ↔ Each Q before xs := by
  induction xs generalizing before with
  | nil => exact Iff.rfl
  | cons x xs ih => exact and_congr (agree before x) (ih _)

theorem each_and (before xs : List α) :
    Each (fun before x => P before x ∧ Q before x) before xs ↔
      Each P before xs ∧ Each Q before xs := by
  induction xs generalizing before with
  | nil => simp [Each]
  | cons x xs ih => simp only [Each, ih, and_and_and_comm]

/-- In a list of lists, each element has its own list's elements before it, or also those of the
lists before. -/
theorem each_flatten (before : List α) (xss : List (List α)) :
    Each P before xss.flatten ↔
      Each (fun earlier xs => Each P (before ++ earlier.flatten) xs) [] xss := by
  have shifted : ∀ earlier : List (List α),
      Each P (before ++ earlier.flatten) xss.flatten ↔
        Each (fun earlier xs => Each P (before ++ earlier.flatten) xs) earlier xss := by
    induction xss with
    | nil => exact fun _ => Iff.rfl
    | cons xs xss ih =>
        intro earlier
        rw [List.flatten_cons, each_append, Each, ← ih]
        simp
  simpa using shifted []

theorem each_shift (front before xs : List α) :
    Each P (front ++ before) xs ↔ Each (fun before x => P (front ++ before) x) before xs := by
  induction xs generalizing before with
  | nil => exact Iff.rfl
  | cons x xs ih =>
      rw [Each, Each, List.append_assoc, ih]

/-! Gathering. -/

section

variable {β : Type}

def gather (f : List α → α → List β) (before : List α) : List α → List β
  | [] => []
  | x :: xs => f before x ++ gather f (before ++ [x]) xs

section
-- The equations are made here, once, for the lemmas that follow.
attribute [local simp] gather
end

variable {f g : List α → α → List β}

theorem gather_append (before xs ys : List α) :
    gather f before (xs ++ ys) = gather f before xs ++ gather f (before ++ xs) ys := by
  induction xs generalizing before with
  | nil => simp [gather]
  | cons x xs ih => simp [gather, ih]

theorem gather_concat (before xs : List α) (x : α) :
    gather f before (xs ++ [x]) = gather f before xs ++ f (before ++ xs) x := by
  simp [gather_append, gather]

theorem gather_shift (front before xs : List α) :
    gather f (front ++ before) xs = gather (fun before x => f (front ++ before) x) before xs := by
  induction xs generalizing before with
  | nil => rfl
  | cons x xs ih => rw [gather, gather, List.append_assoc, ih]

theorem length_gather (long : ∀ before x, (f before x).length = (g before x).length)
    (before xs : List α) : (gather f before xs).length = (gather g before xs).length := by
  induction xs generalizing before with
  | nil => rfl
  | cons x xs ih => simp [gather, long, ih]

/-- Two gatherings are equal where each element gives the same to both. -/
theorem gather_eq_iff (long : ∀ before x, (f before x).length = (g before x).length)
    (before xs : List α) : gather f before xs = gather g before xs ↔
      Each (fun before x => f before x = g before x) before xs := by
  induction xs generalizing before with
  | nil => simp [gather, Each]
  | cons x xs ih =>
      rw [gather, gather, Each, ← ih]
      constructor
      · exact fun same => List.append_inj same (long before x)
      · rintro ⟨head, tail⟩
        rw [head, tail]

theorem gather_flatten (before : List α) (xss : List (List α)) :
    gather f before xss.flatten =
      gather (fun earlier xs => gather f (before ++ earlier.flatten) xs) [] xss := by
  have shifted : ∀ earlier : List (List α), gather f (before ++ earlier.flatten) xss.flatten =
      gather (fun earlier xs => gather f (before ++ earlier.flatten) xs) earlier xss := by
    induction xss with
    | nil => exact fun _ => rfl
    | cons xs xss ih =>
        intro earlier
        rw [List.flatten_cons, gather_append, gather, ← ih]
        simp
  simpa using shifted []

theorem gather_const (h : α → List β) (before xs : List α) :
    gather (fun _ x => h x) before xs = xs.flatMap h := by
  induction xs generalizing before with
  | nil => rfl
  | cons x xs ih => rw [gather, ih, List.flatMap_cons]

theorem not_mem_gather {y : β} (before xs : List α) :
    y ∉ gather f before xs ↔ Each (fun before x => y ∉ f before x) before xs := by
  induction xs generalizing before with
  | nil => simp [gather, Each]
  | cons x xs ih => simp [gather, Each, ← ih]

/-- Nothing is gathered twice where nothing is that came before. -/
theorem nodup_gather (xs : List α) : (gather f [] xs).Nodup ↔
    Each (fun before x => (f before x).Nodup ∧ ∀ y ∈ f before x, y ∉ gather f [] before) [] xs := by
  induction xs using List.reverseRecOn with
  | nil => simp [gather, Each]
  | append_singleton xs x ih =>
      rw [gather_concat, each_concat, List.nodup_append, ih, List.nil_append]
      refine and_congr_right fun _ => and_congr_right fun _ => ?_
      constructor
      · exact fun apart y own old => apart y old y own rfl
      · rintro apart y old z own rfl
        exact apart y own old

end

end Uta.Lib
