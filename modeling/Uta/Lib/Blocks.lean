/- Blocks: a list cut into pieces of one size, and blocks read back from the
labels of their elements. -/
import Mathlib.Data.List.Nodup
import Mathlib.Data.List.TakeDrop
import Mathlib.Logic.Function.Basic
import Mathlib.Tactic.Common

namespace Uta.Lib.Blocks
variable {α κ : Type}

/-! Pieces. -/

/-- `[l[start:start + size] for start in range(0, len(l), size)]`. -/
def chunks (size : ℕ) (l : List α) : List (List α) :=
  (List.range ((l.length + size - 1) / size)).map fun i => (l.drop (i * size)).take size

theorem flatten_pieces (size : ℕ) (l : List α) (n : ℕ) :
    ((List.range n).map fun i => (l.drop (i * size)).take size).flatten = l.take (n * size) := by
  induction n with
  | zero => simp
  | succ n ih =>
      rw [List.range_succ, List.map_append, List.flatten_append, ih, Nat.succ_mul, List.take_add]
      simp

theorem flatten_chunks {size : ℕ} (positive : 0 < size) (l : List α) :
    (chunks size l).flatten = l := by
  have enough : l.length ≤ (l.length + size - 1) / size * size := by
    have split := Nat.div_add_mod (l.length + size - 1) size
    have small := Nat.mod_lt (l.length + size - 1) positive
    rw [Nat.mul_comm] at split
    omega
  rw [chunks, flatten_pieces]
  exact List.take_of_length_le enough

theorem chunks_ne_nil {size : ℕ} (positive : 0 < size) {l c : List α} (member : c ∈ chunks size l) :
    c ≠ [] := by
  obtain ⟨i, below, rfl⟩ := List.mem_map.mp member
  have starts : i * size < l.length := by
    have bound := List.mem_range.mp below
    rw [Nat.lt_div_iff_mul_lt positive] at bound
    omega
  apply List.ne_nil_of_length_pos
  rw [List.length_take, List.length_drop]
  omega

theorem length_chunks_le {size : ℕ} (positive : 0 < size) (l : List α) :
    (chunks size l).length ≤ l.length := by
  rw [chunks, List.length_map, List.length_range]
  rcases l with _ | ⟨a, l⟩
  · have none_ : (0 + size - 1) / size = 0 :=
      (congrArg (fun n => (n - 1) / size) (Nat.zero_add size)).trans
        (Nat.div_eq_of_lt (Nat.sub_lt positive Nat.one_pos))
    exact Nat.le_of_eq none_
  · apply Nat.div_le_of_le_mul
    have grow : (a :: l).length * 1 ≤ (a :: l).length * size := Nat.mul_le_mul_left _ positive
    have room : size - 1 ≤ (a :: l).length * size - (a :: l).length := by
      obtain ⟨k, rfl⟩ : ∃ k, size = k + 1 := ⟨size - 1, by omega⟩
      rw [Nat.mul_succ, Nat.add_sub_cancel, Nat.add_sub_cancel, List.length_cons]
      exact Nat.le_mul_of_pos_left _ (Nat.succ_pos _)
    rw [Nat.mul_comm]
    omega

theorem chunks_map {β : Type} (f : α → β) (size : ℕ) (l : List α) :
    chunks size (l.map f) = (chunks size l).map (List.map f) := by
  unfold chunks
  rw [List.length_map, List.map_map]
  apply List.map_congr_left
  intro i _
  rw [Function.comp_apply, List.map_take, List.map_drop]

/-! Reading. -/

/-- What has been read of a list of labelled elements: the labels in the order
in which they came, their elements, and the label that may still go on. -/
structure Reading (κ α : Type) where
  order : List κ := []
  members : κ → List α := fun _ => []
  closed : List κ := []
  previous : Option κ := none

/-- The next element. A label that has ended must not come again. -/
def Reading.push [DecidableEq κ] (r : Reading κ α) (label : κ) (a : α) : Option (Reading κ α) :=
  if r.previous = some label then
    some { r with members := Function.update r.members label (r.members label ++ [a]) }
  else if label ∈ r.closed then none
  else some {
    order := r.order ++ [label]
    members := Function.update r.members label [a]
    closed := r.closed ++ r.previous.toList
    previous := some label }

def Reading.blocks (r : Reading κ α) : List (κ × List α) := r.order.map fun k => (k, r.members k)

/-- The blocks that a reading stands for. -/
structure Reading.Holds (r : Reading κ α) (blocks : List (κ × List α)) : Prop where
  labels : (blocks.map Prod.fst).Nodup
  order : r.order = blocks.map Prod.fst
  members : ∀ b ∈ blocks, r.members b.1 = b.2
  closed : r.closed ++ r.previous.toList = r.order
  started : ∀ k, r.previous = some k → ∃ before xs, blocks = before ++ [(k, xs)]

theorem Reading.holds_empty : ({} : Reading κ α).Holds [] := by
  constructor <;> simp

variable {r s : Reading κ α} {blocks : List (κ × List α)} {label : κ} {a : α}

theorem Reading.Holds.blocks_eq (holds : r.Holds blocks) : r.blocks = blocks := by
  unfold Reading.blocks
  rw [holds.order, List.map_map]
  conv_rhs => rw [← List.map_id blocks]
  apply List.map_congr_left
  intro b member
  change (b.1, r.members b.1) = b
  rw [holds.members b member]

variable [DecidableEq κ]

/-- An element of the label that came last goes to its block. -/
theorem Reading.Holds.push_same {before : List (κ × List α)} {xs : List α}
    (holds : r.Holds (before ++ [(label, xs)])) (last : r.previous = some label) :
    ∃ s, r.push label a = some s ∧ s.Holds (before ++ [(label, xs ++ [a])]) ∧
      s.previous = some label := by
  have labels := holds.labels
  rw [List.map_append, List.map_singleton] at labels
  refine ⟨_, if_pos last, ?_, last⟩
  constructor
  · rw [List.map_append, List.map_singleton]
    exact labels
  · rw [List.map_append, List.map_singleton]
    exact holds.order.trans (by rw [List.map_append, List.map_singleton])
  · intro b member
    rcases List.mem_append.mp member with early | final
    · have other : b.1 ≠ label := by
        intro same
        exact (List.nodup_append.mp labels).2.2 b.1 (List.mem_map_of_mem early) label (by simp) same
      exact (Function.update_of_ne other _ _).trans (holds.members b (List.mem_append_left _ early))
    · rw [List.mem_singleton] at final
      subst final
      apply (Function.update_self ..).trans
      rw [holds.members (label, xs) (by simp)]
  · exact holds.closed
  · intro k same
    obtain rfl : label = k := Option.some.inj (last.symm.trans same)
    exact ⟨before, _, rfl⟩

/-- An element of a new label starts a block. -/
theorem Reading.Holds.push_new (holds : r.Holds blocks) (fresh : label ∉ blocks.map Prod.fst) :
    ∃ s, r.push label a = some s ∧ s.Holds (blocks ++ [(label, [a])]) ∧
      s.previous = some label := by
  have unseen : label ∉ r.closed ++ r.previous.toList := by rw [holds.closed, holds.order]; exact fresh
  have changed : ¬ r.previous = some label := by
    intro last
    exact unseen (List.mem_append_right _ (by simp [last]))
  have ended : label ∉ r.closed := fun member => unseen (List.mem_append_left _ member)
  refine ⟨_, (if_neg changed).trans (if_neg ended), ?_, rfl⟩
  constructor
  · rw [List.map_append, List.map_singleton]
    exact List.Nodup.append holds.labels (List.nodup_singleton _) (by simpa using fresh)
  · rw [List.map_append, List.map_singleton, holds.order]
  · intro b member
    rcases List.mem_append.mp member with early | final
    · have other : b.1 ≠ label := by
        rintro rfl
        exact fresh (List.mem_map_of_mem early)
      exact (Function.update_of_ne other _ _).trans (holds.members b early)
    · rw [List.mem_singleton] at final
      subst final
      exact Function.update_self ..
  · change (r.closed ++ r.previous.toList) ++ [label] = r.order ++ [label]
    rw [holds.closed]
  · intro k same
    obtain rfl : label = k := Option.some.inj same
    exact ⟨blocks, _, rfl⟩

/-- Whatever is read goes to the end of the blocks. -/
theorem Reading.Holds.push_some (holds : r.Holds blocks) (pushed : r.push label a = some s) :
    ∃ later, s.Holds later ∧ later.flatMap Prod.snd = blocks.flatMap Prod.snd ++ [a] := by
  by_cases last : r.previous = some label
  · obtain ⟨before, xs, rfl⟩ := holds.started label last
    obtain ⟨t, result, next, _⟩ := holds.push_same (a := a) last
    obtain rfl : t = s := Option.some.inj (result.symm.trans pushed)
    exact ⟨_, next, by simp⟩
  · have ended : label ∉ r.closed := by
      intro member
      rw [Reading.push, if_neg last, if_pos member] at pushed
      cases pushed
    have fresh : label ∉ blocks.map Prod.fst := by
      rw [← holds.order, ← holds.closed]
      intro member
      rcases List.mem_append.mp member with early | final
      · exact ended early
      · exact last (by simpa using final)
    obtain ⟨t, result, next, _⟩ := holds.push_new (a := a) fresh
    obtain rfl : t = s := Option.some.inj (result.symm.trans pushed)
    exact ⟨_, next, by simp⟩

/-- The elements of a list, one after the other. -/
def Reading.pushAll (r : Reading κ α) : List (κ × α) → Option (Reading κ α)
  | [] => some r
  | (label, a) :: es => (r.push label a).bind fun s => s.pushAll es

theorem Reading.pushAll_append (r : Reading κ α) (es fs : List (κ × α)) :
    r.pushAll (es ++ fs) = (r.pushAll es).bind fun s => s.pushAll fs := by
  induction es generalizing r with
  | nil => rfl
  | cons e es ih =>
      rw [List.cons_append, pushAll, pushAll]
      cases r.push e.1 e.2 with
      | none => rfl
      | some s => exact ih s

theorem Reading.Holds.pushAll_same {before : List (κ × List α)} {xs : List α}
    (holds : r.Holds (before ++ [(label, xs)])) (last : r.previous = some label) (ys : List α) :
    ∃ s, r.pushAll (ys.map fun y => (label, y)) = some s ∧ s.Holds (before ++ [(label, xs ++ ys)]) := by
  induction ys generalizing r xs with
  | nil => exact ⟨r, rfl, by rw [List.append_nil]; exact holds⟩
  | cons y ys ih =>
      obtain ⟨s, pushed, next, still⟩ := holds.push_same (a := y) last
      obtain ⟨t, rest, final⟩ := ih next still
      refine ⟨t, ?_, ?_⟩
      · rw [List.map_cons, pushAll, pushed]
        exact rest
      · rw [List.append_assoc, List.singleton_append] at final
        exact final

/-- A whole block of a new label. -/
theorem Reading.Holds.pushAll_new (holds : r.Holds blocks) (fresh : label ∉ blocks.map Prod.fst)
    {xs : List α} (inhabited : xs ≠ []) :
    ∃ s, r.pushAll (xs.map fun x => (label, x)) = some s ∧ s.Holds (blocks ++ [(label, xs)]) := by
  cases xs with
  | nil => exact absurd rfl inhabited
  | cons x xs =>
      obtain ⟨s, pushed, next, last⟩ := holds.push_new (a := x) fresh
      obtain ⟨t, rest, final⟩ := next.pushAll_same last xs
      refine ⟨t, ?_, final⟩
      rw [List.map_cons, pushAll, pushed]
      exact rest

/-- The elements of blocks, under their labels. -/
def labelled (blocks : List (κ × List α)) : List (κ × α) :=
  blocks.flatMap fun b => b.2.map fun a => (b.1, a)

theorem Reading.Holds.pushAll_labelled {later : List (κ × List α)} (holds : r.Holds blocks)
    (labels : ((blocks ++ later).map Prod.fst).Nodup) (inhabited : ∀ b ∈ later, b.2 ≠ []) :
    ∃ s, r.pushAll (labelled later) = some s ∧ s.Holds (blocks ++ later) := by
  induction later generalizing r blocks with
  | nil => exact ⟨r, rfl, by rw [List.append_nil]; exact holds⟩
  | cons b later ih =>
      have fresh : b.1 ∉ blocks.map Prod.fst := by
        rw [List.map_append, List.map_cons] at labels
        intro member
        exact (List.nodup_append.mp labels).2.2 b.1 member b.1 List.mem_cons_self rfl
      obtain ⟨s, pushed, next⟩ := holds.pushAll_new fresh (inhabited b List.mem_cons_self)
      rw [← List.singleton_append, ← List.append_assoc] at labels
      obtain ⟨t, rest, final⟩ := ih next labels fun c member => inhabited c (List.mem_cons_of_mem _ member)
      refine ⟨t, ?_, ?_⟩
      · change r.pushAll (b.2.map (fun a => (b.1, a)) ++ labelled later) = some t
        rw [pushAll_append, pushed]
        exact rest
      · rw [List.append_assoc, List.singleton_append] at final
        exact final

/-- Blocks are read back from the labels of their elements. -/
theorem pushAll_labelled (labels : (blocks.map Prod.fst).Nodup) (inhabited : ∀ b ∈ blocks, b.2 ≠ []) :
    ∃ s, ({} : Reading κ α).pushAll (labelled blocks) = some s ∧ s.blocks = blocks := by
  obtain ⟨s, read, holds⟩ := Reading.holds_empty.pushAll_labelled labels inhabited
  exact ⟨s, read, holds.blocks_eq⟩

theorem Reading.Holds.pushAll_some (holds : r.Holds blocks) {es : List (κ × α)}
    (read : r.pushAll es = some s) :
    ∃ later, s.Holds later ∧ later.flatMap Prod.snd = blocks.flatMap Prod.snd ++ es.map Prod.snd := by
  induction es generalizing r blocks with
  | nil =>
      obtain rfl : r = s := Option.some.inj read
      exact ⟨blocks, holds, (List.append_nil _).symm⟩
  | cons e es ih =>
      obtain ⟨t, pushed, rest⟩ := Option.bind_eq_some_iff.mp read
      obtain ⟨mid, next, grown⟩ := holds.push_some pushed
      obtain ⟨later, final, all⟩ := ih next rest
      refine ⟨later, final, ?_⟩
      rw [all, grown, List.append_assoc]
      rfl

/-- The blocks read hold the elements of the list in their order. -/
theorem blocks_of_pushAll {es : List (κ × α)} (read : ({} : Reading κ α).pushAll es = some s) :
    s.blocks.flatMap Prod.snd = es.map Prod.snd := by
  obtain ⟨later, holds, all⟩ := Reading.holds_empty.pushAll_some read
  rw [holds.blocks_eq]
  exact all

end Uta.Lib.Blocks
