/- First fit into a limited number of bins: where an item goes, and what a
packing conserves. -/
import Mathlib.Algebra.BigOperators.Group.List.Basic
import Mathlib.Algebra.Order.BigOperators.Group.List
import Mathlib.Data.List.Flatten
import Mathlib.Data.List.Nodup
import Mathlib.Tactic.Abel

namespace Uta.Lib

structure Bin (α M : Type) where
  used : M
  items : List α
  deriving DecidableEq, Repr

/-- The bins opened so far, and the items that found no place. -/
structure Packing (α M : Type) where
  bins : List (Bin α M)
  omitted : List α
  deriving DecidableEq, Repr

namespace FirstFit
variable {α M : Type} [AddCommMonoid M] [LinearOrder M]
variable (size : α → M) (budget : M) (limit : ℕ)

/-- `none` when no bin has room. -/
def addToFirst (item : α) : List (Bin α M) → Option (List (Bin α M))
  | [] => none
  | b :: bs =>
    if b.used + size item ≤ budget then some (⟨b.used + size item, b.items ++ [item]⟩ :: bs)
    else (addToFirst item bs).map (b :: ·)

/-- The bins with room for an item that is within the budget by itself. -/
def addWithin (item : α) (bins : List (Bin α M)) : Option (List (Bin α M)) :=
  if size item ≤ budget then addToFirst size budget item bins else none

def place (packing : Packing α M) (item : α) : Packing α M :=
  match addWithin size budget item packing.bins with
  | some bins => { packing with bins }
  | none =>
    if packing.bins.length < limit then
      { packing with bins := packing.bins ++ [⟨size item, [item]⟩] }
    else { packing with omitted := packing.omitted ++ [item] }

def packFrom (packing : Packing α M) (items : List α) : Packing α M :=
  items.foldl (place size budget limit) packing

def pack (items : List α) : Packing α M := packFrom size budget limit ⟨[], []⟩ items

end FirstFit

namespace Packing
variable {α M : Type}

def packed (packing : Packing α M) : List α := packing.bins.flatMap Bin.items

/-- Every item that was offered. -/
def items (packing : Packing α M) : List α := packing.packed ++ packing.omitted

end Packing

namespace FirstFit
variable {α M : Type} [AddCommMonoid M] [LinearOrder M]
variable (size : α → M) (budget : M) (limit : ℕ)

theorem addToFirst_items (item : α) (bins : List (Bin α M)) :
    ∀ bins', addToFirst size budget item bins = some bins' →
      (bins'.flatMap Bin.items).Perm (item :: bins.flatMap Bin.items) := by
  induction bins with
  | nil => intro bins' added; cases added
  | cons b bs ih =>
      intro bins' added
      simp only [addToFirst] at added
      split at added
      · cases added
        simp only [List.flatMap_cons, List.append_assoc, List.singleton_append]
        exact List.perm_middle
      · obtain ⟨rest, later, rfl⟩ := Option.map_eq_some_iff.mp added
        have moved := (ih rest later).append_left b.items
        simp only [List.flatMap_cons]
        exact moved.trans List.perm_middle

theorem addToFirst_length (item : α) (bins : List (Bin α M)) :
    ∀ bins', addToFirst size budget item bins = some bins' → bins'.length = bins.length := by
  induction bins with
  | nil => intro bins' added; cases added
  | cons b bs ih =>
      intro bins' added
      simp only [addToFirst] at added
      split at added
      · cases added
        rfl
      · obtain ⟨rest, later, rfl⟩ := Option.map_eq_some_iff.mp added
        simp [ih rest later]

/-- What placing an item can do. -/
theorem place_cases (packing : Packing α M) (item : α) :
    (∃ bins, addWithin size budget item packing.bins = some bins ∧
      place size budget limit packing item = { packing with bins }) ∨
    (addWithin size budget item packing.bins = none ∧ packing.bins.length < limit ∧
      place size budget limit packing item =
        { packing with bins := packing.bins ++ [⟨size item, [item]⟩] }) ∨
    (addWithin size budget item packing.bins = none ∧ limit ≤ packing.bins.length ∧
      place size budget limit packing item =
        { packing with omitted := packing.omitted ++ [item] }) := by
  cases added : addWithin size budget item packing.bins with
  | some bins => exact .inl ⟨bins, rfl, by simp [place, added]⟩
  | none =>
      by_cases open_ : packing.bins.length < limit
      · exact .inr (.inl ⟨rfl, open_, by simp [place, added, open_]⟩)
      · exact .inr (.inr ⟨rfl, Nat.le_of_not_lt open_, by simp [place, added, open_]⟩)

theorem addToFirst_of_addWithin {item : α} {bins bins' : List (Bin α M)}
    (added : addWithin size budget item bins = some bins') :
    size item ≤ budget ∧ addToFirst size budget item bins = some bins' := by
  unfold addWithin at added
  split at added
  · exact ⟨‹_›, added⟩
  · cases added

theorem place_items (packing : Packing α M) (item : α) :
    (place size budget limit packing item).items.Perm (item :: packing.items) := by
  obtain ⟨bins, added, placed⟩ | ⟨_, _, placed⟩ | ⟨_, _, placed⟩ :=
    place_cases size budget limit packing item
  · rw [placed]
    have moved := addToFirst_items size budget item _ _
      (addToFirst_of_addWithin size budget added).2
    exact moved.append_right _
  · rw [placed]
    simp only [Packing.items, Packing.packed, List.flatMap_append, List.flatMap_cons,
      List.flatMap_nil, List.append_assoc, List.singleton_append, List.append_nil]
    exact List.perm_middle
  · rw [placed]
    simp only [Packing.items, Packing.packed, ← List.append_assoc]
    exact List.perm_append_singleton item _

/-- No item is lost, and none is placed twice. -/
theorem packFrom_items (items : List α) : ∀ packing : Packing α M,
    (packFrom size budget limit packing items).items.Perm (packing.items ++ items) := by
  induction items with
  | nil => intro packing; simp [packFrom]
  | cons item items ih =>
      intro packing
      have first := (place_items size budget limit packing item).append_right items
      exact (ih _).trans (first.trans List.perm_middle.symm)

theorem pack_items (items : List α) : (pack size budget limit items).items.Perm items := by
  exact packFrom_items size budget limit items ⟨[], []⟩

/-! How many bins are opened. -/

theorem place_length (packing : Packing α M) (item : α) :
    packing.bins.length ≤ (place size budget limit packing item).bins.length ∧
      (place size budget limit packing item).bins.length ≤ max limit packing.bins.length := by
  obtain ⟨bins, added, placed⟩ | ⟨_, room, placed⟩ | ⟨_, _, placed⟩ :=
    place_cases size budget limit packing item
  · have same := addToFirst_length size budget item _ _
      (addToFirst_of_addWithin size budget added).2
    rw [placed]
    simp [same]
  · rw [placed]
    simp
    omega
  · rw [placed]
    simp

theorem packFrom_length (items : List α) : ∀ packing : Packing α M,
    packing.bins.length ≤ (packFrom size budget limit packing items).bins.length ∧
      (packFrom size budget limit packing items).bins.length ≤ max limit packing.bins.length := by
  induction items with
  | nil => intro packing; simp [packFrom]
  | cons item items ih =>
      intro packing
      have first := place_length size budget limit packing item
      have rest := ih (place size budget limit packing item)
      simp only [packFrom, List.foldl_cons] at rest ⊢
      omega

section Single
variable [IsOrderedAddMonoid M] (nonneg : ∀ item, 0 ≤ size item)
include nonneg

/-- One open bin stays the only one when no other may be opened, when nothing is
offered, or when it takes everything. -/
theorem packFrom_single (items : List α) : ∀ (b : Bin α M) (omitted : List α), 0 ≤ b.used →
    ((packFrom size budget limit ⟨[b], omitted⟩ items).bins.length ≤ 1 ↔
      limit ≤ 1 ∨ items = [] ∨ b.used + (items.map size).sum ≤ budget) := by
  induction items with
  | nil => intro b omitted _; simp [packFrom]
  | cons item items ih =>
      intro b omitted used
      have rest : 0 ≤ (items.map size).sum :=
        List.sum_nonneg (by simpa using fun a _ => nonneg a)
      by_cases fits : b.used + size item ≤ budget
      · have alone : size item ≤ budget := (le_add_of_nonneg_left used).trans fits
        have placed : place size budget limit ⟨[b], omitted⟩ item =
            ⟨[⟨b.used + size item, b.items ++ [item]⟩], omitted⟩ := by
          simp [place, addWithin, addToFirst, alone, fits]
        have later := ih ⟨b.used + size item, b.items ++ [item]⟩ omitted
          (add_nonneg used (nonneg item))
        simp only [packFrom, List.foldl_cons, placed] at later ⊢
        rw [later]
        simp only [reduceCtorEq, false_or, List.map_cons, List.sum_cons, add_assoc]
        constructor
        · rintro (small | rfl | all)
          · exact .inl small
          · exact .inr (by simpa using fits)
          · exact .inr all
        · rintro (small | all)
          · exact .inl small
          · exact .inr (.inr all)
      · have full : addWithin size budget item [b] = none := by
          simp [addWithin, addToFirst, fits]
        have exceeded : ¬ b.used + (size item + (items.map size).sum) ≤ budget := by
          intro all
          refine fits (le_trans ?_ all)
          exact add_le_add_right (le_add_of_nonneg_right rest) b.used
        simp only [reduceCtorEq, List.map_cons, List.sum_cons, exceeded, or_false]
        constructor
        · intro single
          by_contra more
          have placed : place size budget limit ⟨[b], omitted⟩ item =
              ⟨[b, ⟨size item, [item]⟩], omitted⟩ := by
            simp [place, full, Nat.lt_of_not_le more]
          have grown := (packFrom_length size budget limit items
            (place size budget limit ⟨[b], omitted⟩ item)).1
          rw [placed] at grown
          simp only [packFrom, List.foldl_cons, placed, List.length_cons, List.length_nil] at *
          omega
        · intro small
          have bounded := (packFrom_length size budget limit (item :: items) ⟨[b], omitted⟩).2
          exact bounded.trans (by simp [small])

/-- When one bin is enough. -/
theorem pack_single_iff (positive : 1 ≤ limit) (items : List α) :
    (pack size budget limit items).bins.length ≤ 1 ↔
      limit ≤ 1 ∨ items.length ≤ 1 ∨ (items.map size).sum ≤ budget := by
  cases items with
  | nil => simp [pack, packFrom]
  | cons item items =>
      have opened : place size budget limit ⟨[], []⟩ item = ⟨[⟨size item, [item]⟩], []⟩ := by
        have none_ : addWithin size budget item [] = none := by simp [addWithin, addToFirst]
        have room : 0 < limit := positive
        simp [place, none_, room]
      have rest := packFrom_single size budget limit nonneg items ⟨size item, [item]⟩ []
        (nonneg item)
      simp only [pack, packFrom, List.foldl_cons, opened] at rest ⊢
      rw [rest]
      simp [List.length_eq_zero_iff]

end Single

/-! What holds of every bin. -/

section Bins
variable {Holds : Bin α M → Prop}

theorem addToFirst_bins (grown : ∀ (b : Bin α M) item, b.used + size item ≤ budget → Holds b →
    Holds ⟨b.used + size item, b.items ++ [item]⟩) (item : α) (bins : List (Bin α M)) :
    ∀ bins', addToFirst size budget item bins = some bins' →
      (∀ b ∈ bins, Holds b) → ∀ b ∈ bins', Holds b := by
  induction bins with
  | nil => intro bins' added; cases added
  | cons b bs ih =>
      intro bins' added holds
      simp only [addToFirst] at added
      split at added
      · cases added
        simp only [List.forall_mem_cons] at holds ⊢
        exact ⟨grown b item ‹_› holds.1, holds.2⟩
      · obtain ⟨rest, later, rfl⟩ := Option.map_eq_some_iff.mp added
        simp only [List.forall_mem_cons] at holds ⊢
        exact ⟨holds.1, ih rest later holds.2⟩

variable (opened : ∀ item, Holds ⟨size item, [item]⟩)
  (grown : ∀ (b : Bin α M) item, b.used + size item ≤ budget → Holds b →
    Holds ⟨b.used + size item, b.items ++ [item]⟩)
include opened grown

theorem packFrom_bins (items : List α) : ∀ packing : Packing α M, (∀ b ∈ packing.bins, Holds b) →
    ∀ b ∈ (packFrom size budget limit packing items).bins, Holds b := by
  induction items with
  | nil => intro packing holds; exact holds
  | cons item items ih =>
      intro packing holds
      apply ih
      obtain ⟨bins, added, placed⟩ | ⟨_, _, placed⟩ | ⟨_, _, placed⟩ :=
        place_cases size budget limit packing item
      · rw [placed]
        exact addToFirst_bins size budget grown item _ _
          (addToFirst_of_addWithin size budget added).2 holds
      · rw [placed]
        intro b member
        rcases List.mem_append.mp member with earlier | new
        · exact holds b earlier
        · rw [List.mem_singleton.mp new]
          exact opened item
      · rw [placed]
        exact holds

/-- What an opened bin meets, and an item with room keeps, holds of every bin. -/
theorem pack_bins (items : List α) : ∀ b ∈ (pack size budget limit items).bins, Holds b :=
  packFrom_bins size budget limit opened grown items ⟨[], []⟩ (by simp)

end Bins

/-- A bin that is open holds an item. -/
theorem pack_filled (items : List α) :
    ∀ b ∈ (pack size budget limit items).bins, b.items ≠ [] :=
  pack_bins size budget limit (by simp) (by simp) items

theorem pack_used (items : List α) :
    ∀ b ∈ (pack size budget limit items).bins, b.used = (b.items.map size).sum := by
  refine pack_bins size budget limit (by simp) ?_ items
  intro b item _ used
  simp [used]

/-- Only a bin with a single item is over the budget. -/
theorem pack_within (items : List α) : ∀ b ∈ (pack size budget limit items).bins,
    b.used ≤ budget ∨ ∃ item, b.items = [item] :=
  pack_bins size budget limit (fun item => .inr ⟨item, rfl⟩) (fun _ _ room _ => .inl room) items

theorem pack_length (items : List α) :
    (pack size budget limit items).bins.length ≤ limit := by
  have bounded := (packFrom_length size budget limit items ⟨[], []⟩).2
  exact bounded.trans (by simp)

end FirstFit
end Uta.Lib
