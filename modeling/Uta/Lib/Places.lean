/- Searching a text. A place of a text is one of its ends, and a reader tries each
of them in turn. -/
import Mathlib.Data.List.Infix
import Mathlib.Data.List.Basic
import Mathlib.Algebra.GroupWithZero.Nat

namespace Uta.Lib.Places

variable {α β : Type}

/-- What is read at the first place where anything is. -/
def first (read : List α → Option β) (text : List α) : Option β := text.tails.findSome? read

/-- What is read at the last such place. -/
def last (read : List α → Option β) (text : List α) : Option β :=
  text.tails.reverse.findSome? read

/-- Nothing is read in `before`, when `own` follows it. -/
def Silent (read : List α → Option β) (before own : List α) : Prop :=
  ∀ place ∈ before.tails, place.isEmpty ∨ (read (place ++ own)).isNone

/-- Nothing is read anywhere. -/
def Mute (read : List α → Option β) (text : List α) : Prop :=
  ∀ place ∈ text.tails, (read place).isNone

/-- Nothing is read after the first place. -/
def Final (read : List α → Option β) (own : List α) : Prop := Mute read own.tail

instance (read : List α → Option β) (before own : List α) : Decidable (Silent read before own) :=
  inferInstanceAs (Decidable (∀ place ∈ before.tails, _))

instance (read : List α → Option β) (text : List α) : Decidable (Mute read text) :=
  inferInstanceAs (Decidable (∀ place ∈ text.tails, _))

instance (read : List α → Option β) (own : List α) : Decidable (Final read own) :=
  inferInstanceAs (Decidable (Mute read own.tail))

/-- What is read stays read when the text goes on. -/
def Grows (read : List α → Option β) : Prop :=
  ∀ text more, (read text).isSome → (read (text ++ more)).isSome

section

variable {read : List α → Option β}

theorem silent_nil (own : List α) : Silent read [] own := by
  intro place member
  have empty : place = [] := by simpa using member
  exact .inl (by rw [empty]; rfl)

theorem silent_cons {c : α} {before own : List α} :
    Silent read (c :: before) own ↔
      read (c :: before ++ own) = none ∧ Silent read before own := by
  constructor
  · intro silent
    refine ⟨?_, fun place member => silent place (by rw [List.tails_cons]; simp [member])⟩
    simpa using silent (c :: before) (by rw [List.tails_cons]; exact List.mem_cons_self)
  · rintro ⟨here, later⟩ place member
    rw [List.tails_cons, List.mem_cons] at member
    rcases member with rfl | member
    · exact .inr (by rw [here]; rfl)
    · exact later place member

theorem silent_append {a b own : List α} :
    Silent read (a ++ b) own ↔ Silent read a (b ++ own) ∧ Silent read b own := by
  induction a with
  | nil => simp [silent_nil]
  | cons c a ih =>
      rw [List.cons_append, silent_cons, silent_cons, ih, List.cons_append, List.cons_append,
        List.append_assoc, and_assoc]

theorem first_append {before own : List α} (silent : Silent read before own) :
    first read (before ++ own) = first read own := by
  induction before with
  | nil => rfl
  | cons c before ih =>
      obtain ⟨here, later⟩ := silent_cons.mp silent
      rw [List.cons_append] at here ⊢
      rw [first, List.tails_cons, List.findSome?_cons, here]
      exact ih later

theorem first_here {own : List α} {v : β} (reads : read own = some v) : first read own = some v := by
  cases own with
  | nil => simp [first, reads]
  | cons c own => rw [first, List.tails_cons, List.findSome?_cons, reads]

/-- The first place is the own one. -/
theorem first_own {before own : List α} {v : β} (silent : Silent read before own)
    (reads : read own = some v) : first read (before ++ own) = some v :=
  (first_append silent).trans (first_here reads)

theorem first_mute {text : List α} (mute : Mute read text) : first read text = none :=
  List.findSome?_eq_none_iff.mpr fun place member => Option.isNone_iff_eq_none.mp (mute place member)

theorem last_mute {text : List α} (mute : Mute read text) : last read text = none :=
  List.findSome?_eq_none_iff.mpr fun place member =>
    Option.isNone_iff_eq_none.mp (mute place (List.mem_reverse.mp member))

theorem last_cons (c : α) (text : List α) :
    last read (c :: text) = (last read text).or (read (c :: text)) := by
  rw [last, last, List.tails_cons, List.reverse_cons, List.findSome?_append, List.findSome?_singleton]

theorem last_own (before : List α) {own : List α} {v : β} (final : Final read own)
    (filled : own ≠ []) (reads : read own = some v) : last read (before ++ own) = some v := by
  induction before with
  | nil =>
      obtain ⟨c, rest, rfl⟩ := List.exists_cons_of_ne_nil filled
      have later : last read rest = none := last_mute final
      rw [List.nil_append, last_cons, later, Option.none_or, reads]
  | cons c before ih => rw [List.cons_append, last_cons, ih, Option.some_or]

/-- What is read is read somewhere. -/
theorem exists_of_first {text : List α} {v : β} (found : first read text = some v) :
    ∃ place, place <:+ text ∧ read place = some v := by
  obtain ⟨place, member, reads⟩ := List.exists_of_findSome?_eq_some found
  exact ⟨place, (List.mem_tails _ _).mp member, reads⟩

theorem Mute.of_suffix {text place : List α} (mute : Mute read text) (suffix : place <:+ text) :
    Mute read place := fun w member =>
  mute w ((List.mem_tails _ _).mpr (((List.mem_tails _ _).mp member).trans suffix))

/-- Where nothing is read with more to follow, nothing is read without it. -/
theorem Silent.shrink {before own more : List α} (grows : Grows read)
    (silent : Silent read before (own ++ more)) : Silent read before own := by
  intro place member
  rcases silent place member with empty | quiet
  · exact .inl empty
  · right
    by_contra reads
    have longer := grows (place ++ own) more (by simpa [Option.isSome_iff_ne_none] using reads)
    rw [List.append_assoc, Option.isNone_iff_eq_none.mp quiet] at longer
    cases longer

end

/-! What fits into a number of bytes, by the size of each part. -/

section

variable (size : α → ℕ)

/-- The longest end that fits. -/
def tailWithin (limit : ℕ) : List α → List α
  | [] => []
  | c :: cs => if ((c :: cs).map size).sum ≤ limit then c :: cs else tailWithin limit cs

/-- The longest beginning that fits. -/
def headWithin : ℕ → List α → List α
  | _, [] => []
  | limit, c :: cs => if size c ≤ limit then c :: headWithin (limit - size c) cs else []

theorem tailWithin_back (limit : ℕ) (text : List α) : tailWithin size limit text <:+ text := by
  induction text with
  | nil => exact List.suffix_rfl
  | cons c cs ih =>
      rw [tailWithin]
      split
      · exact List.suffix_rfl
      · exact ih.trans (List.suffix_cons c cs)

theorem headWithin_front (limit : ℕ) (text : List α) : headWithin size limit text <+: text := by
  induction text generalizing limit with
  | nil => exact List.prefix_rfl
  | cons c cs ih =>
      rw [headWithin]
      split
      · exact (List.prefix_cons_inj c).mpr (ih _)
      · exact List.nil_prefix

end

/-! Offsets. -/

section

variable [DecidableEq α]

/-- `text.find(mark, start)`, for a mark that is not empty. -/
def find (mark text : List α) (start : ℕ) : Option ℕ :=
  (List.range text.length).find? fun i => decide (start ≤ i) && mark.isPrefixOf (text.drop i)

/-- `text.rfind(mark, 0, stop)`, for a mark that is not empty. -/
def rfind (mark text : List α) (stop : ℕ) : Option ℕ :=
  (List.range text.length).reverse.find? fun i =>
    decide (i + mark.length ≤ stop) && mark.isPrefixOf (text.drop i)

theorem find_spec {mark text : List α} {start i : ℕ} (found : find mark text start = some i) :
    start ≤ i ∧ i < text.length ∧ mark <+: text.drop i := by
  have holds := List.find?_some found
  have member := List.mem_of_find?_eq_some found
  rw [Bool.and_eq_true, decide_eq_true_eq, List.isPrefixOf_iff_prefix] at holds
  exact ⟨holds.1, List.mem_range.mp member, holds.2⟩

end

end Uta.Lib.Places
