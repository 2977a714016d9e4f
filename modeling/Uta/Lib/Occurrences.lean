/- The last place where a mark stands in a text, and how little of what follows decides it. -/
import Uta.Lib.Places

namespace Uta.Lib.Places

variable {α : Type} {mark chunk front rest text : List α}

/-- The mark begins at the offset. -/
def StandsAt (mark text : List α) (i : ℕ) : Prop := i ≤ text.length ∧ mark <+: text.drop i

/-- The offset is the last one where the mark begins, or it begins nowhere. -/
def IsLast (mark text : List α) : Option ℕ → Prop
  | some i => StandsAt mark text i ∧ ∀ j, StandsAt mark text j → j ≤ i
  | none => ∀ j, ¬ StandsAt mark text j

theorem standsAt_iff {i : ℕ} :
    StandsAt mark text i ↔ ∃ before after, before.length = i ∧ before ++ mark ++ after = text := by
  constructor
  · rintro ⟨inside, after, split⟩
    refine ⟨text.take i, after, by rw [List.length_take, Nat.min_eq_left inside], ?_⟩
    rw [List.append_assoc, split, List.take_append_drop]
  · rintro ⟨before, after, rfl, rfl⟩
    rw [List.append_assoc]
    exact ⟨by simp, by simp⟩

theorem StandsAt.length_le {i : ℕ} (stands : StandsAt mark text i) :
    i + mark.length ≤ text.length := by
  obtain ⟨before, after, rfl, rfl⟩ := standsAt_iff.mp stands
  simp

theorem not_standsAt_nil (filled : mark ≠ []) (i : ℕ) : ¬ StandsAt mark [] i := fun stands => by
  have short := stands.length_le
  have long := List.length_pos_iff.mpr filled
  rw [List.length_nil] at short
  omega

theorem standsAt_append {i : ℕ} :
    StandsAt mark (front ++ text) (front.length + i) ↔ StandsAt mark text i := by
  rw [StandsAt, StandsAt, List.length_append, List.drop_length_add_append]
  exact and_congr (Nat.add_le_add_iff_left) Iff.rfl

/-- What stands behind what is known not to hold it stands in front. -/
theorem standsAt_before {i : ℕ} (stands : StandsAt mark (front ++ text) i)
    (mute : ∀ j, ¬ StandsAt mark text j) : i < front.length := by
  by_contra behind
  obtain ⟨j, rfl⟩ := Nat.exists_eq_add_of_le (Nat.not_lt.mp behind)
  exact mute j (standsAt_append.mp stands)

/-- A mark that begins in the chunk ends before as many more elements as it has, but one. -/
theorem standsAt_overlap {i : ℕ} (mute : ∀ j, ¬ StandsAt mark rest j) :
    StandsAt mark (chunk ++ rest) i ↔ StandsAt mark (chunk ++ rest.take (mark.length - 1)) i := by
  have whole : chunk ++ rest =
      chunk ++ rest.take (mark.length - 1) ++ rest.drop (mark.length - 1) := by
    rw [List.append_assoc, List.take_append_drop]
  constructor
  · intro stands
    have inside := standsAt_before stands mute
    have ends := stands.length_le
    obtain ⟨before, after, rfl, split⟩ := standsAt_iff.mp stands
    have short : (before ++ mark).length ≤ (chunk ++ rest.take (mark.length - 1)).length := by
      rw [List.length_append] at ends
      simp only [List.length_append, List.length_take]
      omega
    obtain ⟨more, ends⟩ := List.prefix_of_prefix_length_le ⟨after, split⟩
      (whole ▸ List.prefix_append _ _) short
    exact standsAt_iff.mpr ⟨before, more, rfl, ends⟩
  · intro stands
    rw [whole]
    refine ⟨stands.1.trans (List.prefix_append _ _).length_le, stands.2.trans ?_⟩
    rw [List.drop_append_of_le_length stands.1]
    exact List.prefix_append _ _

theorem isLast_append {i : ℕ} (last : IsLast mark text (some i)) (front : List α) :
    IsLast mark (front ++ text) (some (front.length + i)) := by
  refine ⟨standsAt_append.mpr last.1, fun j stands => ?_⟩
  rcases Nat.lt_or_ge j front.length with before | behind
  · omega
  · obtain ⟨j, rfl⟩ := Nat.exists_eq_add_of_le behind
    exact Nat.add_le_add_left (last.2 j (standsAt_append.mp stands)) _

theorem isLast_overlap {found : Option ℕ} (mute : ∀ j, ¬ StandsAt mark rest j)
    (last : IsLast mark (chunk ++ rest.take (mark.length - 1)) found) :
    IsLast mark (chunk ++ rest) found := by
  cases found with
  | none => exact fun j stands => last j ((standsAt_overlap mute).mp stands)
  | some i =>
      exact ⟨(standsAt_overlap mute).mpr last.1,
        fun j stands => last.2 j ((standsAt_overlap mute).mp stands)⟩

/-- The front of the chunk and its overlap is the front of the whole. -/
theorem take_overlap (k : ℕ) (chunk rest : List α) :
    (chunk ++ rest.take k).take k = (chunk ++ rest).take k := by
  rw [List.take_append, List.take_append, List.take_take, Nat.min_eq_left (Nat.sub_le _ _)]

theorem isLast_unique {found found' : Option ℕ} (first : IsLast mark text found)
    (second : IsLast mark text found') : found = found' := by
  cases found with
  | none =>
      cases found' with
      | none => rfl
      | some j => exact absurd second.1 (first j)
  | some i =>
      cases found' with
      | none => exact absurd first.1 (second i)
      | some j => exact congrArg some (Nat.le_antisymm (second.2 i first.1) (first.2 j second.1))

/-- An empty mark stands last at the end. -/
theorem isLast_nil (text : List α) : IsLast [] text (some text.length) :=
  ⟨⟨Nat.le_refl _, List.nil_prefix⟩, fun _ stands => stands.1⟩

section

variable [DecidableEq α]

/-- `text.rfind(mark)`, for any mark. -/
def lastAt (mark : List α) : List α → Option ℕ
  | [] => if mark.isEmpty then some 0 else none
  | c :: text =>
    match lastAt mark text with
    | some i => some (i + 1)
    | none => if mark.isPrefixOf (c :: text) then some 0 else none

theorem isLast_lastAt (mark text : List α) : IsLast mark text (lastAt mark text) := by
  induction text with
  | nil =>
      rw [lastAt]
      cases mark with
      | nil => exact isLast_nil []
      | cons m mark => exact not_standsAt_nil (List.cons_ne_nil m mark)
  | cons c text ih =>
      rw [lastAt]
      cases found : lastAt mark text with
      | some i =>
          rw [found] at ih
          simpa [Nat.add_comm] using isLast_append ih [c]
      | none =>
          rw [found] at ih
          have here : ∀ j, StandsAt mark ([c] ++ text) j → j = 0 := fun j stands =>
            Nat.lt_one_iff.mp (standsAt_before stands ih)
          simp only
          split
          case isTrue starts =>
            have begins : StandsAt mark (c :: text) 0 :=
              ⟨Nat.zero_le _, List.isPrefixOf_iff_prefix.mp starts⟩
            exact ⟨begins, fun j stands => Nat.le_of_eq (here j stands)⟩
          case isFalse starts =>
            intro j stands
            obtain rfl := here j stands
            exact starts (List.isPrefixOf_iff_prefix.mpr stands.2)

end

end Uta.Lib.Places
