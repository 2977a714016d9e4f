/- Places whose contents know when they came there. What is found at a place after it was emptied
came later. -/
import Uta.Lib.Run
import Mathlib.Logic.Function.Basic

namespace Uta.Lib

structure Stamped (κ ν : Type) where
  held : κ → Option (ν × ℕ)
  moment : ℕ

namespace Stamped

variable {κ ν : Type}

/-- Whatever makes a place hold something, or nothing. -/
inductive Change (κ ν : Type) where
  | put (place : κ) (value : ν)
  | remove (place : κ)

variable [DecidableEq κ]

def change (s : Stamped κ ν) : Change κ ν → Stamped κ ν
  | .put place value => ⟨Function.update s.held place (some (value, s.moment)), s.moment + 1⟩
  | .remove place => ⟨Function.update s.held place none, s.moment + 1⟩

/-- The place is empty, or holds what came there at the moment or later. -/
structure Since (moment : ℕ) (place : κ) (s : Stamped κ ν) : Prop where
  passed : moment ≤ s.moment
  later : ∀ held ∈ s.held place, moment ≤ held.2

variable {moment : ℕ} {place : κ}

theorem since_remove (s : Stamped κ ν) (place : κ) :
    Since s.moment place (s.change (.remove place)) where
  passed := Nat.le_succ _
  later := by simp [change]

theorem since_change {s : Stamped κ ν} (since : Since moment place s) (c : Change κ ν) :
    Since moment place (s.change c) := by
  obtain ⟨passed, later⟩ := since
  cases c with
  | put other value =>
      refine ⟨Nat.le_trans passed (Nat.le_succ _), ?_⟩
      rcases eq_or_ne place other with rfl | apart
      · simpa [change] using passed
      · simpa [change, apart] using later
  | remove other =>
      refine ⟨Nat.le_trans passed (Nat.le_succ _), ?_⟩
      rcases eq_or_ne place other with rfl | apart
      · simp [change]
      · simpa [change, apart] using later

end Stamped

end Uta.Lib
