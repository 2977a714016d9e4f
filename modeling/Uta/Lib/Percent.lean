/- Percentages as Python floats compute them: binary64 arithmetic, rounded to
four decimals. -/
import Mathlib.Data.Int.Log
import Mathlib.Data.Rat.Floor
import Mathlib.Tactic.Common
import Mathlib.Tactic.NormNum

namespace Uta.Lib

/-- The nearest integer, ties to even. -/
def roundHalfEven (q : ℚ) : ℤ :=
  if q - ⌊q⌋ < 1 / 2 then ⌊q⌋
  else if 1 / 2 < q - ⌊q⌋ then ⌊q⌋ + 1
  else if ⌊q⌋ % 2 = 0 then ⌊q⌋
  else ⌊q⌋ + 1

/-- The double nearest to a rational below the overflow threshold. -/
def binary64 (q : ℚ) : ℚ :=
  if q = 0 then 0
  else
    let ulp : ℚ := 2 ^ max (Int.log 2 |q| - 52) (-1074)
    roundHalfEven (q / ulp) * ulp

/-- `round(x, 4)`: the exact value to four decimals, then the nearest double. -/
def round4 (x : ℚ) : ℚ := binary64 (roundHalfEven (x * 10000) / 10000)

/-- `100.0 if d == 0 else round((k / d) * 100.0, 4)`. -/
def percent (k d : ℕ) : ℚ := if d = 0 then 100 else round4 (binary64 (binary64 (k / d) * 100))

/-- `f"{x:.2f}"` of a number that is not negative. -/
def fixed2 (x : ℚ) : String :=
  let hundredths := (roundHalfEven (x * 100)).toNat
  s!"{hundredths / 100}." ++ (if hundredths % 100 < 10 then "0" else "") ++ toString (hundredths % 100)

@[simp] theorem roundHalfEven_zero : roundHalfEven 0 = 0 := by
  norm_num [roundHalfEven]

@[simp] theorem binary64_zero : binary64 0 = 0 := if_pos rfl

@[simp] theorem round4_zero : round4 0 = 0 := by simp [round4]

theorem roundHalfEven_nonneg {q : ℚ} (positive : 0 ≤ q) : 0 ≤ roundHalfEven q := by
  have floor := Int.floor_nonneg.mpr positive
  unfold roundHalfEven
  split_ifs <;> omega

theorem binary64_nonneg {q : ℚ} (positive : 0 ≤ q) : 0 ≤ binary64 q := by
  unfold binary64
  split_ifs
  · exact le_refl 0
  · have ulp : (0 : ℚ) < 2 ^ max (Int.log 2 |q| - 52) (-1074) := zpow_pos (by norm_num) _
    have units := roundHalfEven_nonneg (div_nonneg positive ulp.le)
    exact mul_nonneg (by exact_mod_cast units) ulp.le

theorem percent_none (k : ℕ) : percent k 0 = 100 := if_pos rfl

example : percent 1 2 = 50 ∧ percent 2 3 = binary64 (666667 / 10000) := by decide +kernel

example : fixed2 (binary64 (666667 / 10000)) = "66.67" ∧ fixed2 7 = "7.00" := by decide +kernel

end Uta.Lib
