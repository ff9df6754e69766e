import Mathlib.Algebra.Order.Round
import Mathlib.Data.Int.Log
import Mathlib.Data.Rat.Floor
import Mathlib.Tactic.Linarith
import Mathlib.Tactic.Ring

/-! Rounding of rationals to a binary precision, to nearest and ties to even. The exponent has no
bounds, so this is what an arithmetic of binary fractions does while nothing overflows and
no result is subnormal; sums and differences of its numbers are never rounded there.
-/

namespace Foundation

/-- The nearest integer, and the even one of two. -/
def roundEven (x : ℚ) : ℤ :=
  let low := ⌊x⌋
  if x - low < 1 / 2 then low
  else if 1 / 2 < x - low then low + 1
  else if low % 2 = 0 then low
  else low + 1

theorem abs_roundEven_sub_le (x : ℚ) : |(roundEven x : ℚ) - x| ≤ 1 / 2 := by
  have low := Int.floor_le x
  have high := Int.lt_floor_add_one x
  unfold roundEven
  dsimp only
  rw [abs_le]
  split_ifs <;> push_cast <;> constructor <;> linarith

/-- The distance of the numbers of a precision around a number. -/
def unitOf (precision : ℕ) (x : ℚ) : ℚ := 2 ^ (Int.log 2 |x| + 1 - precision)

/-- The nearest number of the precision. -/
def roundBinary (precision : ℕ) (x : ℚ) : ℚ :=
  roundEven (x / unitOf precision x) * unitOf precision x

section Round

variable {precision : ℕ} {x : ℚ}

theorem unitOf_pos : 0 < unitOf precision x := zpow_pos (by decide) _

/-- Rounding is off by half a unit at most. -/
theorem abs_roundBinary_sub_le : |roundBinary precision x - x| ≤ unitOf precision x / 2 := by
  have positive : 0 < unitOf precision x := unitOf_pos
  have scaled : roundBinary precision x - x
      = (roundEven (x / unitOf precision x) - x / unitOf precision x) * unitOf precision x := by
    rw [roundBinary, sub_mul, div_mul_cancel₀ _ positive.ne']
  have half := abs_roundEven_sub_le (x / unitOf precision x)
  rw [scaled, abs_mul, abs_of_pos positive]
  nlinarith

/-- A unit is small against its number. -/
theorem unitOf_le (nonzero : x ≠ 0) : unitOf precision x / 2 ≤ |x| / 2 ^ precision := by
  have positive : 0 < |x| := abs_pos.mpr nonzero
  have power : ((2 : ℕ) : ℚ) ^ Int.log 2 |x| ≤ |x| := Int.zpow_log_le_self (by decide) positive
  have unit : unitOf precision x / 2 = ((2 : ℕ) : ℚ) ^ Int.log 2 |x| / 2 ^ precision := by
    rw [unitOf, zpow_sub₀ (by decide), zpow_add₀ (by decide), zpow_one, zpow_natCast]
    push_cast
    ring
  rw [unit]
  gcongr

/-- The relative error of a rounding. -/
theorem abs_roundBinary_sub_le_mul : |roundBinary precision x - x| ≤ |x| / 2 ^ precision := by
  rcases eq_or_ne x 0 with rfl | nonzero
  · have zero : roundEven 0 = 0 := by
      simp [roundEven]
    simp [roundBinary, zero]
  · exact abs_roundBinary_sub_le.trans (unitOf_le nonzero)

end Round

-----------------------------------------------------------------------------------------
-- Chains of roundings
-----------------------------------------------------------------------------------------

/-- What some roundings of numbers up to 1 may add up to. -/
def drift (precision steps : ℕ) : ℚ := (1 + 1 / 2 ^ precision) ^ steps - 1

/-- Some roundings of numbers up to a bound lie between two values. -/
def Near (precision : ℕ) (bound : ℚ) (steps : ℕ) (rounded ideal : ℚ) : Prop :=
  |rounded - ideal| ≤ bound * drift precision steps

theorem drift_nonneg (precision steps : ℕ) : 0 ≤ drift precision steps := by
  have one : (1 : ℚ) ≤ (1 + 1 / 2 ^ precision) ^ steps :=
    one_le_pow₀ (le_add_of_nonneg_right (by positivity))
  rw [drift]
  linarith

theorem drift_mono (precision : ℕ) {steps steps' : ℕ} (order : steps ≤ steps')
    : drift precision steps ≤ drift precision steps' := by
  have base : (1 : ℚ) ≤ 1 + 1 / 2 ^ precision := le_add_of_nonneg_right (by positivity)
  have power := pow_le_pow_right₀ base order
  rw [drift, drift]
  linarith

theorem drift_add (precision steps steps' : ℕ)
    : drift precision steps + drift precision steps' ≤ drift precision (steps + steps') := by
  have first := drift_nonneg precision steps
  have second := drift_nonneg precision steps'
  have product := mul_nonneg first second
  unfold drift at *
  rw [pow_add]
  linarith

theorem drift_succ (precision steps : ℕ)
    : drift precision (steps + 1)
      = drift precision steps + (1 + drift precision steps) / 2 ^ precision := by
  unfold drift
  ring

namespace Near

variable {precision steps steps' : ℕ} {bound bound' rounded rounded' ideal ideal' : ℚ}

theorem refl (nonneg : 0 ≤ bound) (value : ℚ) : Near precision bound steps value value := by
  rw [Near, sub_self, abs_zero]
  exact mul_nonneg nonneg (drift_nonneg ..)

theorem mono (near : Near precision bound steps rounded ideal) (nonneg : 0 ≤ bound)
    (order : bound ≤ bound') (more : steps ≤ steps')
    : Near precision bound' steps' rounded ideal :=
  near.trans (mul_le_mul order (drift_mono _ more) (drift_nonneg ..) (nonneg.trans order))

theorem add (near : Near precision bound steps rounded ideal)
    (near' : Near precision bound steps' rounded' ideal') (nonneg : 0 ≤ bound)
    : Near precision bound (steps + steps') (rounded + rounded') (ideal + ideal') := by
  have together : rounded + rounded' - (ideal + ideal') = (rounded - ideal) + (rounded' - ideal') := by
    ring
  calc |rounded + rounded' - (ideal + ideal')|
      ≤ |rounded - ideal| + |rounded' - ideal'| := together ▸ abs_add_le _ _
    _ ≤ bound * drift precision steps + bound * drift precision steps' := add_le_add near near'
    _ = bound * (drift precision steps + drift precision steps') := by ring
    _ ≤ bound * drift precision (steps + steps') :=
      mul_le_mul_of_nonneg_left (drift_add ..) nonneg

/-- What a rounded value is taken from. -/
theorem sub_left (near : Near precision bound steps rounded ideal) (value : ℚ)
    : Near precision bound steps (value - rounded) (value - ideal) := by
  have same : value - rounded - (value - ideal) = -(rounded - ideal) := by ring
  rw [Near, same, abs_neg]
  exact near

/-- One more rounding. -/
theorem round (near : Near precision bound steps rounded ideal) (small : |ideal| ≤ bound)
    : Near precision bound (steps + 1) (roundBinary precision rounded) ideal := by
  have size : |rounded| ≤ bound * (1 + drift precision steps) := by
    have split : |rounded| ≤ |rounded - ideal| + |ideal| := by
      simpa using abs_add_le (rounded - ideal) ideal
    rw [Near] at near
    linarith
  have split : |roundBinary precision rounded - ideal|
      ≤ |roundBinary precision rounded - rounded| + |rounded - ideal| :=
    abs_sub_le ..
  have last : |roundBinary precision rounded - rounded|
      ≤ bound * (1 + drift precision steps) / 2 ^ precision :=
    abs_roundBinary_sub_le_mul.trans (by gcongr)
  rw [Near] at near ⊢
  rw [drift_succ]
  calc |roundBinary precision rounded - ideal|
      ≤ bound * (1 + drift precision steps) / 2 ^ precision + bound * drift precision steps := by
        linarith
    _ = bound * (drift precision steps + (1 + drift precision steps) / 2 ^ precision) := by ring

end Near

end Foundation
