import Mathlib.Algebra.Order.Floor.Ring
import Mathlib.Algebra.Order.Field.Basic
import Mathlib.Tactic.Linarith
import Mathlib.Tactic.Positivity

/-!
# Rounding to nearest, ties to even

The nearest integer to a number, and the even one where two are nearest; and
the same at a fixed number of decimal digits.  Rounding is monotone and leaves
alone what needs no rounding, so it keeps every bound that needs none.
-/

namespace LlmDRl.Library

universe u

variable {K : Type u} [Field K] [LinearOrder K] [IsStrictOrderedRing K]
  [FloorRing K]

/-- The nearest integer, and the even one of two. -/
def roundHalfEven (x : K) : ℤ :=
  let low := ⌊x⌋
  let rest := x - low
  if rest + rest < 1 then low
  else if 1 < rest + rest then low + 1
  else if low % 2 = 0 then low
  else low + 1

omit [IsStrictOrderedRing K] in
/-- Rounding goes to one of the two neighbours. -/
theorem floor_le_roundHalfEven (x : K) : ⌊x⌋ ≤ roundHalfEven x := by
  unfold roundHalfEven
  dsimp only
  split
  · exact le_refl _
  · split
    · omega
    · split
      · exact le_refl _
      · omega

omit [IsStrictOrderedRing K] in
theorem roundHalfEven_le_floor_add_one (x : K) :
    roundHalfEven x ≤ ⌊x⌋ + 1 := by
  unfold roundHalfEven
  dsimp only
  split
  · omega
  · split
    · exact le_refl _
    · split
      · omega
      · exact le_refl _

theorem roundHalfEven_intCast (n : ℤ) : roundHalfEven (n : K) = n := by
  simp [roundHalfEven]

theorem roundHalfEven_mono {x y : K} (le : x ≤ y) :
    roundHalfEven x ≤ roundHalfEven y := by
  rcases (Int.floor_mono le).lt_or_eq with below | same
  · have upper := roundHalfEven_le_floor_add_one x
    have lower := floor_le_roundHalfEven y
    omega
  · have rests : x - (⌊x⌋ : K) ≤ y - (⌊y⌋ : K) := by
      rw [same]
      linarith
    have lower := floor_le_roundHalfEven y
    have upper := roundHalfEven_le_floor_add_one x
    by_cases down : roundHalfEven x = ⌊x⌋
    · omega
    · -- `x` was rounded up, so `y` is as far from its floor or farther
      unfold roundHalfEven at down ⊢
      dsimp only at down ⊢
      rw [same] at down rests ⊢
      split at down
      · exact absurd rfl down
      · next notLow =>
          have notLowToo : ¬ y - (⌊y⌋ : K) + (y - (⌊y⌋ : K)) < 1 := by
            linarith
          rw [if_neg notLow, if_neg notLowToo]
          split at down
          · next high =>
              have highToo : 1 < y - (⌊y⌋ : K) + (y - (⌊y⌋ : K)) := by
                linarith
              rw [if_pos high, if_pos highToo]
          · next notHigh =>
              rw [if_neg notHigh]
              split at down
              · exact absurd rfl down
              · next odd =>
                  rw [if_neg odd]
                  split <;> exact le_refl _

/-- `round(x, digits)` -/
def roundTo (digits : ℕ) (x : K) : K :=
  (roundHalfEven (x * (10 ^ digits : ℕ)) : K) / (10 ^ digits : ℕ)

theorem roundTo_mono (digits : ℕ) {x y : K} (le : x ≤ y) :
    roundTo digits x ≤ roundTo digits y := by
  have scale : (0 : K) ≤ (10 ^ digits : ℕ) := Nat.cast_nonneg _
  have rounded :=
    roundHalfEven_mono (mul_le_mul_of_nonneg_right le scale)
  exact div_le_div_of_nonneg_right (Int.cast_le.mpr rounded) scale

theorem roundTo_zero (digits : ℕ) : roundTo digits (0 : K) = 0 := by
  have zero := roundHalfEven_intCast (K := K) 0
  unfold roundTo
  rw [zero_mul]
  rw [Int.cast_zero] at zero
  rw [zero, Int.cast_zero, zero_div]

end LlmDRl.Library
