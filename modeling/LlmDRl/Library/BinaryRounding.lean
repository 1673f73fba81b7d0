import LlmDRl.Library.Rounding
import Mathlib.Algebra.Order.Field.Rat
import Mathlib.Data.Int.Log
import Mathlib.Data.Rat.Floor

/-!
# Rounding to so many binary digits

The numbers of a binary format with a smallest exponent, and the rounding to
one of them.  What has been rounded is such a number, and such a number is left
alone.
-/

namespace LlmDRl.Library

/-- Round to so many binary digits, the smallest exponent given. -/
def roundBinary (digits : ℕ) (minExponent : ℤ) (x : ℚ) : ℚ :=
  if x = 0 then
    0
  else
    let exponent := max (Int.log 2 |x|) minExponent - (digits - 1)
    roundHalfEven (x / 2 ^ exponent) * 2 ^ exponent

/-- An integer of so many digits, shifted to no place below the last one. -/
def Representable (digits : ℕ) (minExponent : ℤ) (x : ℚ) : Prop :=
  ∃ mantissa exponent : ℤ,
    |mantissa| ≤ 2 ^ digits ∧ minExponent - (digits - 1) ≤ exponent ∧
      x = mantissa * 2 ^ exponent

/-- Rounding does not leave an interval whose ends are integers. -/
theorem abs_roundHalfEven_le {x : ℚ} {bound : ℤ} (small : |x| ≤ bound) :
    |roundHalfEven x| ≤ bound := by
  obtain ⟨lower, upper⟩ := abs_le.mp small
  have above := roundHalfEven_mono lower
  have below := roundHalfEven_mono upper
  rw [← Int.cast_neg, roundHalfEven_intCast] at above
  rw [roundHalfEven_intCast] at below
  exact abs_le.mpr ⟨above, below⟩

theorem representable_zero (digits : ℕ) (minExponent : ℤ) :
    Representable digits minExponent 0 := by
  refine ⟨0, minExponent - (digits - 1), ?_, le_refl _, ?_⟩
  · rw [abs_zero]
    exact le_of_lt (pow_pos two_pos digits)
  · rw [Int.cast_zero, zero_mul]

theorem representable_roundBinary (digits : ℕ) (minExponent : ℤ) (x : ℚ) :
    Representable digits minExponent (roundBinary digits minExponent x) := by
  by_cases zero : x = 0
  · rw [roundBinary, if_pos zero]
    exact representable_zero digits minExponent
  · rw [roundBinary, if_neg zero]
    refine ⟨_, _, ?_, ?_, rfl⟩
    · apply abs_roundHalfEven_le
      have unit : (0 : ℚ) <
          2 ^ (max (Int.log 2 |x|) minExponent - (digits - 1)) :=
        zpow_pos two_pos _
      have below : |x| < ((2 : ℕ) : ℚ) ^ (Int.log 2 |x| + 1) :=
        Int.lt_zpow_succ_log_self one_lt_two |x|
      have shifted : (2 : ℚ) ^ (Int.log 2 |x| + 1) ≤
          2 ^ ((digits : ℤ) +
            (max (Int.log 2 |x|) minExponent - (digits - 1))) := by
        apply zpow_le_zpow_right₀ one_le_two
        omega
      rw [zpow_add₀ two_ne_zero (digits : ℤ), zpow_natCast] at shifted
      rw [abs_div, abs_of_pos unit, div_le_iff₀ unit]
      push_cast at below ⊢
      exact le_of_lt (lt_of_lt_of_le below shifted)
    · omega

/-- The logarithm of a representable number is bounded by its place. -/
theorem log_le_of_representable {digits : ℕ} {mantissa exponent : ℤ}
    (few : |mantissa| ≤ 2 ^ digits)
    (nonzero : (mantissa : ℚ) * 2 ^ exponent ≠ 0) :
    Int.log 2 |(mantissa : ℚ) * 2 ^ exponent| ≤ digits + exponent ∧
      (Int.log 2 |(mantissa : ℚ) * 2 ^ exponent| = digits + exponent →
        |mantissa| = 2 ^ digits) := by
  have unit : (0 : ℚ) < 2 ^ exponent := zpow_pos two_pos _
  have size : |(mantissa : ℚ) * 2 ^ exponent| =
      |(mantissa : ℚ)| * 2 ^ exponent := by
    rw [abs_mul, abs_of_pos unit]
  have fewRat : |(mantissa : ℚ)| ≤ 2 ^ digits := by
    exact_mod_cast few
  have power : (2 : ℚ) ^ ((digits : ℤ) + exponent) =
      2 ^ digits * 2 ^ exponent := by
    rw [zpow_add₀ two_ne_zero, zpow_natCast]
  have log : (2 : ℚ) ^ Int.log 2 |(mantissa : ℚ) * 2 ^ exponent| ≤
      |(mantissa : ℚ)| * 2 ^ exponent := by
    have low := Int.zpow_log_le_self (b := 2) one_lt_two
      (abs_pos.mpr nonzero)
    rw [size] at low ⊢
    exact_mod_cast low
  constructor
  · apply (zpow_le_zpow_iff_right₀ (one_lt_two (α := ℚ))).mp
    rw [power]
    exact le_trans log (mul_le_mul_of_nonneg_right fewRat (le_of_lt unit))
  · intro full
    rw [full, power] at log
    have many : (2 : ℚ) ^ digits ≤ |(mantissa : ℚ)| :=
      le_of_mul_le_mul_right log unit
    apply le_antisymm few
    exact_mod_cast many

/-- A representable number is a multiple of the unit it is rounded to. -/
theorem exists_multiple_of_representable {digits : ℕ} (positive : 0 < digits)
    {minExponent : ℤ} {x : ℚ}
    (representable : Representable digits minExponent x) (nonzero : x ≠ 0) :
    ∃ multiple : ℤ, x = multiple *
      2 ^ (max (Int.log 2 |x|) minExponent - ((digits : ℤ) - 1)) := by
  obtain ⟨mantissa, exponent, few, high, rfl⟩ := representable
  obtain ⟨logLe, full⟩ := log_le_of_representable few nonzero
  generalize Int.log 2 |(mantissa : ℚ) * 2 ^ exponent| = log at logLe full ⊢
  generalize place_eq : max log minExponent - ((digits : ℤ) - 1) = place
  by_cases fits : place ≤ exponent
  · refine ⟨mantissa * 2 ^ (exponent - place).toNat, ?_⟩
    have split : (2 : ℚ) ^ exponent =
        2 ^ (exponent - place).toNat * 2 ^ place := by
      rw [← zpow_natCast, Int.toNat_of_nonneg (by omega),
        ← zpow_add₀ two_ne_zero, sub_add_cancel]
    rw [split]
    push_cast
    ring
  · -- the mantissa needs one digit more, so it is a power of two
    have even : 2 ∣ mantissa := by
      rw [← dvd_abs, full (by omega)]
      exact dvd_pow_self 2 (by omega)
    obtain ⟨half, rfl⟩ := even
    have next : place = 1 + exponent := by omega
    refine ⟨half, ?_⟩
    rw [next, zpow_add₀ two_ne_zero, zpow_one]
    push_cast
    ring

theorem roundBinary_of_representable {digits : ℕ} (positive : 0 < digits)
    {minExponent : ℤ} {x : ℚ}
    (representable : Representable digits minExponent x) :
    roundBinary digits minExponent x = x := by
  by_cases zero : x = 0
  · rw [roundBinary, if_pos zero, zero]
  · obtain ⟨multiple, eq⟩ :=
      exists_multiple_of_representable positive representable zero
    rw [roundBinary, if_neg zero]
    dsimp only
    generalize max (Int.log 2 |x|) minExponent - ((digits : ℤ) - 1) = place
      at eq ⊢
    have unit : (2 : ℚ) ^ place ≠ 0 := zpow_ne_zero _ two_ne_zero
    rw [eq, mul_div_assoc, div_self unit, mul_one, roundHalfEven_intCast]

end LlmDRl.Library
