import LlmDRl.Library.JsonRoundTrip
import LlmDRl.Library.Rounding
import Mathlib.Algebra.Order.Floor.Ring
import Mathlib.Data.Rat.Floor
import Mathlib.Tactic.FieldSimp
import Mathlib.Tactic.Ring

/-!
# Decimals

Numbers with at most four decimals, as what `round(x, 4)` gives, in a
`FloatFormat`.  They are written without an exponent, as `repr` writes a float
below `10 ** 16`, and read exactly.
-/

namespace LlmDRl.Library.Decimal

open LlmDRl.Library.Json

/-! ## Reading -/

/-- The digits after the point. -/
def fractionOf (digits : List Char) : ℚ :=
  Nat.ofDigitChars 10 digits 0 / 10 ^ digits.length

/-- What `scanExponent` finds. -/
def exponentOf : List Char → Int
  | [] => 0
  | _ :: '-' :: digits => -(Nat.ofDigitChars 10 digits 0 : Int)
  | _ :: '+' :: digits => Nat.ofDigitChars 10 digits 0
  | _ :: digits => Nat.ofDigitChars 10 digits 0

/-- The exact value of a literal. -/
def read (text : List Char) : ℚ :=
  let minus := splitMinus text
  let whole := splitDigits minus.2
  let fraction := scanFraction whole.2
  let exponent := scanExponent fraction.2
  let value := (Nat.ofDigitChars 10 whole.1 0 + fractionOf (fraction.1.drop 1)) *
    (10 : ℚ) ^ exponentOf exponent.1
  if minus.1 = [] then value else -value

/-! ## Writing -/

/-- Without the zeros at the end, but with one digit at least. -/
def trimZeros (digits : List Char) : List Char :=
  let kept := (digits.reverse.dropWhile (· = '0')).reverse
  if kept = [] then ['0'] else kept

def fourDigits (n : Nat) : List Char :=
  [Nat.digitChar (n / 1000), Nat.digitChar (n / 100 % 10),
    Nat.digitChar (n / 10 % 10), Nat.digitChar (n % 10)]

def write (x : ℚ) : List Char :=
  let scaled := ⌊x * 10000⌋
  (if scaled < 0 then ['-'] else []) ++
    (Nat.toDigits 10 (scaled.natAbs / 10000) ++
      '.' :: trimZeros (fourDigits (scaled.natAbs % 10000)))

/-- At most four decimals. -/
def IsDecimal (x : ℚ) : Prop := ∃ n : Int, x = n / 10000

/-! ## What is written is read -/

theorem fractionOf_append_zero (digits : List Char) :
    fractionOf (digits ++ ['0']) = fractionOf digits := by
  have value : Nat.ofDigitChars 10 (digits ++ ['0']) 0 =
      10 * Nat.ofDigitChars 10 digits 0 := by
    rw [Nat.ofDigitChars_append, Nat.ofDigitChars_cons, Nat.ofDigitChars_nil]
    rfl
  unfold fractionOf
  rw [value, List.length_append, List.length_singleton, pow_succ]
  push_cast
  field_simp

theorem fractionOf_trimZeros (digits : List Char) :
    fractionOf (trimZeros digits) = fractionOf digits := by
  have kept : fractionOf (digits.reverse.dropWhile (· = '0')).reverse =
      fractionOf digits := by
    induction digits using List.reverseRecOn with
    | nil =>
        rfl
    | append_singleton digits digit inductionHypothesis =>
        by_cases zero : digit = '0'
        · rw [zero, fractionOf_append_zero, ← inductionHypothesis]
          simp
        · simp [zero]
  unfold trimZeros
  dsimp only
  split
  · next empty =>
      rw [← kept, empty]
      norm_num [fractionOf, Nat.ofDigitChars_cons]
  · exact kept

theorem fractionOf_fourDigits {n : Nat} (small : n < 10000) :
    fractionOf (fourDigits n) = n / 10000 := by
  have value : Nat.ofDigitChars 10 (fourDigits n) 0 = n := by
    unfold fourDigits
    rw [Nat.ofDigitChars_cons_digitChar_of_lt_ten (by omega),
      Nat.ofDigitChars_cons_digitChar_of_lt_ten (by omega),
      Nat.ofDigitChars_cons_digitChar_of_lt_ten (by omega),
      Nat.ofDigitChars_cons_digitChar_of_lt_ten (by omega),
      Nat.ofDigitChars_nil]
    omega
  unfold fractionOf
  rw [value]
  norm_num [fourDigits]

theorem isDigits_fourDigits {n : Nat} (small : n < 10000) :
    IsDigits (fourDigits n) := by
  have digit : ∀ m, m < 10 → (Nat.digitChar m).isDigit := by
    have all : ∀ m : Fin 10, (Nat.digitChar m).isDigit := by
      decide
    exact fun m small => all ⟨m, small⟩
  refine ⟨by simp [fourDigits], ?_⟩
  unfold fourDigits
  simp only [List.forall_mem_cons, List.not_mem_nil, false_imp_iff,
    implies_true, and_true]
  exact ⟨digit _ (by omega), digit _ (by omega), digit _ (by omega),
    digit _ (by omega)⟩

theorem isDigits_trimZeros {digits : List Char} (shape : IsDigits digits) :
    IsDigits (trimZeros digits) := by
  unfold trimZeros
  dsimp only
  split
  · exact ⟨by decide, forall_mem_of_all (by decide)⟩
  · next nonempty =>
      refine ⟨nonempty, fun char member => shape.2 char ?_⟩
      have inDropped := List.mem_reverse.mp member
      exact List.mem_reverse.mp
        ((List.dropWhile_sublist (· = '0')).subset inDropped)

theorem isFloatLiteral_write (x : ℚ) : IsFloatLiteral (write x) := by
  have four := isDigits_trimZeros
    (isDigits_fourDigits (Nat.mod_lt ⌊x * 10000⌋.natAbs (by decide)))
  refine ⟨_, _, [], ?_, ⟨if ⌊x * 10000⌋ < 0 then ['-'] else [], _, rfl, ?_,
    isDigits_toDigits (⌊x * 10000⌋.natAbs / 10000), toDigits_head⟩,
    .inr ⟨_, four, rfl⟩, .inl rfl, by simp⟩
  · simp [write]
  · split <;> simp

theorem splitMinus_write (n : Int) :
    splitMinus (write (n / 10000 : ℚ)) =
      (if n < 0 then ['-'] else [],
        Nat.toDigits 10 (n.natAbs / 10000) ++
          '.' :: trimZeros (fourDigits (n.natAbs % 10000))) := by
  have scaled : ⌊(n / 10000 : ℚ) * 10000⌋ = n := by
    rw [div_mul_cancel₀ _ (by norm_num), Int.floor_intCast]
  have digits := isDigits_toDigits (n.natAbs / 10000)
  unfold write
  rw [scaled]
  dsimp only
  by_cases negative : n < 0
  · rw [if_pos negative]
    rfl
  · rw [if_neg negative, List.nil_append]
    obtain ⟨digit, rest, same⟩ := List.exists_cons_of_ne_nil digits.1
    rw [same]
    exact splitMinus_digit (digits.2 digit (by simp [same])) _

theorem read_write {x : ℚ} (isDecimal : IsDecimal x) : read (write x) = x := by
  obtain ⟨n, rfl⟩ := isDecimal
  have small : n.natAbs % 10000 < 10000 := Nat.mod_lt _ (by decide)
  have four := isDigits_trimZeros (isDigits_fourDigits small)
  generalize shown : trimZeros (fourDigits (n.natAbs % 10000)) = decimals
    at four
  have whole : splitDigits
      (Nat.toDigits 10 (n.natAbs / 10000) ++ '.' :: decimals) =
        (Nat.toDigits 10 (n.natAbs / 10000), '.' :: decimals) := by
    refine splitDigits_append (isDigits_toDigits _).2 fun char first => ?_
    obtain rfl := Option.some.inj first
    rfl
  have fraction : scanFraction ('.' :: decimals ++ []) = ('.' :: decimals, []) :=
    scanFraction_append (.inr ⟨_, four, rfl⟩) fun char first => by cases first
  rw [List.append_nil] at fraction
  have value : ((n.natAbs / 10000 : Nat) : ℚ) + fractionOf decimals =
      n.natAbs / 10000 := by
    rw [← shown, fractionOf_trimZeros, fractionOf_fourDigits small]
    have split := Nat.div_add_mod n.natAbs 10000
    have cast : (n.natAbs : ℚ) =
        10000 * (n.natAbs / 10000 : Nat) + (n.natAbs % 10000 : Nat) := by
      exact_mod_cast split.symm
    rw [cast]
    ring
  have noExponent : scanExponent [] = ([], []) := rfl
  unfold read
  rw [splitMinus_write, shown]
  simp only [whole, fraction, noExponent, List.drop_succ_cons, List.drop_zero,
    Nat.ofDigitChars_ten_toDigits, exponentOf, zpow_zero, mul_one, value]
  by_cases negative : n < 0
  · have cast : (n.natAbs : ℚ) = -n := by
      rw [Nat.cast_natAbs, abs_of_neg negative, Int.cast_neg]
    rw [if_pos negative, if_neg (List.cons_ne_nil _ _), cast]
    ring
  · have cast : (n.natAbs : ℚ) = n := by
      rw [Nat.cast_natAbs, abs_of_nonneg (not_lt.mp negative)]
    rw [if_neg negative, if_pos rfl, cast]

/-- The floats with at most four decimals. -/
def format : FloatFormat ℚ where
  IsFloat := IsDecimal
  write := write
  read := read
  shape x _ := .inl (isFloatLiteral_write x)
  read_write _ := read_write

theorem isDecimal_roundTo (x : ℚ) : IsDecimal (roundTo 4 x) :=
  ⟨roundHalfEven (x * (10 ^ 4 : ℕ)), by norm_num [roundTo]⟩

end LlmDRl.Library.Decimal
