import Mathlib.Algebra.BigOperators.Group.List.Basic
import Mathlib.Algebra.Field.Defs
import Mathlib.Algebra.Order.Field.Basic
import Mathlib.Algebra.Order.BigOperators.Group.List
import Mathlib.Tactic.FieldSimp
import Mathlib.Tactic.Linarith
import Mathlib.Tactic.Positivity
import Mathlib.Tactic.Ring

/-!
# Sample statistics, one sample at a time

The mean of a list of samples and the sum of their squared deviations from
it, with the rule that says how both change when one more sample arrives.  A
mean blended with a prior of some weight follows a rule of the same shape.
-/

namespace LlmDRl.Library

universe u

variable {K : Type u} [Field K]

/-- The mean of the samples, zero for none. -/
def sampleMean (samples : List K) : K := samples.sum / samples.length

/-- The sum of the squared deviations from the mean. -/
def squaredDeviations (samples : List K) : K :=
  (samples.map fun sample => (sample - sampleMean samples) ^ 2).sum

/-- The unbiased sample variance. -/
def sampleVariance (samples : List K) : K :=
  squaredDeviations samples / ((samples.length : K) - 1)

theorem sampleMean_perm
    {left right : List K} (permuted : left.Perm right) :
    sampleMean left = sampleMean right := by
  rw [sampleMean, sampleMean, permuted.sum_eq, permuted.length_eq]

theorem squaredDeviations_perm
    {left right : List K} (permuted : left.Perm right) :
    squaredDeviations left = squaredDeviations right := by
  rw [squaredDeviations, squaredDeviations, sampleMean_perm permuted]
  exact (permuted.map _).sum_eq

theorem sampleVariance_perm
    {left right : List K} (permuted : left.Perm right) :
    sampleVariance left = sampleVariance right := by
  rw [sampleVariance, sampleVariance, squaredDeviations_perm permuted,
    permuted.length_eq]

/-- Squared deviations from any point, by those from the mean. -/
theorem sum_sq_sub
    (samples : List K) (center point : K)
    (centered : center * samples.length = samples.sum) :
    (samples.map fun sample => (sample - point) ^ 2).sum =
      (samples.map fun sample => (sample - center) ^ 2).sum +
        samples.length * (center - point) ^ 2 := by
  have expanded : ∀ (origin : K) (some : List K),
      (some.map fun sample => (sample - origin) ^ 2).sum =
        (some.map fun sample => sample ^ 2).sum - 2 * origin * some.sum +
          some.length * origin ^ 2 := by
    intro origin some
    induction some with
    | nil =>
        simp
    | cons head rest inductionHypothesis =>
        simp only [List.map_cons, List.sum_cons, inductionHypothesis,
          List.length_cons, Nat.cast_add, Nat.cast_one]
        ring
  rw [expanded point, expanded center, ← centered]
  ring

section Running

variable [LinearOrder K] [IsStrictOrderedRing K]

theorem sampleMean_mul_length (samples : List K) :
    sampleMean samples * samples.length = samples.sum := by
  cases samples with
  | nil =>
      simp
  | cons head rest =>
      have positive : (0 : K) < ((head :: rest).length : K) :=
        Nat.cast_pos.mpr (Nat.succ_pos _)
      exact div_mul_cancel₀ _ positive.ne'

/-- The mean moves towards a new sample by its share. -/
theorem sampleMean_append (samples : List K) (sample : K) :
    sampleMean (samples ++ [sample]) =
      sampleMean samples +
        (sample - sampleMean samples) /
          ((samples.length + 1 : Nat) : K) := by
  have positive : (0 : K) < ((samples.length + 1 : Nat) : K) :=
    Nat.cast_pos.mpr (Nat.succ_pos _)
  have total := sampleMean_mul_length samples
  rw [sampleMean, List.sum_append, List.sum_singleton, List.length_append,
    List.length_singleton, ← total]
  field_simp
  push_cast
  ring

/-- Welford's rule: a new sample adds the product of its deviations from the
old and from the new mean. -/
theorem squaredDeviations_append (samples : List K) (sample : K) :
    squaredDeviations (samples ++ [sample]) =
      squaredDeviations samples +
        (sample - sampleMean samples) *
          (sample - sampleMean (samples ++ [sample])) := by
  have positive : (0 : K) < ((samples.length + 1 : Nat) : K) :=
    Nat.cast_pos.mpr (Nat.succ_pos _)
  have moved := sum_sq_sub samples (sampleMean samples)
    (sampleMean (samples ++ [sample])) (sampleMean_mul_length samples)
  rw [squaredDeviations, List.map_append, List.sum_append, moved,
    squaredDeviations, List.map_singleton, List.sum_singleton,
    sampleMean_append]
  push_cast at positive ⊢
  field_simp
  ring

theorem squaredDeviations_nonneg (samples : List K) :
    0 ≤ squaredDeviations samples := by
  apply List.sum_nonneg
  intro squared member
  obtain ⟨sample, _, rfl⟩ := List.mem_map.mp member
  exact sq_nonneg _

/-- A mean that counts a prior as `weight` samples moves the same way. -/
theorem blendedMean_append
    {mean guess weight : K} {samples : List K}
    (weightNonneg : 0 ≤ weight)
    (blended :
      mean * (weight + samples.length) = weight * guess + samples.sum)
    (sample : K) :
    (mean + (sample - mean) / (weight + samples.length + 1)) *
        (weight + (samples ++ [sample]).length) =
      weight * guess + (samples ++ [sample]).sum := by
  have positive : 0 < weight + samples.length + 1 := by positivity
  rw [List.length_append, List.length_singleton, List.sum_append,
    List.sum_singleton, ← add_assoc, ← blended]
  push_cast
  rw [← add_assoc, add_mul, div_mul_cancel₀ _ positive.ne']
  ring

end Running

end LlmDRl.Library
