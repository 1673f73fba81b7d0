import LlmDRl.Library.OrderedDict
import Mathlib.Algebra.Field.Defs
import Mathlib.Algebra.Order.Floor.Defs
import Mathlib.Tactic.FieldSimp
import Mathlib.Tactic.Linarith
import Mathlib.Tactic.Positivity
import Mathlib.Tactic.Ring

/-!
# The growth estimator

`GrowthEstimator` predicts the remaining KV growth of a conversation from
conversations that have completed.  Per key it keeps a prior-blended running
mean, and a separate Welford mean and second moment over real samples only,
used for the standard-deviation margin.

The arithmetic is exact, over an arbitrary ordered field with a floor; the
square root of `x ** 0.5` is a parameter of the two functions that use it.
-/

namespace LlmDRl.Admission

open LlmDRl.Library

/-- The three accepted values of `reserve_mode`. -/
inductive ReserveMode where
  | turn
  | size
  | turnSize
  deriving DecidableEq, Repr

/-- The check of the constructor; any other text raises `ValueError`. -/
def ReserveMode.parse : String → Option ReserveMode
  | "turn" => some .turn
  | "size" => some .size
  | "turn_size" => some .turnSize
  | _ => none

/-- An estimator key: a turn index, a size bucket, or both. -/
inductive GrowthKey where
  | turn (turnIndex : Int)
  | size (bucket : Nat)
  | turnSize (turnIndex : Int) (bucket : Nat)
  deriving DecidableEq, Repr

structure GrowthEstimator (K : Type*) where
  initialGuess : K
  priorWeight : K
  reserveMode : ReserveMode
  reserveZ : K
  growthMean : OrderedDict GrowthKey K
  growthMeanN : OrderedDict GrowthKey K
  growthRmean : OrderedDict GrowthKey K
  growthM2 : OrderedDict GrowthKey K
  growthCount : OrderedDict GrowthKey Nat

namespace GrowthEstimator

/-- The estimator before the first observation. -/
def init {K : Type*} (initialGuess priorWeight : K)
    (reserveMode : ReserveMode) (reserveZ : K) : GrowthEstimator K where
  initialGuess := initialGuess
  priorWeight := priorWeight
  reserveMode := reserveMode
  reserveZ := reserveZ
  growthMean := .empty
  growthMeanN := .empty
  growthRmean := .empty
  growthM2 := .empty
  growthCount := .empty

variable {K : Type*} [Field K]

section Keys

variable [LinearOrder K] [FloorSemiring K]

/-- `int(math.log2(max(size, 1)))` -/
def sizeBucket (size : K) : Nat := Nat.log2 ⌊max size 1⌋₊

/-- Estimator key for a resident, per `reserve_mode`. -/
def key (estimator : GrowthEstimator K) (contextSize : K)
    (turnIndex : Int) : GrowthKey :=
  match estimator.reserveMode with
  | .turn => .turn turnIndex
  | .size => .size (sizeBucket contextSize)
  | .turnSize => .turnSize turnIndex (sizeBucket contextSize)

end Keys

/-- The prior-blended running mean, the initial guess for an unseen key. -/
def mean (estimator : GrowthEstimator K) (key : GrowthKey) : K :=
  estimator.growthMean.getD key estimator.initialGuess

/-- Sample standard deviation, zero below two samples. -/
def std (sqrt : K → K) (estimator : GrowthEstimator K)
    (key : GrowthKey) : K :=
  let n := estimator.growthCount.getD key 0
  if n < 2 then
    0
  else
    sqrt (estimator.growthM2.getD key 0 / ((n : K) - 1))

def estimate (sqrt : K → K) (estimator : GrowthEstimator K)
    (key : GrowthKey) : K :=
  estimator.mean key + estimator.reserveZ * estimator.std sqrt key

/-- Feed one completed turn: the growth that remained after it. -/
def observe (estimator : GrowthEstimator K) (key : GrowthKey)
    (remainingGrowth : K) : GrowthEstimator K :=
  let n := estimator.growthMeanN.getD key estimator.priorWeight
  let oldMean := estimator.mean key
  let c := estimator.growthCount.getD key 0 + 1
  let rold := estimator.growthRmean.getD key 0
  let rnew := rold + (remainingGrowth - rold) / (c : K)
  { estimator with
    growthMean := estimator.growthMean.insert key
      (oldMean + (remainingGrowth - oldMean) / (n + 1))
    growthMeanN := estimator.growthMeanN.insert key (n + 1)
    growthM2 := estimator.growthM2.insert key
      (estimator.growthM2.getD key 0 +
        (remainingGrowth - rold) * (remainingGrowth - rnew))
    growthRmean := estimator.growthRmean.insert key rnew
    growthCount := estimator.growthCount.insert key c }

/-! ## Non-negative estimates -/

section Nonneg

variable [LinearOrder K] [IsStrictOrderedRing K]

/-- The estimator has been fed non-negative growths only. -/
structure Nonneg (estimator : GrowthEstimator K) : Prop where
  initialGuess : 0 ≤ estimator.initialGuess
  priorWeight : 0 ≤ estimator.priorWeight
  reserveZ : 0 ≤ estimator.reserveZ
  growthMean : estimator.growthMean.AllValues (0 ≤ ·)
  growthMeanN : estimator.growthMeanN.AllValues (0 ≤ ·)
  growthM2 : estimator.growthM2.AllValues (0 ≤ ·)

omit [IsStrictOrderedRing K] in
theorem nonneg_init
    {initialGuess priorWeight reserveZ : K}
    (guessNonneg : 0 ≤ initialGuess) (priorNonneg : 0 ≤ priorWeight)
    (reserveMode : ReserveMode) (marginNonneg : 0 ≤ reserveZ) :
    (init initialGuess priorWeight reserveMode reserveZ).Nonneg where
  initialGuess := guessNonneg
  priorWeight := priorNonneg
  reserveZ := marginNonneg
  growthMean := OrderedDict.allValues_empty _
  growthMeanN := OrderedDict.allValues_empty _
  growthM2 := OrderedDict.allValues_empty _

/-- A running mean moved towards a non-negative sample stays
non-negative. -/
theorem runningMean_nonneg
    {oldMean sample weight : K}
    (meanNonneg : 0 ≤ oldMean) (sampleNonneg : 0 ≤ sample)
    (weightNonneg : 0 ≤ weight) :
    0 ≤ oldMean + (sample - oldMean) / (weight + 1) := by
  have positive : 0 < weight + 1 := by linarith
  have blended :
      oldMean + (sample - oldMean) / (weight + 1) =
        (oldMean * weight + sample) / (weight + 1) := by
    field_simp
    ring
  rw [blended]
  positivity

/-- Welford's increment of the second moment is never negative. -/
theorem welfordIncrement_nonneg
    (sample oldMean : K) (count : Nat) :
    0 ≤ (sample - oldMean) *
      (sample - (oldMean + (sample - oldMean) /
        ((count + 1 : Nat) : K))) := by
  have positive : (0 : K) < ((count + 1 : Nat) : K) :=
    Nat.cast_pos.mpr count.succ_pos
  have squared :
      (sample - oldMean) *
          (sample - (oldMean + (sample - oldMean) /
            ((count + 1 : Nat) : K))) =
        (sample - oldMean) ^ 2 * (count : K) / ((count + 1 : Nat) : K) := by
    field_simp
    push_cast
    ring
  rw [squared]
  positivity

theorem Nonneg.observe
    {estimator : GrowthEstimator K} (nonneg : estimator.Nonneg)
    (key : GrowthKey) {remainingGrowth : K}
    (growthNonneg : 0 ≤ remainingGrowth) :
    (estimator.observe key remainingGrowth).Nonneg where
  initialGuess := nonneg.initialGuess
  priorWeight := nonneg.priorWeight
  reserveZ := nonneg.reserveZ
  growthMean := by
    have weightNonneg :=
      nonneg.growthMeanN.getD key nonneg.priorWeight
    have meanNonneg := nonneg.growthMean.getD key nonneg.initialGuess
    exact nonneg.growthMean.insert key
      (runningMean_nonneg meanNonneg growthNonneg weightNonneg)
  growthMeanN := by
    have weightNonneg :=
      nonneg.growthMeanN.getD key nonneg.priorWeight
    exact nonneg.growthMeanN.insert key (by linarith)
  growthM2 := by
    have momentNonneg := nonneg.growthM2.getD key (le_refl (0 : K))
    exact nonneg.growthM2.insert key
      (add_nonneg momentNonneg (welfordIncrement_nonneg _ _ _))

/-- Fed non-negative growths, the estimator predicts one. -/
theorem Nonneg.estimate
    {estimator : GrowthEstimator K} (nonneg : estimator.Nonneg)
    {sqrt : K → K} (sqrtNonneg : ∀ x, 0 ≤ x → 0 ≤ sqrt x)
    (key : GrowthKey) :
    0 ≤ estimator.estimate sqrt key := by
  have meanNonneg := nonneg.growthMean.getD key nonneg.initialGuess
  have stdNonneg : 0 ≤ estimator.std sqrt key := by
    unfold std
    dsimp only
    split
    · exact le_refl _
    · next enough =>
        have counted :
            (2 : K) ≤ (estimator.growthCount.getD key 0 : K) :=
          Nat.ofNat_le_cast.mpr (not_lt.mp enough)
        have momentNonneg := nonneg.growthM2.getD key (le_refl (0 : K))
        exact sqrtNonneg _ (div_nonneg momentNonneg (by linarith))
  exact add_nonneg meanNonneg (mul_nonneg nonneg.reserveZ stdNonneg)

end Nonneg

end GrowthEstimator

end LlmDRl.Admission
