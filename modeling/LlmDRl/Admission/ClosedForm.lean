import LlmDRl.Admission.Replicas
import LlmDRl.Library.Statistics
import Mathlib.Analysis.Real.Sqrt

/-!
# The estimator in closed form

Whatever is observed in which order, for any keys, the estimator predicts for
a key the mean of what was observed for it, blended with the initial guess,
plus its margin of sample standard deviations.
-/

namespace LlmDRl.Admission

open LlmDRl.Library

namespace GrowthEstimator

variable {K : Type*} [Field K]

/-- Observations of any keys, oldest first. -/
def feed (estimator : GrowthEstimator K)
    (observations : List (GrowthKey × K)) : GrowthEstimator K :=
  observations.foldl
    (fun fed observation => fed.observe observation.1 observation.2)
    estimator

/-- What has been observed for one key. -/
def samplesOf (observations : List (GrowthKey × K)) (key : GrowthKey) :
    List K :=
  (observations.filter fun observation => observation.1 = key).map
    Prod.snd

omit [Field K] in
theorem samplesOf_perm
    {left right : List (GrowthKey × K)} (permuted : left.Perm right)
    (key : GrowthKey) :
    (samplesOf left key).Perm (samplesOf right key) :=
  (permuted.filter _).map _

/-- `s` of the closed form. -/
def sampleStd (sqrt : K → K) (samples : List K) : K :=
  if samples.length < 2 then 0 else sqrt (sampleVariance samples)

/-- The closed form of an estimate. -/
def closedForm (sqrt : K → K) (initialGuess priorWeight reserveZ : K)
    (samples : List K) : K :=
  if samples.length = 0 then
    initialGuess
  else
    (priorWeight * initialGuess + samples.sum) /
        (priorWeight + samples.length) +
      reserveZ * sampleStd sqrt samples

theorem closedForm_perm
    (sqrt : K → K) (initialGuess priorWeight reserveZ : K)
    {left right : List K} (permuted : left.Perm right) :
    closedForm sqrt initialGuess priorWeight reserveZ left =
      closedForm sqrt initialGuess priorWeight reserveZ right := by
  simp only [closedForm, sampleStd, permuted.length_eq, permuted.sum_eq,
    sampleVariance_perm permuted]

/-- What the estimator keeps for a key, read against the samples it has
seen. -/
structure Summarises (estimator : GrowthEstimator K)
    (key : GrowthKey) (samples : List K) : Prop where
  unseen : samples = [] → estimator.mean key = estimator.initialGuess
  blended :
    estimator.mean key * (estimator.priorWeight + samples.length) =
      estimator.priorWeight * estimator.initialGuess + samples.sum
  meanN :
    estimator.growthMeanN.getD key estimator.priorWeight =
      estimator.priorWeight + samples.length
  count : estimator.growthCount.getD key 0 = samples.length
  rmean : estimator.growthRmean.getD key 0 = sampleMean samples
  m2 : estimator.growthM2.getD key 0 = squaredDeviations samples

theorem summarises_init
    (initialGuess priorWeight : K) (reserveMode : ReserveMode)
    (reserveZ : K) (key : GrowthKey) :
    (init initialGuess priorWeight reserveMode reserveZ).Summarises key
      [] where
  unseen := fun _ => rfl
  blended := by
    simp only [List.length_nil, Nat.cast_zero, add_zero, List.sum_nil]
    exact mul_comm _ _
  meanN := by
    simp only [List.length_nil, Nat.cast_zero, add_zero]
    rfl
  count := rfl
  rmean := by
    simp only [sampleMean, List.sum_nil, zero_div]
    rfl
  m2 := rfl

theorem summarises_observe_of_ne
    {estimator : GrowthEstimator K} {key other : GrowthKey}
    {samples : List K} (summarised : estimator.Summarises key samples)
    (different : key ≠ other) (remainingGrowth : K) :
    (estimator.observe other remainingGrowth).Summarises key samples := by
  have mean : (estimator.observe other remainingGrowth).mean key =
      estimator.mean key :=
    OrderedDict.getD_insert_of_ne _ _ _ different
  constructor
  · intro none
    exact mean.trans (summarised.unseen none)
  · rw [mean]
    exact summarised.blended
  · exact (OrderedDict.getD_insert_of_ne _ _ _ different).trans
      summarised.meanN
  · exact (OrderedDict.getD_insert_of_ne _ _ _ different).trans
      summarised.count
  · exact (OrderedDict.getD_insert_of_ne _ _ _ different).trans
      summarised.rmean
  · exact (OrderedDict.getD_insert_of_ne _ _ _ different).trans
      summarised.m2

theorem priorWeight_feed
    (estimator : GrowthEstimator K)
    (observations : List (GrowthKey × K)) :
    (estimator.feed observations).priorWeight = estimator.priorWeight ∧
      (estimator.feed observations).initialGuess =
        estimator.initialGuess ∧
      (estimator.feed observations).reserveZ = estimator.reserveZ := by
  induction observations generalizing estimator with
  | nil =>
      exact ⟨rfl, rfl, rfl⟩
  | cons observation rest inductionHypothesis =>
      exact inductionHypothesis
        (estimator.observe observation.1 observation.2)

section Ordered

variable [LinearOrder K] [IsStrictOrderedRing K]

theorem Summarises.observe
    {estimator : GrowthEstimator K} {key : GrowthKey} {samples : List K}
    (summarised : estimator.Summarises key samples)
    (priorNonneg : 0 ≤ estimator.priorWeight) (remainingGrowth : K) :
    (estimator.observe key remainingGrowth).Summarises key
      (samples ++ [remainingGrowth]) := by
  have mean :
      (estimator.observe key remainingGrowth).mean key =
        estimator.mean key + (remainingGrowth - estimator.mean key) /
          (estimator.priorWeight + samples.length + 1) := by
    rw [← summarised.meanN]
    exact OrderedDict.getD_insert_self _ _ _ _
  have rmean :
      (estimator.observe key remainingGrowth).growthRmean.getD key 0 =
        sampleMean (samples ++ [remainingGrowth]) := by
    rw [sampleMean_append, ← summarised.rmean, ← summarised.count]
    exact OrderedDict.getD_insert_self _ _ _ _
  constructor
  · intro impossible
    simp at impossible
  · rw [mean]
    exact blendedMean_append priorNonneg summarised.blended remainingGrowth
  · refine (OrderedDict.getD_insert_self _ _ _ _).trans ?_
    rw [summarised.meanN, List.length_append, List.length_singleton,
      add_assoc]
    push_cast
    rfl
  · refine (OrderedDict.getD_insert_self _ _ _ _).trans ?_
    rw [summarised.count, List.length_append, List.length_singleton]
  · exact rmean
  · refine (OrderedDict.getD_insert_self _ _ _ _).trans ?_
    rw [squaredDeviations_append, summarised.m2, summarised.rmean,
      summarised.count, sampleMean_append]

theorem Summarises.feed
    {estimator : GrowthEstimator K} {key : GrowthKey} {samples : List K}
    (summarised : estimator.Summarises key samples)
    (priorNonneg : 0 ≤ estimator.priorWeight)
    (observations : List (GrowthKey × K)) :
    (estimator.feed observations).Summarises key
      (samples ++ samplesOf observations key) := by
  induction observations generalizing estimator samples with
  | nil =>
      simpa [samplesOf, GrowthEstimator.feed] using summarised
  | cons observation rest inductionHypothesis =>
      obtain ⟨observed, remainingGrowth⟩ := observation
      by_cases same : observed = key
      · subst observed
        have fed := inductionHypothesis
          (summarised.observe priorNonneg remainingGrowth) priorNonneg
        simpa [samplesOf, GrowthEstimator.feed] using fed
      · have fed := inductionHypothesis
          (summarises_observe_of_ne summarised (Ne.symm same)
            remainingGrowth) priorNonneg
        simpa [samplesOf, GrowthEstimator.feed, same] using fed

theorem Summarises.estimate
    {estimator : GrowthEstimator K} {key : GrowthKey} {samples : List K}
    (summarised : estimator.Summarises key samples)
    (priorNonneg : 0 ≤ estimator.priorWeight) (sqrt : K → K) :
    estimator.estimate sqrt key =
      closedForm sqrt estimator.initialGuess estimator.priorWeight
        estimator.reserveZ samples := by
  have std : estimator.std sqrt key = sampleStd sqrt samples := by
    simp only [std, sampleStd, sampleVariance, summarised.count,
      summarised.m2]
  unfold GrowthEstimator.estimate closedForm
  rw [std]
  split
  · next none =>
      have empty := List.length_eq_zero_iff.mp none
      rw [summarised.unseen empty, empty]
      simp [sampleStd]
  · next some =>
      have counted : (0 : K) < (samples.length : K) :=
        Nat.cast_pos.mpr (Nat.pos_of_ne_zero some)
      have positive : 0 < estimator.priorWeight + (samples.length : K) :=
        add_pos_of_nonneg_of_pos priorNonneg counted
      rw [← summarised.blended, mul_div_cancel_right₀ _ positive.ne']

/-- What `observe` and `estimate` divide by when they are next called for the
key. -/
structure DividesByNonzero (estimator : GrowthEstimator K)
    (key : GrowthKey) : Prop where
  mean : estimator.growthMeanN.getD key estimator.priorWeight + 1 ≠ 0
  rmean : ((estimator.growthCount.getD key 0 + 1 : Nat) : K) ≠ 0
  std : ¬ estimator.growthCount.getD key 0 < 2 →
    (estimator.growthCount.getD key 0 : K) - 1 ≠ 0

theorem Summarises.dividesByNonzero
    {estimator : GrowthEstimator K} {key : GrowthKey} {samples : List K}
    (summarised : estimator.Summarises key samples)
    (priorNonneg : 0 ≤ estimator.priorWeight) :
    estimator.DividesByNonzero key where
  mean := by
    rw [summarised.meanN]
    positivity
  rmean := Nat.cast_ne_zero.mpr (Nat.succ_ne_zero _)
  std := by
    intro enough
    have counted : (2 : K) ≤ (estimator.growthCount.getD key 0 : K) :=
      Nat.ofNat_le_cast.mpr (not_lt.mp enough)
    exact (sub_pos.mpr (lt_of_lt_of_le one_lt_two counted)).ne'

/-- The estimates for a key, whatever has been observed. -/
structure InClosedForm (sqrt : K → K) (initialGuess priorWeight : K)
    (reserveMode : ReserveMode) (reserveZ : K)
    (observations : List (GrowthKey × K)) (key : GrowthKey) : Prop where
  estimate :
    ((init initialGuess priorWeight reserveMode reserveZ).feed
        observations).estimate sqrt key =
      closedForm sqrt initialGuess priorWeight reserveZ
        (samplesOf observations key)
  momentNonneg :
    0 ≤ ((init initialGuess priorWeight reserveMode reserveZ).feed
      observations).growthM2.getD key 0
  divides :
    ((init initialGuess priorWeight reserveMode reserveZ).feed
      observations).DividesByNonzero key
  ownSamples : ∀ others,
    samplesOf others key = samplesOf observations key →
      ((init initialGuess priorWeight reserveMode reserveZ).feed
          others).estimate sqrt key =
        ((init initialGuess priorWeight reserveMode reserveZ).feed
          observations).estimate sqrt key
  anyOrder : ∀ reordered, reordered.Perm observations →
    ((init initialGuess priorWeight reserveMode reserveZ).feed
        reordered).estimate sqrt key =
      ((init initialGuess priorWeight reserveMode reserveZ).feed
        observations).estimate sqrt key

/-- In exact arithmetic the two recurrences compute the closed form, for every
prior weight that is not negative and every sequence of observations. -/
theorem estimate_in_closed_form
    (sqrt : K → K) (initialGuess : K) {priorWeight : K}
    (priorNonneg : 0 ≤ priorWeight) (reserveMode : ReserveMode)
    (reserveZ : K) (observations : List (GrowthKey × K))
    (key : GrowthKey) :
    InClosedForm sqrt initialGuess priorWeight reserveMode reserveZ
      observations key := by
  set start := init initialGuess priorWeight reserveMode reserveZ
  have summarised : ∀ observed : List (GrowthKey × K),
      (start.feed observed).Summarises key (samplesOf observed key) := by
    intro observed
    exact (summarises_init initialGuess priorWeight reserveMode reserveZ
      key).feed priorNonneg observed
  have prior : ∀ observed : List (GrowthKey × K),
      0 ≤ (start.feed observed).priorWeight := by
    intro observed
    rw [(priorWeight_feed start observed).1]
    exact priorNonneg
  have estimated : ∀ observed : List (GrowthKey × K),
      (start.feed observed).estimate sqrt key =
        closedForm sqrt initialGuess priorWeight reserveZ
          (samplesOf observed key) := by
    intro observed
    obtain ⟨weight, guess, margin⟩ := priorWeight_feed start observed
    rw [(summarised observed).estimate (prior observed) sqrt, weight, guess,
      margin]
    rfl
  constructor
  · exact estimated observations
  · rw [(summarised observations).m2]
    exact squaredDeviations_nonneg _
  · exact (summarised observations).dividesByNonzero (prior observations)
  · intro others same
    rw [estimated others, estimated observations, same]
  · intro reordered permuted
    rw [estimated reordered, estimated observations]
    exact closedForm_perm sqrt initialGuess priorWeight reserveZ
      (samplesOf_perm permuted key)

end Ordered

/-- Two keys over the reals, one of them observed twice. -/
theorem estimate_in_closed_form_two_keys :
    InClosedForm Real.sqrt 5 1 .turn 2
      [(.turn 0, 3), (.turn 1, 8), (.turn 0, 7)] (.turn 0) :=
  estimate_in_closed_form Real.sqrt 5 zero_le_one .turn 2
    [(.turn 0, 3), (.turn 1, 8), (.turn 0, 7)] (.turn 0)

end GrowthEstimator

/-! ## The estimator of a ledger -/

/-- What a completed conversation is observed as. -/
def TurnHistory.observations (estimator : GrowthEstimator ℚ)
    (history : TurnHistory) : List (GrowthKey × ℚ) :=
  history.entries.map fun entry =>
    (estimator.key entry.2 entry.1, history.finalSize - entry.2)

theorem Ledger.observeAll_eq_feed
    (estimator : GrowthEstimator ℚ) (history : TurnHistory) :
    Ledger.observeAll estimator history =
      estimator.feed (history.observations estimator) := by
  have fed : ∀ (entries : List (Int × ℚ)) (start : GrowthEstimator ℚ),
      start.reserveMode = estimator.reserveMode →
        entries.foldl
            (fun fed entry =>
              fed.observe (fed.key entry.2 entry.1)
                (history.finalSize - entry.2))
            start =
          start.feed (entries.map fun entry =>
            (estimator.key entry.2 entry.1,
              history.finalSize - entry.2)) := by
    intro entries
    induction entries with
    | nil =>
        intro start _
        rfl
    | cons entry rest inductionHypothesis =>
        intro start mode
        have sameKey : start.key entry.2 entry.1 =
            estimator.key entry.2 entry.1 := by
          simp only [GrowthEstimator.key, mode]
        simp only [List.foldl_cons, List.map_cons, GrowthEstimator.feed,
          sameKey]
        exact inductionHypothesis _ mode
  exact fed history.entries estimator rfl

/-- Whatever calls arrive, the estimator of the ledger has been fed with the
growth of completed conversations and nothing else, so its estimates are in
closed form. -/
theorem Calls.estimator_fed
    {cfg : Config} {calls : List Call} {final : Calls}
    (ran : run (Calls.step cfg) (Calls.init cfg) calls = some final) :
    ∃ observations,
      final.ledger.estimator =
        (GrowthEstimator.init cfg.initialGrowthGuess cfg.priorWeight
          cfg.reserveMode cfg.reserveZ).feed observations := by
  have preserved : ∀ (state : Calls) (call : Call) (next : Calls),
      (∃ observations,
        state.ledger.estimator =
          (GrowthEstimator.init cfg.initialGrowthGuess cfg.priorWeight
            cfg.reserveMode cfg.reserveZ).feed observations) →
      Calls.step cfg state call = some next →
      ∃ observations,
        next.ledger.estimator =
          (GrowthEstimator.init cfg.initialGrowthGuess cfg.priorWeight
            cfg.reserveMode cfg.reserveZ).feed observations := by
    rintro state call next ⟨observations, fed⟩ stepped
    rcases step_cases stepped with
      ⟨requestId, turnIndex, segment, started, rfl⟩ |
      ⟨requestId, turnIndex, contextSize, _, rfl⟩ |
      ⟨requestId, _, rfl⟩
    · obtain ⟨contextSize, spec⟩ := started.spec
      exact ⟨observations, spec.estimator.trans fed⟩
    · exact ⟨observations, (Ledger.recordTurn_estimator cfg state.ledger
        requestId turnIndex contextSize).trans fed⟩
    · simp only [Ledger.onTrajectoryDone]
      split
      · exact ⟨observations, fed⟩
      · rw [Ledger.observeAll_eq_feed, fed]
        exact ⟨observations ++ _, (List.foldl_append ..).symm⟩
  exact run_invariant preserved ⟨[], rfl⟩ ran

end LlmDRl.Admission
