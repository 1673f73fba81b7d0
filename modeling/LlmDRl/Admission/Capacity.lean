import LlmDRl.Admission.Balance

/-!
# Capacity of fit-tested bookings

A fit test compares a need with the budget less `_used` less the reserve
charges of the residents.  Passing it bounds `_used` by the budget as long as
those charges do not sum below zero.  They do not when every conversation ends
at the highest context it recorded: then the estimator is only fed
non-negative growths.  A conversation that shrinks feeds it a negative one,
and a charge below zero widens the fit tests of its replica.
-/

namespace LlmDRl.Admission

open LlmDRl.Library
open scoped NNRat

/-- The rules that book only after a fit test has succeeded. -/
def Rule.FitTested : Rule → Prop
  | .gated | .inPlace | .rebalance | .migration => True
  | _ => False

/-! ## One booking -/

namespace Books

variable {books : Books} {requestId : String} {turnIndex : Int}
  {contextSize : ℚ}

theorem SizesNonneg.historyOf_getD
    (nonneg : books.SizesNonneg) (requestId : String) (turnIndex : Int) :
    0 ≤ (books.historyOf requestId).getD turnIndex 0 := by
  unfold historyOf OrderedDict.getD
  cases found : books.history.get? requestId with
  | none =>
      exact le_refl _
  | some history =>
      simp only [Option.getD_some]
      cases size : history.get? turnIndex with
      | none =>
          exact le_refl _
      | some value =>
          exact nonneg requestId history turnIndex value found size

theorem bookedTokens_le
    (nonneg : books.SizesNonneg) (sizeNonneg : 0 ≤ contextSize)
    (requestId replica : String) (turnIndex : Int) :
    books.bookedTokens requestId replica turnIndex contextSize ≤
      contextSize := by
  have previousNonneg := nonneg.historyOf_getD requestId (turnIndex - 1)
  unfold bookedTokens
  unfold OrderedDict.getD at previousNonneg
  split
  · next prev found =>
      rw [found] at previousNonneg
      simp only [Option.getD_some] at previousNonneg
      split
      · exact max_le sizeNonneg (by linarith)
      · exact le_refl _
  · exact le_refl _

/-- In place, a booking adds the need it was tested for. -/
theorem bookedTokens_inPlace
    {resident : String}
    (home : books.resident.get? requestId = some resident)
    (sizeNonneg : 0 ≤ contextSize) :
    books.bookedTokens requestId resident turnIndex contextSize =
      books.incrementalNeed requestId turnIndex contextSize := by
  unfold bookedTokens incrementalNeed OrderedDict.getD
  cases books.historyOf requestId |>.get? (turnIndex - 1) with
  | some prev =>
      simp [home]
  | none =>
      simp [sizeNonneg]

theorem estimatedFree_add_used
    (cfg : Config) (books : Books) (replica : String) :
    books.used replica + books.estimatedFree cfg replica =
      cfg.budgetTokensPerReplica - books.reserve replica := by
  unfold estimatedFree
  ring

end Books

/-- A fit-tested booking keeps its replica within the budget when the reserve
charges there are not negative in sum. -/
theorem SegmentEffect.used_le_budget
    {cfg : Config} {books after : Books} {requestId : String}
    {turnIndex : Int} {contextSize charge : ℚ} {booking : Booking}
    (effect :
      SegmentEffect cfg books requestId turnIndex contextSize charge
        (some booking) after)
    (tested : booking.rule.FitTested)
    (nonneg : books.SizesNonneg) (sizeNonneg : 0 ≤ contextSize)
    (reserved : 0 ≤ books.reserve booking.replica) :
    after.used booking.replica ≤ cfg.budgetTokensPerReplica := by
  have room := books.estimatedFree_add_used cfg booking.replica
  have whole := Books.bookedTokens_le nonneg sizeNonneg requestId
    booking.replica turnIndex
  cases effect with
  | booked _ fits stays =>
      rw [Books.used_book, if_pos rfl]
      cases rule : booking.rule <;>
        simp only [rule, Rule.FitTested, Books.Fits] at tested fits
      case gated | rebalance | migration =>
        linarith
      case inPlace =>
        rw [Books.bookedTokens_inPlace fits.1 sizeNonneg]
        linarith [fits.2]
  | moved _ resident later found different moves fits =>
      have released :
          (books.releaseBooking requestId resident
              (turnIndex - 1)).bookedTokens requestId booking.replica
                turnIndex contextSize =
            books.bookedTokens requestId booking.replica turnIndex
              contextSize := rfl
      rw [Books.used_book, if_pos rfl, released,
        Books.used_releaseBooking_of_ne books requestId _ different]
      cases rule : booking.rule <;>
        simp only [rule, Rule.FitTested, Books.Fits] at tested fits
      case gated | rebalance | migration =>
        linarith
      case inPlace =>
        cases found.symm.trans fits.1
        exact absurd rfl different

/-! ## The two conditions on a step -/

namespace Clients

/-- No replica's reserve charges sum below zero. -/
def ReservesCover (clients : Clients) (_ : ClientEvent) : Prop :=
  ∀ replica, 0 ≤ clients.books.reserve replica

/-- A trajectory reported done ends at the highest context it recorded. -/
def EndsAtHighest (clients : Clients) : ClientEvent → Prop
  | .done requestId =>
      (clients.books.historyOf requestId).AllValues
        (· ≤ clients.books.latestSize requestId)
  | _ => True

instance (clients : Clients) (event : ClientEvent) :
    Decidable (clients.EndsAtHighest event) := by
  unfold EndsAtHighest
  split <;> infer_instance

/-- If the step books after a fit test, the replica it chooses stays within
the budget. -/
def FitsBudget (cfg : Config) (clients : Clients)
    (event : ClientEvent) : Prop :=
  ∀ next requestId turn booking outcome,
    clients.step cfg event = some next →
    next.calls.log =
      .segment requestId turn (some booking) outcome ::
        clients.calls.log →
    booking.rule.FitTested →
      next.books.used booking.replica ≤ cfg.budgetTokensPerReplica

theorem fitsBudget_of_reservesCover
    {cfg : Config} {clients : Clients} {event : ClientEvent}
    (balanced : clients.Balanced)
    (covered : clients.ReservesCover event) :
    clients.FitsBudget cfg event := by
  intro next caller index booking outcome stepped logged tested
  have segmentFits :
      ∀ {requestId : String} {turnIndex : Int} {contextSize : ℚ}
        {segment : Segment},
        segment.Spec cfg clients.calls.ledger requestId turnIndex
            contextSize →
          0 ≤ contextSize → segment.booked = some booking →
            segment.ledger.toBooks.used booking.replica ≤
              cfg.budgetTokensPerReplica := by
    intro requestId turnIndex contextSize segment spec sizeNonneg booked
    have effect := spec.effect
    rw [booked] at effect
    exact effect.used_le_budget tested balanced.sizes sizeNonneg
      (covered booking.replica)
  cases stepped_of_step stepped with
  | acquired requestId contextSize hint clock turn due =>
      have spec := Ledger.acquire_spec cfg clients.calls.ledger requestId
        (hint.args turn contextSize) clock (Int.natCast_nonneg turn)
      have headEq := (List.cons.inj logged).1
      simp only [Notice.segment.injEq] at headEq
      exact segmentFits spec contextSize.coe_nonneg headEq.2.2.1
  | resumed requestId wakeup waiting segment acquiring parked ran =>
      have spec := Ledger.resume_spec cfg clients.calls.ledger
        requestId ran
      have headEq := (List.cons.inj logged).1
      simp only [Notice.segment.injEq] at headEq
      exact segmentFits spec (balanced.waiting requestId waiting parked)
        headEq.2.2.1
  | generated requestId succeeded turn placed =>
      cases (List.cons.inj logged).1
  | recorded requestId contextSize turn succeeded ended =>
      cases (List.cons.inj logged).1
  | finished requestId turn last =>
      cases (List.cons.inj logged).1

end Clients

/-! ## Charges along a run -/

/-- The estimator has only seen non-negative growths, and no cached charge is
negative. -/
structure Ledger.ChargesNonneg (ledger : Ledger) : Prop where
  estimator : ledger.estimator.Nonneg
  cached : ledger.reserveCharge.AllValues (0 ≤ ·)

theorem Books.reserve_nonneg
    {books : Books} (cached : books.reserveCharge.AllValues (0 ≤ ·))
    (replica : String) :
    0 ≤ books.reserve replica :=
  OrderedDict.sumWhere_nonneg _ _
    (fun requestId _ _ _ => cached.getD requestId (le_refl (0 : ℚ)))

namespace Ledger

variable {cfg : Config} {ledger : Ledger}

theorem charge_nonneg
    (estimator : ledger.estimator.Nonneg)
    (sqrtNonneg : ∀ x, 0 ≤ x → 0 ≤ cfg.sqrt x)
    (requestId : String) (contextSize : ℚ) (turnIndex : Int) :
    0 ≤ ledger.charge cfg requestId contextSize turnIndex := by
  unfold charge
  split
  · exact le_max_left _ _
  · exact estimator.estimate sqrtNonneg _

theorem ChargesNonneg.segment
    {requestId : String} {turnIndex : Int} {contextSize : ℚ}
    {segment : Segment}
    (nonneg : ledger.ChargesNonneg)
    (sqrtNonneg : ∀ x, 0 ≤ x → 0 ≤ cfg.sqrt x)
    (spec :
      segment.Spec cfg ledger requestId turnIndex contextSize) :
    segment.ledger.ChargesNonneg := by
  have estimator : segment.ledger.estimator.Nonneg :=
    spec.estimator ▸ nonneg.estimator
  have charged : 0 ≤ segment.ledger.charge cfg requestId contextSize
      turnIndex := charge_nonneg estimator sqrtNonneg _ _ _
  refine ⟨estimator, ?_⟩
  have effect := spec.effect
  generalize segment.booked = booked at effect
  generalize segment.ledger.toBooks = after at effect ⊢
  cases effect with
  | unbooked absent =>
      exact nonneg.cached
  | booked booking fits stays =>
      exact nonneg.cached.insert requestId charged
  | moved booking resident later found different moves fits =>
      exact nonneg.cached.insert requestId charged

theorem ChargesNonneg.recordTurn
    (nonneg : ledger.ChargesNonneg)
    (sqrtNonneg : ∀ x, 0 ≤ x → 0 ≤ cfg.sqrt x)
    (requestId : String) (turnIndex : Int) (contextSize : ℚ) :
    (ledger.recordTurn cfg requestId turnIndex
      contextSize).ChargesNonneg := by
  have charged := charge_nonneg nonneg.estimator sqrtNonneg requestId
    contextSize turnIndex
  constructor
  · rw [recordTurn_estimator]
    exact nonneg.estimator
  · rw [recordTurn_toBooks]
    cases home : ledger.resident.get? requestId with
    | none =>
        simpa [Books.recordTurn, home] using nonneg.cached
    | some resident =>
        rw [Books.recordTurn_of_resident home]
        exact nonneg.cached.insert requestId charged

theorem observeAll_nonneg
    {estimator : GrowthEstimator ℚ} {history : TurnHistory}
    (nonneg : estimator.Nonneg)
    (highest : history.AllValues (· ≤ history.finalSize)) :
    (observeAll estimator history).Nonneg := by
  rw [OrderedDict.allValues_iff_entries] at highest
  have fed : ∀ (entries : List (Int × ℚ)) (before : GrowthEstimator ℚ),
      (∀ entry ∈ entries, entry.2 ≤ history.finalSize) →
      before.Nonneg →
        (entries.foldl
          (fun fed entry =>
            fed.observe (fed.key entry.2 entry.1)
              (history.finalSize - entry.2)) before).Nonneg := by
    intro entries
    induction entries with
    | nil =>
        exact fun _ _ kept => kept
    | cons entry rest inductionHypothesis =>
        intro before bound kept
        have headBound := bound entry (List.mem_cons_self ..)
        exact inductionHypothesis _
          (fun other member =>
            bound other (List.mem_cons_of_mem entry member))
          (kept.observe _ (sub_nonneg.mpr headBound))
  exact fed history.entries estimator highest nonneg

theorem ChargesNonneg.onTrajectoryDone
    (nonneg : ledger.ChargesNonneg) {requestId : String}
    (highest :
      (ledger.historyOf requestId).AllValues
        (· ≤ ledger.latestSize requestId)) :
    (ledger.onTrajectoryDone requestId).ChargesNonneg := by
  constructor
  · unfold Ledger.onTrajectoryDone
    dsimp only
    split
    · exact nonneg.estimator
    · exact observeAll_nonneg nonneg.estimator highest
  · have erased := nonneg.cached.erase requestId
    unfold Ledger.onTrajectoryDone Books.onTrajectoryDone
    dsimp only
    split
    · exact erased
    · split <;> exact erased

end Ledger

namespace Clients

theorem chargesNonneg_step
    {cfg : Config} {clients next : Clients} {event : ClientEvent}
    (sqrtNonneg : ∀ x, 0 ≤ x → 0 ≤ cfg.sqrt x)
    (nonneg : clients.calls.ledger.ChargesNonneg)
    (highest : clients.EndsAtHighest event)
    (stepped : clients.step cfg event = some next) :
    next.calls.ledger.ChargesNonneg := by
  cases stepped_of_step stepped with
  | acquired requestId contextSize hint clock turn due =>
      have spec := Ledger.acquire_spec cfg clients.calls.ledger requestId
        (hint.args turn contextSize) clock (Int.natCast_nonneg turn)
      exact nonneg.segment sqrtNonneg spec
  | resumed requestId wakeup waiting segment acquiring parked ran =>
      have spec := Ledger.resume_spec cfg clients.calls.ledger
        requestId ran
      exact nonneg.segment sqrtNonneg spec
  | generated requestId succeeded turn placed =>
      exact nonneg
  | recorded requestId contextSize turn succeeded ended =>
      exact nonneg.recordTurn sqrtNonneg requestId turn contextSize
  | finished requestId turn last =>
      exact nonneg.onTrajectoryDone highest

/-- Over every run: the fit-tested bookings stay within the budget as long as
no replica's reserve charges sum below zero; and they never do in a run whose
trajectories all end at their highest context. -/
theorem fit_tested_bookings_within_budget
    (cfg : Config)
    (guessNonneg : 0 ≤ cfg.initialGrowthGuess)
    (priorNonneg : 0 ≤ cfg.priorWeight)
    (marginNonneg : 0 ≤ cfg.reserveZ)
    (sqrtNonneg : ∀ x, 0 ≤ x → 0 ≤ cfg.sqrt x)
    (events : List ClientEvent) :
    (StepsMeet (step cfg) ReservesCover (init cfg) events →
      StepsMeet (step cfg) (FitsBudget cfg) (init cfg) events) ∧
    (StepsMeet (step cfg) EndsAtHighest (init cfg) events →
      StepsMeet (step cfg) ReservesCover (init cfg) events) := by
  constructor
  · intro covered
    exact covered.of_invariant
      (fun _ _ _ balanced _ stepped => (Balanced.step balanced stepped).1)
      (fun _ _ balanced => fitsBudget_of_reservesCover balanced)
      (balanced_init cfg)
  · intro highest
    have initially : (init cfg).calls.ledger.ChargesNonneg :=
      ⟨GrowthEstimator.nonneg_init guessNonneg priorNonneg _ marginNonneg,
        OrderedDict.allValues_empty _⟩
    exact highest.of_invariant
      (fun _ _ _ nonneg ends stepped =>
        chargesNonneg_step sqrtNonneg nonneg ends stepped)
      (fun clients event nonneg _ replica =>
        Books.reserve_nonneg nonneg.cached replica)
      initially

end Clients

/-! ## A negative reserve -/

/-- One replica of ten tokens, every admission gated. -/
def tenTokens : Config where
  replicas := ["A"]
  budgetTokensPerReplica := 10
  wave1Size := 0
  initialGrowthGuess := 0
  priorWeight := 0
  maxWaitS := 100
  reserveMode := .turn
  sqrt := id

/-- A trajectory of two turns, then two admissions. -/
def thenAdmitted (first second : ℚ≥0) : List ClientEvent :=
  [.acquire "t1" first {} ⟨0, 0⟩, .generateEnds "t1" true,
    .recordTurn "t1" first, .acquire "t1" second {} ⟨0, 0⟩,
    .generateEnds "t1" true, .recordTurn "t1" second, .done "t1",
    .acquire "t2" 6 {} ⟨0, 0⟩, .acquire "t3" 4 {} ⟨0, 0⟩]

namespace Clients

theorem fit_tested_bookings_within_budget_growing :
    StepsMeet (step tenTokens) (FitsBudget tenTokens) (init tenTokens)
      (thenAdmitted 3 4) := by
  have rules := fit_tested_bookings_within_budget tenTokens
    (by decide) (by decide) (by decide) (fun _ nonneg => nonneg)
    (thenAdmitted 3 4)
  exact rules.1 (rules.2 (by decide +kernel))

/-- A conversation that shrank from 4 tokens to none lets three gated
admissions book 14 tokens on a replica of 10. -/
theorem shrunk_trajectory_overfills :
    (∃ final,
      run (step tenTokens) (init tenTokens)
          (thenAdmitted 4 0 ++ [.acquire "t4" 4 {} ⟨0, 0⟩]) =
        some final ∧
      final.books.residentTokens "A" = 14 ∧
      final.books.used "A" = 18) ∧
    ¬ StepsMeet (step tenTokens) (FitsBudget tenTokens) (init tenTokens)
      (thenAdmitted 4 0 ++ [.acquire "t4" 4 {} ⟨0, 0⟩]) := by
  constructor
  · obtain ⟨final, ran, reached⟩ :=
      exists_final_of_map_eq
        (show (run (step tenTokens) (init tenTokens)
            (thenAdmitted 4 0 ++ [.acquire "t4" 4 {} ⟨0, 0⟩])).map
          (fun final => decide (
            final.books.residentTokens "A" = 14 ∧
            final.books.used "A" = 18)) = some true by decide +kernel)
    exact ⟨final, ran, of_decide_eq_true reached⟩
  · intro fits
    obtain ⟨clients, ran, reached⟩ :=
      exists_final_of_map_eq
        (show (run (step tenTokens) (init tenTokens)
            (thenAdmitted 4 0)).map
          (fun clients =>
            (clients.step tenTokens (.acquire "t4" 4 {} ⟨0, 0⟩)).any
              fun next => decide (
                next.calls.log =
                  .segment "t4" 0 (some ⟨"A", .gated⟩)
                    (.returned ⟨"A", none⟩) :: clients.calls.log ∧
                10 < next.books.used "A")) = some true by decide +kernel)
    obtain ⟨next, stepped, booked⟩ := (Option.any_eq_true _ _).mp reached
    replace booked := of_decide_eq_true booked
    have bound := fits.last ran next "t4" 0 ⟨"A", .gated⟩ _ stepped
      booked.1 trivial
    exact absurd booked.2 (not_lt.mpr bound)

end Clients

end LlmDRl.Admission
