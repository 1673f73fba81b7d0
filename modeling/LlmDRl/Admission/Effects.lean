import LlmDRl.Admission.Branches
import LlmDRl.Admission.Calls

/-!
# What a segment of `acquire` does to the bookings

`SegmentEffect` lists everything a segment can do to the booking
dictionaries: nothing, one booking, or one migration.  `Segment.Spec` adds
how the outcome goes with it.
-/

namespace LlmDRl.Admission

open LlmDRl.Library

/-- Everything a segment of `acquire` can do to the bookings.  `charge` is the
reserve charge it caches if it books. -/
inductive SegmentEffect (cfg : Config) (books : Books)
    (requestId : String) (turnIndex : Int) (contextSize charge : ℚ) :
    Option Booking → Books → Prop
  | unbooked
      (absent : 0 < turnIndex → books.resident.get? requestId = none) :
      SegmentEffect cfg books requestId turnIndex contextSize charge
        none books
  | booked (booking : Booking)
      (fits :
        books.Fits cfg requestId turnIndex contextSize booking)
      (stays : 0 < turnIndex → ∀ resident,
        books.resident.get? requestId = some resident →
          booking.replica = resident ∧
            books.StaysOn cfg requestId turnIndex contextSize resident) :
      SegmentEffect cfg books requestId turnIndex contextSize charge
        (some booking)
        (books.book requestId booking.replica turnIndex contextSize charge)
  | moved (booking : Booking) (resident : String)
      (later : 0 < turnIndex)
      (found : books.resident.get? requestId = some resident)
      (different : booking.replica ≠ resident)
      (moves :
        ¬ books.StaysOn cfg requestId turnIndex contextSize resident)
      (fits :
        books.Fits cfg requestId turnIndex contextSize booking) :
      SegmentEffect cfg books requestId turnIndex contextSize charge
        (some booking)
        ((books.releaseBooking requestId resident (turnIndex - 1)).book
          requestId booking.replica turnIndex contextSize charge)

/-- A segment leaves the request resident where it booked it. -/
theorem SegmentEffect.resident_eq
    {cfg : Config} {books after : Books} {requestId : String}
    {turnIndex : Int} {contextSize charge : ℚ} {booked : Option Booking}
    (effect :
      SegmentEffect cfg books requestId turnIndex contextSize charge
        booked after) :
    after.resident.get? requestId =
      (booked.map Booking.replica).or (books.resident.get? requestId) := by
  cases effect with
  | unbooked absent =>
      rfl
  | booked booking fits stays =>
      exact OrderedDict.get?_insert_self _ _ _
  | moved booking resident later found different moves fits =>
      exact OrderedDict.get?_insert_self _ _ _

/-- A later turn goes unbooked only when the request is resident nowhere. -/
theorem SegmentEffect.absent_of_unbooked
    {cfg : Config} {books after : Books} {requestId : String}
    {turnIndex : Int} {contextSize charge : ℚ}
    (effect :
      SegmentEffect cfg books requestId turnIndex contextSize charge none
        after)
    (later : 0 < turnIndex) : books.resident.get? requestId = none := by
  cases effect with
  | unbooked absent =>
      exact absent later

/-- How bookings, estimator and outcome of a segment go together. -/
structure Segment.Spec (cfg : Config) (ledger : Ledger)
    (requestId : String) (turnIndex : Int) (contextSize : ℚ)
    (segment : Segment) : Prop where
  estimator : segment.ledger.estimator = ledger.estimator
  effect :
    SegmentEffect cfg ledger.toBooks requestId turnIndex contextSize
      (segment.ledger.charge cfg requestId contextSize turnIndex)
      segment.booked segment.ledger.toBooks
  suspended : ∀ waiting, segment.outcome = .suspended waiting →
    segment.booked = none ∧ waiting.contextSize = contextSize
  returned : ∀ placement, segment.outcome = .returned placement →
    ∃ rule, segment.booked = some ⟨placement.replica, rule⟩

namespace Segment.Spec

variable {cfg : Config} {ledger : Ledger} {requestId : String}
  {turnIndex : Int} {contextSize : ℚ}

/-- A specification only reads the bookings and the estimator of the ledger
it starts from. -/
theorem of_same
    {earlier : Ledger} {segment : Segment}
    (spec :
      segment.Spec cfg ledger requestId turnIndex contextSize)
    (books : ledger.toBooks = earlier.toBooks)
    (estimator : ledger.estimator = earlier.estimator) :
    segment.Spec cfg earlier requestId turnIndex contextSize where
  estimator := spec.estimator.trans estimator
  effect := books ▸ spec.effect
  suspended := spec.suspended
  returned := spec.returned

theorem of_raised
    (after : Ledger) (error : PyError)
    (books : after.toBooks = ledger.toBooks)
    (estimator : after.estimator = ledger.estimator)
    (absent :
      0 < turnIndex → ledger.resident.get? requestId = none) :
    Segment.Spec cfg ledger requestId turnIndex contextSize
      ⟨after, .raised error, none⟩ where
  estimator := estimator
  effect := by
    rw [books]
    exact .unbooked absent
  suspended := by
    intro waiting impossible
    cases impossible
  returned := by
    intro placement impossible
    cases impossible

theorem of_suspended
    (after : Ledger) (waiting : Waiting)
    (books : after.toBooks = ledger.toBooks)
    (estimator : after.estimator = ledger.estimator)
    (size : waiting.contextSize = contextSize) :
    Segment.Spec cfg ledger requestId 0 contextSize
      ⟨after, .suspended waiting, none⟩ where
  estimator := estimator
  effect := by
    rw [books]
    exact .unbooked (fun later => absurd later (lt_irrefl 0))
  suspended := by
    intro parked same
    cases same
    exact ⟨rfl, size⟩
  returned := by
    intro placement impossible
    cases impossible

/-- A booking that ends the segment, by return or by exception. -/
theorem of_booked
    {segment : Segment} (booking : Booking)
    (estimator : segment.ledger.estimator = ledger.estimator)
    (booked : segment.booked = some booking)
    (effect :
      SegmentEffect cfg ledger.toBooks requestId turnIndex contextSize
        (segment.ledger.charge cfg requestId contextSize turnIndex)
        (some booking) segment.ledger.toBooks)
    (ended :
      (∃ error, segment.outcome = .raised error) ∨
        ∃ kvSource,
          segment.outcome = .returned ⟨booking.replica, kvSource⟩) :
    segment.Spec cfg ledger requestId turnIndex contextSize where
  estimator := estimator
  effect := booked ▸ effect
  suspended := by
    intro waiting same
    rcases ended with ⟨error, outcome⟩ | ⟨kvSource, outcome⟩ <;>
      cases outcome.symm.trans same
  returned := by
    intro placement same
    rcases ended with ⟨error, outcome⟩ | ⟨kvSource, outcome⟩
    · cases outcome.symm.trans same
    · cases outcome.symm.trans same
      exact ⟨booking.rule, booked⟩

end Segment.Spec

namespace Ledger

variable (cfg : Config) (ledger : Ledger) (requestId : String)

/-- `place` books on the given replica or raises. -/
theorem place_spec
    (turnIndex : Int) (contextSize : ℚ) (rule : Rule)
    (replica : Option String)
    (fits : ∀ r, replica = some r →
      ledger.toBooks.Fits cfg requestId turnIndex contextSize ⟨r, rule⟩)
    (stays : ∀ r, replica = some r → 0 < turnIndex → ∀ resident,
      ledger.resident.get? requestId = some resident →
        r = resident ∧
          ledger.toBooks.StaysOn cfg requestId turnIndex contextSize
            resident)
    (absent : replica = none → 0 < turnIndex →
      ledger.resident.get? requestId = none) :
    (ledger.place cfg requestId turnIndex contextSize rule replica).Spec
      cfg ledger requestId turnIndex contextSize := by
  cases replica with
  | none =>
      exact .of_raised ledger .emptyMax rfl rfl (absent rfl)
  | some r =>
      exact .of_booked ⟨r, rule⟩ rfl rfl
        (.booked ⟨r, rule⟩ (fits r rfl) (stays r rfl))
        (.inr ⟨none, rfl⟩)

/-- A turn-0 booking has no residency to keep. -/
theorem place_zero_spec
    (contextSize : ℚ) (rule : Rule) (replica : Option String)
    (fits : ∀ r, replica = some r →
      ledger.toBooks.Fits cfg requestId 0 contextSize ⟨r, rule⟩) :
    (ledger.place cfg requestId 0 contextSize rule replica).Spec
      cfg ledger requestId 0 contextSize :=
  place_spec cfg ledger requestId 0 contextSize rule replica fits
    (fun _ _ later => absurd later (lt_irrefl 0))
    (fun _ later => absurd later (lt_irrefl 0))

end Ledger

section Branches

variable {cfg : Config} {ledger : Ledger} {requestId : String}
  {contextSize : ℚ} {sessionWork : Option ℚ} {key : Option String}
  {turnIndex : Int} {segment : Segment}

theorem Branch.spec
    (branch :
      Branch cfg ledger requestId contextSize sessionWork key turnIndex
        segment) :
    segment.Spec cfg ledger requestId turnIndex contextSize := by
  have zero : 0 < (0 : Int) → ledger.resident.get? requestId = none :=
    fun later => absurd later (lt_irrefl 0)
  cases branch with
  | placed rule replica ungrouped window member none fits stays absent =>
      exact Ledger.place_spec cfg ledger requestId turnIndex contextSize rule
        replica fits stays absent
  | polled deadline =>
      exact .of_suspended _ _ rfl rfl rfl
  | opened collecting unset =>
      exact .of_suspended _ _ rfl rfl rfl
  | joined collecting set =>
      exact .of_suspended _ _ rfl rfl rfl
  | claimed groupKey keyed fresh noReplica =>
      exact .of_raised _ .emptyMax rfl rfl zero
  | led groupKey replica keyed fresh member =>
      exact .of_booked ⟨replica, .leader groupKey⟩ rfl rfl
        (.booked ⟨replica, .leader groupKey⟩ trivial
          (fun later => absurd later (lt_irrefl 0)))
        (.inr ⟨none, rfl⟩)
  | held groupKey keyed =>
      exact .of_suspended _ _ rfl rfl rfl
  | followed groupKey leader target keyed ready leads member pulls =>
      exact .of_booked ⟨target, .follower groupKey⟩ rfl rfl
        (.booked ⟨target, .follower groupKey⟩ trivial
          (fun later => absurd later (lt_irrefl 0)))
        pulls.ended
  | moved resident target rule later ungrouped window found member moves
      fits pulls =>
      exact .of_booked ⟨target, rule⟩ rfl rfl
        (.moved ⟨target, rule⟩ resident later found
          (Config.ne_of_mem_othersThan member) moves fits)
        pulls.ended

theorem Segment.IsBranch.spec
    (branch :
      segment.IsBranch cfg ledger requestId contextSize sessionWork key
        turnIndex) :
    segment.Spec cfg ledger requestId turnIndex contextSize := by
  obtain ⟨counted, same, runs⟩ := branch
  exact runs.spec.of_same same.books same.estimator

end Branches

namespace Ledger

variable (cfg : Config) (ledger : Ledger) (requestId : String)

/-- The first segment of `acquire`, for whatever turn index a caller sends.
One that is not positive counts as turn 0. -/
theorem acquire_spec_anyTurn (args : AcquireArgs) (clock : Clock) :
    (ledger.acquire cfg requestId args clock).Spec cfg ledger requestId
      (max 0 args.turnIndex) args.contextSize :=
  (acquire_isBranch cfg ledger requestId args clock).spec

/-- The same for a turn index that is not negative. -/
theorem acquire_spec
    (args : AcquireArgs) (clock : Clock)
    (notNegative : 0 ≤ args.turnIndex) :
    (ledger.acquire cfg requestId args clock).Spec cfg ledger requestId
      args.turnIndex args.contextSize := by
  have spec := acquire_spec_anyTurn cfg ledger requestId args clock
  rw [max_eq_right notNegative] at spec
  exact spec

/-- Every later segment of a suspended call. -/
theorem resume_spec
    {waiting : Waiting} {wakeup : Wakeup} {segment : Segment}
    (resumed :
      ledger.resume cfg requestId waiting wakeup = some segment) :
    segment.Spec cfg ledger requestId 0 waiting.contextSize := by
  rcases resume_cases resumed with ⟨_, branch⟩ | exits
  · exact branch.spec
  · obtain ⟨after, replica, same, rfl⟩ := exits.eq_place
    exact (place_zero_spec cfg after requestId waiting.contextSize .lpt
      replica (fun _ _ => trivial)).of_same same.books same.estimator

/-! ## `record_turn` -/

theorem markGroupReady_cases :
    ledger.markGroupReady requestId = ledger ∨
      ∃ groupKey, ledger.groupLeaderRid.get? requestId = some groupKey ∧
        ledger.markGroupReady requestId =
          { ledger with
            groupReady := ledger.groupReady.insert groupKey true } := by
  unfold markGroupReady
  split
  · exact .inl rfl
  · next groupKey leads =>
      split
      · exact .inr ⟨groupKey, leads, rfl⟩
      · exact .inl rfl

theorem recordTurn_toBooks (turnIndex : Int) (contextSize : ℚ) :
    (ledger.recordTurn cfg requestId turnIndex contextSize).toBooks =
      ledger.toBooks.recordTurn requestId turnIndex contextSize
        (ledger.charge cfg requestId contextSize turnIndex) := by
  unfold recordTurn
  dsimp only
  split
  · rcases markGroupReady_cases ledger requestId with
      same | ⟨groupKey, _, marked⟩
    · rw [same]
    · rw [marked]
      rfl
  · rfl

theorem recordTurn_estimator (turnIndex : Int) (contextSize : ℚ) :
    (ledger.recordTurn cfg requestId turnIndex contextSize).estimator =
      ledger.estimator := by
  unfold recordTurn
  dsimp only
  split
  · rcases markGroupReady_cases ledger requestId with
      same | ⟨groupKey, _, marked⟩
    · rw [same]
    · rw [marked]
  · rfl

end Ledger

end LlmDRl.Admission
