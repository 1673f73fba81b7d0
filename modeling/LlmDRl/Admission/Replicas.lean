import LlmDRl.Admission.Balance
import LlmDRl.Admission.LptWindow

/-!
# Residency under any calls

Whatever calls arrive, residents and LPT assignments name replicas of the
ledger, and `acquire` only raises without a booking when the ledger has no
replica at all.  A request that is resident nowhere has no history and no
reserve charge either, and its residency is its own: calls with another
request id leave it alone.
-/

namespace LlmDRl.Admission

open LlmDRl.Library

/-! ## One segment -/

/-- What a segment books is a replica of the ledger, and it fails to book
only for want of one. -/
structure Segment.Chosen (cfg : Config) (segment : Segment) : Prop where
  booked : ∀ booking, segment.booked = some booking →
    booking.replica ∈ cfg.replicas
  unbooked : ∀ error, segment.outcome = .raised error →
    segment.booked = none → cfg.replicas = []

/-- Residents and assignments are replicas of the ledger. -/
structure Ledger.Within (cfg : Config) (ledger : Ledger) : Prop where
  resident : ledger.resident.AllValues (· ∈ cfg.replicas)
  result : ledger.lptResult.AllValues (· ∈ cfg.replicas)

namespace Segment.Chosen

variable {cfg : Config}

/-- A segment that neither books nor raises. -/
theorem of_suspended (after : Ledger) (waiting : Waiting) :
    Segment.Chosen cfg ⟨after, .suspended waiting, none⟩ where
  booked := by
    intro booking impossible
    cases impossible
  unbooked := by
    intro error impossible
    cases impossible

theorem of_booked
    {segment : Segment} {replica : String} {rule : Rule}
    (booked : segment.booked = some ⟨replica, rule⟩)
    (member : replica ∈ cfg.replicas) : segment.Chosen cfg where
  booked := by
    intro booking same
    cases booked.symm.trans same
    exact member
  unbooked := by
    intro _ _ none
    cases booked.symm.trans none

theorem of_noReplica
    (after : Ledger) (outcome : Outcome) (noReplica : cfg.replicas = []) :
    Segment.Chosen cfg ⟨after, outcome, none⟩ where
  booked := by
    intro booking impossible
    cases impossible
  unbooked := fun _ _ _ => noReplica

end Segment.Chosen

namespace Ledger

variable (cfg : Config) (ledger : Ledger) (requestId : String)

theorem place_chosen
    (turnIndex : Int) (contextSize : ℚ) (rule : Rule)
    {replica : Option String}
    (member : ∀ r, replica = some r → r ∈ cfg.replicas)
    (none : replica = none → cfg.replicas = []) :
    (ledger.place cfg requestId turnIndex contextSize rule
      replica).Chosen cfg := by
  cases replica with
  | none =>
      exact .of_noReplica ledger _ (none rfl)
  | some r =>
      exact .of_booked rfl (member r rfl)

theorem place_leastLoaded_chosen
    (turnIndex : Int) (contextSize : ℚ) (rule : Rule) :
    (ledger.place cfg requestId turnIndex contextSize rule
      (ledger.leastLoaded cfg)).Chosen cfg :=
  place_chosen cfg ledger requestId turnIndex contextSize rule
    (fun _ => Books.leastLoaded_mem) Books.leastLoaded_eq_none

theorem lptFinish_chosen
    (contextSize : ℚ)
    (within : ledger.lptResult.AllValues (· ∈ cfg.replicas)) :
    (ledger.lptFinish cfg requestId contextSize).Chosen cfg := by
  unfold lptFinish
  dsimp only
  split
  · next target assigned =>
      split
      · exact place_leastLoaded_chosen cfg _ requestId 0 contextSize .lpt
      · exact .of_booked rfl (within requestId target assigned)
  · exact place_leastLoaded_chosen cfg _ requestId 0 contextSize .lpt

end Ledger

theorem Branch.chosen
    {cfg : Config} {ledger : Ledger} {requestId : String}
    {contextSize : ℚ} {sessionWork : Option ℚ} {key : Option String}
    {turnIndex : Int} {segment : Segment}
    (branch :
      Branch cfg ledger requestId contextSize sessionWork key turnIndex
        segment)
    (within : ledger.resident.AllValues (· ∈ cfg.replicas)) :
    segment.Chosen cfg := by
  cases branch with
  | placed rule replica ungrouped window member none fits stays absent =>
      refine Ledger.place_chosen cfg ledger requestId turnIndex contextSize
        rule ?_ none
      intro r same
      rcases member r same with chosen | resident
      · exact chosen
      · exact within requestId r resident
  | polled deadline =>
      exact .of_suspended _ _
  | opened collecting unset =>
      exact .of_suspended _ _
  | joined collecting set =>
      exact .of_suspended _ _
  | claimed groupKey keyed fresh noReplica =>
      exact .of_noReplica _ _ noReplica
  | led groupKey replica keyed fresh member =>
      exact .of_booked rfl member
  | held groupKey keyed =>
      exact .of_suspended _ _
  | followed groupKey leader target keyed ready leads member pulls =>
      exact .of_booked rfl (Config.mem_of_mem_othersThan member)
  | moved resident target rule later ungrouped window found member moves
      fits pulls =>
      exact .of_booked rfl (Config.mem_of_mem_othersThan member)

theorem Segment.IsBranch.chosen
    {cfg : Config} {ledger : Ledger} {requestId : String}
    {contextSize : ℚ} {sessionWork : Option ℚ} {key : Option String}
    {turnIndex : Int} {segment : Segment}
    (branch :
      segment.IsBranch cfg ledger requestId contextSize sessionWork key
        turnIndex)
    (within : ledger.resident.AllValues (· ∈ cfg.replicas)) :
    segment.Chosen cfg := by
  obtain ⟨counted, same, runs⟩ := branch
  apply runs.chosen
  rw [same.books]
  exact within

namespace Ledger

variable (cfg : Config) (ledger : Ledger) (requestId : String)

theorem acquire_chosen
    (args : AcquireArgs) (clock : Clock)
    (within : ledger.resident.AllValues (· ∈ cfg.replicas)) :
    (ledger.acquire cfg requestId args clock).Chosen cfg :=
  (acquire_isBranch cfg ledger requestId args clock).chosen within

/-- A batch cannot be placed only without a replica. -/
theorem lptSchedule_eq_none
    {cfg : Config} {ledger : Ledger}
    (unscheduled : ledger.lptSchedule cfg = none) : cfg.replicas = [] := by
  by_contra someReplica
  have target : ∀ provisional, ∃ replica,
      ledger.lptTarget cfg provisional = some replica := by
    intro provisional
    apply Option.ne_none_iff_exists'.mp
    intro none
    exact someReplica (List.argmax_eq_none.mp none)
  have someSchedule : ∃ placed, ledger.lptSchedule cfg = some placed :=
    exists_scheduleList target _ _
  obtain ⟨placed, scheduled⟩ := someSchedule
  cases scheduled.symm.trans unscheduled

theorem lptSchedule_mem
    {cfg : Config} {ledger : Ledger}
    {placed : List ((ℚ × String × ℚ) × String)}
    (scheduled : ledger.lptSchedule cfg = some placed)
    {entry : (ℚ × String × ℚ) × String} (member : entry ∈ placed) :
    entry.2 ∈ cfg.replicas := by
  obtain ⟨before, after, split⟩ := List.append_of_mem member
  exact List.argmax_mem ((longestFirst_of_lptSchedule scheduled).greedy
    before entry.1 entry.2 after split)

/-- The assignments of a batch are replicas of the ledger. -/
theorem closeWindow_result_within
    {cfg : Config} {ledger : Ledger}
    {placed : List ((ℚ × String × ℚ) × String)}
    (within : ledger.lptResult.AllValues (· ∈ cfg.replicas))
    (scheduled : ledger.lptSchedule cfg = some placed) :
    (ledger.closeWindow placed).lptResult.AllValues
      (· ∈ cfg.replicas) :=
  within.assignAll _ fun _ member => lptSchedule_mem scheduled member

theorem resume_chosen
    {waiting : Waiting} {wakeup : Wakeup} {segment : Segment}
    (within : ledger.Within cfg)
    (resumed :
      ledger.resume cfg requestId waiting wakeup = some segment) :
    segment.Chosen cfg := by
  rcases resume_cases resumed with ⟨_, branch⟩ | exits
  · exact branch.chosen within.resident
  · cases exits with
    | ended contextSize =>
        cases scheduled : ledger.lptSchedule cfg with
        | none =>
            rw [lptWindowOver_of_unscheduled scheduled]
            exact .of_noReplica _ _ (lptSchedule_eq_none scheduled)
        | some placed =>
            rw [lptWindowOver_of_scheduled scheduled]
            exact lptFinish_chosen cfg _ requestId contextSize
              (closeWindow_result_within within.result scheduled)
    | collected contextSize set =>
        exact lptFinish_chosen cfg ledger requestId contextSize
          within.result
    | timedOut contextSize =>
        exact place_leastLoaded_chosen cfg ledger requestId 0 contextSize
          .lpt

/-! ## Every step keeps the ledger within its replicas -/

namespace Within

variable {cfg : Config} {ledger : Ledger} {requestId : String}

theorem segment
    (within : ledger.Within cfg) {turnIndex : Int} {contextSize : ℚ}
    {segment : Segment}
    (spec : segment.Spec cfg ledger requestId turnIndex contextSize)
    (chosen : segment.Chosen cfg)
    (result :
      segment.ledger.lptResult.AllValues (· ∈ cfg.replicas)) :
    segment.ledger.Within cfg where
  resident := by
    intro other replica found
    by_cases here : other = requestId
    · subst other
      rw [spec.effect.resident_eq] at found
      cases booked : segment.booked with
      | none =>
          rw [booked] at found
          exact within.resident requestId replica found
      | some booking =>
          rw [booked] at found
          cases found
          exact chosen.booked booking booked
    · have same := (spec.effect.sameElsewhere other here).1
      exact within.resident other replica (same.symm.trans found)
  result := result

theorem acquire
    (within : ledger.Within cfg) (requestId : String) (args : AcquireArgs)
    (clock : Clock) :
    (ledger.acquire cfg requestId args clock).ledger.Within cfg := by
  refine within.segment
    (acquire_spec_anyTurn cfg ledger requestId args clock)
    (acquire_chosen cfg ledger requestId args clock within.resident) ?_
  have result :
      (ledger.acquire cfg requestId args clock).ledger.lptResult =
        ledger.lptResult :=
    (acquire_lpt cfg ledger requestId args clock).result_eq.1
  rw [result]
  exact within.result

theorem resume
    (within : ledger.Within cfg) {waiting : Waiting} {wakeup : Wakeup}
    {segment : Segment}
    (resumed :
      ledger.resume cfg requestId waiting wakeup = some segment) :
    segment.ledger.Within cfg := by
  refine within.segment (resume_spec cfg ledger requestId resumed)
    (resume_chosen cfg ledger requestId within resumed) ?_
  rcases resume_lpt resumed with ⟨_, lpt⟩ | exits
  · have result : segment.ledger.lptResult = ledger.lptResult :=
      lpt.result_eq.1
    rw [result]
    exact within.result
  · have finished : ∀ (closing : Ledger) (size : ℚ),
        closing.lptResult.AllValues (· ∈ cfg.replicas) →
          (closing.lptFinish cfg requestId
            size).ledger.lptResult.AllValues (· ∈ cfg.replicas) := by
      intro closing size all
      rw [lptResult_lptFinish]
      exact all.erase requestId
    cases exits with
    | ended contextSize =>
        cases scheduled : ledger.lptSchedule cfg with
        | none =>
            rw [lptWindowOver_of_unscheduled scheduled]
            exact within.result
        | some placed =>
            rw [lptWindowOver_of_scheduled scheduled]
            exact finished _ contextSize
              (closeWindow_result_within within.result scheduled)
    | collected contextSize set =>
        exact finished ledger contextSize within.result
    | timedOut contextSize =>
        rw [lptResult_place]
        exact within.result

theorem recordTurn
    (within : ledger.Within cfg) (requestId : String) (turnIndex : Int)
    (contextSize : ℚ) :
    (ledger.recordTurn cfg requestId turnIndex contextSize).Within cfg where
  resident := by
    rw [recordTurn_toBooks, Books.resident_recordTurn]
    exact within.resident
  result := by
    rw [lptResult_recordTurn]
    exact within.result

theorem onTrajectoryDone
    (within : ledger.Within cfg) (requestId : String) :
    (ledger.onTrajectoryDone requestId).Within cfg where
  resident := by
    have erased :
        (ledger.onTrajectoryDone requestId).resident =
          ledger.resident.erase requestId :=
      (Books.popped_onTrajectoryDone ledger.toBooks requestId).1
    rw [erased]
    exact within.resident.erase requestId
  result := within.result

theorem init (cfg : Config) : (Ledger.init cfg).Within cfg where
  resident := OrderedDict.allValues_empty _
  result := OrderedDict.allValues_empty _

end Within

end Ledger

/-! ## History and reserve charge follow residency -/

namespace Books

/-- Nothing is kept for a request that is resident nowhere. -/
def Tracked (books : Books) : Prop :=
  ∀ requestId, books.resident.get? requestId = none →
    books.history.get? requestId = none ∧
      books.reserveCharge.get? requestId = none

/-- Nothing is kept for the request. -/
def HoldsNothing (books : Books) (requestId : String) : Prop :=
  books.resident.get? requestId = none ∧
    books.history.get? requestId = none ∧
      books.reserveCharge.get? requestId = none

instance (books : Books) (requestId : String) :
    Decidable (books.HoldsNothing requestId) :=
  inferInstanceAs (Decidable (_ ∧ _))

theorem holdsNothing_iff
    {books : Books} (tracked : books.Tracked) (requestId : String) :
    books.HoldsNothing requestId ↔
      books.resident.get? requestId = none := by
  constructor
  · intro nothing
    exact nothing.1
  · intro absent
    exact ⟨absent, tracked requestId absent⟩

namespace Tracked

variable {books : Books}

theorem init : Books.init.Tracked := fun _ _ => ⟨rfl, rfl⟩

theorem book
    (tracked : books.Tracked) (requestId replica : String)
    (turnIndex : Int) (contextSize charge : ℚ) :
    (books.book requestId replica turnIndex contextSize charge).Tracked := by
  intro other absent
  simp only [Books.book, OrderedDict.get?_insert] at absent ⊢
  split at absent
  · cases absent
  · next different =>
      rw [if_neg different, if_neg different]
      exact tracked other absent

theorem effect
    (tracked : books.Tracked) {cfg : Config} {requestId : String}
    {turnIndex : Int} {contextSize charge : ℚ} {booked : Option Booking}
    {after : Books}
    (effect :
      SegmentEffect cfg books requestId turnIndex contextSize charge booked
        after) :
    after.Tracked := by
  cases effect with
  | unbooked absent =>
      exact tracked
  | booked booking fits stays =>
      exact tracked.book requestId booking.replica turnIndex contextSize
        charge
  | moved booking resident later found different moves fits =>
      have released :
          (books.releaseBooking requestId resident
            (turnIndex - 1)).Tracked := tracked
      exact released.book requestId booking.replica turnIndex contextSize
        charge

theorem recordTurn
    (tracked : books.Tracked) (requestId : String) (turnIndex : Int)
    (contextSize charge : ℚ) :
    (books.recordTurn requestId turnIndex contextSize charge).Tracked := by
  unfold Books.recordTurn
  split
  · exact tracked
  · next replica home =>
      intro other absent
      have different : other ≠ requestId := by
        intro same
        subst other
        cases home.symm.trans absent
      obtain ⟨history, reserve⟩ := tracked other absent
      exact ⟨(OrderedDict.get?_insert_of_ne _ _ different).trans history,
        (OrderedDict.get?_insert_of_ne _ _ different).trans reserve⟩

theorem onTrajectoryDone
    (tracked : books.Tracked) (requestId : String) :
    (books.onTrajectoryDone requestId).Tracked := by
  obtain ⟨resident, history, reserve⟩ :=
    popped_onTrajectoryDone books requestId
  intro other absent
  rw [resident] at absent
  rw [history, reserve]
  simp only [OrderedDict.get?_erase] at absent ⊢
  split
  · exact ⟨rfl, rfl⟩
  · next different =>
      rw [if_neg different] at absent
      exact tracked other absent

end Tracked

end Books

/-! ## Runs of any calls -/

def Call.requestId : Call → String
  | .acquire requestId _ _ => requestId
  | .resume requestId _ => requestId
  | .recordTurn requestId _ _ => requestId
  | .onTrajectoryDone requestId => requestId

namespace Calls

/-- What holds of residents after any calls. -/
structure Residing (cfg : Config) (calls : Calls) : Prop where
  within : calls.ledger.Within cfg
  tracked : calls.ledger.toBooks.Tracked

variable {cfg : Config} {calls next : Calls}

theorem residing_init (cfg : Config) : (init cfg).Residing cfg where
  within := Ledger.Within.init cfg
  tracked := Books.Tracked.init

/-- What a segment started by any call does to the bookings. -/
theorem Started.spec
    {call : Call} {requestId : String} {turnIndex : Int}
    {segment : Segment}
    (started : calls.Started cfg call requestId turnIndex segment) :
    ∃ contextSize,
      segment.Spec cfg calls.ledger requestId (max 0 turnIndex)
        contextSize := by
  cases started with
  | acquired _ args clock free =>
      exact ⟨args.contextSize,
        Ledger.acquire_spec_anyTurn cfg calls.ledger requestId args clock⟩
  | resumed _ wakeup waiting _ parked ran =>
      exact ⟨waiting.contextSize,
        Ledger.resume_spec cfg calls.ledger requestId ran⟩

theorem Residing.chosen
    (residing : calls.Residing cfg) {call : Call} {requestId : String}
    {turnIndex : Int} {segment : Segment}
    (started : calls.Started cfg call requestId turnIndex segment) :
    segment.Chosen cfg := by
  cases started with
  | acquired _ args clock free =>
      exact Ledger.acquire_chosen cfg calls.ledger requestId args clock
        residing.within.resident
  | resumed _ wakeup waiting _ parked ran =>
      exact Ledger.resume_chosen cfg calls.ledger requestId
        residing.within ran

theorem Residing.ranSegment
    (residing : calls.Residing cfg) {call : Call} {requestId : String}
    {turnIndex : Int} {segment : Segment}
    (started : calls.Started cfg call requestId turnIndex segment) :
    (calls.ranSegment requestId turnIndex segment).Residing cfg where
  within := by
    cases started with
    | acquired _ args clock free =>
        exact residing.within.acquire requestId args clock
    | resumed _ wakeup waiting _ parked ran =>
        exact residing.within.resume ran
  tracked := by
    obtain ⟨contextSize, spec⟩ := started.spec
    exact residing.tracked.effect spec.effect

theorem Residing.recordTurn
    (residing : calls.Residing cfg) (requestId : String) (turnIndex : Int)
    (contextSize : ℚ) (log : List Notice) :
    Residing cfg
      { calls with
        ledger := calls.ledger.recordTurn cfg requestId turnIndex
          contextSize
        log := log } where
  within := residing.within.recordTurn requestId turnIndex contextSize
  tracked := by
    rw [Ledger.recordTurn_toBooks]
    exact residing.tracked.recordTurn requestId turnIndex contextSize _

theorem Residing.onTrajectoryDone
    (residing : calls.Residing cfg) (requestId : String)
    (log : List Notice) :
    Residing cfg
      { calls with
        ledger := calls.ledger.onTrajectoryDone requestId
        log := log } where
  within := residing.within.onTrajectoryDone requestId
  tracked := residing.tracked.onTrajectoryDone requestId

/-- Everything a call can be, with the ledger it leaves. -/
theorem step_cases
    {call : Call} (stepped : calls.step cfg call = some next) :
    (∃ requestId turnIndex segment,
      calls.Started cfg call requestId turnIndex segment ∧
        next = calls.ranSegment requestId turnIndex segment) ∨
    (∃ requestId turnIndex contextSize,
      call = .recordTurn requestId turnIndex contextSize ∧
        next =
          { calls with
            ledger := calls.ledger.recordTurn cfg requestId turnIndex
              contextSize
            log := .recorded requestId turnIndex :: calls.log }) ∨
    ∃ requestId,
      call = .onTrajectoryDone requestId ∧
        next =
          { calls with
            ledger := calls.ledger.onTrajectoryDone requestId
            log := .finished requestId :: calls.log } := by
  have ranSegment :
      (calls.segmentOf cfg call).map
          (fun ran => calls.ranSegment ran.1 ran.2.1 ran.2.2) =
        some next →
      ∃ requestId turnIndex segment,
        calls.Started cfg call requestId turnIndex segment ∧
          next = calls.ranSegment requestId turnIndex segment := by
    intro ran
    obtain ⟨⟨requestId, turnIndex, segment⟩, found, same⟩ :=
      Option.map_eq_some_iff.mp ran
    exact ⟨requestId, turnIndex, segment, started_of_segmentOf found,
      same.symm⟩
  cases call with
  | acquire requestId args clock =>
      exact .inl (ranSegment stepped)
  | resume requestId wakeup =>
      exact .inl (ranSegment stepped)
  | recordTurn requestId turnIndex contextSize =>
      exact .inr (.inl
        ⟨requestId, turnIndex, contextSize, rfl,
          (Option.some.inj stepped).symm⟩)
  | onTrajectoryDone requestId =>
      exact .inr (.inr
        ⟨requestId, rfl, (Option.some.inj stepped).symm⟩)

theorem Residing.step
    (residing : calls.Residing cfg) {call : Call}
    (stepped : calls.step cfg call = some next) :
    next.Residing cfg := by
  rcases step_cases stepped with
    ⟨requestId, turnIndex, segment, started, rfl⟩ |
    ⟨requestId, turnIndex, contextSize, _, rfl⟩ |
    ⟨requestId, _, rfl⟩
  · exact residing.ranSegment started
  · exact residing.recordTurn requestId turnIndex contextSize _
  · exact residing.onTrajectoryDone requestId _

/-- A call leaves the residency of every other request alone. -/
theorem resident_of_other
    {call : Call} {other : String}
    (stepped : calls.step cfg call = some next)
    (different : other ≠ call.requestId) :
    next.ledger.resident.get? other =
      calls.ledger.resident.get? other := by
  rcases step_cases stepped with
    ⟨requestId, turnIndex, segment, started, rfl⟩ |
    ⟨requestId, turnIndex, contextSize, rfl, rfl⟩ |
    ⟨requestId, rfl, rfl⟩
  · obtain ⟨contextSize, spec⟩ := started.spec
    have caller : requestId = call.requestId := by
      cases started <;> rfl
    rw [← caller] at different
    exact (spec.effect.sameElsewhere other different).1
  · have written := Ledger.recordTurn_toBooks cfg calls.ledger requestId
      turnIndex contextSize
    simp only [written, Books.resident_recordTurn]
  · exact (Books.sameElsewhere_onTrajectoryDone calls.ledger.toBooks
      requestId other different).1

end Calls

end LlmDRl.Admission
