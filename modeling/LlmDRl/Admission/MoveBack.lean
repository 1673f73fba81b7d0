import LlmDRl.Admission.LaterTurns

/-!
# From one turn to the next after a move

A request takes its whole footprint along when it moves: the context booked
for it and what is reserved for its growth.  The free figures of the two
replicas shift by it, one up and one down, and all others stay.  Both rules of
a later turn compare the figures before that shift, so a gap that made a
request move can be turned over by the move itself.
-/

namespace LlmDRl.Admission

open LlmDRl.Library
open scoped NNRat

namespace Books

/-! ## One request's part of a free figure -/

/-- The context booked for a request and the growth reserved for it. -/
def footprint (books : Books) (requestId : String) : ℚ :=
  books.latestSize requestId + books.reserveCharge.getD requestId 0

/-- What is reserved on a replica for every other request. -/
def othersReserve (books : Books) (requestId replica : String) : ℚ :=
  (books.resident.erase requestId).sumWhere (fun r => r = replica)
    (fun other => books.reserveCharge.getD other 0)

/-- What is taken on a replica without one request. -/
def othersLoad (books : Books) (requestId replica : String) : ℚ :=
  books.slack replica + books.othersTokens requestId replica +
    books.othersReserve requestId replica

theorem reserve_of_resident
    {books : Books} {requestId resident : String}
    (home : books.resident.get? requestId = some resident)
    (replica : String) :
    books.reserve replica =
      books.othersReserve requestId replica +
        if resident = replica then
          books.reserveCharge.getD requestId 0
        else
          0 := by
  have split := OrderedDict.sumWhere_eq_erase_add books.resident
    (fun r => decide (r = replica))
    (fun other => books.reserveCharge.getD other 0) home
  simpa [reserve, othersReserve] using split

theorem estimatedFree_of_resident
    {books : Books} {requestId resident : String}
    (home : books.resident.get? requestId = some resident)
    (cfg : Config) (replica : String) :
    books.estimatedFree cfg replica =
      cfg.budgetTokensPerReplica - books.othersLoad requestId replica -
        if resident = replica then books.footprint requestId else 0 := by
  rw [estimatedFree, reserve_of_resident home, othersLoad, slack,
    residentTokens_of_resident home, footprint]
  split <;> ring

/-- Nothing has changed on any replica but for one request. -/
structure SameOthers (before after : Books) (requestId : String) :
    Prop where
  slack : ∀ replica, after.slack replica = before.slack replica
  tokens : ∀ replica,
    after.othersTokens requestId replica =
      before.othersTokens requestId replica
  reserve : ∀ replica,
    after.othersReserve requestId replica =
      before.othersReserve requestId replica

theorem SameOthers.trans
    {before middle after : Books} {requestId : String}
    (first : before.SameOthers middle requestId)
    (second : middle.SameOthers after requestId) :
    before.SameOthers after requestId where
  slack replica := (second.slack replica).trans (first.slack replica)
  tokens replica := (second.tokens replica).trans (first.tokens replica)
  reserve replica := (second.reserve replica).trans (first.reserve replica)

/-- The free figures once a request has gone from one replica to another and
has been booked there with a new footprint. -/
def freeAfterMove (cfg : Config) (books : Books)
    (requestId source target : String) (footprint : ℚ)
    (replica : String) : ℚ :=
  books.estimatedFree cfg replica +
      (if replica = source then books.footprint requestId else 0) -
    if replica = target then footprint else 0

theorem SameOthers.estimatedFree_eq
    {before after : Books} {requestId source target : String}
    (same : before.SameOthers after requestId)
    (home : before.resident.get? requestId = some source)
    (moved : after.resident.get? requestId = some target)
    (cfg : Config) :
    after.estimatedFree cfg =
      before.freeAfterMove cfg requestId source target
        (after.footprint requestId) := by
  funext replica
  have load : after.othersLoad requestId replica =
      before.othersLoad requestId replica := by
    simp only [othersLoad, same.slack, same.tokens, same.reserve]
  rw [freeAfterMove, estimatedFree_of_resident home,
    estimatedFree_of_resident moved, load]
  simp only [eq_comm (a := replica)]
  ring

/-! ## The operations of one request -/

theorem othersReserve_eq
    {before after : Books} {requestId : String}
    (erased :
      after.resident.erase requestId = before.resident.erase requestId)
    (charges : ∀ other, other ≠ requestId →
      after.reserveCharge.get? other = before.reserveCharge.get? other)
    (replica : String) :
    after.othersReserve requestId replica =
      before.othersReserve requestId replica := by
  unfold othersReserve
  rw [erased]
  apply OrderedDict.sumWhere_congr
  intro other _ found _
  have different : other ≠ requestId := by
    intro same
    subst same
    simp at found
  simp only [OrderedDict.getD, charges other different]

theorem sameOthers_move
    {books : Books} {requestId resident target : String} {turn : Nat}
    (booked : books.BookedUpTo requestId (some turn))
    (home : books.resident.get? requestId = some resident)
    (different : target ≠ resident)
    (nonneg : books.SizesNonneg)
    (covered : 0 ≤ books.slack resident) (contextSize charge : ℚ) :
    books.SameOthers
      ((books.releaseBooking requestId resident turn).book requestId target
        ((turn + 1 : Nat) : Int) contextSize charge) requestId := by
  obtain ⟨_, history, _, recorded, last⟩ := booked
  refine ⟨?_, ?_, ?_⟩
  · intro replica
    exact slack_move home recorded last different nonneg covered
      contextSize charge replica
  · intro replica
    exact othersTokens_book _ requestId target _ contextSize charge replica
  · apply othersReserve_eq
    · exact OrderedDict.erase_insert books.resident requestId target
    · intro other elsewhere
      exact OrderedDict.get?_insert_of_ne _ _ elsewhere

theorem sameOthers_recordTurn
    {books : Books} {requestId : String} {turn : Nat}
    (booked : books.BookedUpTo requestId (some turn))
    (contextSize charge : ℚ) :
    books.SameOthers
      (books.recordTurn requestId turn contextSize charge) requestId := by
  have residents := resident_recordTurn books requestId turn contextSize
    charge
  refine ⟨slack_recordTurn booked contextSize charge, ?_, ?_⟩
  · exact (sameElsewhere_recordTurn books requestId turn contextSize
      charge).othersTokens_eq (by rw [residents])
  · obtain ⟨resident, _, home, _, _⟩ := booked
    apply othersReserve_eq
    · rw [residents]
    · intro other elsewhere
      rw [recordTurn_of_resident home]
      exact OrderedDict.get?_insert_of_ne _ _ elsewhere

end Books

/-- A segment that leaves a resident request on another replica has moved its
bookings there, and no one else's. -/
theorem SegmentEffect.sameOthers
    {cfg : Config} {books after : Books} {requestId source target : String}
    {turn : Nat} {contextSize charge : ℚ} {booked : Option Booking}
    (effect :
      SegmentEffect cfg books requestId ((turn + 1 : Nat) : Int)
        contextSize charge booked after)
    (bookedUpTo : books.BookedUpTo requestId (some turn))
    (home : books.resident.get? requestId = some source)
    (moved : after.resident.get? requestId = some target)
    (away : target ≠ source)
    (nonneg : books.SizesNonneg)
    (covered : 0 ≤ books.slack source) :
    books.SameOthers after requestId := by
  have later : (0 : Int) < ((turn + 1 : Nat) : Int) :=
    Int.natCast_pos.mpr turn.succ_pos
  have homeAfter := effect.resident_eq
  cases effect with
  | unbooked absent =>
      cases (absent later).symm.trans home
  | booked booking fits stays =>
      have same : booking.replica = target :=
        Option.some.inj (homeAfter.symm.trans moved)
      exact absurd (same.symm.trans (stays later source home).1) away
  | moved booking resident later found different moves fits =>
      cases home.symm.trans found
      have previous : ((turn + 1 : Nat) : Int) - 1 = (turn : Int) := by
        omega
      rw [previous]
      exact Books.sameOthers_move bookedUpTo home different nonneg covered
        contextSize charge

/-! ## Its steps -/

namespace Clients

variable {cfg : Config} {clients next : Clients} {requestId : String}

/-- A request that is resident somewhere has a turn behind it when its next
`acquire` is due. -/
theorem recorded_of_due
    (balanced : clients.Balanced) {source : String} {turn : Nat}
    (home : clients.books.resident.get? requestId = some source)
    (due : (clients.phase requestId).nextTurn = some turn) :
    ∃ last, clients.phase requestId = .recorded last ∧
      turn = last + 1 := by
  cases phase : clients.phase requestId with
  | idle =>
      have unbooked : clients.books.BookedUpTo requestId none :=
        balanced.bookedUpTo phase fun _ same => same
      cases unbooked.1.symm.trans home
  | recorded last =>
      rw [phase] at due
      exact ⟨last, rfl, (Option.some.inj due).symm⟩
  | acquiring =>
      rw [phase] at due
      cases due
  | placed placedTurn =>
      rw [phase] at due
      cases due
  | generated generatedTurn succeeded =>
      rw [phase] at due
      cases due
  | done =>
      rw [phase] at due
      cases due
  | failed =>
      rw [phase] at due
      cases due

/-- What an `acquire` that moves a resident request leaves. -/
theorem acquire_moved
    {source target : String} {contextSize : ℚ≥0} {hint : SessionHint}
    {clock : Clock} (balanced : clients.Balanced)
    (home : clients.books.resident.get? requestId = some source)
    (stepped :
      clients.step cfg (.acquire requestId contextSize hint clock) =
        some next)
    (moved : next.books.resident.get? requestId = some target)
    (away : target ≠ source) :
    clients.books.SameOthers next.books requestId := by
  cases stepped_of_step stepped with
  | acquired _ _ _ _ turn due =>
      obtain ⟨last, phase, rfl⟩ := recorded_of_due balanced home due
      have booked := bookedUpTo_of_recorded balanced phase
      have spec := clients.calls.ledger.acquire_spec cfg requestId
        (hint.args (last + 1) contextSize) clock (Int.natCast_nonneg _)
      exact spec.effect.sameOthers booked home moved away balanced.sizes
        (balanced.covered source)

theorem generateEnds_books
    {succeeded : Bool}
    (stepped :
      clients.step cfg (.generateEnds requestId succeeded) = some next) :
    next.books = clients.books := by
  cases stepped_of_step stepped with
  | generated _ _ turn placed =>
      rfl

/-- What the `record_turn` of a request leaves. -/
theorem recordTurn_recorded
    {contextSize : ℚ≥0} (balanced : clients.Balanced)
    (stepped :
      clients.step cfg (.recordTurn requestId contextSize) = some next) :
    clients.books.SameOthers next.books requestId ∧
      next.books.resident = clients.books.resident ∧
      next.books.latestSize requestId = contextSize := by
  cases stepped_of_step stepped with
  | recorded _ _ turn succeeded ended =>
      have booked : clients.books.BookedUpTo requestId (some turn) :=
        balanced.bookedUpTo ended fun _ same => same
      have written := Ledger.recordTurn_toBooks cfg clients.calls.ledger
        requestId turn contextSize
      simp only [books] at booked ⊢
      rw [written]
      exact ⟨Books.sameOthers_recordTurn booked contextSize _,
        Books.resident_recordTurn _ _ _ _ _,
        Books.latestSize_recordTurn booked contextSize _⟩

/-- The free figures after a turn that has moved its request. -/
theorem estimatedFree_after_moved_turn
    {source target : String} {contextSize recordedSize : ℚ≥0}
    {hint : SessionHint} {clock : Clock} {succeeded : Bool}
    (balanced : clients.Balanced)
    (home : clients.books.resident.get? requestId = some source)
    (played :
      run (step cfg) clients
        [.acquire requestId contextSize hint clock,
          .generateEnds requestId succeeded,
          .recordTurn requestId recordedSize] = some next)
    (moved : next.books.resident.get? requestId = some target)
    (away : target ≠ source) :
    next.Balanced ∧
      next.books.latestSize requestId = recordedSize ∧
      next.books.estimatedFree cfg =
        clients.books.freeAfterMove cfg requestId source target
          (recordedSize +
            next.books.reserveCharge.getD requestId 0) := by
  obtain ⟨placed, acquired, played⟩ := run_cons_eq_some.mp played
  obtain ⟨generated, ended, played⟩ := run_cons_eq_some.mp played
  obtain ⟨recorded, wrote, done⟩ := run_cons_eq_some.mp played
  cases done
  have placedBalanced := (balanced.step acquired).1
  have generatedBalanced := (placedBalanced.step ended).1
  obtain ⟨recordSame, residents, latest⟩ :=
    recordTurn_recorded generatedBalanced wrote
  have generatedBooks := generateEnds_books ended
  rw [generatedBooks] at recordSame residents
  have placedHome : placed.books.resident.get? requestId = some target := by
    rw [← residents]
    exact moved
  have moveSame := acquire_moved balanced home acquired placedHome away
  refine ⟨(generatedBalanced.step wrote).1, latest, ?_⟩
  rw [(moveSame.trans recordSame).estimatedFree_eq home moved,
    Books.footprint, latest]

/-- A request that a turn has moved, with none but its own steps up to its
next `acquire`, is kept from going back, within its reservation, exactly when
no rule moves it to its old replica with the free figures the move has
left. -/
theorem not_moved_back_iff
    (cfg : Config) (events : List ClientEvent) (clients : Clients)
    (ran : run (step cfg) (init cfg) events = some clients)
    (requestId source target : String)
    (home : clients.books.resident.get? requestId = some source)
    (contextSize recordedSize nextSize : ℚ≥0) (hint nextHint : SessionHint)
    (clock nextClock : Clock) (succeeded : Bool) (recorded final : Clients)
    (played :
      run (step cfg) clients
        [.acquire requestId contextSize hint clock,
          .generateEnds requestId succeeded,
          .recordTurn requestId recordedSize] = some recorded)
    (moved : recorded.books.resident.get? requestId = some target)
    (away : target ≠ source)
    (again :
      recorded.step cfg
        (.acquire requestId nextSize nextHint nextClock) = some final) :
    ((nextSize : ℚ) ≤
        recordedSize + recorded.books.reserveCharge.getD requestId 0 →
      final.books.resident.get? requestId ≠ some source) ↔
    ((nextSize : ℚ) ≤
        recordedSize + recorded.books.reserveCharge.getD requestId 0 →
      ¬ cfg.MovesTo
        (clients.books.freeAfterMove cfg requestId source target
          (recordedSize + recorded.books.reserveCharge.getD requestId 0))
        target source nextSize (max 0 (nextSize - recordedSize))) := by
  obtain ⟨balanced, latest, free⟩ :=
    estimatedFree_after_moved_turn (balanced_of_run ran) home played moved
      away
  rw [← free, ← latest]
  refine imp_congr_right fun _ => not_congr ?_
  cases stepped_of_step again with
  | acquired _ _ _ _ turn due =>
      obtain ⟨last, phase, rfl⟩ := recorded_of_due balanced moved due
      have booked := bookedUpTo_of_recorded balanced phase
      have later : 0 < (nextHint.args (last + 1) nextSize).turnIndex :=
        Int.natCast_pos.mpr last.succ_pos
      have moves := acquire_moves_iff cfg nextClock moved later away.symm
      rw [incrementalNeed_args booked] at moves
      exact moves

/-! ## There and back -/

/-- Two replicas for a hundred tokens each, rebalanced when one has ten more
free than the other. -/
def rebalanced : Config where
  replicas := ["A", "B"]
  budgetTokensPerReplica := 100
  wave1Size := 3
  initialGrowthGuess := 1
  priorWeight := 1
  maxWaitS := 0
  rebalanceSlack := 1 / 10
  sqrt := id

/-- A turn of this size, up to its report. -/
def turnOf (contextSize : ℚ≥0) : List ClientEvent :=
  [.acquire "t" contextSize {} ⟨0, 0⟩, .generateEnds "t" true,
    .recordTurn "t" contextSize]

/-- The request shares its replica with sixty-one tokens; the other replica
has become empty. -/
def crowdedTurn : List ClientEvent :=
  [.acquire "t" 9 {} ⟨0, 0⟩, .acquire "y" 21 {} ⟨0, 0⟩,
    .acquire "x" 61 {} ⟨0, 0⟩, .generateEnds "y" true, .recordTurn "y" 21,
    .done "y", .generateEnds "t" true, .recordTurn "t" 9]

/-- The request has its replica to itself; twenty-two tokens are on the other
one. -/
def firstTurn : List ClientEvent :=
  [.acquire "t" 40 {} ⟨0, 0⟩, .acquire "o" 22 {} ⟨0, 0⟩,
    .generateEnds "t" true, .recordTurn "t" 40]

/-- A run, a turn and the next `acquire` evaluated one after the other. -/
theorem exists_stages_of_bind_eq
    {before : List ClientEvent} {turn : List ClientEvent}
    {again : ClientEvent} {test : Clients → Clients → Clients → Bool}
    (evaluated :
      ((run (step cfg) (init cfg) before).bind fun clients =>
        (run (step cfg) clients turn).bind fun recorded =>
          (recorded.step cfg again).map
            (test clients recorded)) = some true) :
    ∃ clients recorded final,
      run (step cfg) (init cfg) before = some clients ∧
        run (step cfg) clients turn = some recorded ∧
        recorded.step cfg again = some final ∧
        test clients recorded final = true := by
  obtain ⟨clients, ran, evaluated⟩ := Option.bind_eq_some_iff.mp evaluated
  obtain ⟨recorded, played, evaluated⟩ :=
    Option.bind_eq_some_iff.mp evaluated
  obtain ⟨final, stepped, tested⟩ := Option.map_eq_some_iff.mp evaluated
  exact ⟨clients, recorded, final, ran, played, stepped, tested⟩

/-- Away from the sixty-one tokens the request stays. -/
theorem not_moved_back_iff_crowded :
    ∃ clients recorded final,
      run (step rebalanced) (init rebalanced) crowdedTurn = some clients ∧
        run (step rebalanced) clients (turnOf 11) = some recorded ∧
        recorded.books.resident.get? "t" = some "B" ∧
        recorded.step rebalanced (.acquire "t" 11 {} ⟨0, 0⟩) =
          some final ∧
        final.books.resident.get? "t" ≠ some "A" := by
  obtain ⟨clients, recorded, final, ran, played, again, reached⟩ :=
    exists_stages_of_bind_eq
      (show ((run (step rebalanced) (init rebalanced) crowdedTurn).bind
          fun clients =>
        (run (step rebalanced) clients (turnOf 11)).bind fun recorded =>
          (recorded.step rebalanced (.acquire "t" 11 {} ⟨0, 0⟩)).map
            fun _ => decide (
              clients.books.resident.get? "t" = some "A" ∧
              recorded.books.resident.get? "t" = some "B" ∧
              11 ≤ 11 + recorded.books.reserveCharge.getD "t" 0 ∧
              ¬ rebalanced.MovesTo
                (clients.books.freeAfterMove rebalanced "t" "A" "B"
                  (11 + recorded.books.reserveCharge.getD "t" 0))
                "B" "A" 11 (max 0 (11 - 11)))) = some true by
        decide +kernel)
  obtain ⟨home, moved, within, stays⟩ := of_decide_eq_true reached
  exact ⟨clients, recorded, final, ran, played, moved, again,
    (not_moved_back_iff rebalanced _ clients ran "t" "A" "B" home 11 11 11
      {} {} ⟨0, 0⟩ ⟨0, 0⟩ true recorded final played moved (by decide)
      again).mpr (fun _ => stays) within⟩

/-- Forty tokens move to the replica that has twenty-two.  That leaves the gap
wider than before, the other way round, and the next turn moves them back. -/
theorem moved_there_and_back :
    ∃ clients recorded final,
      run (step rebalanced) (init rebalanced) firstTurn = some clients ∧
        run (step rebalanced) clients (turnOf 45) = some recorded ∧
        recorded.step rebalanced (.acquire "t" 46 {} ⟨0, 0⟩) =
          some final ∧
        clients.books.resident.get? "t" = some "A" ∧
        recorded.books.resident.get? "t" = some "B" ∧
        46 ≤ 45 + recorded.books.reserveCharge.getD "t" 0 ∧
        final.books.resident.get? "t" = some "A" := by
  obtain ⟨clients, recorded, final, ran, played, again, reached⟩ :=
    exists_stages_of_bind_eq
      (show ((run (step rebalanced) (init rebalanced) firstTurn).bind
          fun clients =>
          (run (step rebalanced) clients (turnOf 45)).bind fun recorded =>
            (recorded.step rebalanced (.acquire "t" 46 {} ⟨0, 0⟩)).map
              fun final => decide (
                clients.books.resident.get? "t" = some "A" ∧
                recorded.books.resident.get? "t" = some "B" ∧
                46 ≤ 45 + recorded.books.reserveCharge.getD "t" 0 ∧
                final.books.resident.get? "t" = some "A")) = some true by
        decide +kernel)
  exact ⟨clients, recorded, final, ran, played, again,
    of_decide_eq_true reached⟩

end Clients

end LlmDRl.Admission
