import LlmDRl.Admission.Accounting
import LlmDRl.Admission.Client
import LlmDRl.Admission.Effects

/-!
# The booked tokens over whole runs

Over any run of trajectories following the client protocol, in any mode, the
slack of a replica grows in one way only: an `acquire` that keeps a request
on its replica with a context smaller than the one recorded before leaves the
difference booked for good.  Everything else moves `_used` and the resident
contexts together.
-/

namespace LlmDRl.Admission

open LlmDRl.Library
open scoped NNRat

/-- How far a request in this phase is booked. -/
def Phase.Allows : Phase → Option Nat → Prop
  | .idle, turn | .acquiring, turn | .done, turn => turn = none
  | .placed n, turn | .generated n _, turn | .recorded n, turn =>
      turn = some n
  | .failed, _ => True

namespace Clients

def books (clients : Clients) : Books := clients.calls.ledger.toBooks

/-- What holds of the bookings in every reachable state. -/
structure Balanced (clients : Clients) : Prop where
  standing : ∀ requestId, ∃ turn,
    (clients.phase requestId).Allows turn ∧
      clients.books.BookedUpTo requestId turn
  sizes : clients.books.SizesNonneg
  covered : ∀ replica, 0 ≤ clients.books.slack replica
  waiting : ∀ requestId waiting,
    clients.calls.waiting requestId = some waiting →
      0 ≤ waiting.contextSize

/-- What a step leaves booked beyond the resident contexts: the shrinkage of
a request that `acquire` keeps on its replica. -/
def inPlaceShrinkage (cfg : Config) (clients : Clients)
    (event : ClientEvent) (replica : String) : ℚ :=
  match event with
  | .acquire requestId contextSize _ _ =>
      match clients.phase requestId,
          clients.books.resident.get? requestId with
      | .recorded turn, some resident =>
          if resident = replica ∧
              clients.books.StaysOn cfg requestId ((turn + 1 : Nat) : Int)
                contextSize resident then
            max 0 (clients.books.latestSize requestId - contextSize)
          else
            0
      | _, _ => 0
  | _ => 0

/-- An `acquire` that keeps a request on its replica does not carry a context
smaller than the one last recorded. -/
def GrowsInPlace (cfg : Config) (clients : Clients)
    (event : ClientEvent) : Prop :=
  match event with
  | .acquire requestId contextSize _ _ =>
      match clients.phase requestId,
          clients.books.resident.get? requestId with
      | .recorded turn, some resident =>
          clients.books.StaysOn cfg requestId ((turn + 1 : Nat) : Int)
              contextSize resident →
            clients.books.latestSize requestId ≤ contextSize
      | _, _ => True
  | _ => True

instance (cfg : Config) (clients : Clients) (event : ClientEvent) :
    Decidable (clients.GrowsInPlace cfg event) := by
  unfold GrowsInPlace
  split
  · split <;> infer_instance
  · infer_instance

theorem inPlaceShrinkage_nonneg
    (cfg : Config) (clients : Clients) (event : ClientEvent)
    (replica : String) :
    0 ≤ clients.inPlaceShrinkage cfg event replica := by
  unfold inPlaceShrinkage
  split
  · split
    · split
      · exact le_max_left _ _
      · exact le_refl _
    · exact le_refl _
  · exact le_refl _

theorem inPlaceShrinkage_eq_zero_iff
    (cfg : Config) (clients : Clients) (event : ClientEvent) :
    (∀ replica, clients.inPlaceShrinkage cfg event replica = 0) ↔
      clients.GrowsInPlace cfg event := by
  cases event with
  | acquire requestId contextSize hint clock =>
      simp only [inPlaceShrinkage, GrowsInPlace]
      split
      · next turn resident _ _ =>
          constructor
          · intro noShrinkage stays
            have here := noShrinkage resident
            rw [if_pos ⟨rfl, stays⟩] at here
            have bound :=
              le_max_right 0
                (clients.books.latestSize requestId - (contextSize : ℚ))
            linarith
          · intro grows replica
            split
            · next inPlace =>
                have bound := grows inPlace.2
                exact max_eq_left (by linarith)
            · rfl
      · simp
  | resume requestId wakeup =>
      simp [inPlaceShrinkage, GrowsInPlace]
  | generateEnds requestId succeeded =>
      simp [inPlaceShrinkage, GrowsInPlace]
  | recordTurn requestId contextSize =>
      simp [inPlaceShrinkage, GrowsInPlace]
  | done requestId =>
      simp [inPlaceShrinkage, GrowsInPlace]

end Clients

/-! ## One segment -/

namespace SegmentEffect

variable {cfg : Config} {books after : Books} {requestId : String}
  {contextSize charge : ℚ} {booked : Option Booking}

theorem sameElsewhere
    {turnIndex : Int}
    (effect :
      SegmentEffect cfg books requestId turnIndex contextSize charge
        booked after) :
    Books.SameElsewhere books after requestId := by
  cases effect with
  | unbooked absent =>
      intro other different
      exact ⟨rfl, rfl⟩
  | booked booking fits stays =>
      exact Books.sameElsewhere_book _ _ _ _ _ _
  | moved booking resident later found different moves fits =>
      intro other apart
      exact Books.sameElsewhere_book
        (books.releaseBooking requestId resident (turnIndex - 1))
        requestId booking.replica turnIndex contextSize charge other apart

theorem sizesNonneg
    {turnIndex : Int}
    (effect :
      SegmentEffect cfg books requestId turnIndex contextSize charge
        booked after)
    (nonneg : books.SizesNonneg) (sizeNonneg : 0 ≤ contextSize) :
    after.SizesNonneg := by
  cases effect with
  | unbooked absent =>
      exact nonneg
  | booked booking fits stays =>
      exact nonneg.book _ _ _ sizeNonneg _
  | moved booking resident later found different moves fits =>
      have released :
          (books.releaseBooking requestId resident
            (turnIndex - 1)).SizesNonneg := nonneg
      exact released.book _ _ _ sizeNonneg _

/-- Turn 0 books an unbooked request, or does nothing. -/
theorem first
    (effect :
      SegmentEffect cfg books requestId 0 contextSize charge booked after)
    (unbooked : books.BookedUpTo requestId none) :
    after.BookedUpTo requestId (booked.map fun _ => 0) ∧
      ∀ tested, after.slack tested = books.slack tested := by
  cases effect with
  | unbooked absent =>
      exact ⟨unbooked, fun _ => rfl⟩
  | booked booking fits stays =>
      constructor
      · apply Books.bookedUpTo_book
        simp [Books.historyOf, OrderedDict.getD, unbooked.2,
          OrderedDict.keys, OrderedDict.empty]
      · exact Books.slack_book_first unbooked booking.replica 0
          contextSize charge
  | moved booking resident later found different moves fits =>
      exact absurd later (lt_irrefl 0)

/-- A later turn keeps the slack but for what it shrinks in place. -/
theorem next
    {turn : Nat} {resident : String}
    (effect :
      SegmentEffect cfg books requestId ((turn + 1 : Nat) : Int)
        contextSize charge booked after)
    (bookedUpTo : books.BookedUpTo requestId (some turn))
    (home : books.resident.get? requestId = some resident)
    (nonneg : books.SizesNonneg)
    (covered : ∀ replica, 0 ≤ books.slack replica) :
    booked.isSome ∧ after.BookedUpTo requestId (some (turn + 1)) ∧
      ∀ tested,
        after.slack tested =
          books.slack tested +
            if resident = tested ∧
                books.StaysOn cfg requestId ((turn + 1 : Nat) : Int)
                  contextSize resident then
              max 0 (books.latestSize requestId - contextSize)
            else 0 := by
  obtain ⟨found, history, foundEq, recorded, last⟩ := bookedUpTo
  cases home.symm.trans foundEq
  have positive : (0 : Int) < ((turn + 1 : Nat) : Int) := by omega
  have bound : ∀ other ∈ (books.historyOf requestId).keys,
      other ≤ ((turn + 1 : Nat) : Int) := by
    intro other member
    rw [Books.historyOf_of_get? recorded] at member
    have upper := last.greatest other member
    omega
  cases effect with
  | unbooked absent =>
      cases (absent positive).symm.trans home
  | booked booking fits stays =>
      obtain ⟨same, stayed⟩ := stays positive resident home
      refine ⟨rfl, Books.bookedUpTo_book contextSize charge bound, ?_⟩
      intro tested
      rw [same, Books.slack_book_inPlace home recorded last]
      simp only [stayed, and_true]
  | moved booking left later foundLeft different moves fits =>
      cases home.symm.trans foundLeft
      have previous : ((turn + 1 : Nat) : Int) - 1 = (turn : Int) := by
        omega
      refine ⟨rfl, ?_, ?_⟩
      · exact Books.bookedUpTo_book contextSize charge bound
      · intro tested
        rw [previous, Books.slack_move home recorded last different
          nonneg (covered resident), if_neg (fun both => moves both.2),
          add_zero]

end SegmentEffect

/-! ## One step -/

namespace Clients

theorem bookedUpTo_of_phase
    {clients : Clients} (balanced : clients.Balanced)
    {requestId : String} {turn : Option Nat}
    (forced : ∀ other, (clients.phase requestId).Allows other →
      other = turn) :
    clients.books.BookedUpTo requestId turn := by
  obtain ⟨found, allowed, booked⟩ := balanced.standing requestId
  rw [forced found allowed] at booked
  exact booked

/-- A phase that allows one turn only says what is booked. -/
theorem Balanced.bookedUpTo
    {clients : Clients} (balanced : clients.Balanced)
    {requestId : String} {phase : Phase} {turn : Option Nat}
    (here : clients.phase requestId = phase)
    (forced : ∀ other, phase.Allows other → other = turn) :
    clients.books.BookedUpTo requestId turn := by
  apply bookedUpTo_of_phase balanced
  rw [here]
  exact forced

/-- Reassemble the invariant after a step of one trajectory. -/
theorem Balanced.of_step
    {before after : Clients} {requestId : String} {turn : Option Nat}
    {phase : Phase}
    (balanced : before.Balanced)
    (same :
      Books.SameElsewhere before.books after.books requestId)
    (phases :
      after.phase = Function.update before.phase requestId phase)
    (allowed : phase.Allows turn)
    (booked : after.books.BookedUpTo requestId turn)
    (sizes : after.books.SizesNonneg)
    (covered : ∀ replica, 0 ≤ after.books.slack replica)
    (waiting : ∀ other parked,
      after.calls.waiting other = some parked →
        before.calls.waiting other = some parked ∨
          0 ≤ parked.contextSize) :
    after.Balanced where
  standing := by
    intro other
    rw [phases]
    by_cases here : other = requestId
    · subst other
      rw [Function.update_self]
      exact ⟨turn, allowed, booked⟩
    · rw [Function.update_of_ne here]
      obtain ⟨found, kept, standing⟩ := balanced.standing other
      exact ⟨found, kept, same.bookedUpTo here standing⟩
  sizes := sizes
  covered := covered
  waiting := by
    intro other parked found
    rcases waiting other parked found with old | nonneg
    · exact balanced.waiting other parked old
    · exact nonneg

/-- The part of the step rule that every segment of `acquire` shares. -/
theorem Balanced.runSegment
    {cfg : Config} {clients : Clients} {turn : Nat}
    {requestId : String} {turnIndex : Int} {contextSize : ℚ}
    {segment : Segment} {reached : Option Nat}
    (balanced : clients.Balanced)
    (spec : segment.Spec cfg clients.calls.ledger requestId turnIndex
      contextSize)
    (sizeNonneg : 0 ≤ contextSize)
    (allowed : (Phase.afterSegment turn segment.outcome).Allows reached)
    (booked :
      segment.ledger.toBooks.BookedUpTo requestId reached)
    (covered : ∀ replica, 0 ≤ segment.ledger.toBooks.slack replica) :
    (clients.runSegment turn (requestId, turnIndex, segment)).Balanced := by
  refine balanced.of_step spec.effect.sameElsewhere rfl allowed booked
    (spec.effect.sizesNonneg balanced.sizes sizeNonneg) covered ?_
  intro other parked found
  rcases Calls.waiting_ranSegment found with
    ⟨_, suspended⟩ | ⟨_, before⟩
  · right
    rw [(spec.suspended parked suspended).2]
    exact sizeNonneg
  · exact .inl before

/-- A first-turn segment keeps the balance and every slack. -/
theorem Balanced.firstSegment
    {cfg : Config} {clients : Clients} {requestId : String}
    {contextSize : ℚ} {segment : Segment}
    (balanced : clients.Balanced)
    (spec : segment.Spec cfg clients.calls.ledger requestId 0 contextSize)
    (unbooked : clients.books.BookedUpTo requestId none)
    (sizeNonneg : 0 ≤ contextSize) :
    (clients.runSegment 0 (requestId, 0, segment)).Balanced ∧
      ∀ replica,
        segment.ledger.toBooks.slack replica =
          clients.books.slack replica := by
  obtain ⟨booked, slack⟩ := spec.effect.first unbooked
  refine ⟨balanced.runSegment spec sizeNonneg ?_ booked ?_, slack⟩
  · cases outcome : segment.outcome with
    | suspended waiting =>
        rw [(spec.suspended waiting outcome).1]
        exact rfl
    | returned placement =>
        obtain ⟨rule, bookedEq⟩ := spec.returned placement outcome
        rw [bookedEq]
        exact rfl
    | raised error =>
        trivial
  · intro replica
    rw [slack replica]
    exact balanced.covered replica

/-- A segment of a later turn keeps the balance, and the slack but for what
it shrinks in place. -/
theorem Balanced.nextSegment
    {cfg : Config} {clients : Clients} {requestId : String}
    {turn : Nat} {contextSize : ℚ≥0} {segment : Segment}
    (balanced : clients.Balanced)
    (recorded : clients.phase requestId = .recorded turn)
    (hint : SessionHint) (clock : Clock)
    (spec : segment.Spec cfg clients.calls.ledger requestId
      ((turn + 1 : Nat) : Int) contextSize) :
    (clients.runSegment (turn + 1)
        (requestId, ((turn + 1 : Nat) : Int), segment)).Balanced ∧
      ∀ replica,
        segment.ledger.toBooks.slack replica =
          clients.books.slack replica +
            clients.inPlaceShrinkage cfg
              (.acquire requestId contextSize hint clock) replica := by
  have bookedUpTo :
      clients.books.BookedUpTo requestId (some turn) :=
    balanced.bookedUpTo recorded fun _ same => same
  obtain ⟨resident, _, home, _, _⟩ := id bookedUpTo
  obtain ⟨bookedSome, after, slack⟩ :=
    spec.effect.next bookedUpTo home balanced.sizes balanced.covered
  have gained : ∀ replica,
      segment.ledger.toBooks.slack replica =
        clients.books.slack replica +
          clients.inPlaceShrinkage cfg
            (.acquire requestId contextSize hint clock) replica := by
    intro replica
    rw [slack replica]
    simp only [inPlaceShrinkage, recorded, home]
    rfl
  refine ⟨balanced.runSegment spec contextSize.coe_nonneg ?_ after ?_,
    gained⟩
  · cases outcome : segment.outcome with
    | suspended waiting =>
        rw [(spec.suspended waiting outcome).1] at bookedSome
        cases bookedSome
    | returned placement =>
        exact rfl
    | raised error =>
        trivial
  · intro replica
    rw [gained replica]
    exact add_nonneg (balanced.covered replica)
      (inPlaceShrinkage_nonneg cfg clients _ replica)

/-- Every step keeps the balance and gains exactly its shrinkage. -/
theorem Balanced.step
    {cfg : Config} {clients next : Clients} {event : ClientEvent}
    (balanced : clients.Balanced)
    (stepped : clients.step cfg event = some next) :
    next.Balanced ∧
      ∀ replica,
        next.books.slack replica =
          clients.books.slack replica +
            clients.inPlaceShrinkage cfg event replica := by
  cases stepped_of_step stepped with
  | acquired requestId contextSize hint clock turn due =>
      have spec := Ledger.acquire_spec cfg clients.calls.ledger requestId
        (hint.args turn contextSize) clock (Int.natCast_nonneg turn)
      cases phase : clients.phase requestId <;>
        simp only [phase, Phase.nextTurn, Option.some.injEq,
          reduceCtorEq] at due
      · subst turn
        have unbooked : clients.books.BookedUpTo requestId none :=
          balanced.bookedUpTo phase fun _ same => same
        obtain ⟨kept, slack⟩ :=
          balanced.firstSegment spec unbooked contextSize.coe_nonneg
        refine ⟨kept, fun replica => ?_⟩
        have noShrinkage :
            clients.inPlaceShrinkage cfg
              (.acquire requestId contextSize hint clock) replica =
                0 := by
          simp [inPlaceShrinkage, phase]
        rw [noShrinkage, add_zero]
        exact slack replica
      · subst turn
        exact balanced.nextSegment phase hint clock spec
  | resumed requestId wakeup waiting segment acquiring parked ran =>
      have spec := Ledger.resume_spec cfg clients.calls.ledger
        requestId ran
      have unbooked : clients.books.BookedUpTo requestId none :=
        balanced.bookedUpTo acquiring fun _ same => same
      obtain ⟨kept, slack⟩ :=
        balanced.firstSegment spec unbooked
          (balanced.waiting requestId waiting parked)
      refine ⟨kept, fun replica => ?_⟩
      exact (slack replica).trans (by simp [inPlaceShrinkage])
  | generated requestId succeeded turn placed =>
      have booked : clients.books.BookedUpTo requestId (some turn) :=
        balanced.bookedUpTo placed fun _ same => same
      refine ⟨balanced.of_step (fun _ _ => ⟨rfl, rfl⟩) rfl rfl booked
        balanced.sizes balanced.covered
        (fun _ _ found => .inl found), fun replica => ?_⟩
      simp [inPlaceShrinkage, books]
  | recorded requestId contextSize turn succeeded ended =>
      have booked : clients.books.BookedUpTo requestId (some turn) :=
        balanced.bookedUpTo ended fun _ same => same
      have written := Ledger.recordTurn_toBooks cfg
        clients.calls.ledger requestId turn contextSize
      have slack : ∀ replica,
          (clients.calls.ledger.recordTurn cfg requestId turn
              contextSize).toBooks.slack replica =
            clients.books.slack replica := by
        intro replica
        rw [written]
        exact Books.slack_recordTurn booked _ _ replica
      refine ⟨balanced.of_step ?_ rfl rfl ?_ ?_ ?_
        (fun _ _ found => .inl found), fun replica => ?_⟩
      · simp only [books, written]
        exact Books.sameElsewhere_recordTurn _ _ _ _ _
      · simp only [books, written]
        exact Books.bookedUpTo_recordTurn booked _ _
      · simp only [books, written]
        exact balanced.sizes.recordTurn _ _ contextSize.coe_nonneg _
      · intro replica
        exact (slack replica).symm ▸ balanced.covered replica
      · exact (slack replica).trans (by simp [inPlaceShrinkage])
  | finished requestId turn last =>
      have booked : clients.books.BookedUpTo requestId (some turn) :=
        balanced.bookedUpTo last fun _ same => same
      have slack := Books.slack_onTrajectoryDone booked
        balanced.sizes balanced.covered
      refine ⟨balanced.of_step
        (Books.sameElsewhere_onTrajectoryDone _ _) rfl rfl
        (Books.bookedUpTo_onTrajectoryDone _ _)
        (balanced.sizes.onTrajectoryDone _) ?_
        (fun _ _ found => .inl found), fun replica => ?_⟩
      · intro replica
        exact (slack replica).symm ▸ balanced.covered replica
      · exact (slack replica).trans (by simp [inPlaceShrinkage])

/-! ## Whole runs -/

theorem balanced_init (cfg : Config) : (init cfg).Balanced where
  standing := fun _ => ⟨none, rfl, rfl, rfl⟩
  sizes := by
    intro requestId history turnIndex size found
    cases found
  covered := fun _ => by
    simp [init, books, Calls.init, Ledger.init, Books.init, Books.slack,
      Books.residentTokens]
  waiting := by
    intro requestId waiting found
    cases found

theorem balanced_of_run
    {cfg : Config} {events : List ClientEvent} {final : Clients}
    (ran : run (step cfg) (init cfg) events = some final) :
    final.Balanced :=
  run_invariant (fun _ _ _ balanced stepped => (balanced.step stepped).1)
    (balanced_init cfg) ran

/-- The tokens booked on a replica cover the latest contexts of its
residents in every reachable state.  Hence a release always subtracts the
whole booking, and what is left still covers every other resident. -/
theorem used_covers_residents
    (cfg : Config) (events : List ClientEvent) (final : Clients)
    (ran : run (step cfg) (init cfg) events = some final) :
    (∀ replica,
      final.books.residentTokens replica ≤ final.books.used replica) ∧
    ∀ requestId turn resident,
      final.phase requestId = .recorded turn →
      final.books.resident.get? requestId = some resident →
        (final.books.releaseBooking requestId resident turn).used
            resident =
          final.books.used resident -
            final.books.latestSize requestId ∧
        (final.books.onTrajectoryDone requestId).used resident =
          final.books.used resident -
            final.books.latestSize requestId ∧
        final.books.othersTokens requestId resident ≤
          final.books.used resident -
            final.books.latestSize requestId := by
  have balanced := balanced_of_run ran
  constructor
  · intro replica
    have covered := balanced.covered replica
    rw [Books.slack] at covered
    linarith
  · intro requestId turn resident phase home
    have bookedUpTo :
        final.books.BookedUpTo requestId (some turn) :=
      balanced.bookedUpTo phase fun _ same => same
    obtain ⟨found, history, foundEq, recorded, last⟩ := bookedUpTo
    cases home.symm.trans foundEq
    have covered := balanced.covered resident
    refine ⟨Books.used_releaseBooking home recorded last balanced.sizes
      covered, ?_, ?_⟩
    · rw [Books.used_onTrajectoryDone home recorded last balanced.sizes
        covered, if_pos rfl]
    · rw [Books.slack, Books.residentTokens_of_resident home,
        if_pos rfl] at covered
      linarith

/-- The slack of every replica is zero exactly when no step of the run kept a
request in place with a shrunk context. -/
theorem slack_eq_zero_iff
    {cfg : Config} {events : List ClientEvent} {final : Clients}
    (ran : run (step cfg) (init cfg) events = some final) :
    (∀ replica, final.books.slack replica = 0) ↔
      StepsMeet (step cfg) (GrowsInPlace cfg) (init cfg) events := by
  have start : ∀ replica, (init cfg).books.slack replica = 0 := by
    intro replica
    simp [init, books, Calls.init, Ledger.init, Books.init, Books.slack,
      Books.residentTokens]
  have rule := fun replica =>
    run_measure_eq_iff
      (fun _ _ _ balanced stepped => (Balanced.step balanced stepped).1)
      (fun _ _ _ balanced stepped =>
        (Balanced.step balanced stepped).2 replica)
      (fun clients event =>
        inPlaceShrinkage_nonneg cfg clients event replica)
      (balanced_init cfg) ran
  constructor
  · intro noSlack
    have noShrinkage := stepsMeet_forall_iff.mp fun replica =>
      (rule replica).mp ((noSlack replica).trans (start replica).symm)
    exact noShrinkage.mono fun clients event =>
      (inPlaceShrinkage_eq_zero_iff cfg clients event).mp
  · intro grows replica
    rw [← start replica]
    apply (rule replica).mpr
    exact grows.mono fun clients event grown =>
      (inPlaceShrinkage_eq_zero_iff cfg clients event).mpr grown replica

theorem used_eq_residentTokens_add_slack
    (books : Books) (replica : String) :
    books.used replica =
      books.residentTokens replica + books.slack replica := by
  rw [Books.slack]
  ring

/-- The booked tokens stay within the resident contexts in a reachable state
exactly when no step of its run kept a request in place with a shrunk
context; once every trajectory is done, that is also exactly when nothing is
left booked. -/
theorem used_within_residents_iff
    (cfg : Config) (events : List ClientEvent) (final : Clients)
    (ran : run (step cfg) (init cfg) events = some final) :
    ((∀ replica,
        final.books.used replica ≤ final.books.residentTokens replica) ↔
      StepsMeet (step cfg) (GrowsInPlace cfg) (init cfg) events) ∧
    ((∀ requestId,
        final.phase requestId = .idle ∨ final.phase requestId = .done) →
      ((∀ replica, final.books.used replica = 0) ↔
        StepsMeet (step cfg) (GrowsInPlace cfg) (init cfg) events)) := by
  have balanced := balanced_of_run ran
  rw [← slack_eq_zero_iff ran]
  constructor
  · constructor
    · intro within replica
      have covered := balanced.covered replica
      have bound := within replica
      rw [used_eq_residentTokens_add_slack] at bound
      linarith
    · intro noSlack replica
      rw [used_eq_residentTokens_add_slack, noSlack replica, add_zero]
  · intro finished
    have noResident : ∀ requestId,
        final.books.resident.get? requestId = none := by
      intro requestId
      have unbooked : final.books.BookedUpTo requestId none := by
        rcases finished requestId with idle | done
        · exact balanced.bookedUpTo idle fun _ same => same
        · exact balanced.bookedUpTo done fun _ same => same
      exact unbooked.1
    have usedEq : ∀ replica,
        final.books.used replica = final.books.slack replica := by
      intro replica
      have empty : final.books.residentTokens replica = 0 :=
        OrderedDict.sumWhere_of_no_key _ _ _ noResident
      rw [used_eq_residentTokens_add_slack, empty, zero_add]
    simp only [usedEq]

end Clients

/-! ## A trajectory whose context shrinks -/

/-- One replica with room for everything. -/
def oneReplica : Config where
  replicas := ["A"]
  budgetTokensPerReplica := 1000
  wave1Size := 1
  initialGrowthGuess := 0
  priorWeight := 0
  maxWaitS := 0
  sqrt := id

/-- Two turns on the same replica, the second one with the given context. -/
def twoTurns (second : ℚ≥0) : List ClientEvent :=
  [.acquire "t" 10 {} ⟨0, 0⟩, .generateEnds "t" true, .recordTurn "t" 10,
    .acquire "t" second {} ⟨0, 0⟩, .generateEnds "t" true,
    .recordTurn "t" second, .done "t"]

namespace Clients

theorem used_within_residents_iff_growing :
    ∃ final,
      run (step oneReplica) (init oneReplica) (twoTurns 15) =
          some final ∧
        ∀ replica,
          final.books.used replica ≤ final.books.residentTokens replica := by
  obtain ⟨final, ran, _⟩ :=
    exists_final_of_map_eq
      (show (run (step oneReplica) (init oneReplica) (twoTurns 15)).map
        (fun _ => true) = some true by decide +kernel)
  exact ⟨final, ran,
    (used_within_residents_iff oneReplica (twoTurns 15) final ran).1.mpr
      (by decide +kernel)⟩

/-- A context of 10 followed by one of 5 leaves 5 tokens booked after the
trajectory is done. -/
theorem shrinking_trajectory_leaks :
    ∃ final,
      run (step oneReplica) (init oneReplica) (twoTurns 5) = some final ∧
        final.phase "t" = .done ∧
        final.books.residentTokens "A" = 0 ∧
        final.books.used "A" = 5 := by
  obtain ⟨final, ran, reached⟩ :=
    exists_final_of_map_eq
      (show (run (step oneReplica) (init oneReplica) (twoTurns 5)).map
        (fun final => decide (final.phase "t" = .done ∧
          final.books.residentTokens "A" = 0 ∧
          final.books.used "A" = 5)) = some true by decide +kernel)
  exact ⟨final, ran, of_decide_eq_true reached⟩

/-- Both turns have been recorded, beside another trajectory's first one. -/
def besides (second : ℚ≥0) : List ClientEvent :=
  [.acquire "u" 10 {} ⟨0, 0⟩, .generateEnds "u" true, .recordTurn "u" 10] ++
    (twoTurns second).dropLast

theorem used_covers_residents_shrinking :
    ∃ final,
      run (step oneReplica) (init oneReplica) (besides 5) = some final ∧
        (∀ replica,
          final.books.residentTokens replica ≤
            final.books.used replica) ∧
        (final.books.onTrajectoryDone "t").used "A" = 15 ∧
        final.books.othersTokens "t" "A" ≤ 15 := by
  obtain ⟨final, ran, reached⟩ :=
    exists_final_of_map_eq
      (show (run (step oneReplica) (init oneReplica) (besides 5)).map
        (fun final => decide (final.phase "t" = .recorded 1 ∧
          final.books.resident.get? "t" = some "A" ∧
          final.books.used "A" - final.books.latestSize "t" = 15)) =
          some true by decide +kernel)
  obtain ⟨recorded, home, left⟩ := of_decide_eq_true reached
  obtain ⟨covers, releases⟩ :=
    used_covers_residents oneReplica (besides 5) final ran
  obtain ⟨_, done, others⟩ := releases "t" 1 "A" recorded home
  exact ⟨final, ran, covers, done.trans left, others.trans left.le⟩

end Clients

end LlmDRl.Admission
