import LlmDRl.Admission.MoveBack
import LlmDRl.Library.Makespan

/-!
# The opening of a rollout

Until the first turn has been recorded, every session is placed on the replica
with the most free budget, most of them without a look at how much that is.
With neither groups nor a window that is list scheduling in the order of
arrival, each session taking its context and the growth reserved for it.
-/

namespace LlmDRl.Admission

open LlmDRl.Library
open scoped NNRat

/-! ## What a booking takes -/

namespace Books

/-- What is taken from a replica's budget. -/
def taken (books : Books) (replica : String) : ℚ :=
  books.used replica + books.reserve replica

theorem estimatedFree_eq_sub_taken
    (cfg : Config) (books : Books) (replica : String) :
    books.estimatedFree cfg replica =
      cfg.budgetTokensPerReplica - books.taken replica := by
  rw [estimatedFree, taken]
  ring

/-- The replica with the most free budget has the least taken. -/
theorem taken_leastLoaded_le
    {cfg : Config} {books : Books} {replica : String}
    (least : books.leastLoaded cfg = some replica)
    {other : String} (listed : other ∈ cfg.replicas) :
    books.taken replica ≤ books.taken other := by
  have most := (List.argmax_eq_some_iff.mp least).2.1 other listed
  rw [estimatedFree_eq_sub_taken, estimatedFree_eq_sub_taken] at most
  linarith

theorem othersReserve_of_unbooked
    {books : Books} {requestId : String}
    (unbooked : books.resident.get? requestId = none) (replica : String) :
    books.othersReserve requestId replica = books.reserve replica := by
  unfold othersReserve reserve
  rw [OrderedDict.erase_of_get?_eq_none books.resident requestId unbooked]

/-- A first booking takes the context and the charge. -/
theorem taken_book_first
    {books : Books} {requestId : String}
    (unbooked : books.BookedUpTo requestId none) (replica : String)
    (contextSize charge : ℚ) :
    (books.book requestId replica 0 contextSize charge).taken =
      Function.update books.taken replica
        (books.taken replica + (contextSize + charge)) := by
  have home :
      (books.book requestId replica 0 contextSize charge).resident.get?
        requestId = some replica :=
    OrderedDict.get?_insert_self _ _ _
  have cached :
      (books.book requestId replica 0 contextSize
        charge).reserveCharge.getD requestId 0 = charge :=
    OrderedDict.getD_insert_self _ _ _ _
  have others : ∀ tested,
      (books.book requestId replica 0 contextSize charge).othersReserve
        requestId tested = books.reserve tested := by
    intro tested
    rw [← othersReserve_of_unbooked unbooked.1]
    apply othersReserve_eq
    · exact OrderedDict.erase_insert books.resident requestId replica
    · intro other elsewhere
      exact OrderedDict.get?_insert_of_ne _ _ elsewhere
  funext tested
  rw [taken, used_book, bookedTokens_of_unbooked unbooked,
    reserve_of_resident home, others, cached]
  by_cases here : replica = tested
  · subst here
    rw [Function.update_self, taken, if_pos rfl, if_pos rfl]
    ring
  · rw [Function.update_of_ne (Ne.symm here), taken, if_neg here,
      if_neg here]
    ring

theorem footprint_book_first
    {books : Books} {requestId : String}
    (unbooked : books.BookedUpTo requestId none) (replica : String)
    (contextSize charge : ℚ) :
    (books.book requestId replica 0 contextSize charge).footprint
      requestId = contextSize + charge := by
  have size :
      (books.book requestId replica ((0 : Nat) : Int) contextSize
        charge).latestSize requestId = contextSize := by
    apply latestSize_book
    simp [historyOf, OrderedDict.getD, unbooked.2, OrderedDict.keys,
      OrderedDict.empty]
  have cached :
      (books.book requestId replica 0 contextSize
        charge).reserveCharge.getD requestId 0 = charge :=
    OrderedDict.getD_insert_self _ _ _ _
  rw [footprint, cached]
  exact congrArg (· + charge) size

theorem footprint_book_of_ne
    {requestId other : String} (different : other ≠ requestId)
    (books : Books) (replica : String) (contextSize charge : ℚ) :
    (books.book requestId replica 0 contextSize charge).footprint other =
      books.footprint other := by
  have size := (sameElsewhere_book books requestId replica 0 contextSize
    charge).latestSize_eq different
  have cached :
      (books.book requestId replica 0 contextSize
        charge).reserveCharge.getD other 0 =
          books.reserveCharge.getD other 0 :=
    OrderedDict.getD_insert_of_ne _ _ _ different
  rw [footprint, size, cached, footprint]

end Books

/-! ## One segment -/

/-- How a segment of turn 0 ends outside of groups and window: it waits, it
raises for want of a replica, or it books where the most budget is free. -/
inductive Segment.Greedy (cfg : Config) (ledger : Ledger)
    (requestId : String) (contextSize : ℚ) (segment : Segment) : Prop
  | waits (deadline : ℚ)
      (same : segment.ledger.toBooks = ledger.toBooks)
      (polls : segment.outcome = .suspended (.poll contextSize deadline))
  | raises (error : PyError)
      (same : segment.ledger.toBooks = ledger.toBooks)
      (raised : segment.outcome = .raised error)
  | books (replica : String) (counted : Ledger)
      (estimator : counted.estimator = ledger.estimator)
      (least : ledger.toBooks.leastLoaded cfg = some replica)
      (written :
        segment.ledger.toBooks =
          ledger.toBooks.book requestId replica 0 contextSize
            (counted.charge cfg requestId contextSize 0))
      (returned : segment.outcome = .returned ⟨replica, none⟩)

/-- Of the ledger only the bookings and the estimator matter. -/
theorem Segment.Greedy.of_same
    {cfg : Config} {ledger earlier : Ledger} {requestId : String}
    {contextSize : ℚ} {segment : Segment}
    (greedy : segment.Greedy cfg ledger requestId contextSize)
    (books : ledger.toBooks = earlier.toBooks)
    (estimator : ledger.estimator = earlier.estimator) :
    segment.Greedy cfg earlier requestId contextSize := by
  cases greedy with
  | waits deadline same polls =>
      exact .waits deadline (same.trans books) polls
  | raises error same raised =>
      exact .raises error (same.trans books) raised
  | books replica counted sameEstimator least written returned =>
      exact .books replica counted (sameEstimator.trans estimator)
        (books ▸ least) (books ▸ written) returned

namespace Ledger

variable (cfg : Config) (ledger : Ledger) (requestId : String)

theorem place_leastLoaded_greedy (contextSize : ℚ) (rule : Rule) :
    (ledger.place cfg requestId 0 contextSize rule
      (ledger.leastLoaded cfg)).Greedy cfg ledger requestId contextSize := by
  cases least : ledger.toBooks.leastLoaded cfg with
  | none =>
      exact .raises .emptyMax rfl rfl
  | some replica =>
      exact .books replica ledger rfl least rfl rfl

theorem gateLoop_greedy (contextSize deadline now : ℚ) :
    (ledger.gateLoop cfg requestId contextSize deadline now).Greedy cfg
      ledger requestId contextSize := by
  unfold gateLoop
  split
  · cases least : ledger.toBooks.leastLoaded cfg with
    | none =>
        exact .raises .emptyMax rfl rfl
    | some candidate =>
        dsimp only
        split
        · exact .books candidate ledger rfl least rfl rfl
        · exact .waits deadline rfl rfl
  · exact (place_leastLoaded_greedy cfg
      { ledger with forcedAdmissions := ledger.forcedAdmissions + 1 }
      requestId contextSize .forced).of_same rfl rfl

theorem admitGated_greedy (contextSize : ℚ) (clock : Clock) :
    (ledger.admitGated cfg requestId contextSize clock).Greedy cfg ledger
      requestId contextSize := by
  let counted : Ledger :=
    { ledger with admittedCount := ledger.admittedCount + 1 }
  unfold admitGated
  dsimp only
  split
  · exact (place_leastLoaded_greedy cfg counted requestId contextSize
      .wave1).of_same rfl rfl
  · exact (gateLoop_greedy cfg counted requestId contextSize _
      clock.atTest).of_same rfl rfl

/-- The first segment of turn 0, outside of groups and window. -/
theorem acquire_greedy
    (unstaggered : cfg.staggerGroups = false)
    (noWindow : ¬ 0 < cfg.lptWindowS) (args : AcquireArgs)
    (first : ¬ 0 < args.turnIndex) (clock : Clock) :
    (ledger.acquire cfg requestId args clock).Greedy cfg ledger requestId
      args.contextSize := by
  have hinted :=
    hintSessionFinal_counted ledger requestId args.sessionFinal
  have admitted :
      ledger.acquire cfg requestId args clock =
        (ledger.hintSessionFinal requestId args.sessionFinal).admitGated
          cfg requestId args.contextSize clock := by
    unfold acquire acquireUngrouped
    dsimp only
    rw [if_neg first, if_neg noWindow]
    cases args.groupKey with
    | none =>
        rfl
    | some groupKey =>
        simp [unstaggered]
  rw [admitted]
  exact (admitGated_greedy cfg _ requestId args.contextSize clock).of_same
    hinted.books hinted.estimator

/-- The next segment of a call that waits for room. -/
theorem resume_greedy
    {contextSize deadline : ℚ} {wakeup : Wakeup} {segment : Segment}
    (resumed :
      ledger.resume cfg requestId (.poll contextSize deadline) wakeup =
        some segment) :
    segment.Greedy cfg ledger requestId contextSize := by
  cases wakeup <;> simp only [resume, Option.some.injEq,
    reduceCtorEq] at resumed
  subst segment
  exact gateLoop_greedy cfg ledger requestId contextSize deadline _

/-- Before the first observation the growth reserved is the initial guess, or
what the hint leaves. -/
theorem charge_init_nonneg
    {cfg : Config} {ledger : Ledger}
    (guessNonneg : 0 ≤ cfg.initialGrowthGuess)
    (estimator : ledger.estimator = (Ledger.init cfg).estimator)
    (requestId : String) (contextSize : ℚ) (turnIndex : Int) :
    0 ≤ ledger.charge cfg requestId contextSize turnIndex := by
  unfold charge
  split
  · exact le_max_left _ _
  · rw [estimator, GrowthEstimator.estimate]
    have noMargin : ∀ key,
        (Ledger.init cfg).estimator.std cfg.sqrt key = 0 := by
      intro key
      simp [GrowthEstimator.std, Ledger.init, GrowthEstimator.init,
        OrderedDict.getD]
    rw [noMargin, mul_zero, add_zero]
    exact guessNonneg

end Ledger

/-! ## The opening -/

namespace Clients

/-- What holds until the first turn has been recorded. -/
structure Opening (cfg : Config) (clients : Clients) : Prop where
  balanced : clients.Balanced
  estimator :
    clients.calls.ledger.estimator = (Ledger.init cfg).estimator
  cached : clients.books.reserveCharge.AllValues (0 ≤ ·)
  listed : clients.books.resident.AllValues (· ∈ cfg.replicas)
  settled : ∀ replica, clients.books.slack replica = 0
  unrecorded : ∀ requestId turn, clients.phase requestId ≠ .recorded turn
  polling : ∀ requestId waiting,
    clients.calls.waiting requestId = some waiting →
      ∃ contextSize deadline, waiting = .poll contextSize deadline
  spread : ∀ longest, 0 ≤ longest →
    (∀ requestId replica,
      clients.books.resident.get? requestId = some replica →
        clients.books.footprint requestId ≤ longest) →
    Spread cfg.replicas.toFinset clients.books.taken longest

theorem opening_init (cfg : Config) : (init cfg).Opening cfg where
  balanced := balanced_init cfg
  estimator := rfl
  cached := OrderedDict.allValues_empty _
  listed := OrderedDict.allValues_empty _
  settled := by
    intro replica
    simp [init, books, Calls.init, Ledger.init, Books.init, Books.slack,
      Books.residentTokens]
  unrecorded := by
    intro requestId turn impossible
    cases impossible
  polling := by
    intro requestId waiting found
    cases found
  spread := by
    intro longest nonneg _
    have nothing : (init cfg).books.taken = fun _ => 0 := by
      funext replica
      simp [init, books, Calls.init, Ledger.init, Books.init, Books.taken,
        Books.reserve]
    rw [nothing]
    exact spread_zero nonneg

variable {cfg : Config} {clients next : Clients}

/-- A greedy segment of a session that holds no booking yet. -/
theorem Opening.segment
    (opening : clients.Opening cfg)
    (guessNonneg : 0 ≤ cfg.initialGrowthGuess)
    {requestId : String} {turnIndex : Int} {contextSize : ℚ}
    {segment : Segment}
    (greedy :
      segment.Greedy cfg clients.calls.ledger requestId contextSize)
    (estimator :
      segment.ledger.estimator = clients.calls.ledger.estimator)
    (unbooked : clients.books.BookedUpTo requestId none)
    (sizeNonneg : 0 ≤ contextSize)
    (balanced :
      (clients.runSegment 0 (requestId, turnIndex, segment)).Balanced) :
    (clients.runSegment 0 (requestId, turnIndex, segment)).Opening cfg := by
  have unrecorded : ∀ other turn,
      (clients.runSegment 0 (requestId, turnIndex, segment)).phase other ≠
        .recorded turn := by
    intro other turn
    by_cases here : other = requestId
    · subst here
      have own : (clients.runSegment 0 (other, turnIndex, segment)).phase
          other = .afterSegment 0 segment.outcome :=
        Function.update_self _ _ _
      rw [own]
      cases segment.outcome <;> simp [Phase.afterSegment]
    · have kept : (clients.runSegment 0
          (requestId, turnIndex, segment)).phase other =
            clients.phase other :=
        Function.update_of_ne here _ _
      rw [kept]
      exact opening.unrecorded other turn
  have polling : ∀ other waiting,
      (clients.runSegment 0 (requestId, turnIndex,
        segment)).calls.waiting other = some waiting →
        ∃ contextSize deadline, waiting = .poll contextSize deadline := by
    intro other waiting found
    rcases Calls.waiting_ranSegment found with
      ⟨_, suspended⟩ | ⟨_, before⟩
    · cases greedy with
      | waits deadline same polls =>
          cases suspended.symm.trans polls
          exact ⟨_, _, rfl⟩
      | raises error same raised =>
          cases suspended.symm.trans raised
      | books replica counted estimatorEq least written returned =>
          cases suspended.symm.trans returned
    · exact opening.polling other waiting before
  have unchanged : segment.ledger.toBooks = clients.books →
      (clients.runSegment 0 (requestId, turnIndex, segment)).Opening cfg := by
    intro same
    have booksEq : (clients.runSegment 0
        (requestId, turnIndex, segment)).books = clients.books := same
    exact
      { balanced := balanced
        estimator := estimator.trans opening.estimator
        cached := booksEq ▸ opening.cached
        listed := booksEq ▸ opening.listed
        settled := booksEq ▸ opening.settled
        unrecorded := unrecorded
        polling := polling
        spread := booksEq ▸ opening.spread }
  cases greedy with
  | waits deadline same polls =>
      exact unchanged same
  | raises error same raised =>
      exact unchanged same
  | books replica counted estimatorEq least written returned =>
      have chargeNonneg := Ledger.charge_init_nonneg guessNonneg
        (estimatorEq.trans opening.estimator) requestId contextSize 0
      generalize counted.charge cfg requestId contextSize 0 = charge
        at written chargeNonneg
      have booksEq : (clients.runSegment 0
          (requestId, turnIndex, segment)).books =
            clients.books.book requestId replica 0 contextSize charge :=
        written
      refine
        { balanced := balanced
          estimator := estimator.trans opening.estimator
          cached := ?_
          listed := ?_
          settled := ?_
          unrecorded := unrecorded
          polling := polling
          spread := ?_ }
      · rw [booksEq]
        exact opening.cached.insert requestId chargeNonneg
      · rw [booksEq]
        exact opening.listed.insert requestId (Books.leastLoaded_mem least)
      · intro tested
        rw [booksEq]
        exact (Books.slack_book_first unbooked replica 0 contextSize charge
          tested).trans (opening.settled tested)
      · intro longest nonneg short
        rw [booksEq] at short ⊢
        rw [Books.taken_book_first unbooked]
        have own := short requestId replica
          (OrderedDict.get?_insert_self _ _ _)
        rw [Books.footprint_book_first unbooked] at own
        have earlier : Spread cfg.replicas.toFinset clients.books.taken
            longest := by
          apply opening.spread longest nonneg
          intro other home found
          have different : other ≠ requestId := by
            rintro rfl
            cases unbooked.1.symm.trans found
          rw [← Books.footprint_book_of_ne different clients.books replica
            contextSize charge]
          exact short other home
            ((OrderedDict.get?_insert_of_ne _ _ different).trans found)
        have listed := List.mem_toFinset.mpr (Books.leastLoaded_mem least)
        exact earlier.place listed
          (fun other member =>
            Books.taken_leastLoaded_le least (List.mem_toFinset.mp member))
          (add_nonneg sizeNonneg chargeNonneg) own

/-- Every step but the recording of a turn. -/
theorem Opening.step
    (opening : clients.Opening cfg)
    (unstaggered : cfg.staggerGroups = false)
    (noWindow : ¬ 0 < cfg.lptWindowS)
    (guessNonneg : 0 ≤ cfg.initialGrowthGuess) {event : ClientEvent}
    (unrecorded : ∀ requestId contextSize,
      event ≠ .recordTurn requestId contextSize)
    (stepped : clients.step cfg event = some next) :
    next.Opening cfg := by
  have balanced := (opening.balanced.step stepped).1
  cases stepped_of_step stepped with
  | acquired requestId contextSize hint clock turn due =>
      cases phase : clients.phase requestId with
      | idle =>
          rw [phase] at due
          obtain rfl := Option.some.inj due
          have spec := clients.calls.ledger.acquire_spec cfg requestId
            (hint.args 0 contextSize) clock (Int.natCast_nonneg 0)
          exact opening.segment guessNonneg
            (clients.calls.ledger.acquire_greedy cfg requestId unstaggered
              noWindow (hint.args 0 contextSize) (lt_irrefl 0) clock)
            spec.estimator
            (opening.balanced.bookedUpTo phase fun _ same => same)
            contextSize.coe_nonneg balanced
      | recorded last =>
          exact absurd phase (opening.unrecorded requestId last)
      | acquiring =>
          rw [phase] at due
          cases due
      | placed placedTurn =>
          rw [phase] at due
          cases due
      | generated generatedTurn succeeded =>
          rw [phase] at due
          cases due
      | done =>
          rw [phase] at due
          cases due
      | failed =>
          rw [phase] at due
          cases due
  | resumed requestId wakeup waiting segment acquiring parked ran =>
      obtain ⟨contextSize, deadline, rfl⟩ :=
        opening.polling requestId waiting parked
      have spec := clients.calls.ledger.resume_spec cfg requestId ran
      exact opening.segment guessNonneg
        (clients.calls.ledger.resume_greedy cfg requestId ran)
        spec.estimator
        (opening.balanced.bookedUpTo acquiring fun _ same => same)
        (opening.balanced.waiting requestId _ parked) balanced
  | generated requestId succeeded turn placed =>
      refine { opening with balanced := balanced, unrecorded := ?_ }
      intro other last
      by_cases here : other = requestId
      · subst here
        simp [setPhase]
      · simpa [setPhase, Function.update_of_ne here] using
          opening.unrecorded other last
  | recorded requestId contextSize turn succeeded ended =>
      exact absurd rfl (unrecorded requestId contextSize)
  | finished requestId turn last =>
      exact absurd last (opening.unrecorded requestId turn)

/-! ## Against any other assignment -/

/-- Where the sessions are resident. -/
def residence (clients : Clients) (requestId : String) : String :=
  clients.books.resident.getD requestId ""

/-- The sessions that hold a booking. -/
def residents (clients : Clients) : Finset String :=
  clients.books.resident.keys.toFinset

theorem Opening.residence_mem
    (opening : clients.Opening cfg) {requestId : String}
    (resident : requestId ∈ clients.residents) :
    clients.residence requestId ∈ cfg.replicas.toFinset := by
  rw [List.mem_toFinset]
  cases home : clients.books.resident.get? requestId with
  | none =>
      exact absurd (List.mem_toFinset.mp resident)
        ((OrderedDict.get?_eq_none_iff _ _).mp home)
  | some replica =>
      rw [residence, OrderedDict.getD, home]
      exact opening.listed requestId replica home

theorem footprint_nonneg
    (opening : clients.Opening cfg) (requestId : String) :
    0 ≤ clients.books.footprint requestId :=
  add_nonneg (opening.balanced.sizes.latestSize_nonneg requestId)
    (opening.cached.getD requestId (le_refl (0 : ℚ)))

/-- What is taken on a replica are the footprints of its residents. -/
theorem Opening.taken_eq_load
    (opening : clients.Opening cfg) (replica : String) :
    clients.books.taken replica =
      load clients.books.footprint clients.residence clients.residents
        replica := by
  have entries :
      clients.books.resident.keys.filter
          (fun requestId => clients.residence requestId = replica) =
        (clients.books.resident.entries.filter
          fun entry => entry.2 = replica).map Prod.fst := by
    unfold OrderedDict.keys
    rw [List.filter_map]
    congr 1
    apply List.filter_congr
    rintro ⟨requestId, home⟩ member
    have found :=
      (OrderedDict.get?_eq_some_iff _ requestId home).mpr member
    simp [residence, OrderedDict.getD, found]
  have settled := opening.settled replica
  rw [Books.slack, sub_eq_zero] at settled
  have distinct : clients.books.resident.keys.Nodup :=
    clients.books.resident.nodup
  rw [Books.taken, settled, residents, load_toFinset distinct, entries,
    List.map_map]
  unfold Books.residentTokens Books.reserve OrderedDict.sumWhere
  rw [← List.sum_map_add]
  rfl

/-- In every run of clients in which no turn has been recorded yet, with
neither groups nor a window, each replica has at least as much budget left as
`2 - 1 / m` times the largest footprint total of any other assignment of the
placed sessions to the `m` replicas leaves. -/
theorem opening_free_budget
    (cfg : Config) (unstaggered : cfg.staggerGroups = false)
    (noWindow : ¬ 0 < cfg.lptWindowS)
    (guessNonneg : 0 ≤ cfg.initialGrowthGuess)
    (events : List ClientEvent) (final : Clients)
    (ran : run (step cfg) (init cfg) events = some final)
    (unrecorded : ∀ requestId contextSize,
      .recordTurn requestId contextSize ∉ events)
    (rival : String → String) (bound : ℚ)
    (rivalListed : ∀ requestId ∈ final.residents,
      rival requestId ∈ cfg.replicas)
    (rivalWithin : ∀ replica ∈ cfg.replicas,
      load final.books.footprint rival final.residents replica ≤ bound) :
    ∀ replica ∈ cfg.replicas,
      cfg.budgetTokensPerReplica -
          (2 - 1 / cfg.replicas.toFinset.card) * bound ≤
        final.books.estimatedFree cfg replica := by
  intro replica listed
  have meets :
      StepsMeet (step cfg)
        (fun _ event => ∀ requestId contextSize,
          event ≠ .recordTurn requestId contextSize) (init cfg) events := by
    apply stepsMeet_of_forall
    rintro event member _ requestId contextSize rfl
    exact unrecorded requestId contextSize member
  have opening : final.Opening cfg :=
    run_invariant_of_stepsMeet
      (fun _ _ _ opening other stepped =>
        opening.step unstaggered noWindow guessNonneg other stepped)
      (opening_init cfg) meets ran
  have onReplicas : ∀ requestId ∈ final.residents,
      rival requestId ∈ cfg.replicas.toFinset :=
    fun requestId resident =>
      List.mem_toFinset.mpr (rivalListed requestId resident)
  have nonneg : ∀ requestId ∈ final.residents,
      0 ≤ final.books.footprint requestId :=
    fun requestId _ => footprint_nonneg opening requestId
  have boundNonneg : 0 ≤ bound :=
    (load_nonneg nonneg replica).trans (rivalWithin replica listed)
  have spread := opening.spread bound boundNonneg (by
    intro requestId home found
    have resident : requestId ∈ final.residents :=
      List.mem_toFinset.mpr (OrderedDict.mem_keys_of_get? found)
    exact (weight_le_load nonneg resident).trans
      (rivalWithin _ (rivalListed requestId resident)))
  have average :
      ∑ machine ∈ cfg.replicas.toFinset, final.books.taken machine ≤
        cfg.replicas.toFinset.card * bound :=
    calc ∑ machine ∈ cfg.replicas.toFinset, final.books.taken machine
        = ∑ machine ∈ cfg.replicas.toFinset,
            load final.books.footprint final.residence final.residents
              machine :=
          Finset.sum_congr rfl fun machine _ =>
            opening.taken_eq_load machine
      _ = ∑ requestId ∈ final.residents,
            final.books.footprint requestId :=
          sum_load fun _ resident => opening.residence_mem resident
      _ = ∑ machine ∈ cfg.replicas.toFinset,
            load final.books.footprint rival final.residents machine :=
          (sum_load onReplicas).symm
      _ ≤ cfg.replicas.toFinset.card * bound := by
          rw [← nsmul_eq_mul]
          exact Finset.sum_le_card_nsmul _ _ bound fun machine member =>
            rivalWithin machine (List.mem_toFinset.mp member)
  have taken := spread.le_factor_mul average (le_refl bound)
    (List.mem_toFinset.mpr listed)
  rw [Books.estimatedFree_eq_sub_taken]
  linarith

end Clients

/-- Two replicas, and sessions that will grow by ten tokens. -/
def growingPair : Config where
  replicas := ["A", "B"]
  budgetTokensPerReplica := 100
  wave1Size := 2
  initialGrowthGuess := 10
  priorWeight := 1
  maxWaitS := 60
  sqrt := id

namespace Clients

/-- The third session has to wait for room. -/
def threeArrivals : List ClientEvent :=
  [.acquire "a" 23 {} ⟨0, 0⟩, .acquire "b" 23 {} ⟨0, 0⟩,
    .acquire "c" 75 {} ⟨0, 0⟩, .resume "c" (.pollOver 60)]

/-- The first two together and the third alone. -/
def thirdApart (requestId : String) : String :=
  if requestId = "c" then "B" else "A"

/-- The other assignment would take 85 at most. -/
theorem opening_free_budget_three :
    ∃ final,
      run (step growingPair) (init growingPair) threeArrivals = some final ∧
        ∀ replica ∈ growingPair.replicas,
          -(55 / 2) ≤ final.books.estimatedFree growingPair replica := by
  obtain ⟨final, ran, reached⟩ :=
    exists_final_of_map_eq
      (show (run (step growingPair) (init growingPair)
          threeArrivals).map
        (fun final => decide (final.residents = {"a", "b", "c"} ∧
          load final.books.footprint thirdApart final.residents "A" = 66 ∧
          load final.books.footprint thirdApart final.residents "B" = 85)) =
          some true by decide +kernel)
  obtain ⟨residents, onFirst, onSecond⟩ := of_decide_eq_true reached
  have bounded := opening_free_budget growingPair rfl (by decide +kernel)
    (by decide +kernel) threeArrivals final ran
    (by intro requestId contextSize member; simp [threeArrivals] at member)
    thirdApart 85
    (by
      intro requestId _
      unfold thirdApart
      split <;> decide)
    (by
      intro replica listed
      have either : replica = "A" ∨ replica = "B" := by
        simpa [growingPair] using listed
      rcases either with rfl | rfl
      · rw [onFirst]
        norm_num
      · exact onSecond.le)
  refine ⟨final, ran, fun replica listed => le_trans ?_
    (bounded replica listed)⟩
  have two : growingPair.replicas.toFinset.card = 2 := by decide
  rw [two]
  norm_num [growingPair]

end Clients

end LlmDRl.Admission
