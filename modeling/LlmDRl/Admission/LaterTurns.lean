import LlmDRl.Admission.Balance

/-!
# Moves of a later turn

`_continue_or_migrate` has two rules that move a resident request, and both
look at one candidate only: the first of the other replicas with the most
estimated free budget.  `MovesTo` says when either of them moves to it.  What
a request may rely on between two of its turns is read off that.

The free figure of its own replica is net of what is reserved there for the
request itself, and the figure of another replica does not hold it at all.
Neither rule corrects for that.
-/

namespace LlmDRl.Admission

open LlmDRl.Library
open scoped NNRat

/-- With these free figures one of the two rules moves a request resident on
`resident` to `target`. -/
def Config.MovesTo (cfg : Config) (free : String → ℚ)
    (resident target : String) (contextSize need : ℚ) : Prop :=
  cfg.allowReactiveMigration = true ∧
    (cfg.othersThan resident).argmax free = some target ∧
    contextSize ≤ free target ∧
    ((0 ≤ cfg.rebalanceSlack ∧
        cfg.rebalanceSlack * cfg.budgetTokensPerReplica <
          free target - free resident) ∨
      (free resident < need ∧
        cfg.effectiveCostRatio * contextSize ≤ need - free resident))

instance (cfg : Config) (free : String → ℚ) (resident target : String)
    (contextSize need : ℚ) :
    Decidable (cfg.MovesTo free resident target contextSize need) :=
  inferInstanceAs (Decidable (_ ∧ _))

namespace Books

variable {cfg : Config} {books : Books} {resident target : String}
variable {contextSize need : ℚ}

theorem rebalanceTarget_eq_some_iff :
    books.rebalanceTarget cfg resident contextSize = some target ↔
      (0 ≤ cfg.rebalanceSlack ∧ cfg.allowReactiveMigration = true) ∧
        books.freest cfg (cfg.othersThan resident) = some target ∧
        cfg.rebalanceSlack * cfg.budgetTokensPerReplica <
          books.estimatedFree cfg target -
            books.estimatedFree cfg resident ∧
        contextSize ≤ books.estimatedFree cfg target := by
  unfold rebalanceTarget
  split
  · next enabled =>
      cases candidate :
          books.freest cfg (cfg.othersThan resident) with
      | none =>
          simp
      | some cand =>
          dsimp only
          split
          · next passes =>
              constructor
              · intro chosen
                cases chosen
                exact ⟨enabled, rfl, passes⟩
              · intro moved
                exact moved.2.1
          · next fails =>
              constructor
              · intro chosen
                cases chosen
              · intro moved
                obtain ⟨_, same, passes⟩ := moved
                cases same
                exact absurd passes fails
  · next disabled =>
      constructor
      · intro chosen
        cases chosen
      · intro moved
        exact absurd moved.1 disabled

theorem migrationTarget_eq_some_iff :
    books.migrationTarget cfg resident contextSize need = some target ↔
      (cfg.allowReactiveMigration = true ∧
        cfg.effectiveCostRatio * contextSize ≤
          need - books.estimatedFree cfg resident) ∧
        books.freest cfg (cfg.othersThan resident) = some target ∧
        contextSize ≤ books.estimatedFree cfg target := by
  unfold migrationTarget
  dsimp only
  split
  · next worth =>
      cases candidate :
          books.freest cfg (cfg.othersThan resident) with
      | none =>
          simp
      | some cand =>
          dsimp only
          split
          · next fits =>
              constructor
              · intro chosen
                cases chosen
                exact ⟨worth, rfl, fits⟩
              · intro moved
                exact moved.2.1
          · next short =>
              constructor
              · intro chosen
                cases chosen
              · intro moved
                obtain ⟨_, same, fits⟩ := moved
                cases same
                exact absurd fits short
  · next notWorth =>
      constructor
      · intro chosen
        cases chosen
      · intro moved
        exact absurd moved.1 notWorth

/-- The two rules and the fit test between them, as `_continue_or_migrate`
runs them. -/
def laterTarget (cfg : Config) (books : Books) (resident : String)
    (contextSize need : ℚ) : Option String :=
  match books.rebalanceTarget cfg resident contextSize with
  | some cand => some cand
  | none =>
      if need ≤ books.estimatedFree cfg resident then
        none
      else
        books.migrationTarget cfg resident contextSize need

theorem laterTarget_eq_some_iff :
    books.laterTarget cfg resident contextSize need = some target ↔
      cfg.MovesTo (books.estimatedFree cfg) resident target contextSize
        need := by
  unfold laterTarget
  split
  · next cand rebalanced =>
      obtain ⟨⟨slack, allowed⟩, freest, gain, fits⟩ :=
        rebalanceTarget_eq_some_iff.mp rebalanced
      constructor
      · intro chosen
        cases chosen
        exact ⟨allowed, freest, fits, .inl ⟨slack, gain⟩⟩
      · intro moves
        -- both rules have the same candidate
        exact freest.symm.trans moves.2.1
  · next noRebalance =>
      constructor
      · intro chosen
        split at chosen
        · cases chosen
        · next short =>
            obtain ⟨⟨allowed, worth⟩, freest, fits⟩ :=
              migrationTarget_eq_some_iff.mp chosen
            exact ⟨allowed, freest, fits, .inr ⟨not_le.mp short, worth⟩⟩
      · intro moves
        obtain ⟨allowed, freest, fits, ⟨slack, gain⟩ | ⟨short, worth⟩⟩ :=
          moves
        · have rebalanced := rebalanceTarget_eq_some_iff.mpr
            ⟨⟨slack, allowed⟩, freest, gain, fits⟩
          cases noRebalance.symm.trans rebalanced
        · rw [if_neg (not_le.mpr short)]
          exact migrationTarget_eq_some_iff.mpr
            ⟨⟨allowed, worth⟩, freest, fits⟩

/-- No other replica is a candidate when none of them has room. -/
theorem exists_freest_fits_iff :
    (∃ target,
      books.freest cfg (cfg.othersThan resident) = some target ∧
        contextSize ≤ books.estimatedFree cfg target) ↔
      ∃ other ∈ cfg.replicas, other ≠ resident ∧
        contextSize ≤ books.estimatedFree cfg other := by
  constructor
  · intro candidate
    obtain ⟨target, freest, fits⟩ := candidate
    have member := freest_mem freest
    exact ⟨target, Config.mem_of_mem_othersThan member,
      Config.ne_of_mem_othersThan member, fits⟩
  · intro roomy
    obtain ⟨other, listed, different, fits⟩ := roomy
    have member : other ∈ cfg.othersThan resident :=
      List.mem_filter.mpr ⟨listed, decide_eq_true different⟩
    cases freest : books.freest cfg (cfg.othersThan resident) with
    | none =>
        have empty := List.argmax_eq_none.mp freest
        rw [empty] at member
        cases member
    | some target =>
        have largest : books.estimatedFree cfg other ≤
            books.estimatedFree cfg target :=
          List.le_of_mem_argmax member freest
        exact ⟨target, rfl, fits.trans largest⟩

/-- The need of a next turn is its growth over the latest context. -/
theorem incrementalNeed_of_bookedUpTo
    {requestId : String} {turn : Nat}
    (booked : books.BookedUpTo requestId (some turn))
    (contextSize : ℚ) :
    books.incrementalNeed requestId ((turn + 1 : Nat) : Int) contextSize =
      max 0 (contextSize - books.latestSize requestId) := by
  obtain ⟨_, history, _, recorded, last⟩ := booked
  have previous : ((turn + 1 : Nat) : Int) - 1 = (turn : Int) := by
    omega
  have found : (books.historyOf requestId).get? (turn : Int) =
      some (books.latestSize requestId) := by
    rw [latestSize, historyOf_of_get? recorded]
    exact last.get?_eq
  rw [incrementalNeed, previous, OrderedDict.getD, found, Option.getD_some]

end Books

/-! ## One later turn -/

section LaterTurn

variable {cfg : Config} {ledger : Ledger} {requestId resident : String}
variable {turnIndex : Int} {contextSize : ℚ}

theorem continueOrMigrate_of_moves
    {target : String}
    (found : ledger.resident.get? requestId = some resident)
    (moves :
      cfg.MovesTo (ledger.estimatedFree cfg) resident target contextSize
        (ledger.incrementalNeed requestId turnIndex contextSize)) :
    ∃ (counted : Ledger) (rule : Rule),
      (counted.migrations = ledger.migrations + 1 ∨
          counted.rebalances = ledger.rebalances + 1) ∧
        ledger.continueOrMigrate cfg requestId turnIndex contextSize =
          counted.moveTo cfg requestId resident target turnIndex
            contextSize rule := by
  have chosen := Books.laterTarget_eq_some_iff.mpr moves
  unfold Books.laterTarget at chosen
  unfold Ledger.continueOrMigrate
  cases rebalanced : ledger.rebalanceTarget cfg resident contextSize with
  | some cand =>
      simp only [rebalanced, Option.some.injEq] at chosen
      subst chosen
      simp only [found, rebalanced]
      exact ⟨{ ledger with rebalances := ledger.rebalances + 1 },
        .rebalance, .inr rfl, rfl⟩
  | none =>
      by_cases enough :
          ledger.incrementalNeed requestId turnIndex contextSize ≤
            ledger.estimatedFree cfg resident
      · simp only [rebalanced, if_pos enough, reduceCtorEq] at chosen
      · simp only [rebalanced, if_neg enough] at chosen
        simp only [found, rebalanced, if_neg enough, chosen]
        exact ⟨{ ledger with migrations := ledger.migrations + 1 },
          .migration, .inl rfl, rfl⟩

theorem continueOrMigrate_of_stays
    (found : ledger.resident.get? requestId = some resident)
    (stays : ∀ target,
      ¬ cfg.MovesTo (ledger.estimatedFree cfg) resident target contextSize
        (ledger.incrementalNeed requestId turnIndex contextSize)) :
    ∃ rule,
      ledger.continueOrMigrate cfg requestId turnIndex contextSize =
        ledger.place cfg requestId turnIndex contextSize rule
          (some resident) := by
  have noTarget :
      ledger.toBooks.laterTarget cfg resident contextSize
        (ledger.incrementalNeed requestId turnIndex contextSize) =
          none := by
    apply Option.eq_none_iff_forall_not_mem.mpr
    intro target chosen
    exact stays target (Books.laterTarget_eq_some_iff.mp chosen)
  unfold Books.laterTarget at noTarget
  unfold Ledger.continueOrMigrate
  cases rebalanced : ledger.rebalanceTarget cfg resident contextSize with
  | some cand =>
      simp only [rebalanced, reduceCtorEq] at noTarget
  | none =>
      by_cases enough :
          ledger.incrementalNeed requestId turnIndex contextSize ≤
            ledger.estimatedFree cfg resident
      · simp only [found, rebalanced, if_pos enough]
        exact ⟨.inPlace, rfl⟩
      · simp only [rebalanced, if_neg enough] at noTarget
        simp only [found, rebalanced, if_neg enough, noTarget]
        exact ⟨.overshoot, rfl⟩

theorem moveTo_resident
    {target : String} {rule : Rule} :
    (ledger.moveTo cfg requestId resident target turnIndex contextSize
      rule).ledger.resident.get? requestId = some target := by
  unfold Ledger.moveTo
  dsimp only
  split
  · exact OrderedDict.get?_insert_self _ _ _
  · exact OrderedDict.get?_insert_self _ _ _

theorem moveTo_outcome_ne
    {target : String} {rule : Rule} (away : target ≠ resident)
    (kvSource : Option String) :
    (ledger.moveTo cfg requestId resident target turnIndex contextSize
      rule).outcome ≠ .returned ⟨resident, kvSource⟩ := by
  unfold Ledger.moveTo
  dsimp only
  split
  · intro same
    cases same
    exact away rfl
  · intro same
    cases same

/-- The two ways an `acquire` of a later turn goes for a resident request. -/
theorem acquire_later_cases
    (cfg : Config) {args : AcquireArgs} (clock : Clock)
    (found : ledger.resident.get? requestId = some resident)
    (later : 0 < args.turnIndex) :
    (∃ target,
      cfg.MovesTo (ledger.estimatedFree cfg) resident target
          args.contextSize (ledger.incrementalNeed requestId args.turnIndex
            args.contextSize) ∧
        (ledger.acquire cfg requestId args clock).ledger.resident.get?
            requestId = some target ∧
        ∀ kvSource,
          (ledger.acquire cfg requestId args clock).outcome ≠
            .returned ⟨resident, kvSource⟩) ∨
    ((∀ target,
        ¬ cfg.MovesTo (ledger.estimatedFree cfg) resident target
          args.contextSize (ledger.incrementalNeed requestId args.turnIndex
            args.contextSize)) ∧
      (ledger.acquire cfg requestId args clock).ledger.resident.get?
          requestId = some resident ∧
      (ledger.acquire cfg requestId args clock).outcome =
        .returned ⟨resident, none⟩) := by
  have hinted := Ledger.hintSessionFinal_counted ledger requestId
    args.sessionFinal
  have run :
      ledger.acquire cfg requestId args clock =
        (ledger.hintSessionFinal requestId
          args.sessionFinal).continueOrMigrate cfg requestId args.turnIndex
            args.contextSize :=
    if_pos later
  rw [run, ← hinted.books]
  have home : (ledger.hintSessionFinal requestId
      args.sessionFinal).resident.get? requestId = some resident := by
    rw [hinted.books]
    exact found
  by_cases moved : ∃ target,
      cfg.MovesTo
        ((ledger.hintSessionFinal requestId
          args.sessionFinal).estimatedFree cfg) resident target
          args.contextSize
          ((ledger.hintSessionFinal requestId
            args.sessionFinal).incrementalNeed requestId args.turnIndex
              args.contextSize)
  · obtain ⟨target, moves⟩ := moved
    have away : target ≠ resident :=
      Config.ne_of_mem_othersThan (Books.freest_mem moves.2.1)
    obtain ⟨counted, rule, _, segment⟩ :=
      continueOrMigrate_of_moves home moves
    rw [segment]
    exact .inl ⟨target, moves, moveTo_resident, moveTo_outcome_ne away⟩
  · have stays := not_exists.mp moved
    obtain ⟨rule, segment⟩ := continueOrMigrate_of_stays home stays
    rw [segment]
    exact .inr ⟨stays, OrderedDict.get?_insert_self _ _ _, rfl⟩

/-- The request is kept, without a source to pull from, exactly when no rule
moves it. -/
theorem acquire_keeps_iff
    (cfg : Config) {args : AcquireArgs} (clock : Clock)
    (found : ledger.resident.get? requestId = some resident)
    (later : 0 < args.turnIndex) :
    (ledger.acquire cfg requestId args clock).outcome =
        .returned ⟨resident, none⟩ ↔
      ∀ target,
        ¬ cfg.MovesTo (ledger.estimatedFree cfg) resident target
          args.contextSize (ledger.incrementalNeed requestId args.turnIndex
            args.contextSize) := by
  rcases acquire_later_cases cfg clock found later with
    ⟨target, moves, _, notKept⟩ | ⟨stays, _, kept⟩
  · exact ⟨fun kept => absurd kept (notKept none),
      fun stays => absurd moves (stays target)⟩
  · exact ⟨fun _ => stays, fun _ => kept⟩

/-- The request ends up on another replica exactly when a rule moves it
there. -/
theorem acquire_moves_iff
    (cfg : Config) {args : AcquireArgs} {target : String} (clock : Clock)
    (found : ledger.resident.get? requestId = some resident)
    (later : 0 < args.turnIndex) (away : target ≠ resident) :
    (ledger.acquire cfg requestId args clock).ledger.resident.get?
        requestId = some target ↔
      cfg.MovesTo (ledger.estimatedFree cfg) resident target
        args.contextSize (ledger.incrementalNeed requestId args.turnIndex
          args.contextSize) := by
  rcases acquire_later_cases cfg clock found later with
    ⟨chosen, moves, home, _⟩ | ⟨stays, home, _⟩
  · rw [home]
    constructor
    · intro same
      cases same
      exact moves
    · intro movesToo
      exact moves.2.1.symm.trans movesToo.2.1
  · rw [home]
    constructor
    · intro same
      cases same
      exact absurd rfl away
    · intro moves
      exact absurd moves (stays target)

end LaterTurn

/-! ## A turn within its own reservation -/

namespace Books

/-- The bookings of the replica and all that is reserved on it fit the
budget, and the turn grows by at most what is reserved there for the request
itself. -/
structure WithinReserve (cfg : Config) (books : Books)
    (requestId resident : String) (contextSize : ℚ) : Prop where
  room : 0 ≤ books.estimatedFree cfg resident
  growth :
    contextSize - books.latestSize requestId ≤
      books.reserveCharge.getD requestId 0

/-- The growth of the turn fits in what is free beside the reservation, or
leaving the replica is not allowed, not worth it, or not possible. -/
def Settled (cfg : Config) (books : Books) (requestId resident : String)
    (contextSize : ℚ) : Prop :=
  max 0 (contextSize - books.latestSize requestId) ≤
      books.estimatedFree cfg resident ∨
    cfg.allowReactiveMigration = false ∨
    max 0 (contextSize - books.latestSize requestId) -
        books.estimatedFree cfg resident <
      cfg.effectiveCostRatio * contextSize ∨
    ∀ other ∈ cfg.replicas, other ≠ resident →
      books.estimatedFree cfg other < contextSize

instance (cfg : Config) (books : Books) (requestId resident : String)
    (contextSize : ℚ) :
    Decidable (books.Settled cfg requestId resident contextSize) :=
  inferInstanceAs (Decidable (_ ∨ _))

/-- Without the rebalance rule only the reactive rule can move a request. -/
theorem settled_iff_never_moves
    {cfg : Config} {books : Books} {requestId resident : String}
    {contextSize : ℚ} (disabled : cfg.rebalanceSlack < 0) :
    books.Settled cfg requestId resident contextSize ↔
      ∀ target,
        ¬ cfg.MovesTo (books.estimatedFree cfg) resident target contextSize
          (max 0 (contextSize - books.latestSize requestId)) := by
  constructor
  · intro settled target moves
    obtain ⟨allowed, freest, fits, ⟨slack, _⟩ | ⟨short, worth⟩⟩ := moves
    · exact absurd slack (not_le.mpr disabled)
    · rcases settled with enough | forbidden | notWorth | full
      · exact absurd enough (not_le.mpr short)
      · cases allowed.symm.trans forbidden
      · exact absurd worth (not_le.mpr notWorth)
      · obtain ⟨other, listed, different, otherFits⟩ :=
          exists_freest_fits_iff.mp ⟨target, freest, fits⟩
        exact absurd otherFits (not_le.mpr (full other listed different))
  · intro stays
    by_contra unsettled
    simp only [Settled, not_or, not_le, not_lt, not_forall] at unsettled
    obtain ⟨short, allowed, worth, other, listed, different, fits⟩ :=
      unsettled
    obtain ⟨target, freest, targetFits⟩ :=
      exists_freest_fits_iff.mpr ⟨other, listed, different, fits⟩
    exact stays target
      ⟨Bool.eq_true_of_not_eq_false allowed, freest, targetFits,
        .inr ⟨short, worth⟩⟩

/-- A move that costs a full re-prefill is never worth the growth of a turn
within its reservation. -/
theorem WithinReserve.settled_of_reprefill
    {cfg : Config} {books : Books} {requestId resident : String}
    {contextSize : ℚ}
    (within : books.WithinReserve cfg requestId resident contextSize)
    (reprefill : 1 ≤ cfg.effectiveCostRatio)
    (recorded : 0 < books.latestSize requestId) :
    books.Settled cfg requestId resident contextSize := by
  by_cases enough :
      max 0 (contextSize - books.latestSize requestId) ≤
        books.estimatedFree cfg resident
  · exact .inl enough
  · refine .inr (.inr (.inl ?_))
    have room := within.room
    have grows : 0 < contextSize - books.latestSize requestId := by
      by_contra shrunk
      rw [max_eq_left (not_lt.mp shrunk)] at enough
      exact enough room
    have positive : 0 < contextSize := by linarith
    have cost : contextSize ≤ cfg.effectiveCostRatio * contextSize :=
      le_mul_of_one_le_left positive.le reprefill
    rw [max_eq_right grows.le]
    linarith

end Books

namespace Clients

variable {cfg : Config} {clients : Clients}

theorem bookedUpTo_of_recorded
    (balanced : clients.Balanced) {requestId : String} {turn : Nat}
    (phase : clients.phase requestId = .recorded turn) :
    clients.books.BookedUpTo requestId (some turn) :=
  balanced.bookedUpTo phase fun _ same => same

theorem incrementalNeed_args
    {requestId : String} {turn : Nat}
    (booked : clients.books.BookedUpTo requestId (some turn))
    (contextSize : ℚ≥0) (hint : SessionHint) :
    clients.calls.ledger.incrementalNeed requestId
        (hint.args (turn + 1) contextSize).turnIndex
        (hint.args (turn + 1) contextSize).contextSize =
      max 0 (contextSize - clients.books.latestSize requestId) :=
  Books.incrementalNeed_of_bookedUpTo booked contextSize

/-- In every reachable state without rebalancing, a request whose next turn
is within its reservation is kept on its replica exactly when the growth also
fits in what is free beside the reservation, or no move is allowed, worth its
cost or possible. -/
theorem kept_within_reserve_iff_settled
    (cfg : Config) (events : List ClientEvent) (clients : Clients)
    (ran : run (step cfg) (init cfg) events = some clients)
    (disabled : cfg.rebalanceSlack < 0)
    (requestId resident : String) (turn : Nat)
    (phase : clients.phase requestId = .recorded turn)
    (home : clients.books.resident.get? requestId = some resident)
    (contextSize : ℚ≥0) (hint : SessionHint) (clock : Clock) :
    (clients.books.WithinReserve cfg requestId resident contextSize →
      (clients.calls.ledger.acquire cfg requestId
        (hint.args (turn + 1) contextSize) clock).outcome =
          .returned ⟨resident, none⟩) ↔
    (clients.books.WithinReserve cfg requestId resident contextSize →
      clients.books.Settled cfg requestId resident contextSize) := by
  have balanced := balanced_of_run ran
  have booked := bookedUpTo_of_recorded balanced phase
  have later : 0 < (hint.args (turn + 1) contextSize).turnIndex :=
    Int.natCast_pos.mpr turn.succ_pos
  have kept := acquire_keeps_iff cfg clock home later
  simp only [incrementalNeed_args booked] at kept
  rw [kept, Books.settled_iff_never_moves disabled]
  rfl

/-! ## A reserved turn that is moved -/

/-- Two replicas with room for a hundred tokens each, and fifty reserved for
every resident.  Pulling a prefix costs nothing. -/
def reservedGrowth : Config where
  replicas := ["A", "B"]
  budgetTokensPerReplica := 100
  wave1Size := 1
  initialGrowthGuess := 50
  priorWeight := 1
  maxWaitS := 0
  p2pKvAvailable := true
  sqrt := id

/-- One request, booked with its fifty tokens and fifty more reserved. -/
def reservedTurn : List ClientEvent :=
  [.acquire "t" 50 {} ⟨0, 0⟩, .generateEnds "t" true, .recordTurn "t" 50]

/-- A next turn that does not grow is kept. -/
theorem kept_within_reserve_iff_settled_same_size :
    ∃ clients,
      run (step reservedGrowth) (init reservedGrowth) reservedTurn =
          some clients ∧
        (clients.calls.ledger.acquire reservedGrowth "t"
          (SessionHint.args {} (0 + 1) 50) ⟨0, 0⟩).outcome =
            .returned ⟨"A", none⟩ := by
  obtain ⟨clients, ran, reached⟩ :=
    exists_final_of_map_eq
      (show (run (step reservedGrowth) (init reservedGrowth)
          reservedTurn).map
        (fun clients => decide (clients.phase "t" = .recorded 0 ∧
          clients.books.resident.get? "t" = some "A" ∧
          0 ≤ clients.books.estimatedFree reservedGrowth "A" ∧
          50 - clients.books.latestSize "t" ≤
            clients.books.reserveCharge.getD "t" 0 ∧
          clients.books.Settled reservedGrowth "t" "A" 50)) = some true by
        decide +kernel)
  obtain ⟨phase, home, room, growth, settled⟩ := of_decide_eq_true reached
  exact ⟨clients, ran,
    (kept_within_reserve_iff_settled reservedGrowth reservedTurn clients ran
      (by decide +kernel) "t" "A" 0 phase home 50 {} ⟨0, 0⟩).mpr
        (fun _ => settled) ⟨room, growth⟩⟩

/-- A next turn of sixty tokens uses ten of the fifty reserved for it.  They
count as taken, so the request is moved. -/
theorem reserved_growth_is_moved :
    ∃ clients,
      run (step reservedGrowth) (init reservedGrowth) reservedTurn =
          some clients ∧
        reservedGrowth.rebalanceSlack < 0 ∧
        clients.books.resident.get? "t" = some "A" ∧
        clients.books.WithinReserve reservedGrowth "t" "A" 60 ∧
        (clients.calls.ledger.acquire reservedGrowth "t"
          (SessionHint.args {} (0 + 1) 60) ⟨0, 0⟩).outcome =
            .returned ⟨"B", some "127.0.7.1:7777"⟩ := by
  obtain ⟨clients, ran, reached⟩ :=
    exists_final_of_map_eq
      (show (run (step reservedGrowth) (init reservedGrowth)
          reservedTurn).map
        (fun clients => decide (reservedGrowth.rebalanceSlack < 0 ∧
          clients.books.resident.get? "t" = some "A" ∧
          (0 ≤ clients.books.estimatedFree reservedGrowth "A" ∧
            60 - clients.books.latestSize "t" ≤
              clients.books.reserveCharge.getD "t" 0) ∧
          (clients.calls.ledger.acquire reservedGrowth "t"
            (SessionHint.args {} (0 + 1) 60) ⟨0, 0⟩).outcome =
              .returned ⟨"B", some "127.0.7.1:7777"⟩)) = some true by
        decide +kernel)
  obtain ⟨disabled, home, within, moved⟩ := of_decide_eq_true reached
  exact ⟨clients, ran, disabled, home, ⟨within.1, within.2⟩, moved⟩

end Clients

end LlmDRl.Admission
