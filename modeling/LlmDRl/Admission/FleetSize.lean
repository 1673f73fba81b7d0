import LlmDRl.Admission.RaisingCalls
import LlmDRl.Admission.Stagger

/-!
# Listener addresses and the size of the fleet

Only replicas are pulled from, so up to 254 of them no `acquire` loses its
booking to a missing address.  In a fleet of 255, first turns spread until
the last replica is the least loaded one; a group led from there has
followers that cannot be told where to pull from.
-/

namespace LlmDRl.Admission

open LlmDRl.Library

/-! ## Fleets whose replicas all have addresses -/

theorem Config.addressable_of_small
    {cfg : Config} {replica : String} (listed : replica ∈ cfg.replicas)
    (small : cfg.p2pKvAvailable = false ∨ cfg.replicas.length ≤ 254) :
    cfg.Addressable replica := by
  rcases small with off | short
  · exact .inl off
  · cases found : cfg.replicas.idxOf? replica with
    | none =>
        exact absurd listed (List.idxOf?_eq_none_iff.mp found)
    | some index =>
        obtain ⟨below, _⟩ := List.idxOf?_eq_some_iff.mp found
        exact .inr ⟨index, found, by omega⟩

theorem GroupEffect.leaders_within
    {cfg : Config} {tables after : GroupTables} {home : Option String}
    {requestId : String} {turnIndex : Int} {booked : Option Booking}
    {outcome : Outcome}
    (effect :
      GroupEffect cfg tables home requestId turnIndex booked outcome after)
    (leaders : tables.groupLeader.AllValues (· ∈ cfg.replicas))
    (listed : ∀ booking, booked = some booking →
      booking.replica ∈ cfg.replicas) :
    after.groupLeader.AllValues (· ∈ cfg.replicas) := by
  cases effect with
  | ungrouped rule source =>
      exact leaders
  | claimed groupKey error fresh =>
      exact leaders
  | led groupKey replica fresh =>
      exact leaders.insert groupKey (listed _ rfl)
  | followed groupKey leader target opened leads different source =>
      exact leaders

theorem Ledger.groupLeader_recordTurn
    (cfg : Config) (ledger : Ledger) (requestId : String)
    (turnIndex : Int) (contextSize : ℚ) :
    (ledger.recordTurn cfg requestId turnIndex contextSize).groupLeader =
      ledger.groupLeader := by
  unfold Ledger.recordTurn Ledger.markGroupReady
  dsimp only
  split
  · split
    · rfl
    · split <;> rfl
  · rfl

namespace Calls

/-- Whatever may be pulled from is a replica. -/
structure SourcesWithin (cfg : Config) (calls : Calls) : Prop where
  residing : calls.Residing cfg
  leaders :
    calls.ledger.groupLeader.AllValues (· ∈ cfg.replicas)

variable {cfg : Config} {calls next : Calls}

theorem sourcesWithin_init (cfg : Config) :
    (init cfg).SourcesWithin cfg where
  residing := residing_init cfg
  leaders := OrderedDict.allValues_empty _

theorem SourcesWithin.step
    (within : calls.SourcesWithin cfg) {call : Call}
    (stepped : calls.step cfg call = some next) :
    next.SourcesWithin cfg where
  residing := within.residing.step stepped
  leaders := by
    rcases step_cases stepped with
      ⟨requestId, turnIndex, segment, started, rfl⟩ |
      ⟨requestId, turnIndex, contextSize, _, rfl⟩ | ⟨requestId, _, rfl⟩
    · have chosen := within.residing.chosen started
      cases started with
      | acquired _ args clock free =>
          exact (Ledger.acquire_groups cfg calls.ledger requestId args
            clock).leaders_within within.leaders chosen.booked
      | resumed _ wakeup waiting _ parked ran =>
          exact (Ledger.resume_groups cfg calls.ledger requestId
            ran).leaders_within within.leaders chosen.booked
    · dsimp only
      rw [Ledger.groupLeader_recordTurn]
      exact within.leaders
    · exact within.leaders

theorem SourcesWithin.listed
    (within : calls.SourcesWithin cfg) {call : Call} {source : String}
    (pulls : calls.Pulls cfg call source) :
    source ∈ cfg.replicas := by
  cases pulls with
  | moved requestId args clock resident target later home moves =>
      exact within.residing.within.resident requestId source home
  | followed requestId args clock groupKey leader first keyed staggered
      claimed released follows =>
      exact within.leaders groupKey source follows.1
  | resumed requestId clock groupKey leader contextSize sessionWork parked
      ready follows =>
      exact within.leaders groupKey source follows.1

/-- Without P2P, or with at most 254 replicas, a run never meets a source
without an address. -/
theorem sourcesAddressable_of_small
    (small : cfg.p2pKvAvailable = false ∨ cfg.replicas.length ≤ 254)
    (events : List Call) :
    StepsMeet (step cfg) (SourcesAddressable cfg) (init cfg) events := by
  have preserved : ∀ (calls : Calls) (call : Call) (next : Calls),
      calls.SourcesWithin cfg → True → step cfg calls call = some next →
        next.SourcesWithin cfg :=
    fun _ _ _ within _ stepped => within.step stepped
  have addressable : ∀ (calls : Calls) (call : Call),
      calls.SourcesWithin cfg → True →
        calls.SourcesAddressable cfg call :=
    fun _ _ within _ _ pulls =>
      Config.addressable_of_small (within.listed pulls) small
  exact StepsMeet.of_invariant preserved addressable
    (sourcesWithin_init cfg)
    (stepsMeet_of_forall (fun _ _ _ => trivial) (init cfg))

/-- In any run of calls, the segments of `acquire` that do not return, and
among them those that raise, leave bookings and counters as they were exactly
when every replica that is pulled from has a listener address. -/
theorem raising_acquires_change_nothing_iff
    (cfg : Config) (events : List Call) (final : Calls)
    (ran : run (step cfg) (init cfg) events = some final) :
    StepsMeet (step cfg) (LeavesNoTrace cfg) (init cfg) events ↔
      StepsMeet (step cfg) (SourcesAddressable cfg) (init cfg)
        events := by
  have preserved : ∀ (calls : Calls) (call : Call) (next : Calls),
      True → True → step cfg calls call = some next → True :=
    fun _ _ _ _ _ _ => trivial
  have agree : ∀ (calls : Calls) (call : Call) (next : Calls),
      True → step cfg calls call = some next →
        (LeavesNoTrace cfg calls call ↔ SourcesAddressable cfg calls call) :=
    fun _ _ _ _ stepped => leavesNoTrace_iff stepped
  exact StepsMeet.congr_of_invariant preserved agree trivial
    (stepsMeet_of_forall (fun _ _ _ => trivial) (init cfg)) ran

end Calls

/-- The first turn of a request of the given group. -/
def firstTurn (requestId : String) (groupKey : Option String) : Call :=
  .acquire requestId
    { turnIndex := 0, contextSize := 1, groupKey := groupKey } ⟨0, 0⟩

/-- A group of two, whose second request comes when the leader's first turn
is recorded. -/
def ledAndFollowed : List Call :=
  [firstTurn "leader" "g", .recordTurn "leader" 0 1,
    firstTurn "follower" "g"]

namespace Calls

theorem raising_acquires_change_nothing_iff_pair :
    ∃ final,
      run (step staggered) (init staggered) ledAndFollowed =
          some final ∧
        StepsMeet (step staggered) (LeavesNoTrace staggered)
          (init staggered) ledAndFollowed := by
  obtain ⟨final, ran, _⟩ :=
    exists_final_of_map_eq
      (show (run (step staggered) (init staggered)
        ledAndFollowed).map (fun _ => true) = some true by decide +kernel)
  exact ⟨final, ran,
    (raising_acquires_change_nothing_iff staggered ledAndFollowed final
      ran).mpr (sourcesAddressable_of_small (.inr (by decide)) _)⟩

end Calls

/-! ## A fleet of 255 -/

/-- Ids of distinct lengths. -/
def replicaId (index : Nat) : String :=
  String.ofList ('r' :: List.replicate index '1')

theorem replicaId_injective : Function.Injective replicaId := by
  intro first second same
  have lists := String.ofList_injective same
  have lengths := congrArg List.length lists
  simpa using lengths

/-- A fleet that reserves nothing and admits one first turn for each
replica without waiting. -/
def fleet (size : Nat) : Config where
  replicas := (List.range size).map replicaId
  budgetTokensPerReplica := 1000
  wave1Size := size
  initialGrowthGuess := 0
  priorWeight := 0
  maxWaitS := 0
  p2pKvAvailable := true
  staggerGroups := true
  sqrt := id

theorem idxOf?_replicaId
    {size index : Nat} (below : index < size) :
    (fleet size).replicas.idxOf? (replicaId index) = some index := by
  rw [List.idxOf?_eq_some_iff]
  refine ⟨by simpa [fleet] using below, by simp [fleet], ?_⟩
  intro earlier before same
  have equal : earlier = index := by
    apply replicaId_injective
    simpa [fleet] using same
  omega

/-- The first `count` replicas of the fleet hold one token each. -/
structure Ledger.Spread (ledger : Ledger) (count : Nat) : Prop where
  used : ∀ index, ledger.used (replicaId index) =
    if index < count then 1 else 0
  charges : ledger.reserveCharge.AllValues (· = 0)
  firstTurns : ∀ requestId, (ledger.historyOf requestId).get? (-1) = none
  estimator : ledger.estimator = .init 0 0 .size 0
  admitted : ledger.admittedCount = count
  groups : ledger.toGroupTables = ⟨.empty, .empty, ∅, .empty⟩

namespace Ledger.Spread

variable {ledger : Ledger} {count size : Nat}

theorem estimatedFree_eq
    (spread : ledger.Spread count) (index : Nat) :
    ledger.estimatedFree (fleet size) (replicaId index) =
      1000 - if index < count then 1 else 0 := by
  have unreserved : ledger.reserve (replicaId index) = 0 := by
    have noCharge : ∀ requestId replica,
        ledger.resident.get? requestId = some replica →
          decide (replica = replicaId index) = true →
            ledger.reserveCharge.getD requestId 0 = (0 : ℚ) :=
      fun requestId _ _ _ => spread.charges.getD requestId rfl
    unfold Books.reserve
    rw [OrderedDict.sumWhere_congr _ _ noCharge]
    simp [OrderedDict.sumWhere]
  unfold Books.estimatedFree
  rw [unreserved, spread.used index, sub_zero]
  rfl

theorem leastLoaded_eq
    (spread : ledger.Spread count) (below : count < size) :
    ledger.leastLoaded (fleet size) = some (replicaId count) := by
  have distinct : (fleet size).replicas.Nodup :=
    List.nodup_range.map replicaId_injective
  have idxOf : ∀ index, index < size →
      (fleet size).replicas.idxOf (replicaId index) = index := by
    intro index small
    have bound : index < (fleet size).replicas.length := by
      simpa [fleet] using small
    have entry : (fleet size).replicas[index] = replicaId index := by
      simp [fleet]
    rw [← entry]
    exact distinct.idxOf_getElem index bound
  refine List.argmax_eq_some_iff.mpr ⟨?_, ?_, ?_⟩
  · exact List.mem_map_of_mem (List.mem_range.mpr below)
  · intro other member
    obtain ⟨index, _, rfl⟩ := List.mem_map.mp member
    rw [spread.estimatedFree_eq, spread.estimatedFree_eq,
      if_neg (lt_irrefl count)]
    split <;> norm_num
  · intro other member atLeast
    obtain ⟨index, listed, rfl⟩ := List.mem_map.mp member
    rw [idxOf count below, idxOf index (List.mem_range.mp listed)]
    rw [spread.estimatedFree_eq, spread.estimatedFree_eq,
      if_neg (lt_irrefl count)] at atLeast
    by_contra before
    rw [if_pos (not_le.mp before)] at atLeast
    norm_num at atLeast

theorem charge_eq
    (spread : ledger.Spread count) (requestId : String) :
    ledger.charge (fleet size) requestId 1 0 = 0 := by
  have noOracle : (fleet size).oracleReserve = false := rfl
  unfold charge
  rw [noOracle, spread.estimator]
  simp [GrowthEstimator.estimate, GrowthEstimator.mean,
    GrowthEstimator.init, OrderedDict.getD]

/-- A first turn booked on the next replica. -/
theorem book
    (spread : ledger.Spread count) (size : Nat) (requestId : String) :
    Ledger.Spread
      ({ ledger with admittedCount := ledger.admittedCount + 1 }.book
        (fleet size) requestId (replicaId count) 0 1)
      (count + 1) where
  used := by
    intro index
    have whole :
        ledger.bookedTokens requestId (replicaId count) 0 1 = 1 := by
      have first : (ledger.historyOf requestId).get? (0 - 1) = none :=
        spread.firstTurns requestId
      simp only [Books.bookedTokens, first]
    by_cases here : index = count
    · subst index
      have added := Function.update_self (replicaId count)
        (ledger.used (replicaId count) +
          ledger.bookedTokens requestId (replicaId count) 0 1)
        ledger.used
      refine added.trans ?_
      rw [whole, spread.used, if_neg (lt_irrefl count),
        if_pos count.lt_succ_self, zero_add]
    · have different : replicaId index ≠ replicaId count :=
        fun same => here (replicaId_injective same)
      refine (Function.update_of_ne different _ _).trans ?_
      rw [spread.used]
      congr 1
      exact propext ⟨fun _ => by omega, fun _ => by omega⟩
  charges :=
    spread.charges.insert requestId (spread.charge_eq requestId)
  firstTurns := by
    intro other
    by_cases here : other = requestId
    · subst other
      rw [Books.historyOf_of_get? (OrderedDict.get?_insert_self _ _ _)]
      rw [OrderedDict.get?_insert_of_ne _ _ (by decide)]
      exact spread.firstTurns requestId
    · have kept :
          (ledger.history.insert requestId
              ((ledger.historyOf requestId).insert 0 1)).getD other
                .empty =
            ledger.history.getD other .empty :=
        OrderedDict.getD_insert_of_ne _ _ _ here
      have first := spread.firstTurns other
      unfold Books.historyOf at first
      rw [← kept] at first
      exact first
  estimator := spread.estimator
  admitted := by
    have counted := spread.admitted
    push_cast
    rw [← counted]
    rfl
  groups := spread.groups

/-- A further first turn fills the next replica. -/
theorem acquire
    (spread : ledger.Spread count) (below : count < size)
    (requestId : String) :
    ∃ next : Ledger,
      next.Spread (count + 1) ∧
      ledger.acquire (fleet size) requestId
          { turnIndex := 0, contextSize := 1, groupKey := none } ⟨0, 0⟩ =
        ⟨next, .returned ⟨replicaId count, none⟩,
          some ⟨replicaId count, .wave1⟩⟩ := by
  refine ⟨_, spread.book size requestId, ?_⟩
  have least := spread.leastLoaded_eq below
  have early : ledger.admittedCount + 1 ≤ (fleet size).wave1Size := by
    have size_eq : (fleet size).wave1Size = size := rfl
    rw [spread.admitted, size_eq]
    omega
  have noWindow : ¬ 0 < (fleet size).lptWindowS := lt_irrefl 0
  unfold Ledger.acquire
  simp only [lt_irrefl, if_false, Ledger.hintSessionFinal]
  unfold Ledger.acquireUngrouped Ledger.admitGated
  rw [if_neg noWindow]
  dsimp only
  rw [if_pos early, least]
  rfl

/-- The first request of a group leads it from the next replica. -/
theorem lead
    (spread : ledger.Spread count) (below : count < size)
    (requestId groupKey : String) (keyed : groupKey ≠ "") :
    ∃ next : Ledger,
      next.toGroupTables =
          ledger.toGroupTables.lead requestId groupKey
            (replicaId count) ∧
        ledger.acquire (fleet size) requestId
            { turnIndex := 0, contextSize := 1, groupKey := groupKey }
            ⟨0, 0⟩ =
          ⟨next, .returned ⟨replicaId count, none⟩,
            some ⟨replicaId count, .leader groupKey⟩⟩ := by
  have least := spread.leastLoaded_eq below
  have unclaimed : groupKey ∉ ledger.groupClaimed := by
    rw [spread.groups]
    exact Finset.notMem_empty groupKey
  have staggered : (fleet size).staggerGroups ∧ groupKey ≠ "" :=
    ⟨rfl, keyed⟩
  unfold Ledger.acquire
  simp only [lt_irrefl, if_false, Ledger.hintSessionFinal]
  rw [if_pos staggered]
  unfold Ledger.staggerPlace
  rw [if_pos unclaimed]
  unfold Ledger.staggerLead
  dsimp only
  rw [least]
  exact ⟨_, rfl, rfl⟩

end Ledger.Spread

namespace Calls

/-- First turns of any requests fill one replica after the other. -/
theorem spread_of_firstTurns
    {size : Nat} (requestIds : List String) {calls : Calls} {count : Nat}
    (spread : calls.ledger.Spread count)
    (free : ∀ requestId, calls.waiting requestId = none)
    (room : count + requestIds.length ≤ size) :
    ∃ final,
      run (step (fleet size)) calls
          (requestIds.map fun requestId => firstTurn requestId none) =
        some final ∧
      final.ledger.Spread (count + requestIds.length) ∧
      ∀ requestId, final.waiting requestId = none := by
  induction requestIds generalizing calls count with
  | nil =>
      exact ⟨calls, rfl, spread, free⟩
  | cons requestId rest inductionHypothesis =>
      rw [List.length_cons] at room
      obtain ⟨ledger, spreadNext, acquired⟩ :=
        spread.acquire (show count < size by omega) requestId
      have stepped :
          calls.step (fleet size) (firstTurn requestId none) =
            some (calls.ranSegment requestId 0
              ⟨ledger, .returned ⟨replicaId count, none⟩,
                some ⟨replicaId count, .wave1⟩⟩) := by
        simp only [step, firstTurn, segmentOf, free, acquired,
          Option.map_some]
      have freeNext : ∀ other,
          (calls.ranSegment requestId 0
            ⟨ledger, .returned ⟨replicaId count, none⟩,
              some ⟨replicaId count, .wave1⟩⟩).waiting other = none := by
        intro other
        simp only [ranSegment, parked, Function.update_apply, free,
          ite_self]
      obtain ⟨final, ran, spreadFinal, freeFinal⟩ :=
        inductionHypothesis spreadNext freeNext (by omega)
      refine ⟨final, ?_, ?_, freeFinal⟩
      · rw [List.map_cons]
        exact run_cons_eq_some.mpr ⟨_, stepped, ran⟩
      · have counted :
            count + (requestId :: rest).length =
              count + 1 + rest.length := by
          rw [List.length_cons]
          omega
        rw [counted]
        exact spreadFinal

/-- The first recorded turn of a leader marks its group ready. -/
theorem groupTables_recordTurn_of_leader
    {cfg : Config} {ledger : Ledger} {requestId groupKey : String}
    (staggers : cfg.staggerGroups = true)
    (leads : ledger.groupLeaderRid.get? requestId = some groupKey)
    (held : ledger.groupReady.get? groupKey = some false)
    (contextSize : ℚ) :
    (ledger.recordTurn cfg requestId 0 contextSize).toGroupTables =
      { ledger.toGroupTables with
        groupReady := ledger.groupReady.insert groupKey true } := by
  have marked :
      ledger.markGroupReady requestId =
        { ledger with
          groupReady := ledger.groupReady.insert groupKey true } := by
    simp only [Ledger.markGroupReady, leads, held]
  unfold Ledger.recordTurn
  rw [if_pos ⟨staggers, rfl⟩, marked]

/-- Once its first turn is recorded, the leader of a group can be
followed. -/
theorem followed_after_lead
    {size : Nat} {calls : Calls} {count : Nat}
    (spread : calls.ledger.Spread count)
    (free : ∀ requestId, calls.waiting requestId = none)
    (below : count < size) (late : 0 < count) :
    ∃ final,
      run (step (fleet size)) calls
          [firstTurn "leader" "g", .recordTurn "leader" 0 1] =
        some final ∧
      final.waiting "follower" = none ∧
      final.Pulls (fleet size) (firstTurn "follower" "g")
        (replicaId count) := by
  obtain ⟨ledger, groups, acquired⟩ :=
    spread.lead below "leader" "g" (by decide)
  have stepped :
      calls.step (fleet size) (firstTurn "leader" "g") =
        some (calls.ranSegment "leader" 0
          ⟨ledger, .returned ⟨replicaId count, none⟩,
            some ⟨replicaId count, .leader "g"⟩⟩) := by
    simp only [step, firstTurn, segmentOf, free, acquired,
      Option.map_some]
  have leads : ledger.groupLeader.get? "g" = some (replicaId count) := by
    rw [groups]
    exact OrderedDict.get?_insert_self _ _ _
  have claimed : "g" ∈ ledger.groupClaimed := by
    rw [groups]
    exact Finset.mem_insert_self _ _
  have leaderRid : ledger.groupLeaderRid.get? "leader" = some "g" := by
    rw [groups]
    exact OrderedDict.get?_insert_self _ _ _
  have held : ledger.groupReady.get? "g" = some false := by
    rw [groups]
    exact OrderedDict.get?_insert_self _ _ _
  have staggers : (fleet size).staggerGroups = true := rfl
  have recorded :=
    groupTables_recordTurn_of_leader staggers leaderRid held 1
  have claimedAfter : "g" ∈
      (ledger.recordTurn (fleet size) "leader" 0 1).groupClaimed := by
    rw [recorded]
    exact claimed
  have readyAfter :
      (ledger.recordTurn (fleet size) "leader" 0 1).groupReady.get? "g" =
        some true := by
    rw [recorded]
    exact OrderedDict.get?_insert_self _ _ _
  have leadsAfter :
      (ledger.recordTurn (fleet size) "leader" 0 1).groupLeader.get? "g" =
        some (replicaId count) := by
    rw [recorded]
    exact leads
  have other : ∃ replica ∈ (fleet size).replicas,
      replica ≠ replicaId count := by
    refine ⟨replicaId 0,
      List.mem_map_of_mem (List.mem_range.mpr (late.trans below)), ?_⟩
    intro same
    exact absurd (replicaId_injective same) late.ne
  refine ⟨_, run_cons_eq_some.mpr ⟨_, stepped,
    run_cons_eq_some.mpr ⟨_, rfl, rfl⟩⟩, ?_, ?_⟩
  · have different : "follower" ≠ "leader" := by decide
    exact (Function.update_of_ne different none calls.waiting).trans
      (free "follower")
  · have released :
        (ledger.recordTurn (fleet size) "leader" 0 1).groupReady.get? "g" ≠
          some false := by
      rw [readyAfter]
      decide
    exact .followed "follower" _ _ "g" (replicaId count) (lt_irrefl 0)
      rfl ⟨rfl, by decide⟩ claimedAfter released ⟨leadsAfter, other⟩

/-- Request ids of distinct lengths. -/
def crowdIds (count : Nat) : List String :=
  (List.range count).map fun index =>
    String.ofList ('t' :: List.replicate index '1')

/-- 254 requests on their own, then the leader of a group. -/
def crowdThenLeader : List Call :=
  ((crowdIds 254).map fun requestId => firstTurn requestId none) ++
    [firstTurn "leader" "g", .recordTurn "leader" 0 1]

/-- In a fleet of 255 replicas, a run leads to a state in which a follower's
`acquire` raises although it has booked the follower. -/
theorem follower_of_last_replica_stays_booked :
    ∃ calls segment,
      run (step (fleet 255)) (init (fleet 255)) crowdThenLeader =
          some calls ∧
        calls.Started (fleet 255) (firstTurn "follower" "g") "follower" 0
          segment ∧
        (∃ error, segment.outcome = .raised error) ∧
        (∃ booking, segment.booked = some booking) ∧
        ¬ segment.ledger.SameBookings calls.ledger := by
  have spread : (init (fleet 255)).ledger.Spread 0 :=
    { used := fun _ => rfl
      charges := OrderedDict.allValues_empty _
      firstTurns := fun _ => rfl
      estimator := rfl
      admitted := rfl
      groups := rfl }
  obtain ⟨crowded, ran, spreadCrowded, free⟩ :=
    spread_of_firstTurns (crowdIds 254) spread (fun _ => rfl)
      (show 0 + (crowdIds 254).length ≤ 255 by simp [crowdIds])
  have count : 0 + (crowdIds 254).length = 254 := by simp [crowdIds]
  rw [count] at spreadCrowded
  obtain ⟨calls, ranGroup, waits, pulls⟩ :=
    followed_after_lead spreadCrowded free
      (show 254 < 255 by decide) (by decide)
  have started :
      calls.Started (fleet 255) (firstTurn "follower" "g") "follower" 0
        (calls.ledger.acquire (fleet 255) "follower"
          { turnIndex := 0, contextSize := 1, groupKey := "g" }
          ⟨0, 0⟩) :=
    .acquired "follower" _ _ waits
  have lost : ¬ (fleet 255).Addressable (replicaId 254) := by
    rintro (off | ⟨index, found, small⟩)
    · cases off
    · have at_last :=
        idxOf?_replicaId (show 254 < 255 by decide)
      rw [at_last] at found
      cases found
      omega
  have pulled := pulls.pulledFrom started
  exact ⟨calls, _, (run_append ran _).trans ranGroup, started,
    pulled.raised lost, pulled.booked, pulled.changed⟩

end Calls

end LlmDRl.Admission
