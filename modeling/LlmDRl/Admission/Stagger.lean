import LlmDRl.Admission.Branches
import LlmDRl.Admission.Calls
import LlmDRl.Library.History

/-!
# Staggered groups

The turn-0 protocol of a group, over runs in which any calls arrive in any
order with any arguments: one leader per group, and followers only after the
leader's own turn 0 has been recorded, on another replica, pulling from the
leader's.
-/

namespace LlmDRl.Admission

open LlmDRl.Library
open scoped List

/-! ## What a segment does to the group tables -/

namespace GroupTables

/-- A first caller claims the group. -/
def claim (tables : GroupTables) (groupKey : String) : GroupTables :=
  { tables with
    groupClaimed := insert groupKey tables.groupClaimed
    groupReady := tables.groupReady.insert groupKey false }

/-- It is placed as the group's leader. -/
def lead (tables : GroupTables) (requestId groupKey replica : String) :
    GroupTables :=
  { tables.claim groupKey with
    groupLeader := tables.groupLeader.insert groupKey replica
    groupLeaderRid := tables.groupLeaderRid.insert requestId groupKey }

/-- The group's followers are not held back in this state. -/
def Open (tables : GroupTables) (groupKey : String) : Prop :=
  tables.groupReady.get? groupKey = some true ∨
    (groupKey ∈ tables.groupClaimed ∧
      tables.groupReady.get? groupKey ≠ some false)

end GroupTables

/-- Everything a segment of `acquire` can do to the group tables, with the
booking and the outcome that go with it.  `home` is the replica the request is
resident on before the segment. -/
inductive GroupEffect (cfg : Config) (tables : GroupTables)
    (home : Option String) (requestId : String) (turnIndex : Int) :
    Option Booking → Outcome → GroupTables → Prop
  | ungrouped {booked : Option Booking} {outcome : Outcome}
      (rule : ∀ booking, booked = some booking → booking.rule.Ungrouped)
      (source : ∀ placement address, outcome = .returned placement →
        placement.kvSource = some address →
          0 < turnIndex ∧ ∃ resident, home = some resident ∧
            cfg.p2pAddress resident = .ok address) :
      GroupEffect cfg tables home requestId turnIndex booked outcome tables
  | claimed (groupKey : String) (error : PyError)
      (fresh : groupKey ∉ tables.groupClaimed) :
      GroupEffect cfg tables home requestId turnIndex none
        (.raised error) (tables.claim groupKey)
  | led (groupKey replica : String)
      (fresh : groupKey ∉ tables.groupClaimed) :
      GroupEffect cfg tables home requestId turnIndex
        (some ⟨replica, .leader groupKey⟩) (.returned ⟨replica, none⟩)
        (tables.lead requestId groupKey replica)
  | followed (groupKey leader target : String) {outcome : Outcome}
      (opened : tables.Open groupKey)
      (leads : tables.groupLeader.get? groupKey = some leader)
      (different : target ≠ leader)
      (source : ∀ placement, outcome = .returned placement →
        placement.replica = target ∧
          ∀ address, placement.kvSource = some address →
            cfg.p2pAddress leader = .ok address) :
      GroupEffect cfg tables home requestId turnIndex
        (some ⟨target, .follower groupKey⟩) outcome tables

theorem p2pAddress_of_kvSourceFrom
    {cfg : Config} {replica source : String}
    (handed : cfg.kvSourceFrom replica = .ok (some source)) :
    cfg.p2pAddress replica = .ok source := by
  unfold Config.kvSourceFrom at handed
  split at handed
  · cases address : cfg.p2pAddress replica with
    | error error =>
        rw [address] at handed
        cases handed
    | ok found =>
        rw [address] at handed
        cases handed
        rfl
  · cases handed

/-- The same, read off a segment. -/
def Segment.Groups (cfg : Config) (ledger : Ledger) (requestId : String)
    (turnIndex : Int) (segment : Segment) : Prop :=
  GroupEffect cfg ledger.toGroupTables (ledger.resident.get? requestId)
    requestId turnIndex segment.booked segment.outcome
    segment.ledger.toGroupTables

namespace Segment.Groups

variable {cfg : Config} {ledger : Ledger} {requestId : String}
  {turnIndex : Int}

theorem of_same
    {earlier : Ledger} {segment : Segment}
    (groups : segment.Groups cfg ledger requestId turnIndex)
    (tables : ledger.toGroupTables = earlier.toGroupTables)
    (books : ledger.toBooks = earlier.toBooks) :
    segment.Groups cfg earlier requestId turnIndex := by
  unfold Segment.Groups at groups ⊢
  rw [← tables, ← books]
  exact groups

/-- A segment that does not return and does not touch the tables. -/
theorem of_notReturned
    {after : Ledger} {outcome : Outcome}
    (tables : after.toGroupTables = ledger.toGroupTables)
    (notReturned : ∀ placement, outcome ≠ .returned placement) :
    Segment.Groups cfg ledger requestId turnIndex
      ⟨after, outcome, none⟩ := by
  unfold Segment.Groups
  rw [tables]
  exact .ungrouped (fun _ impossible => by cases impossible)
    (fun placement _ returned => absurd returned (notReturned placement))

end Segment.Groups

namespace Ledger

variable (cfg : Config) (ledger : Ledger) (requestId : String)

theorem place_groups
    (turnIndex given : Int) (contextSize : ℚ) (rule : Rule)
    (ungrouped : rule.Ungrouped) (replica : Option String) :
    (ledger.place cfg requestId turnIndex contextSize rule
      replica).Groups cfg ledger requestId given := by
  cases replica with
  | none =>
      exact .of_notReturned rfl (fun _ => by simp)
  | some r =>
      refine .ungrouped (fun _ same => by cases same; exact ungrouped) ?_
      rintro placement address ⟨⟩ impossible
      cases impossible

end Ledger

theorem PullsFrom.source
    {cfg : Config} {leader target : String} {outcome : Outcome}
    (pulls : PullsFrom cfg leader target outcome) {placement : Placement}
    (returned : outcome = .returned placement) :
    placement.replica = target ∧
      ∀ address, placement.kvSource = some address →
        cfg.p2pAddress leader = .ok address := by
  cases pulls with
  | returned handed =>
      cases returned
      refine ⟨rfl, ?_⟩
      rintro address rfl
      exact p2pAddress_of_kvSourceFrom handed
  | raised error =>
      cases returned

/-- `given` is what the caller called the turn. -/
theorem Branch.groups
    {cfg : Config} {ledger : Ledger} {requestId : String}
    {contextSize : ℚ} {sessionWork : Option ℚ} {key : Option String}
    {turnIndex given : Int} {segment : Segment}
    (branch :
      Branch cfg ledger requestId contextSize sessionWork key turnIndex
        segment)
    (sameTurn : 0 < turnIndex → 0 < given) :
    segment.Groups cfg ledger requestId given := by
  cases branch with
  | placed rule replica ungrouped window member none fits stays absent =>
      exact Ledger.place_groups cfg ledger requestId turnIndex given
        contextSize rule ungrouped replica
  | polled deadline =>
      exact .of_notReturned rfl (fun _ => by simp)
  | opened collecting unset =>
      exact .of_notReturned rfl (fun _ => by simp)
  | joined collecting set =>
      exact .of_notReturned rfl (fun _ => by simp)
  | claimed groupKey keyed fresh noReplica =>
      exact .claimed groupKey _ fresh
  | led groupKey replica keyed fresh member =>
      exact .led groupKey replica fresh
  | held groupKey keyed =>
      exact .of_notReturned rfl (fun _ => by simp)
  | followed groupKey leader target keyed ready leads member pulls =>
      exact .followed groupKey leader target ready leads
        (Config.ne_of_mem_othersThan member) (fun _ => pulls.source)
  | moved resident target rule later ungrouped window found member moves
      fits pulls =>
      refine .ungrouped (fun _ same => by cases same; exact ungrouped) ?_
      intro placement address returned handed
      exact ⟨sameTurn later, resident, found,
        (pulls.source returned).2 address handed⟩

theorem Segment.IsBranch.groups
    {cfg : Config} {ledger : Ledger} {requestId : String}
    {contextSize : ℚ} {sessionWork : Option ℚ} {key : Option String}
    {turnIndex given : Int} {segment : Segment}
    (branch :
      segment.IsBranch cfg ledger requestId contextSize sessionWork key
        turnIndex)
    (sameTurn : 0 < turnIndex → 0 < given) :
    segment.Groups cfg ledger requestId given := by
  obtain ⟨counted, same, runs⟩ := branch
  exact (runs.groups sameTurn).of_same same.groups same.books

namespace Ledger

variable (cfg : Config) (ledger : Ledger) (requestId : String)

theorem acquire_groups
    (args : AcquireArgs) (clock : Clock) :
    (ledger.acquire cfg requestId args clock).Groups cfg ledger
      requestId args.turnIndex := by
  apply (acquire_isBranch cfg ledger requestId args clock).groups
  intro later
  omega

theorem resume_groups
    {waiting : Waiting} {wakeup : Wakeup} {segment : Segment}
    (resumed :
      ledger.resume cfg requestId waiting wakeup = some segment) :
    segment.Groups cfg ledger requestId 0 := by
  rcases resume_cases resumed with ⟨_, branch⟩ | exits
  · exact branch.groups id
  · obtain ⟨after, replica, same, rfl⟩ := exits.eq_place
    exact (place_groups cfg after requestId 0 0 waiting.contextSize .lpt
      trivial replica).of_same same.groups same.books

end Ledger

/-! ## The protocol of a group -/

/-- The notice is the placement of a leader of the group. -/
def Notice.leads (groupKey : String) : Notice → Bool
  | .segment _ _ (some ⟨_, .leader led⟩) _ => led = groupKey
  | _ => false

/-- The notice left by a leader's placement on `replica`. -/
def Notice.ledBy (groupKey requestId replica : String)
    (turnIndex : Int) : Notice :=
  .segment requestId turnIndex (some ⟨replica, .leader groupKey⟩)
    (.returned ⟨replica, none⟩)

section Protocol

-- what a leader must have behind it before its followers are placed,
-- newest first
variable (milestones : String → List Notice)

/-- A leader was placed on `replica` and reached its milestones since. -/
def Released (past : List Notice) (groupKey replica : String) : Prop :=
  ∃ leaderRid turnIndex,
    milestones leaderRid ++ [.ledBy groupKey leaderRid replica turnIndex]
      <+ past

/-- What a follower's placement owes to the calls before it. -/
def FollowsLeader (cfg : Config) : Notice → List Notice → Prop
  | .segment _ _ (some ⟨target, .follower groupKey⟩) outcome, past =>
      ∃ leader,
        Released milestones past groupKey leader ∧ target ≠ leader ∧
          ∀ placement, outcome = .returned placement →
            placement.replica = target ∧
              ∀ source, placement.kvSource = some source →
                cfg.p2pAddress leader = .ok source
  | _, _ => True

/-- The group tables, read against the history. -/
structure GroupsConsistent (cfg : Config) (tables : GroupTables)
    (log : List Notice) : Prop where
  unled : ∀ groupKey, groupKey ∉ tables.groupClaimed →
    log.countP (Notice.leads groupKey) = 0
  ledOnce : ∀ groupKey, log.countP (Notice.leads groupKey) ≤ 1
  hasEvent : ∀ groupKey, groupKey ∈ tables.groupClaimed →
    tables.groupReady.get? groupKey ≠ none
  leads : ∀ requestId groupKey,
    tables.groupLeaderRid.get? requestId = some groupKey →
      groupKey ∈ tables.groupClaimed ∧
        ∃ replica turnIndex,
          tables.groupLeader.get? groupKey = some replica ∧
            .ledBy groupKey requestId replica turnIndex ∈ log
  released : ∀ groupKey,
    tables.groupReady.get? groupKey = some true →
      ∃ replica, tables.groupLeader.get? groupKey = some replica ∧
        Released milestones log groupKey replica
  follows : EachWithPast (FollowsLeader milestones cfg) log

end Protocol

variable {milestones : String → List Notice}

theorem Released.cons
    {past : List Notice} {groupKey replica : String}
    (released : Released milestones past groupKey replica)
    (notice : Notice) :
    Released milestones (notice :: past) groupKey replica := by
  obtain ⟨leaderRid, turnIndex, ordered⟩ := released
  exact ⟨leaderRid, turnIndex, ordered.cons notice⟩

namespace GroupsConsistent

variable {cfg : Config} {tables : GroupTables} {log : List Notice}

/-- A notice of no leader and no follower changes nothing. -/
theorem cons
    (consistent : GroupsConsistent milestones cfg tables log)
    {notice : Notice}
    (leadsNone : ∀ groupKey, notice.leads groupKey = false)
    (follows : FollowsLeader milestones cfg notice log) :
    GroupsConsistent milestones cfg tables (notice :: log) where
  unled := by
    intro groupKey unclaimed
    rw [List.countP_cons_of_neg (by simp [leadsNone groupKey])]
    exact consistent.unled groupKey unclaimed
  ledOnce := by
    intro groupKey
    rw [List.countP_cons_of_neg (by simp [leadsNone groupKey])]
    exact consistent.ledOnce groupKey
  hasEvent := consistent.hasEvent
  leads := by
    intro requestId groupKey found
    obtain ⟨claimed, replica, turnIndex, leader, member⟩ :=
      consistent.leads requestId groupKey found
    exact ⟨claimed, replica, turnIndex, leader,
      List.mem_cons_of_mem notice member⟩
  released := by
    intro groupKey ready
    obtain ⟨replica, leader, released⟩ :=
      consistent.released groupKey ready
    exact ⟨replica, leader, released.cons notice⟩
  follows := ⟨follows, consistent.follows⟩

/-- An open group has a leader that reached its milestones. -/
theorem released_of_open
    (consistent : GroupsConsistent milestones cfg tables log)
    {groupKey : String} (opened : tables.Open groupKey) :
    ∃ replica, tables.groupLeader.get? groupKey = some replica ∧
      Released milestones log groupKey replica := by
  apply consistent.released groupKey
  rcases opened with ready | ⟨claimed, notHeld⟩
  · exact ready
  · cases event : tables.groupReady.get? groupKey with
    | none =>
        exact absurd event (consistent.hasEvent groupKey claimed)
    | some isSet =>
        cases isSet with
        | true =>
            rfl
        | false =>
            exact absurd event notHeld

/-- Claiming a group disturbs no other one. -/
theorem claim
    (consistent : GroupsConsistent milestones cfg tables log)
    (groupKey : String) :
    GroupsConsistent milestones cfg (tables.claim groupKey) log where
  unled := by
    intro other unclaimed
    apply consistent.unled other
    intro member
    exact unclaimed (Finset.mem_insert_of_mem member)
  ledOnce := consistent.ledOnce
  hasEvent := by
    intro other claimed
    simp only [GroupTables.claim, OrderedDict.get?_insert]
    by_cases same : other = groupKey
    · simp [same]
    · rw [if_neg same]
      exact consistent.hasEvent other
        (Finset.mem_of_mem_insert_of_ne claimed same)
  leads := by
    intro requestId other found
    obtain ⟨claimed, led⟩ := consistent.leads requestId other found
    exact ⟨Finset.mem_insert_of_mem claimed, led⟩
  released := by
    intro other ready
    simp only [GroupTables.claim, OrderedDict.get?_insert] at ready
    split at ready
    · cases ready
    · exact consistent.released other ready
  follows := consistent.follows

/-- The placement of a leader. -/
theorem lead
    (consistent : GroupsConsistent milestones cfg tables log)
    {groupKey : String} (fresh : groupKey ∉ tables.groupClaimed)
    (requestId replica : String) (turnIndex : Int) :
    GroupsConsistent milestones cfg
      (tables.lead requestId groupKey replica)
      (.ledBy groupKey requestId replica turnIndex :: log) where
  unled := by
    intro other unclaimed
    have different : ¬ groupKey = other := by
      intro same
      subst same
      exact unclaimed (Finset.mem_insert_self _ _)
    rw [List.countP_cons_of_neg
      (by simp [Notice.ledBy, Notice.leads, different])]
    exact (consistent.claim groupKey).unled other unclaimed
  ledOnce := by
    intro other
    by_cases same : groupKey = other
    · subst other
      rw [List.countP_cons_of_pos
        (by simp [Notice.ledBy, Notice.leads]),
        consistent.unled groupKey fresh]
    · rw [List.countP_cons_of_neg
        (by simp [Notice.ledBy, Notice.leads, same])]
      exact consistent.ledOnce other
  hasEvent := (consistent.claim groupKey).hasEvent
  leads := by
    intro caller other found
    simp only [GroupTables.lead, OrderedDict.get?_insert] at found ⊢
    split at found
    · next same =>
        cases found
        subst caller
        exact ⟨Finset.mem_insert_self _ _, replica, turnIndex,
          if_pos rfl, List.mem_cons_self ..⟩
    · obtain ⟨claimed, home, index, leader, member⟩ :=
        consistent.leads caller other found
      have different : ¬ other = groupKey := by
        intro same
        subst same
        exact fresh claimed
      exact ⟨Finset.mem_insert_of_mem claimed, home, index,
        (if_neg different).trans leader, List.mem_cons_of_mem _ member⟩
  released := by
    intro other ready
    simp only [GroupTables.lead, GroupTables.claim,
      OrderedDict.get?_insert] at ready ⊢
    split at ready
    · cases ready
    · next different =>
        obtain ⟨home, leader, released⟩ :=
          consistent.released other ready
        exact ⟨home, (if_neg different).trans leader,
          released.cons _⟩
  follows := ⟨trivial, consistent.follows⟩

/-- A segment keeps the tables consistent. -/
theorem segment
    (consistent : GroupsConsistent milestones cfg tables log)
    {home : Option String} {requestId : String} {turnIndex : Int}
    {booked : Option Booking} {outcome : Outcome} {after : GroupTables}
    (effect :
      GroupEffect cfg tables home requestId turnIndex booked outcome
        after) :
    GroupsConsistent milestones cfg after
      (.segment requestId turnIndex booked outcome :: log) := by
  cases effect with
  | ungrouped rule source =>
      cases booked with
      | none =>
          exact consistent.cons (fun _ => rfl) trivial
      | some booking =>
          have outside := rule booking rfl
          obtain ⟨replica, chosen⟩ := booking
          cases chosen <;> simp only [Rule.Ungrouped] at outside <;>
            exact consistent.cons (fun _ => rfl) trivial
  | claimed groupKey error fresh =>
      exact (consistent.claim groupKey).cons (fun _ => rfl) trivial
  | led groupKey replica fresh =>
      exact consistent.lead fresh requestId replica turnIndex
  | followed groupKey leader target opened leads different source =>
      obtain ⟨home, found, released⟩ :=
        consistent.released_of_open opened
      cases leads.symm.trans found
      exact consistent.cons (fun _ => rfl)
        ⟨leader, released, different, source⟩

/-- Setting the event of a group whose leader has reached its milestones. -/
theorem markReady
    (consistent : GroupsConsistent milestones cfg tables log)
    {requestId groupKey : String}
    (leads : tables.groupLeaderRid.get? requestId = some groupKey)
    (reached : ∀ replica turnIndex,
      .ledBy groupKey requestId replica turnIndex ∈ log →
        milestones requestId ++
            [.ledBy groupKey requestId replica turnIndex] <+ log) :
    GroupsConsistent milestones cfg
      { tables with
        groupReady := tables.groupReady.insert groupKey true } log where
  unled := consistent.unled
  ledOnce := consistent.ledOnce
  hasEvent := by
    intro other claimed
    simp only [OrderedDict.get?_insert]
    split
    · simp
    · exact consistent.hasEvent other claimed
  leads := consistent.leads
  released := by
    intro other ready
    simp only [OrderedDict.get?_insert] at ready
    split at ready
    · next same =>
        subst other
        obtain ⟨_, replica, turnIndex, leader, member⟩ :=
          consistent.leads requestId groupKey leads
        exact ⟨replica, leader, requestId, turnIndex,
          reached replica turnIndex member⟩
    · exact consistent.released other ready
  follows := consistent.follows

/-- `record_turn` keeps the tables consistent when turn 0 of a leader is only
recorded once it has reached its milestones. -/
theorem recordTurn
    {ledger : Ledger}
    (consistent :
      GroupsConsistent milestones cfg ledger.toGroupTables log)
    (requestId : String) (turnIndex : Int) (contextSize : ℚ)
    (reached : turnIndex = 0 →
      ∀ groupKey replica index,
        ledger.groupLeaderRid.get? requestId = some groupKey →
        .ledBy groupKey requestId replica index ∈ log →
          milestones requestId ++
              [.ledBy groupKey requestId replica index] <+
            .recorded requestId 0 :: log) :
    GroupsConsistent milestones cfg
      (ledger.recordTurn cfg requestId turnIndex
        contextSize).toGroupTables
      (.recorded requestId turnIndex :: log) := by
  have noticed :
      GroupsConsistent milestones cfg ledger.toGroupTables
        (.recorded requestId turnIndex :: log) :=
    consistent.cons (fun _ => rfl) trivial
  unfold Ledger.recordTurn
  dsimp only
  split
  · next marks =>
      obtain ⟨_, rfl⟩ := marks
      unfold Ledger.markGroupReady
      split
      · exact noticed
      · next groupKey leads =>
          split
          · refine noticed.markReady leads ?_
            intro replica index member
            rcases List.mem_cons.mp member with impossible | older
            · cases impossible
            · exact reached rfl groupKey replica index leads older
          · exact noticed
  · exact noticed

end GroupsConsistent

theorem groupsConsistent_init (cfg : Config) :
    GroupsConsistent milestones cfg
      (Ledger.init cfg).toGroupTables [] where
  unled := fun _ _ => rfl
  ledOnce := fun _ => Nat.zero_le 1
  hasEvent := by
    intro groupKey claimed
    cases claimed
  leads := by
    intro requestId groupKey found
    cases found
  released := by
    intro groupKey ready
    cases ready
  follows := trivial

/-! ## Whole runs -/

namespace Calls

/-- The group tables agree with the log: a group is open only after its
leader's turn 0 has been recorded. -/
def Grouped (cfg : Config) (calls : Calls) : Prop :=
  GroupsConsistent (fun leaderRid => [.recorded leaderRid 0]) cfg
    calls.ledger.toGroupTables calls.log

theorem grouped_init (cfg : Config) : (init cfg).Grouped cfg :=
  groupsConsistent_init cfg

theorem grouped_step
    {cfg : Config} {calls next : Calls} {call : Call}
    (consistent : calls.Grouped cfg)
    (stepped : calls.step cfg call = some next) :
    next.Grouped cfg := by
  have ranSegment :
      ∀ {ran : String × Int × Segment},
        calls.segmentOf cfg call = some ran →
          (calls.ranSegment ran.1 ran.2.1 ran.2.2).Grouped cfg := by
    rintro ⟨requestId, turnIndex, segment⟩ ran
    cases started_of_segmentOf ran with
    | acquired _ args clock free =>
        exact GroupsConsistent.segment consistent
          (Ledger.acquire_groups cfg calls.ledger requestId args clock)
    | resumed _ wakeup waiting _ parked resumed =>
        exact GroupsConsistent.segment consistent
          (Ledger.resume_groups cfg calls.ledger requestId resumed)
  cases call with
  | acquire requestId args clock =>
      simp only [step, Option.map_eq_some_iff] at stepped
      obtain ⟨ran, started, rfl⟩ := stepped
      exact ranSegment started
  | resume requestId wakeup =>
      simp only [step, Option.map_eq_some_iff] at stepped
      obtain ⟨ran, started, rfl⟩ := stepped
      exact ranSegment started
  | recordTurn requestId turnIndex contextSize =>
      cases stepped
      refine GroupsConsistent.recordTurn consistent requestId turnIndex
        contextSize ?_
      intro _ groupKey replica index _ member
      exact (List.singleton_sublist.mpr member).cons_cons _
  | onTrajectoryDone requestId =>
      cases stepped
      exact GroupsConsistent.cons consistent (fun _ => rfl) trivial

/-- In every run, each group has at most one leader, and each follower is
placed after its own group's leader had its turn 0 recorded, on another
replica, with no source or the leader's address. -/
theorem stagger_groups_follow_protocol
    (cfg : Config) (calls : List Call) (final : Calls)
    (ran : run (step cfg) (init cfg) calls = some final) :
    (∀ groupKey, final.log.countP (Notice.leads groupKey) ≤ 1) ∧
    ∀ later requestId turnIndex target groupKey outcome past,
      final.log =
          later ++
            .segment requestId turnIndex
              (some ⟨target, .follower groupKey⟩) outcome :: past →
        ∃ leaderRid leaderTurn leader,
          [.recorded leaderRid 0,
            .segment leaderRid leaderTurn
              (some ⟨leader, .leader groupKey⟩)
              (.returned ⟨leader, none⟩)] <+ past ∧
          target ≠ leader ∧
          ∀ placement, outcome = .returned placement →
            placement.replica = target ∧
              ∀ source, placement.kvSource = some source →
                cfg.p2pAddress leader = .ok source := by
  have consistent : final.Grouped cfg :=
    run_invariant (fun _ _ _ => grouped_step) (grouped_init cfg) ran
  refine ⟨consistent.ledOnce, ?_⟩
  intro later requestId turnIndex target groupKey outcome past split
  obtain ⟨leader, ⟨leaderRid, leaderTurn, ordered⟩, different, source⟩ :=
    (eachWithPast_iff _ _).mp consistent.follows later _ past split
  exact ⟨leaderRid, leaderTurn, leader, ordered, different, source⟩

end Calls

/-- Two replicas with staggered groups and P2P. -/
def staggered : Config where
  replicas := ["A", "B"]
  budgetTokensPerReplica := 100
  wave1Size := 4
  initialGrowthGuess := 0
  priorWeight := 0
  maxWaitS := 0
  p2pKvAvailable := true
  staggerGroups := true
  sqrt := id

namespace Calls

/-- A leader, a member parked behind it, the leader's turn 0 recorded, and
the member released. -/
def leaderThenFollower : List Call :=
  [.acquire "lead" ⟨0, 10, none, none, some "g"⟩ ⟨0, 0⟩,
    .acquire "member" ⟨0, 10, none, none, some "g"⟩ ⟨0, 0⟩,
    .recordTurn "lead" 0 10,
    .resume "member" (.groupReady ⟨0, 0⟩)]

theorem stagger_groups_follow_protocol_released :
    ∃ final past,
      run (step staggered) (init staggered) leaderThenFollower =
          some final ∧
        final.log =
          .segment "member" 0 (some ⟨"B", .follower "g"⟩)
            (.returned ⟨"B", some "127.0.7.1:7777"⟩) :: past ∧
        final.log.countP (Notice.leads "g") ≤ 1 ∧
        ∃ leaderRid leaderTurn leader,
          [.recorded leaderRid 0,
            .segment leaderRid leaderTurn (some ⟨leader, .leader "g"⟩)
              (.returned ⟨leader, none⟩)] <+ past ∧
          staggered.p2pAddress leader = .ok "127.0.7.1:7777" := by
  obtain ⟨final, ran, reached⟩ :=
    exists_final_of_map_eq
      (show (run (step staggered) (init staggered)
          leaderThenFollower).map
        (fun final => decide (final.log.head? = some
          (.segment "member" 0 (some ⟨"B", .follower "g"⟩)
            (.returned ⟨"B", some "127.0.7.1:7777"⟩)))) =
          some true by decide +kernel)
  obtain ⟨past, split⟩ :=
    List.head?_eq_some_iff.mp (of_decide_eq_true reached)
  obtain ⟨once, follows⟩ :=
    stagger_groups_follow_protocol staggered leaderThenFollower final ran
  obtain ⟨leaderRid, leaderTurn, leader, ordered, _, source⟩ :=
    follows [] _ _ _ _ _ past split
  exact ⟨final, past, ran, split, once "g", leaderRid, leaderTurn, leader,
    ordered, (source _ rfl).2 _ rfl⟩

end Calls

end LlmDRl.Admission
