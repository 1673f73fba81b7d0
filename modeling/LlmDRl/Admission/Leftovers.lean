import LlmDRl.Admission.Balance
import LlmDRl.Admission.WindowRuns

/-!
# Entries that are not popped

Of the tables keyed by request id, `on_trajectory_done` pops the bookings
only.  Each step of a client is read here for what it adds to the others: a
`session_final` hint and the lead of a group stay for good, and an entry of
the LPT window stays when the wait for the window times out.
-/

namespace LlmDRl.Admission

open LlmDRl.Library
open scoped NNRat

/-! ## Hints and leads -/

namespace Ledger

/-- The tables only `acquire` writes, on behalf of its own request. -/
def notes (ledger : Ledger) :
    OrderedDict String ℚ × OrderedDict String String :=
  (ledger.oracleFinal, ledger.groupLeaderRid)

section Notes

variable (cfg : Config) (ledger : Ledger) (requestId : String)

theorem notes_place
    (turnIndex : Int) (contextSize : ℚ) (rule : Rule)
    (replica : Option String) :
    (ledger.place cfg requestId turnIndex contextSize rule
      replica).ledger.notes = ledger.notes := by
  cases replica <;> rfl

theorem notes_gateLoop (contextSize deadline now : ℚ) :
    (ledger.gateLoop cfg requestId contextSize deadline
      now).ledger.notes = ledger.notes := by
  unfold gateLoop
  split
  · split
    · rfl
    · split <;> rfl
  · exact notes_place cfg _ requestId 0 contextSize .forced _

theorem notes_acquireUngrouped
    (contextSize : ℚ) (sessionWork : Option ℚ) (clock : Clock) :
    (ledger.acquireUngrouped cfg requestId contextSize sessionWork
      clock).ledger.notes = ledger.notes := by
  unfold acquireUngrouped
  split
  · unfold lptPlace
    split
    · exact notes_place cfg ledger requestId 0 contextSize .lpt _
    · dsimp only
      split <;> rfl
  · unfold admitGated
    dsimp only
    split
    · exact notes_place cfg _ requestId 0 contextSize .wave1 _
    · exact notes_gateLoop cfg _ requestId contextSize _ _

theorem notes_staggerFollow
    {groupKey : String} {contextSize : ℚ} {segment : Segment}
    (followed :
      ledger.staggerFollow cfg requestId groupKey contextSize =
        some segment) :
    segment.ledger.notes = ledger.notes := by
  unfold staggerFollow at followed
  dsimp only at followed
  split at followed
  · cases followed
  · split at followed
    · cases followed
    · split at followed <;> cases followed <;> rfl

theorem notes_moveTo
    (resident target : String) (turnIndex : Int) (contextSize : ℚ)
    (rule : Rule) :
    (ledger.moveTo cfg requestId resident target turnIndex contextSize
      rule).ledger.notes = ledger.notes := by
  unfold moveTo
  dsimp only
  split <;> rfl

theorem notes_continueOrMigrate
    (turnIndex : Int) (contextSize : ℚ) :
    (ledger.continueOrMigrate cfg requestId turnIndex
      contextSize).ledger.notes = ledger.notes := by
  unfold continueOrMigrate
  split
  · exact notes_place cfg ledger requestId turnIndex contextSize _ _
  · dsimp only
    split
    · exact notes_moveTo cfg _ requestId _ _ turnIndex contextSize _
    · split
      · exact notes_place cfg ledger requestId turnIndex contextSize _ _
      · split
        · exact notes_moveTo cfg _ requestId _ _ turnIndex contextSize _
        · exact notes_place cfg ledger requestId turnIndex contextSize _ _

theorem notes_lptFinish (contextSize : ℚ) :
    (ledger.lptFinish cfg requestId contextSize).ledger.notes =
      ledger.notes := by
  obtain ⟨replica, finish⟩ :=
    lptFinish_eq_place cfg ledger requestId contextSize
  rw [finish]
  exact notes_place cfg _ requestId 0 contextSize .lpt replica

/-- Wake-ups write neither table. -/
theorem notes_resume
    {waiting : Waiting} {wakeup : Wakeup} {segment : Segment}
    (resumed :
      ledger.resume cfg requestId waiting wakeup = some segment) :
    segment.ledger.notes = ledger.notes := by
  cases waiting with
  | poll contextSize deadline =>
      cases wakeup <;> simp only [resume, Option.some.injEq,
        reduceCtorEq] at resumed
      subst segment
      exact notes_gateLoop cfg ledger requestId contextSize deadline _
  | group groupKey contextSize sessionWork =>
      cases wakeup <;> simp only [resume, Option.some.injEq,
        reduceCtorEq] at resumed
      · split at resumed
        · split at resumed
          · next followed =>
              cases resumed
              exact notes_staggerFollow cfg ledger requestId followed
          · cases resumed
            exact notes_acquireUngrouped cfg ledger requestId contextSize
              sessionWork _
        · cases resumed
      · subst segment
        exact notes_acquireUngrouped cfg _ requestId contextSize
          sessionWork _
  | lptWindow contextSize =>
      cases wakeup <;> simp only [resume, Option.some.injEq,
        reduceCtorEq] at resumed
      subst segment
      unfold lptWindowOver
      dsimp only
      split
      · rfl
      · exact notes_lptFinish cfg _ requestId contextSize
  | lptEvent contextSize =>
      cases wakeup <;> simp only [resume, Option.some.injEq,
        reduceCtorEq] at resumed
      · split at resumed
        · cases resumed
          exact notes_lptFinish cfg ledger requestId contextSize
        · cases resumed
      · subst segment
        exact notes_place cfg ledger requestId 0 contextSize .lpt _

end Notes

/-- The request is in one of them. -/
def Noted (ledger : Ledger) (requestId : String) : Prop :=
  requestId ∈ ledger.oracleFinal.keys ∨
    requestId ∈ ledger.groupLeaderRid.keys

theorem Noted.of_notes
    {ledger earlier : Ledger} (same : ledger.notes = earlier.notes)
    (requestId : String) :
    ledger.Noted requestId ↔ earlier.Noted requestId := by
  have finals : ledger.oracleFinal = earlier.oracleFinal :=
    congrArg Prod.fst same
  have leaders : ledger.groupLeaderRid = earlier.groupLeaderRid :=
    congrArg Prod.snd same
  rw [Noted, Noted, finals, leaders]

/-- The call claims a group, and there is a replica to lead it from. -/
def Leads (cfg : Config) (ledger : Ledger) (args : AcquireArgs) : Prop :=
  cfg.replicas ≠ [] ∧ ¬ 0 < args.turnIndex ∧
    ∃ groupKey, args.groupKey = some groupKey ∧
      (cfg.staggerGroups ∧ groupKey ≠ "") ∧
        groupKey ∉ ledger.groupClaimed

/-- A request that leads a group is noted under its key. -/
theorem notes_acquire_of_leads
    {cfg : Config} {ledger : Ledger} {args : AcquireArgs}
    (leads : ledger.Leads cfg args) (requestId : String) (clock : Clock) :
    ∃ groupKey,
      (ledger.acquire cfg requestId args clock).ledger.notes =
        ((ledger.hintSessionFinal requestId args.sessionFinal).oracleFinal,
          ledger.groupLeaderRid.insert requestId groupKey) := by
  have groups :=
    (hintSessionFinal_counted ledger requestId args.sessionFinal).groups
  obtain ⟨someReplica, first, groupKey, keyed, staggered, fresh⟩ := leads
  have freshToo : groupKey ∉ (ledger.hintSessionFinal requestId
      args.sessionFinal).groupClaimed := by
    rw [groups]
    exact fresh
  have leaders :
      (ledger.hintSessionFinal requestId
          args.sessionFinal).groupLeaderRid = ledger.groupLeaderRid := by
    rw [groups]
  refine ⟨groupKey, ?_⟩
  unfold acquire
  simp only [if_neg first, keyed, if_pos staggered]
  unfold staggerPlace
  rw [if_pos freshToo]
  unfold staggerLead
  dsimp only
  split
  · next nobody =>
      exact absurd (Books.leastLoaded_eq_none nobody) someReplica
  · next replica least =>
      rw [← leaders]
      rfl

/-- Any other first segment writes the hint only. -/
theorem notes_acquire_of_not_leads
    {cfg : Config} {ledger : Ledger} {args : AcquireArgs}
    (leadsNot : ¬ ledger.Leads cfg args) (requestId : String)
    (clock : Clock) :
    (ledger.acquire cfg requestId args clock).ledger.notes =
      (ledger.hintSessionFinal requestId args.sessionFinal).notes := by
  have groups :=
    (hintSessionFinal_counted ledger requestId args.sessionFinal).groups
  unfold acquire
  dsimp only
  split
  · exact notes_continueOrMigrate cfg _ requestId args.turnIndex
      args.contextSize
  · next first =>
      split
      · next groupKey keyed =>
          split
          · next staggered =>
              unfold staggerPlace
              split
              · next fresh =>
                  unfold staggerLead
                  dsimp only
                  split
                  · rfl
                  · next replica least =>
                      have someReplica : cfg.replicas ≠ [] := by
                        intro noReplica
                        have member := Books.leastLoaded_mem least
                        rw [noReplica] at member
                        cases member
                      rw [groups] at fresh
                      exact absurd
                        ⟨someReplica, first, groupKey, keyed, staggered,
                          fresh⟩ leadsNot
              · split
                · rfl
                · split
                  · next followed =>
                      exact notes_staggerFollow cfg _ requestId followed
                  · exact notes_acquireUngrouped cfg _ requestId
                      args.contextSize args.sessionWork clock
          · exact notes_acquireUngrouped cfg _ requestId
              args.contextSize args.sessionWork clock
      · exact notes_acquireUngrouped cfg _ requestId args.contextSize
          args.sessionWork clock

theorem mem_oracleFinal_hintSessionFinal
    (ledger : Ledger) (requestId other : String)
    (sessionFinal : Option ℚ) :
    other ∈ (ledger.hintSessionFinal requestId
        sessionFinal).oracleFinal.keys ↔
      other ∈ ledger.oracleFinal.keys ∨
        (other = requestId ∧ sessionFinal ≠ none) := by
  cases sessionFinal with
  | none =>
      simp [hintSessionFinal]
  | some final =>
      simp only [hintSessionFinal, OrderedDict.mem_keys_insert_iff, ne_eq,
        reduceCtorEq, not_false_eq_true, and_true]
      exact or_comm

/-- What a first segment adds to the two tables, request by request. -/
theorem noted_acquire_iff
    (cfg : Config) (ledger : Ledger) (requestId other : String)
    (args : AcquireArgs) (clock : Clock) :
    (ledger.acquire cfg requestId args clock).ledger.Noted other ↔
      ledger.Noted other ∨
        (other = requestId ∧
          (args.sessionFinal ≠ none ∨ ledger.Leads cfg args)) := by
  have hinted := mem_oracleFinal_hintSessionFinal ledger requestId other
    args.sessionFinal
  by_cases leads : ledger.Leads cfg args
  · obtain ⟨groupKey, notes⟩ :=
      notes_acquire_of_leads leads requestId clock
    have finals := congrArg Prod.fst notes
    have leaders := congrArg Prod.snd notes
    dsimp only [Ledger.notes] at finals leaders
    rw [Noted, finals, leaders, hinted,
      OrderedDict.mem_keys_insert_iff, Noted]
    grind
  · have notes := notes_acquire_of_not_leads leads requestId clock
    have leaders :
        (ledger.hintSessionFinal requestId
            args.sessionFinal).groupLeaderRid = ledger.groupLeaderRid := by
      rw [(hintSessionFinal_counted ledger requestId
        args.sessionFinal).groups]
    rw [Noted.of_notes notes, Noted, hinted, leaders, Noted]
    grind

end Ledger

/-! ## The tables of the window -/

/-- The request is in one of the tables of the LPT window. -/
def LptTables.Keeps (tables : LptTables) (requestId : String) : Prop :=
  requestId ∈ tables.sessions ∨ requestId ∈ tables.result.keys

theorem LptEffect.keeps_other
    {cfg : Config} {tables after : LptTables} {requestId other : String}
    {contextSize : ℚ} {sessionWork : Option ℚ} {booked : Option Booking}
    {outcome : Outcome}
    (effect :
      LptEffect cfg tables requestId contextSize sessionWork booked outcome
        after)
    (different : other ≠ requestId) :
    after.Keeps other ↔ tables.Keeps other := by
  have collected :
      (tables.collect requestId contextSize sessionWork).Keeps other ↔
        tables.Keeps other := by
    rw [LptTables.Keeps, LptTables.sessions_collect, List.mem_append,
      List.mem_singleton, or_iff_left different]
    rfl
  cases effect with
  | outside rule parks =>
      exact Iff.rfl
  | late closed stays =>
      exact Iff.rfl
  | opened collecting unset =>
      exact collected
  | joined collecting present =>
      exact collected

/-- Placing the batch of a window keeps its sessions, except for the one that
collects its replica at once. -/
theorem LptTables.keeps_closed_iff
    (tables : LptTables) {placed : List ((ℚ × String × ℚ) × String)}
    (everyone : (placed.map Prod.fst).Perm tables.pending)
    (requestId other : String) :
    LptTables.Keeps
        { pending := []
          result := (tables.result.assignAll (fun item => item.2.1)
            placed).erase requestId
          event := some true
          closed := true } other ↔
      other ≠ requestId ∧ tables.Keeps other := by
  have placedSessions :
      (placed.map fun entry => entry.1.2.1).Perm tables.sessions := by
    have mapped := everyone.map fun item : ℚ × String × ℚ => item.2.1
    rwa [List.map_map] at mapped
  have member :
      (∃ entry ∈ placed, entry.1.2.1 = other) ↔
        other ∈ tables.sessions := by
    rw [← placedSessions.mem_iff, List.mem_map]
  have gone :
      other ∉ LptTables.sessions
        { pending := []
          result := (tables.result.assignAll (fun item => item.2.1)
            placed).erase requestId
          event := some true
          closed := true } :=
    List.not_mem_nil
  rw [Keeps, or_iff_right gone, OrderedDict.mem_keys_erase_iff,
    OrderedDict.mem_keys_assignAll_iff, member, Keeps, or_comm]

/-- A request that leaves the window leaves the others in its tables, unless
their batch fails for want of a replica. -/
theorem WindowExit.keeps_other
    {cfg : Config} {ledger : Ledger} {requestId other : String}
    {waiting : Waiting} {wakeup : Wakeup} {segment : Segment}
    (exits : WindowExit cfg ledger requestId waiting wakeup segment)
    (different : other ≠ requestId) :
    (segment.ledger.lptTables.Keeps other →
        ledger.lptTables.Keeps other) ∧
      (cfg.replicas ≠ [] → ledger.lptTables.Keeps other →
        segment.ledger.lptTables.Keeps other) := by
  cases exits with
  | ended contextSize =>
      cases scheduled : ledger.lptSchedule cfg with
      | none =>
          rw [Ledger.lptWindowOver_of_unscheduled scheduled]
          refine ⟨?_, fun someReplica _ =>
            absurd (Ledger.lptSchedule_eq_none scheduled) someReplica⟩
          rintro (member | assigned)
          · cases member
          · exact .inr assigned
      | some placed =>
          rw [Ledger.lptWindowOver_of_scheduled scheduled,
            Ledger.lptTables_lptFinish]
          have closed := ledger.lptTables.keeps_closed_iff
            (Ledger.longestFirst_of_lptSchedule scheduled).everyone
            requestId other
          have same := closed.trans (and_iff_right different)
          exact ⟨same.mp, fun _ => same.mpr⟩
  | collected contextSize set =>
      have same :
          (ledger.lptFinish cfg requestId
              contextSize).ledger.lptTables.Keeps other ↔
            ledger.lptTables.Keeps other := by
        rw [Ledger.lptTables_lptFinish, LptTables.Keeps, LptTables.Keeps,
          OrderedDict.mem_keys_erase_iff, and_iff_right different]
        rfl
      exact ⟨same.mp, fun _ => same.mpr⟩
  | timedOut contextSize =>
      rw [Ledger.lptTables_place]
      exact ⟨id, fun _ => id⟩

/-- A call that is not in the window enters the tables when it parks in
them, and then only. -/
theorem WindowConsistent.left_of_effect
    {cfg : Config} {tables after : LptTables}
    {waiting : String → Option Waiting} {phase : String → Phase}
    (consistent : WindowConsistent cfg tables waiting phase)
    {requestId : String} {contextSize : ℚ} {sessionWork : Option ℚ}
    {booked : Option Booking} {outcome : Outcome}
    (effect :
      LptEffect cfg tables requestId contextSize sessionWork booked outcome
        after)
    (outside : ∀ held, outcome = .suspended held →
      requestId ∉ tables.sessions) :
    (after.Keeps requestId ∧
        ∀ held, Calls.parked outcome = some held → ¬ held.InWindow) ↔
      tables.Keeps requestId := by
  have absent : tables.closed = false → requestId ∉ tables.sessions →
      ¬ tables.Keeps requestId := by
    rintro collecting fresh (member | assigned)
    · exact fresh member
    · exact (OrderedDict.get?_eq_none_iff _ _).mp
        (consistent.unassigned collecting requestId) assigned
  cases effect with
  | outside rule parks =>
      exact and_iff_left
        (fun held parked => parks held (Calls.suspended_of_parked parked))
  | late closed stays =>
      exact and_iff_left (fun held parked =>
        absurd (Calls.suspended_of_parked parked) (stays held))
  | opened collecting unset =>
      refine iff_of_false ?_ (absent collecting (outside _ rfl))
      rintro ⟨_, notInWindow⟩
      exact notInWindow _ rfl trivial
  | joined collecting present =>
      refine iff_of_false ?_ (absent collecting (outside _ rfl))
      rintro ⟨_, notInWindow⟩
      exact notInWindow _ rfl trivial

/-- A call that leaves the window stays in its tables when it times out, and
then only. -/
theorem WindowConsistent.keeps_of_exit
    {cfg : Config} {ledger : Ledger} {held : String → Option Waiting}
    {phase : String → Phase}
    (consistent : WindowConsistent cfg ledger.lptTables held phase)
    (someReplica : cfg.replicas ≠ []) {requestId : String}
    {waiting : Waiting} {wakeup : Wakeup} {segment : Segment}
    (parked : held requestId = some waiting)
    (exits : WindowExit cfg ledger requestId waiting wakeup segment) :
    segment.ledger.lptTables.Keeps requestId ↔ wakeup = .lptTimeout := by
  cases exits with
  | ended contextSize =>
      refine iff_of_false ?_ (fun impossible => by cases impossible)
      cases scheduled : ledger.lptSchedule cfg with
      | none =>
          exact absurd (Ledger.lptSchedule_eq_none scheduled) someReplica
      | some placed =>
          rw [Ledger.lptWindowOver_of_scheduled scheduled,
            Ledger.lptTables_lptFinish]
          intro keeps
          exact ((ledger.lptTables.keeps_closed_iff
            (Ledger.longestFirst_of_lptSchedule scheduled).everyone
            requestId requestId).mp keeps).1 rfl
  | collected contextSize set =>
      refine iff_of_false ?_ (fun impossible => by cases impossible)
      have emptied : ledger.lptTables.pending = [] :=
        consistent.emptied (consistent.closedSet.mpr set)
      rw [Ledger.lptTables_lptFinish]
      rintro (member | assigned)
      · have inSessions : requestId ∈ ledger.lptTables.sessions := member
        rw [LptTables.sessions, emptied] at inSessions
        cases inSessions
      · exact ((OrderedDict.mem_keys_erase_iff _ _ _).mp assigned).1 rfl
  | timedOut contextSize =>
      refine iff_of_true ?_ rfl
      rw [Ledger.lptTables_place]
      cases closed : ledger.lptTables.closed with
      | false =>
          rcases consistent.member requestId contextSize parked closed with
            member | noReplica
          · exact .inl member
          · exact absurd noReplica someReplica
      | true =>
          have assigned :=
            consistent.assigned requestId contextSize parked closed
          refine .inr ?_
          by_contra unassigned
          exact assigned
            ((OrderedDict.get?_eq_none_iff _ _).mpr unassigned)

namespace Clients

variable {cfg : Config} {clients next : Clients} {event : ClientEvent}

/-- The request is in one of these tables and no longer waits there. -/
def LeftInWindow (clients : Clients) (requestId : String) : Prop :=
  clients.calls.ledger.lptTables.Keeps requestId ∧
    ∀ parked, clients.calls.waiting requestId = some parked →
      ¬ parked.InWindow

/-- The other requests stay in the tables, unless the batch of a window
fails for want of a replica. -/
theorem keeps_of_other
    (stepped : clients.Stepped cfg event next)
    {other : String} (different : other ≠ event.requestId) :
    (next.calls.ledger.lptTables.Keeps other →
        clients.calls.ledger.lptTables.Keeps other) ∧
      (cfg.replicas ≠ [] →
        clients.calls.ledger.lptTables.Keeps other →
          next.calls.ledger.lptTables.Keeps other) := by
  have of_iff :
      (next.calls.ledger.lptTables.Keeps other ↔
        clients.calls.ledger.lptTables.Keeps other) →
      (next.calls.ledger.lptTables.Keeps other →
          clients.calls.ledger.lptTables.Keeps other) ∧
        (cfg.replicas ≠ [] →
          clients.calls.ledger.lptTables.Keeps other →
            next.calls.ledger.lptTables.Keeps other) :=
    fun same => ⟨same.mp, fun _ => same.mpr⟩
  cases stepped with
  | acquired requestId contextSize hint clock turn due =>
      exact of_iff ((Ledger.acquire_lpt cfg clients.calls.ledger requestId
        (hint.args turn contextSize) clock).keeps_other different)
  | resumed requestId wakeup waiting segment acquiring parked ran =>
      rcases Ledger.resume_lpt ran with ⟨_, lpt⟩ | exits
      · exact of_iff (lpt.keeps_other different)
      · exact exits.keeps_other different
  | generated requestId succeeded turn placed =>
      exact of_iff Iff.rfl
  | recorded requestId contextSize turn succeeded ended =>
      apply of_iff
      dsimp only
      rw [Ledger.lptTables_recordTurn]
  | finished requestId turn last =>
      exact of_iff Iff.rfl

theorem leftInWindow_of_free
    {requestId : String}
    (free : ∀ parked, clients.calls.waiting requestId = some parked →
      ¬ parked.InWindow) :
    clients.LeftInWindow requestId ↔
      clients.calls.ledger.lptTables.Keeps requestId :=
  and_iff_left free

theorem leftInWindow_runSegment
    (clients : Clients) (turn : Nat) (requestId : String)
    (turnIndex : Int) (segment : Segment) :
    (clients.runSegment turn (requestId, turnIndex, segment)).LeftInWindow
        requestId ↔
      segment.ledger.lptTables.Keeps requestId ∧
        ∀ held, Calls.parked segment.outcome = some held →
          ¬ held.InWindow := by
  unfold LeftInWindow runSegment Calls.ranSegment
  dsimp only
  rw [Function.update_self]

theorem idle_of_nextTurn_zero
    {phase : Phase} (due : phase.nextTurn = some 0) : phase = .idle := by
  cases phase with
  | idle =>
      rfl
  | recorded turn =>
      simp [Phase.nextTurn] at due
  | _ =>
      cases due

/-- A client whose call is suspended in the window has not been there. -/
theorem Windowed.outside_of_due
    (windowed : clients.Windowed cfg) {requestId : String} {turn : Nat}
    (due : (clients.phase requestId).nextTurn = some turn)
    {contextSize : ℚ≥0} {hint : SessionHint} {clock : Clock}
    {held : Waiting}
    (suspended :
      (clients.calls.ledger.acquire cfg requestId
        (hint.args turn contextSize) clock).outcome = .suspended held) :
    requestId ∉ clients.calls.ledger.lptTables.sessions := by
  intro member
  have first : turn = 0 := by
    by_contra later
    have positive : 0 < (hint.args turn contextSize).turnIndex := by
      simp only [SessionHint.args]
      omega
    exact Ledger.acquire_not_suspended cfg clients.calls.ledger requestId
      positive clock held suspended
  subst first
  exact windowed.known requestId member (idle_of_nextTurn_zero due)

/-- The caller's own entry outlives its wait only when the wait times
out. -/
theorem leftInWindow_of_caller
    (windowed : clients.Windowed cfg) (someReplica : cfg.replicas ≠ [])
    (stepped : clients.Stepped cfg event next) :
    next.LeftInWindow event.requestId ↔
      clients.LeftInWindow event.requestId ∨
        event = .resume event.requestId .lptTimeout := by
  cases stepped with
  | acquired requestId contextSize hint clock turn due =>
      have free : ∀ parked,
          clients.calls.waiting requestId = some parked →
            ¬ parked.InWindow := by
        intro parked waits
        cases (windowed.free due).symm.trans waits
      have effect := Ledger.acquire_lpt cfg clients.calls.ledger requestId
        (hint.args turn contextSize) clock
      have stays := WindowConsistent.left_of_effect windowed effect
        (fun held suspended => windowed.outside_of_due due suspended)
      rw [ClientEvent.requestId, leftInWindow_runSegment, stays,
        leftInWindow_of_free free]
      exact (or_iff_left (fun impossible => by cases impossible)).symm
  | resumed requestId wakeup waiting segment acquiring parked ran =>
      rw [ClientEvent.requestId, leftInWindow_runSegment]
      rcases Ledger.resume_lpt ran with ⟨outside, effect⟩ | exits
      · have free : ∀ held,
            clients.calls.waiting requestId = some held →
              ¬ held.InWindow := by
          intro held waits
          cases parked.symm.trans waits
          exact outside
        have patient : wakeup ≠ .lptTimeout := by
          rintro rfl
          cases waiting with
          | lptEvent contextSize =>
              exact outside trivial
          | _ =>
              cases ran
        have stays := WindowConsistent.left_of_effect windowed effect
          (fun _ _ =>
            windowed.outsider requestId waiting parked outside)
        rw [stays, leftInWindow_of_free free]
        refine (or_iff_left ?_).symm
        intro timesOut
        cases timesOut
        exact patient rfl
      · have inside : ¬ clients.LeftInWindow requestId :=
          fun left => left.2 waiting parked exits.inWindow
        have gone : ∀ held, Calls.parked segment.outcome = some held →
            ¬ held.InWindow := fun held suspended =>
          absurd (Calls.suspended_of_parked suspended)
            (exits.not_suspended held)
        rw [and_iff_left gone, or_iff_right inside,
          WindowConsistent.keeps_of_exit windowed someReplica parked exits]
        simp
  | generated requestId succeeded turn placed =>
      exact (or_iff_left (fun impossible => by cases impossible)).symm
  | recorded requestId contextSize turn succeeded ended =>
      have tables := Ledger.lptTables_recordTurn cfg clients.calls.ledger
        requestId turn contextSize
      refine Iff.trans ?_
        (or_iff_left (fun impossible => by cases impossible)).symm
      unfold LeftInWindow
      dsimp only
      rw [tables]
  | finished requestId turn last =>
      exact (or_iff_left (fun impossible => by cases impossible)).symm

theorem leftInWindow_step
    (windowed : clients.Windowed cfg) (someReplica : cfg.replicas ≠ [])
    (stepped : clients.Stepped cfg event next) (requestId : String) :
    next.LeftInWindow requestId ↔
      clients.LeftInWindow requestId ∨
        event = .resume requestId .lptTimeout := by
  by_cases caller : requestId = event.requestId
  · subst caller
    exact leftInWindow_of_caller windowed someReplica stepped
  · have keeps := keeps_of_other stepped caller
    have tables :
        next.calls.ledger.lptTables.Keeps requestId ↔
          clients.calls.ledger.lptTables.Keeps requestId :=
      ⟨keeps.1, keeps.2 someReplica⟩
    have waiting :
        next.calls.waiting requestId = clients.calls.waiting requestId := by
      cases stepped <;>
        first
        | rfl
        | exact Function.update_of_ne caller _ _
    have others : event ≠ .resume requestId .lptTimeout := by
      rintro rfl
      exact caller rfl
    rw [or_iff_left others, LeftInWindow, tables, waiting]
    rfl

/-! ## What is left of a trajectory -/

/-- The event hints at the final context of the request, or has it lead a
group. -/
def Notes (cfg : Config) (clients : Clients) (event : ClientEvent)
    (requestId : String) : Prop :=
  match event with
  | .acquire caller contextSize hint _ =>
      requestId = caller ∧
        ∃ turn, (clients.phase caller).nextTurn = some turn ∧
          (hint.sessionFinal ≠ none ∨
            clients.calls.ledger.Leads cfg (hint.args turn contextSize))
  | _ => False

theorem noted_step
    (stepped : clients.Stepped cfg event next) (requestId : String) :
    next.calls.ledger.Noted requestId ↔
      clients.calls.ledger.Noted requestId ∨
        clients.Notes cfg event requestId := by
  cases stepped with
  | acquired caller contextSize hint clock turn due =>
      have noted := Ledger.noted_acquire_iff cfg clients.calls.ledger
        caller requestId (hint.args turn contextSize) clock
      refine noted.trans (or_congr_right (and_congr_right fun _ => ?_))
      constructor
      · intro writes
        exact ⟨turn, due, writes⟩
      · rintro ⟨other, dueOther, writes⟩
        cases due.symm.trans dueOther
        exact writes
  | resumed caller wakeup waiting segment acquiring parked ran =>
      exact (Ledger.Noted.of_notes (Ledger.notes_resume cfg
        clients.calls.ledger caller ran) requestId).trans
          (or_iff_left not_false).symm
  | generated caller succeeded turn placed =>
      exact (or_iff_left not_false).symm
  | recorded caller contextSize turn succeeded ended =>
      have notes :
          (clients.calls.ledger.recordTurn cfg caller turn
            contextSize).notes = clients.calls.ledger.notes := by
        unfold Ledger.recordTurn
        dsimp only
        split
        · rcases Ledger.markGroupReady_cases clients.calls.ledger caller
            with same | ⟨groupKey, _, marked⟩
          · rw [same]
            rfl
          · rw [marked]
            rfl
        · rfl
      exact (Ledger.Noted.of_notes notes requestId).trans
        (or_iff_left not_false).symm
  | finished caller turn last =>
      exact (or_iff_left not_false).symm

/-- A table that is not popped has an entry for the request. -/
def Remains (clients : Clients) (requestId : String) : Prop :=
  clients.calls.ledger.Noted requestId ∨ clients.LeftInWindow requestId

/-- The event leaves an entry for the request that is not popped. -/
def LeavesEntry (cfg : Config) (clients : Clients) (event : ClientEvent)
    (requestId : String) : Prop :=
  clients.Notes cfg event requestId ∨
    event = .resume requestId .lptTimeout

theorem remains_step
    (windowed : clients.Windowed cfg) (someReplica : cfg.replicas ≠ [])
    (stepped : clients.Stepped cfg event next) (requestId : String) :
    next.Remains requestId ↔
      clients.Remains requestId ∨
        clients.LeavesEntry cfg event requestId := by
  rw [Remains, noted_step stepped,
    leftInWindow_step windowed someReplica stepped]
  exact or_or_or_comm

end Clients

end LlmDRl.Admission
