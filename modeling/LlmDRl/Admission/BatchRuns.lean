import LlmDRl.Admission.Assignments
import LlmDRl.Admission.Batches

/-!
# Every batch of a run

After any run that ends at rest, a batch is coordinated at each of its events
if the window and the groups it needs have not been used by an earlier one.
The second batch of a run that needs a window, or a group key of the first
one, is not.
-/

namespace LlmDRl.Admission

open LlmDRl.Library
open scoped List NNRat

namespace Deciding

variable {cfg : Config} {start now next : Deciding}
  {sent : List String} {fresh : List Notice} {event : ClientEvent}

/-- While a window collects, its sessions are the calls waiting in it. -/
theorem mem_sessions_iff_inWindow
    (batch : Clients.InBatch start.clients sent fresh now.clients)
    (windowed : now.clients.Windowed cfg) (replicas : cfg.replicas ≠ [])
    (collecting : now.clients.calls.ledger.lptTables.closed = false)
    (requestId : String) :
    requestId ∈ now.clients.calls.ledger.lptTables.sessions ↔
      now.clients.InWindow requestId := by
  refine ⟨batch.attended requestId, ?_⟩
  rintro ⟨held, waits, inside⟩
  cases held with
  | poll size deadline =>
      cases inside
  | group groupKey size sessionWork =>
      cases inside
  | lptWindow size =>
      exact (windowed.opener requestId size waits).2.1
  | lptEvent size =>
      rcases windowed.member requestId size waits collecting with
        member | noReplica
      · exact member
      · exact absurd noReplica replicas

/-- The end of the window decides for all who arrived in it, longest work
first, and places the one that opened it. -/
theorem placed_of_endsWindow
    (batch : Clients.InBatch start.clients sent fresh now.clients)
    (windowed : now.clients.Windowed cfg)
    (replicas : cfg.replicas ≠ []) (named : "" ∉ cfg.replicas)
    (ends : now.clients.EndsWindow event)
    (stepped : now.step cfg event = some next) :
    ∃ placed,
      LongestFirst cfg now.clients.books
        now.clients.calls.ledger.lptPending placed ∧
      (∀ requestId,
        requestId ∈ now.clients.calls.ledger.lptTables.sessions ↔
          now.clients.InWindow requestId) ∧
      ∀ entry ∈ placed,
        next.decided entry.1.2.1 = some entry.2 ∧
          ∀ wakeup, event = .resume entry.1.2.1 wakeup →
            next.clients.calls.log =
              .segment entry.1.2.1 0 (some ⟨entry.2, .lpt⟩)
                  (.returned ⟨entry.2, none⟩) ::
                now.clients.calls.log := by
  obtain ⟨clients, clientStep, rfl⟩ := Option.map_eq_some_iff.mp stepped
  cases scheduled : now.clients.calls.ledger.lptSchedule cfg with
  | none =>
      exact absurd (Ledger.lptSchedule_eq_none scheduled) replicas
  | some placed =>
      have longest := Ledger.longestFirst_of_lptSchedule scheduled
      cases Clients.stepped_of_step clientStep with
      | acquired requestId contextSize hint clock turn due =>
          exact absurd ends not_false
      | generated requestId succeeded turn placed =>
          exact absurd ends not_false
      | recorded requestId contextSize turn succeeded ended =>
          exact absurd ends not_false
      | finished requestId turn last =>
          exact absurd ends not_false
      | resumed requestId wakeup waiting segment acquiring parked ran =>
          obtain ⟨contextSize, rfl⟩ := endsWindow_resume parked ends
          obtain ⟨collecting, _⟩ :=
            windowed.opener requestId contextSize parked
          have runs := segmentOf_resume acquiring parked ran
          have closes : segment =
              (now.clients.calls.ledger.closeWindow placed).lptFinish cfg
                requestId contextSize := by
            rw [← Ledger.lptWindowOver_of_scheduled scheduled]
            rcases Ledger.resume_lpt ran with ⟨outside, _⟩ | exits
            · exact absurd trivial outside
            · cases exits
              rfl
          have distinct :
              (placed.map fun entry => entry.1.2.1).Nodup := by
            have sessions := longest.everyone.map
              fun item : ℚ × String × ℚ => item.2.1
            rw [List.map_map] at sessions
            exact sessions.nodup_iff.mpr windowed.distinct
          refine ⟨placed, longest,
            mem_sessions_iff_inWindow batch windowed replicas collecting,
            ?_⟩
          intro entry member
          have written : ∀ dict : OrderedDict String String,
              (dict.assignAll (fun item : ℚ × String × ℚ => item.2.1)
                placed).get? entry.1.2.1 = some entry.2 := by
            intro dict
            apply OrderedDict.get?_assignAll_of_mem
            · exact distinct
            · exact member
          have target : entry.2 ≠ "" := by
            intro unnamed
            exact named
              (unnamed ▸ Ledger.lptSchedule_mem scheduled member)
          have opener : entry.1.2.1 = requestId →
              segment.booked = some ⟨entry.2, .lpt⟩ ∧
                segment.outcome = .returned ⟨entry.2, none⟩ := by
            intro caller
            have assigned : (now.clients.calls.ledger.closeWindow
                placed).lptResult.get? requestId = some entry.2 := by
              rw [← caller]
              exact written now.clients.calls.ledger.lptResult
            rw [closes]
            exact Ledger.lptFinish_of_assigned contextSize assigned target
          refine ⟨?_, ?_⟩
          · change now.decisions cfg (.resume requestId wakeup)
              entry.1.2.1 = some entry.2
            obtain ⟨elsewhere, here⟩ := decisions_of_segmentOf runs
            by_cases caller : entry.1.2.1 = requestId
            · rw [caller, here, (opener caller).1]
              rfl
            · rw [elsewhere _ caller, batched, Clients.batchOf,
                if_pos ends, scheduled, Option.getD_some, written]
              rfl
          · intro wakeup same
            obtain ⟨caller, rfl⟩ := ClientEvent.resume.inj same
            obtain ⟨booked, outcome⟩ := opener caller.symm
            change Notice.segment requestId 0 segment.booked
              segment.outcome :: now.clients.calls.log = _
            rw [booked, outcome, caller]

/-- A session that wakes up is placed where the batch has decided. -/
theorem placed_of_collected
    (windowed : now.clients.Windowed cfg) (assigned : now.Assigned)
    (within : now.clients.calls.ledger.Within cfg)
    (named : "" ∉ cfg.replicas) {requestId : String}
    (stepped : now.step cfg (.resume requestId .lptReady) = some next) :
    ∃ target, now.decided requestId = some target ∧
      next.clients.calls.log =
        .segment requestId 0 (some ⟨target, .lpt⟩)
            (.returned ⟨target, none⟩) ::
          now.clients.calls.log := by
  obtain ⟨clients, clientStep, rfl⟩ := Option.map_eq_some_iff.mp stepped
  cases Clients.stepped_of_step clientStep with
  | resumed _ _ waiting segment acquiring parked ran =>
      cases waiting with
      | poll size deadline =>
          cases ran
      | group groupKey size sessionWork =>
          cases ran
      | lptWindow size =>
          cases ran
      | lptEvent size =>
          rcases Ledger.resume_lpt ran with ⟨outside, _⟩ | exits
          · exact absurd trivial outside
          · cases exits with
            | collected _ set =>
                have closed := windowed.closedSet.mpr set
                obtain ⟨target, found⟩ := Option.ne_none_iff_exists'.mp
                  (windowed.assigned requestId size parked closed)
                have replica : target ≠ "" := by
                  intro unnamed
                  exact named
                    (unnamed ▸ within.result requestId target found)
                have finish :
                    (now.clients.calls.ledger.lptFinish cfg requestId
                        size).booked = some ⟨target, .lpt⟩ ∧
                      (now.clients.calls.ledger.lptFinish cfg requestId
                        size).outcome = .returned ⟨target, none⟩ :=
                  Ledger.lptFinish_of_assigned size found replica
                obtain ⟨booked, outcome⟩ := finish
                refine ⟨target, assigned requestId size target parked found,
                  ?_⟩
                change Notice.segment requestId 0 _ _ ::
                  now.clients.calls.log = _
                rw [booked, outcome]

/-- What is decided for a session of the window stays so while it waits. -/
theorem decided_of_waiting
    (windowed : now.clients.Windowed cfg)
    (goesOn : ¬ now.clients.EndsWindow event)
    (stepped : now.step cfg event = some next) {requestId : String}
    (inWindow : now.clients.InWindow requestId)
    (stays : next.clients.InWindow requestId) :
    next.decided requestId = now.decided requestId := by
  obtain ⟨clients, clientStep, rfl⟩ := Option.map_eq_some_iff.mp stepped
  obtain ⟨held, waits, inside⟩ := inWindow
  have waiting : now.clients.calls.waiting requestId ≠ none := by
    intro gone
    cases gone.symm.trans waits
  have acquiring := windowed.acquiring requestId waiting
  change now.decisions cfg event requestId = now.decided requestId
  have same : now.batched cfg event requestId = now.decided requestId :=
    congrFun (batched_of_not_endsWindow goesOn) requestId
  cases Clients.stepped_of_step clientStep with
  | acquired caller contextSize hint clock turn due =>
      have free := windowed.free due
      obtain ⟨elsewhere, _⟩ := decisions_of_segmentOf
        (segmentOf_acquire due free contextSize hint clock)
      have different : requestId ≠ caller := by
        intro here
        subst caller
        exact waiting free
      rw [elsewhere requestId different]
      exact same
  | resumed caller wakeup parkedAs segment acquiringCaller parked ran =>
      obtain ⟨elsewhere, _⟩ :=
        decisions_of_segmentOf (segmentOf_resume acquiringCaller parked ran)
      have different : requestId ≠ caller := by
        intro here
        subst caller
        cases waits.symm.trans parked
        obtain ⟨after, waitsAfter, _⟩ := stays
        rcases Ledger.resume_lpt ran with ⟨outside, _⟩ | exits
        · exact outside inside
        · rcases Calls.waiting_ranSegment waitsAfter with
            ⟨_, suspended⟩ | ⟨elsewhere, _⟩
          · exact exits.not_suspended after suspended
          · exact elsewhere rfl
      rw [elsewhere requestId different]
      exact same
  | generated caller succeeded turn placed =>
      exact same
  | recorded caller contextSize turn succeeded ended =>
      exact same
  | finished caller turn last =>
      have different : requestId ≠ caller := by
        intro here
        subst caller
        cases last.symm.trans acquiring
      exact Function.update_of_ne different _ _

/-! ## Every batch -/

/-- The step leaves this segment of `acquire` behind. -/
def Leaves (now next : Deciding) (requestId : String) (turnIndex : Int)
    (booked : Option Booking) (outcome : Outcome) : Prop :=
  next.clients.calls.log =
    .segment requestId turnIndex booked outcome :: now.clients.calls.log

/-- The step is coordinated with what its batch has done before it: the group
keys `sent` and the notices `fresh` are those of the batch alone. -/
structure Coordinated (cfg : Config) (sent : List String)
    (fresh : List Notice) (now : Deciding) (event : ClientEvent)
    (next : Deciding) : Prop where
  /-- A turn 0 outside the groups arrives at the window. -/
  arrives : 0 < cfg.lptWindowS →
    ∀ requestId contextSize hint clock,
      event = .acquire requestId contextSize hint clock →
        now.clients.phase requestId = .idle →
          (cfg.staggerGroups = true → hint.groupKey.getD "" = "") →
            ∃ booked outcome,
              now.Leaves next requestId 0 booked outcome ∧
                (Notice.segment requestId 0 booked outcome).ReachesLpt
  /-- The first arrival opens a window. -/
  opens : (∀ notice ∈ fresh, ¬ notice.ReachesLpt) →
    ∀ requestId turnIndex booked outcome,
      now.Leaves next requestId turnIndex booked outcome →
        (Notice.segment requestId turnIndex booked outcome).ReachesLpt →
          outcome = .suspended (.lptWindow (now.clients.arrival event).1) ∧
            next.clients.calls.ledger.lptPending =
              [(-sessionLoad (now.clients.arrival event).1
                  (now.clients.arrival event).2,
                requestId, (now.clients.arrival event).1)]
  /-- Until it ends it collects the later arrivals. -/
  joins : now.clients.calls.ledger.lptEvent = some false →
    ¬ now.clients.EndsWindow event →
      ∀ requestId turnIndex booked outcome,
        now.Leaves next requestId turnIndex booked outcome →
          (Notice.segment requestId turnIndex booked outcome).ReachesLpt →
            outcome =
                .suspended (.lptEvent (now.clients.arrival event).1) ∧
              next.clients.calls.ledger.lptPending =
                now.clients.calls.ledger.lptPending ++
                  [(-sessionLoad (now.clients.arrival event).1
                      (now.clients.arrival event).2,
                    requestId, (now.clients.arrival event).1)]
  /-- Nothing else changes who is collected. -/
  keeps : ¬ now.clients.EndsWindow event →
    (∀ requestId turnIndex booked waiting,
      now.Leaves next requestId turnIndex booked (.suspended waiting) →
        ¬ waiting.InWindow) →
      next.clients.calls.ledger.lptPending =
        now.clients.calls.ledger.lptPending
  /-- Its end decides for all who wait in it, longest work first. -/
  places : now.clients.EndsWindow event →
    ∃ placed,
      LongestFirst cfg now.clients.books
        now.clients.calls.ledger.lptPending placed ∧
      (∀ requestId,
        requestId ∈ now.clients.calls.ledger.lptTables.sessions ↔
          now.clients.InWindow requestId) ∧
      ∀ entry ∈ placed,
        next.decided entry.1.2.1 = some entry.2 ∧
          ∀ wakeup, event = .resume entry.1.2.1 wakeup →
            now.Leaves next entry.1.2.1 0 (some ⟨entry.2, .lpt⟩)
              (.returned ⟨entry.2, none⟩)
  /-- A decision stays while its session waits. -/
  waits : ¬ now.clients.EndsWindow event →
    ∀ requestId, now.clients.InWindow requestId →
      next.clients.InWindow requestId →
        next.decided requestId = now.decided requestId
  /-- The session is placed where it was decided. -/
  collects : ∀ requestId, event = .resume requestId .lptReady →
    ∃ target, now.decided requestId = some target ∧
      now.Leaves next requestId 0 (some ⟨target, .lpt⟩)
        (.returned ⟨target, none⟩)
  /-- The first member of a group leads it. -/
  leads : cfg.staggerGroups = true →
    ∀ requestId contextSize hint clock groupKey,
      event = .acquire requestId contextSize hint clock →
        now.clients.phase requestId = .idle →
          hint.groupKey = some groupKey → groupKey ≠ "" →
            groupKey ∉ sent →
              ∃ replica,
                now.Leaves next requestId 0
                  (some ⟨replica, .leader groupKey⟩)
                  (.returned ⟨replica, none⟩)
  /-- A source is handed out after a turn 0: a leader's, if it is handed to a
  follower, or else the trajectory's own. -/
  sources : ∀ requestId turnIndex booked placement source,
    now.Leaves next requestId turnIndex booked (.returned placement) →
      placement.kvSource = some source →
        (∃ groupKey leaderRid leaderTurn replica,
          booked = some ⟨placement.replica, .follower groupKey⟩ ∧
            [.recorded leaderRid 0,
              .ledBy groupKey leaderRid replica leaderTurn] <+ fresh) ∨
        .recorded requestId 0 ∈ fresh

end Deciding

namespace Clients

/-- The ledger coordinates this batch: no earlier batch has opened a window
or claimed one of its group keys, and no session gives up on the window. -/
structure FreshFor (cfg : Config) (start : Clients)
    (batch : List ClientEvent) : Prop where
  replicas : cfg.replicas ≠ []
  named : "" ∉ cfg.replicas
  unopened : start.calls.ledger.lptEvent = none
  unclaimed : ∀ groupKey ∈ emitted (Clients.step cfg) sends start batch,
    groupKey ∉ start.calls.ledger.groupClaimed
  patient : ∀ event ∈ batch, ¬ event.TimesOut

end Clients

namespace Deciding

/-- What every state of a batch knows. -/
structure Underway (cfg : Config) (start : Deciding) (sent : List String)
    (fresh : List Notice) (now : Deciding) : Prop where
  batch : Clients.InBatch start.clients sent fresh now.clients
  windowed : now.clients.Windowed cfg
  within : now.clients.calls.ledger.Within cfg
  assigned : now.Assigned
  grouped : now.clients.Grouped cfg
  groupedStart : start.clients.Grouped cfg

theorem Underway.coordinated
    (underway : Underway cfg start sent fresh now)
    (replicas : cfg.replicas ≠ []) (named : "" ∉ cfg.replicas)
    (unclaimed : ∀ groupKey ∈ sent ++ now.clients.sends event,
      groupKey ∉ start.clients.calls.ledger.groupClaimed)
    (patient : ¬ event.TimesOut)
    (stepped : now.step cfg event = some next) :
    Coordinated cfg sent fresh now event next := by
  obtain ⟨clients, clientStep, reached⟩ :=
    Option.map_eq_some_iff.mp stepped
  have reachedClients : next.clients = clients := by
    rw [← reached]
  have toNext : now.clients.step cfg event = some next.clients := by
    rw [reachedClients]
    exact clientStep
  exact
    { arrives := by
        intro window requestId contextSize hint clock same idle ungrouped
        subst event
        have args : cfg.staggerGroups = true →
            (hint.args 0 contextSize).groupKey.getD "" = "" :=
          ungrouped
        exact ⟨_, _, Clients.log_of_first idle toNext,
          Ledger.acquire_reaches replicas window requestId clock
            (lt_irrefl 0) args 0⟩
      opens := by
        intro silence requestId turnIndex booked outcome leaves reaches
        obtain ⟨turn, segment, rfl, rfl, rfl, after, ran⟩ :=
          Clients.ran_of_step toNext leaves
        rw [after]
        exact underway.batch.opens underway.windowed silence ran reaches
      joins := by
        intro collecting goesOn requestId turnIndex booked outcome leaves
          reaches
        obtain ⟨turn, segment, rfl, rfl, rfl, after, ran⟩ :=
          Clients.ran_of_step toNext leaves
        rw [after]
        exact Clients.joins underway.windowed collecting patient goesOn ran
          reaches
      keeps := by
        intro goesOn noArrival
        exact Clients.pending_kept goesOn toNext noArrival
      places := by
        intro ends
        exact placed_of_endsWindow underway.batch underway.windowed
          replicas named ends stepped
      waits := by
        intro goesOn requestId inWindow stays
        exact decided_of_waiting underway.windowed goesOn stepped inWindow
          stays
      collects := by
        intro requestId same
        subst event
        exact placed_of_collected underway.windowed underway.assigned
          underway.within named stepped
      leads := by
        intro staggered requestId contextSize hint clock groupKey same idle
          key given first
        subst event
        have sends : groupKey ∈ now.clients.sends
            (.acquire requestId contextSize hint clock) := by
          rw [Clients.sends, if_pos idle]
          exact Option.mem_toList.mpr key
        have notClaimed :
            groupKey ∉ now.clients.calls.ledger.groupClaimed := by
          intro claimed
          rcases underway.batch.claimed groupKey claimed with
            older | earlier
          · exact unclaimed groupKey (List.mem_append_right sent sends)
              older
          · exact first earlier
        have args : (hint.args 0 contextSize).groupKey = some groupKey :=
          key
        obtain ⟨replica, booked, outcome⟩ :=
          Ledger.acquire_leads replicas staggered requestId clock
            (lt_irrefl 0) args given notClaimed
        refine ⟨replica, ?_⟩
        rw [Leaves, Clients.log_of_first idle toNext, booked, outcome]
      sources := by
        intro requestId turnIndex booked placement source leaves handed
        obtain ⟨turn, segment, rfl, rfl, outcome, after, ran⟩ :=
          Clients.ran_of_step toNext leaves
        exact underway.batch.sources underway.grouped
          underway.groupedStart unclaimed ran outcome.symm handed }

theorem underway_of_run
    {earlier before : List ClientEvent}
    (ranEarlier : run (step cfg) (init cfg) earlier = some start)
    (rest : start.clients.AtRest)
    (unopened : start.clients.calls.ledger.lptEvent = none)
    (patient : ∀ event ∈ before, ¬ event.TimesOut)
    (ran : run (step cfg) start before = some now) :
    ∃ fresh,
      Underway cfg start
        (emitted (Clients.step cfg) Clients.sends start.clients before)
        fresh now := by
  have ranAll : run (step cfg) (init cfg) (earlier ++ before) = some now := by
    rw [run_append ranEarlier]
    exact ran
  have clientsAll : run (Clients.step cfg) (Clients.init cfg)
      (earlier ++ before) = some now.clients :=
    (run_iff_clients cfg _ (init cfg) now.clients).mp ⟨now.decided, ranAll⟩
  have clientsEarlier : run (Clients.step cfg) (Clients.init cfg) earlier =
      some start.clients :=
    (run_iff_clients cfg _ (init cfg) start.clients).mp
      ⟨start.decided, ranEarlier⟩
  have clientsBatch : run (Clients.step cfg) start.clients before =
      some now.clients :=
    (run_iff_clients cfg _ start now.clients).mp ⟨now.decided, ran⟩
  have windowedStart := windowed_of_run ranEarlier
  have first := Clients.InBatch.first rest windowedStart unopened
  obtain ⟨fresh, batch⟩ := first.run windowedStart patient clientsBatch
  rw [List.nil_append] at batch
  exact ⟨fresh,
    { batch := batch
      windowed := windowed_of_run ranAll
      within := run_invariant
        (fun _ _ _ within stepped => Clients.within_step within stepped)
        (Ledger.Within.init cfg) clientsAll
      assigned := assigned_of_run ranAll
      grouped := Clients.grouped_of_run clientsAll
      groupedStart := Clients.grouped_of_run clientsEarlier }⟩

/-- After any run that ends at rest, a batch that needs no window and no group
of an earlier one is coordinated at every one of its events, whatever follows
it. -/
theorem batch_coordinated_if_fresh
    (cfg : Config) (earlier : List ClientEvent) (start : Deciding)
    (ranEarlier : run (step cfg) (init cfg) earlier = some start)
    (rest : start.clients.AtRest) (batch : List ClientEvent)
    (freshFor : start.clients.FreshFor cfg batch) :
    ∀ before event after now next,
      batch = before ++ event :: after →
        run (step cfg) start before = some now →
          now.step cfg event = some next →
            ∃ fresh,
              now.clients.calls.log = fresh ++ start.clients.calls.log ∧
                Coordinated cfg
                  (emitted (Clients.step cfg) Clients.sends start.clients
                    before)
                  fresh now event next := by
  intro before event after now next split ran stepped
  have patient : ∀ earlierEvent ∈ before, ¬ earlierEvent.TimesOut := by
    intro earlierEvent member
    apply freshFor.patient
    rw [split]
    exact List.mem_append_left _ member
  obtain ⟨fresh, underway⟩ :=
    underway_of_run ranEarlier rest freshFor.unopened patient ran
  have clientsBatch : run (Clients.step cfg) start.clients before =
      some now.clients :=
    (run_iff_clients cfg _ start now.clients).mp ⟨now.decided, ran⟩
  refine ⟨fresh, underway.batch.log, underway.coordinated
    freshFor.replicas freshFor.named ?_ ?_ stepped⟩
  · intro groupKey member
    apply freshFor.unclaimed
    rw [split, emitted_append clientsBatch]
    rcases List.mem_append.mp member with older | own
    · exact List.mem_append_left _ older
    · exact List.mem_append_right _ (List.mem_append_left _ own)
  · apply freshFor.patient
    rw [split]
    exact List.mem_append_right _ (List.mem_cons_self ..)

end Deciding

/-! ## Who a run is about -/

namespace Clients

variable {cfg : Config} {start final : Clients}

/-- A run is at rest when the trajectories it is about are done. -/
theorem atRest_of_run
    {events : List ClientEvent} {requestIds : List String}
    (ran : run (step cfg) (init cfg) events = some final)
    (about : ∀ event ∈ events, event.requestId ∈ requestIds)
    (done : ∀ requestId ∈ requestIds, final.phase requestId = .done) :
    final.AtRest := by
  intro requestId
  by_cases known : requestId ∈ requestIds
  · exact .inr (done requestId known)
  · have others : StepsMeet (step cfg)
        (fun _ event => requestId ≠ event.requestId) (init cfg) events := by
      apply stepsMeet_of_forall
      intro event member _ same
      exact known (same ▸ about event member)
    have preserved : ∀ (state : Clients) event next,
        state.phase requestId = .idle → requestId ≠ event.requestId →
          step cfg state event = some next →
            next.phase requestId = .idle := by
      intro state event next idle other stepped
      rw [phase_of_other stepped other]
      exact idle
    have untouched : final.phase requestId = .idle :=
      run_invariant_of_stepsMeet preserved rfl others ran
    exact .inl untouched

end Clients

/-! ## A second batch -/

/-- What becomes of a placed trajectory that ends after its first turn. -/
def onlyTurn (requestId : String) : List ClientEvent :=
  [.generateEnds requestId true, .recordTurn requestId 1, .done requestId]

/-- A batch of one session, placed at the end of its window. -/
def windowBatch : List ClientEvent :=
  [.acquire "t1" 1 {} ⟨0, 0⟩, .resume "t1" .lptWindowOver] ++ onlyTurn "t1"

/-- A batch of one session, the leader of its group. -/
def groupBatch : List ClientEvent :=
  .acquire "t1" 1 ⟨none, none, some "g"⟩ ⟨0, 0⟩ :: onlyTurn "t1"

/-- The first call of the next batch. -/
def nextArrival (groupKey : Option String) : ClientEvent :=
  .acquire "u1" 1 ⟨none, none, groupKey⟩ ⟨0, 0⟩

/-- Staggered groups, and a window for the sessions outside them. -/
def staggeredWindow : Config :=
  { staggered with lptWindowS := 1 }

/-- The next batch has another group, and sessions outside it: a leader and
its follower, and a window with two sessions, the longer one last. -/
def mixedBatch (long : ℚ≥0) : List ClientEvent :=
  [.acquire "lead" 1 ⟨none, none, some "h"⟩ ⟨0, 0⟩,
    .acquire "member" 1 ⟨none, none, some "h"⟩ ⟨0, 0⟩,
    .acquire "short" 1 {} ⟨0, 0⟩, .acquire "long" long {} ⟨0, 0⟩,
    .resume "short" .lptWindowOver, .resume "long" .lptReady,
    .generateEnds "lead" true, .recordTurn "lead" long,
    .resume "member" (.groupReady ⟨0, 0⟩)]

namespace Deciding

theorem atRest_of_run
    {cfg : Config} {events : List ClientEvent} {final : Deciding}
    {requestIds : List String}
    (ran : run (step cfg) (init cfg) events = some final)
    (about : ∀ event ∈ events, event.requestId ∈ requestIds)
    (done : ∀ requestId ∈ requestIds,
      final.clients.phase requestId = .done) :
    final.clients.AtRest :=
  Clients.atRest_of_run
    ((run_iff_clients cfg events (init cfg) final.clients).mp
      ⟨final.decided, ran⟩)
    about done

/-- A batch with another group key is coordinated. -/
theorem batch_coordinated_if_fresh_other_group :
    ∃ start final,
      run (step staggeredWindow) (init staggeredWindow) groupBatch =
          some start ∧
        start.clients.AtRest ∧
        run (step staggeredWindow) start (mixedBatch 7) = some final ∧
        (["lead", "member", "short", "long"].map
            final.clients.books.resident.get?) =
          [some "A", some "B", some "A", some "B"] ∧
        ∀ before event after now next,
          mixedBatch 7 = before ++ event :: after →
            run (step staggeredWindow) start before = some now →
              now.step staggeredWindow event = some next →
                ∃ fresh,
                  now.clients.calls.log =
                      fresh ++ start.clients.calls.log ∧
                    Coordinated staggeredWindow
                      (emitted (Clients.step staggeredWindow) Clients.sends
                        start.clients before)
                      fresh now event next := by
  obtain ⟨start, ran, reached⟩ :=
    exists_final_of_map_eq
      (show (run (step staggeredWindow) (init staggeredWindow)
          groupBatch).map
        (fun start => decide (
          (∀ requestId ∈ ["t1"], start.clients.phase requestId = .done) ∧
          start.clients.calls.ledger.lptEvent = none ∧
          (∀ groupKey ∈ emitted (Clients.step staggeredWindow)
              Clients.sends start.clients (mixedBatch 7),
            groupKey ∉ start.clients.calls.ledger.groupClaimed) ∧
          (run (step staggeredWindow) start (mixedBatch 7)).map (fun final =>
              ["lead", "member", "short", "long"].map
                final.clients.books.resident.get?) =
            some [some "A", some "B", some "A", some "B"])) =
          some true by decide +kernel)
  obtain ⟨done, unopened, unclaimed, placed⟩ := of_decide_eq_true reached
  have rest := atRest_of_run ran (by decide) done
  obtain ⟨final, ranBatch, residents⟩ := Option.map_eq_some_iff.mp placed
  refine ⟨start, final, ran, rest, ranBatch, residents, ?_⟩
  exact batch_coordinated_if_fresh staggeredWindow groupBatch start ran rest
    (mixedBatch 7)
    { replicas := by decide
      named := by decide
      unopened := unopened
      unclaimed := unclaimed
      patient := by decide }

/-- The second batch gets no window: its first arrival is placed at once.
And the first member of a group whose key has been used before is no leader:
it follows, with a source, before anyone of its batch has had a turn. -/
theorem second_batch_is_not_coordinated :
    (∃ start next,
      run (step windowedPair) (init windowedPair) windowBatch =
          some start ∧
        start.clients.AtRest ∧
        start.step windowedPair (nextArrival none) = some next ∧
        start.Leaves next "u1" 0 (some ⟨"A", .lpt⟩)
          (.returned ⟨"A", none⟩) ∧
        ¬ Coordinated windowedPair [] [] start (nextArrival none) next) ∧
    ∃ start next,
      run (step staggered) (init staggered) groupBatch = some start ∧
        start.clients.AtRest ∧
        start.step staggered (nextArrival (some "g")) = some next ∧
        start.Leaves next "u1" 0 (some ⟨"B", .follower "g"⟩)
          (.returned ⟨"B", some "127.0.7.1:7777"⟩) ∧
        ¬ Coordinated staggered [] [] start (nextArrival (some "g"))
          next := by
  refine ⟨?_, ?_⟩
  · obtain ⟨start, ran, reached⟩ :=
      exists_final_of_map_eq
        (show (run (step windowedPair) (init windowedPair) windowBatch).map
          (fun start => decide (
            (∀ requestId ∈ ["t1"],
              start.clients.phase requestId = .done) ∧
            (start.step windowedPair (nextArrival none)).map
                (fun next => next.clients.calls.log) =
              some (.segment "u1" 0 (some ⟨"A", .lpt⟩)
                (.returned ⟨"A", none⟩) ::
                  start.clients.calls.log))) = some true
          by decide +kernel)
    obtain ⟨done, logged⟩ := of_decide_eq_true reached
    obtain ⟨next, stepped, leaves⟩ := Option.map_eq_some_iff.mp logged
    refine ⟨start, next, ran, atRest_of_run ran (by decide) done, stepped,
      leaves, ?_⟩
    intro coordinated
    obtain ⟨opened, _⟩ := coordinated.opens
      (fun _ impossible => by cases impossible) "u1" 0 _ _ leaves
      (.inl ⟨_, rfl, rfl⟩)
    cases opened
  · obtain ⟨start, ran, reached⟩ :=
      exists_final_of_map_eq
        (show (run (step staggered) (init staggered) groupBatch).map
          (fun start => decide (
            (∀ requestId ∈ ["t1"],
              start.clients.phase requestId = .done) ∧
            (start.step staggered (nextArrival (some "g"))).map
                (fun next => next.clients.calls.log) =
              some (.segment "u1" 0 (some ⟨"B", .follower "g"⟩)
                (.returned ⟨"B", some "127.0.7.1:7777"⟩) ::
                  start.clients.calls.log))) = some true
          by decide +kernel)
    obtain ⟨done, logged⟩ := of_decide_eq_true reached
    obtain ⟨next, stepped, leaves⟩ := Option.map_eq_some_iff.mp logged
    refine ⟨start, next, ran, atRest_of_run ran (by decide) done, stepped,
      leaves, ?_⟩
    intro coordinated
    rcases coordinated.sources "u1" 0 _ _ _ leaves rfl with
      ⟨_, _, _, _, _, ordered⟩ | recorded
    · cases ordered
    · cases recorded

end Deciding

end LlmDRl.Admission
