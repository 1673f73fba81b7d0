import LlmDRl.Admission.Replicas

/-!
# The LPT window over whole runs

One window is ever opened.  Its sessions are the trajectories parked in it,
until it is over; from then on each of them has a replica assigned for as
long as it has not woken up.
-/

namespace LlmDRl.Admission

open LlmDRl.Library

/-- The tables of the window, read against who waits where. -/
structure WindowConsistent (cfg : Config) (tables : LptTables)
    (waiting : String → Option Waiting) (phase : String → Phase) :
    Prop where
  unopened : tables.event = none →
    tables.pending = [] ∧ ∀ requestId parked,
      waiting requestId = some parked → ¬ parked.InWindow
  closedSet : tables.closed = true ↔ tables.event = some true
  emptied : tables.closed = true → tables.pending = []
  unassigned : tables.closed = false → ∀ requestId,
    tables.result.get? requestId = none
  distinct : tables.sessions.Nodup
  known : ∀ requestId ∈ tables.sessions, phase requestId ≠ .idle
  outsider : ∀ requestId parked, waiting requestId = some parked →
    ¬ parked.InWindow → requestId ∉ tables.sessions
  opener : ∀ requestId contextSize,
    waiting requestId = some (.lptWindow contextSize) →
      tables.closed = false ∧ requestId ∈ tables.sessions ∧
        ∀ other size, waiting other = some (.lptWindow size) →
          other = requestId
  member : ∀ requestId contextSize,
    waiting requestId = some (.lptEvent contextSize) →
      tables.closed = false →
        requestId ∈ tables.sessions ∨ cfg.replicas = []
  assigned : ∀ requestId contextSize,
    waiting requestId = some (.lptEvent contextSize) →
      tables.closed = true → tables.result.get? requestId ≠ none
  acquiring : ∀ requestId, waiting requestId ≠ none →
    phase requestId = .acquiring

namespace WindowConsistent

variable {cfg : Config} {tables : LptTables}
  {waiting : String → Option Waiting} {phase : String → Phase}
  {requestId : String} {next : Phase}

/-- Whoever waits in the window after one call has moved on elsewhere waited
there before. -/
theorem inWindow_of_update
    {parked : Option Waiting}
    (outside : ∀ held, parked = some held → ¬ held.InWindow)
    {other : String} {held : Waiting}
    (found : Function.update waiting requestId parked other = some held)
    (inWindow : held.InWindow) :
    other ≠ requestId ∧ waiting other = some held := by
  by_cases here : other = requestId
  · subst other
    rw [Function.update_self] at found
    exact absurd inWindow (outside held found)
  · rw [Function.update_of_ne here] at found
    exact ⟨here, found⟩

theorem acquiring_update
    (consistent : WindowConsistent cfg tables waiting phase)
    {parked : Option Waiting}
    (suspended : parked ≠ none → next = .acquiring) (other : String)
    (found : Function.update waiting requestId parked other ≠ none) :
    Function.update phase requestId next other = .acquiring := by
  by_cases here : other = requestId
  · subst other
    rw [Function.update_self] at found ⊢
    exact suspended found
  · rw [Function.update_of_ne here] at found ⊢
    exact consistent.acquiring other found

theorem known_update
    (consistent : WindowConsistent cfg tables waiting phase)
    (started : next ≠ .idle) (other : String)
    (member : other ∈ tables.sessions) :
    Function.update phase requestId next other ≠ .idle := by
  by_cases here : other = requestId
  · subst other
    rw [Function.update_self]
    exact started
  · rw [Function.update_of_ne here]
    exact consistent.known other member

/-- A call moves on outside the window, or leaves it. -/
theorem elsewhere
    (consistent : WindowConsistent cfg tables waiting phase)
    {parked : Option Waiting}
    (outside : ∀ held, parked = some held →
      ¬ held.InWindow ∧ requestId ∉ tables.sessions)
    (suspended : parked ≠ none → next = .acquiring)
    (started : next ≠ .idle) :
    WindowConsistent cfg tables (Function.update waiting requestId parked)
      (Function.update phase requestId next) := by
  have before : ∀ other held,
      Function.update waiting requestId parked other = some held →
        held.InWindow → other ≠ requestId ∧ waiting other = some held :=
    fun other held found inWindow =>
      inWindow_of_update (fun held same => (outside held same).1) found
        inWindow
  refine
    { unopened := ?_
      closedSet := consistent.closedSet
      emptied := consistent.emptied
      unassigned := consistent.unassigned
      distinct := consistent.distinct
      known := consistent.known_update started
      outsider := ?_
      opener := ?_
      member := ?_
      assigned := ?_
      acquiring := consistent.acquiring_update suspended }
  · intro unset
    obtain ⟨empty, nobody⟩ := consistent.unopened unset
    refine ⟨empty, ?_⟩
    intro other held found inWindow
    exact nobody other held (before other held found inWindow).2 inWindow
  · intro other held found notInWindow
    by_cases here : other = requestId
    · subst other
      rw [Function.update_self] at found
      exact (outside held found).2
    · rw [Function.update_of_ne here] at found
      exact consistent.outsider other held found notInWindow
  · intro other size found
    obtain ⟨_, old⟩ := before other _ found trivial
    obtain ⟨collecting, inSessions, unique⟩ :=
      consistent.opener other size old
    refine ⟨collecting, inSessions, ?_⟩
    intro third thirdSize thirdFound
    exact unique third thirdSize (before third _ thirdFound trivial).2
  · intro other size found
    exact consistent.member other size (before other _ found trivial).2
  · intro other size found
    exact consistent.assigned other size (before other _ found trivial).2

/-- A call opens the window. -/
theorem opened
    (consistent : WindowConsistent cfg tables waiting phase)
    (collecting : tables.closed = false) (unset : tables.event = none)
    (contextSize : ℚ) (sessionWork : Option ℚ) :
    WindowConsistent cfg
      { tables.collect requestId contextSize sessionWork with
        event := some false }
      (Function.update waiting requestId (some (.lptWindow contextSize)))
      (Function.update phase requestId .acquiring) := by
  obtain ⟨empty, nobody⟩ := consistent.unopened unset
  have alone :
      (tables.collect requestId contextSize sessionWork).sessions =
        [requestId] := by
    rw [LptTables.sessions_collect, LptTables.sessions, empty]
    rfl
  have others : ∀ other held,
      Function.update waiting requestId (some (.lptWindow contextSize))
          other = some held → held.InWindow → other = requestId := by
    intro other held found inWindow
    by_contra different
    rw [Function.update_of_ne different] at found
    exact nobody other held found inWindow
  refine
    { unopened := ?_
      closedSet := ?_
      emptied := ?_
      unassigned := consistent.unassigned
      distinct := ?_
      known := ?_
      outsider := ?_
      opener := ?_
      member := ?_
      assigned := ?_
      acquiring := consistent.acquiring_update fun _ => rfl }
  · intro impossible
    cases impossible
  · simp [LptTables.collect, collecting]
  · intro closed
    cases collecting.symm.trans closed
  · change (tables.collect requestId contextSize
      sessionWork).sessions.Nodup
    rw [alone]
    exact List.nodup_singleton requestId
  · intro other member
    change other ∈ (tables.collect requestId contextSize
      sessionWork).sessions at member
    rw [alone, List.mem_singleton] at member
    subst other
    simp
  · intro other held found notInWindow member
    change other ∈ (tables.collect requestId contextSize
      sessionWork).sessions at member
    rw [alone, List.mem_singleton] at member
    subst other
    rw [Function.update_self] at found
    cases found
    exact notInWindow trivial
  · intro other size found
    obtain rfl := others other _ found trivial
    refine ⟨collecting, ?_, ?_⟩
    · change other ∈ (tables.collect other contextSize
        sessionWork).sessions
      rw [alone]
      exact List.mem_singleton_self other
    · intro third thirdSize thirdFound
      exact others third _ thirdFound trivial
  · intro other size found
    obtain rfl := others other _ found trivial
    rw [Function.update_self] at found
    cases found
  · intro other size found
    obtain rfl := others other _ found trivial
    rw [Function.update_self] at found
    cases found

/-- A call joins the open window. -/
theorem joined
    (consistent : WindowConsistent cfg tables waiting phase)
    (collecting : tables.closed = false) (present : tables.event ≠ none)
    (outside : requestId ∉ tables.sessions)
    (contextSize : ℚ) (sessionWork : Option ℚ) :
    WindowConsistent cfg
      (tables.collect requestId contextSize sessionWork)
      (Function.update waiting requestId (some (.lptEvent contextSize)))
      (Function.update phase requestId .acquiring) := by
  have inSessions : ∀ other,
      other ∈ (tables.collect requestId contextSize
          sessionWork).sessions ↔
        other ∈ tables.sessions ∨ other = requestId := by
    intro other
    rw [LptTables.sessions_collect, List.mem_append, List.mem_singleton]
  refine
    { unopened := fun unset => absurd unset present
      closedSet := consistent.closedSet
      emptied := ?_
      unassigned := consistent.unassigned
      distinct := ?_
      known := ?_
      outsider := ?_
      opener := ?_
      member := ?_
      assigned := ?_
      acquiring := consistent.acquiring_update fun _ => rfl }
  · intro closed
    cases collecting.symm.trans closed
  · rw [LptTables.sessions_collect]
    exact consistent.distinct.append (List.nodup_singleton requestId)
      (by simpa using outside)
  · intro other member
    rcases (inSessions other).mp member with old | rfl
    · exact consistent.known_update (by simp) other old
    · rw [Function.update_self]
      simp
  · intro other held found notInWindow
    have different : other ≠ requestId := by
      intro same
      subst other
      rw [Function.update_self] at found
      cases found
      exact notInWindow trivial
    rw [Function.update_of_ne different] at found
    intro member
    rcases (inSessions other).mp member with old | same
    · exact consistent.outsider other held found notInWindow old
    · exact different same
  · intro other size found
    have different : ∀ third thirdSize,
        Function.update waiting requestId (some (.lptEvent contextSize))
            third = some (.lptWindow thirdSize) →
          waiting third = some (.lptWindow thirdSize) := by
      intro third thirdSize thirdFound
      by_cases here : third = requestId
      · subst third
        rw [Function.update_self] at thirdFound
        cases thirdFound
      · rw [Function.update_of_ne here] at thirdFound
        exact thirdFound
    obtain ⟨_, member, unique⟩ :=
      consistent.opener other size (different other size found)
    refine ⟨collecting, (inSessions other).mpr (.inl member), ?_⟩
    intro third thirdSize thirdFound
    exact unique third thirdSize (different third thirdSize thirdFound)
  · intro other size found _
    by_cases here : other = requestId
    · exact .inl ((inSessions other).mpr (.inr here))
    · rw [Function.update_of_ne here] at found
      rcases consistent.member other size found collecting with
        old | noReplica
      · exact .inl ((inSessions other).mpr (.inl old))
      · exact .inr noReplica
  · intro other size _ closed
    cases collecting.symm.trans closed

/-- Everything a segment that does not come out of the window can do. -/
theorem effect
    (consistent : WindowConsistent cfg tables waiting phase)
    {contextSize : ℚ} {sessionWork : Option ℚ} {booked : Option Booking}
    {outcome : Outcome} {after : LptTables} (turn : Nat)
    (outside : requestId ∉ tables.sessions)
    (effect :
      LptEffect cfg tables requestId contextSize sessionWork booked outcome
        after) :
    WindowConsistent cfg after
      (Function.update waiting requestId (Calls.parked outcome))
      (Function.update phase requestId
        (.afterSegment turn outcome)) := by
  have suspended : Calls.parked outcome ≠ none →
      Phase.afterSegment turn outcome = .acquiring := by
    intro parked
    cases outcome with
    | suspended held =>
        rfl
    | returned placement =>
        exact absurd rfl parked
    | raised error =>
        exact absurd rfl parked
  have started : Phase.afterSegment turn outcome ≠ .idle := by
    cases outcome <;> simp [Phase.afterSegment]
  cases effect with
  | outside rule parks =>
      refine consistent.elsewhere ?_ suspended started
      intro held parked
      refine ⟨parks held ?_, outside⟩
      cases outcome with
      | suspended waiting =>
          cases parked
          rfl
      | returned placement =>
          cases parked
      | raised error =>
          cases parked
  | late closed stays =>
      refine consistent.elsewhere ?_ suspended started
      intro held parked
      cases outcome with
      | suspended waiting =>
          exact absurd rfl (stays waiting)
      | returned placement =>
          cases parked
      | raised error =>
          cases parked
  | opened collecting unset =>
      exact consistent.opened collecting unset contextSize sessionWork
  | joined collecting present =>
      exact consistent.joined collecting present outside contextSize
        sessionWork

/-- A call wakes up from the window with nothing left of it there. -/
theorem left
    (consistent : WindowConsistent cfg tables waiting phase)
    (started : next ≠ .idle) :
    WindowConsistent cfg tables (Function.update waiting requestId none)
      (Function.update phase requestId next) := by
  refine consistent.elsewhere ?_ (fun impossible => absurd rfl impossible)
    started
  intro held impossible
  cases impossible

/-- A session collects its assignment. -/
theorem collected
    (consistent : WindowConsistent cfg tables waiting phase)
    (started : next ≠ .idle) :
    WindowConsistent cfg
      { tables with result := tables.result.erase requestId }
      (Function.update waiting requestId none)
      (Function.update phase requestId next) := by
  have gone :
      WindowConsistent cfg tables (Function.update waiting requestId none)
        (Function.update phase requestId next) :=
    consistent.left started
  refine
    { unopened := gone.unopened
      closedSet := gone.closedSet
      emptied := gone.emptied
      unassigned := ?_
      distinct := gone.distinct
      known := gone.known
      outsider := gone.outsider
      opener := gone.opener
      member := gone.member
      assigned := ?_
      acquiring := gone.acquiring }
  · intro collecting other
    rw [OrderedDict.get?_erase]
    split
    · rfl
    · exact consistent.unassigned collecting other
  · intro other size found closed
    have different : other ≠ requestId := by
      intro same
      subst other
      rw [Function.update_self] at found
      cases found
    change (tables.result.erase requestId).get? other ≠ none
    rw [OrderedDict.get?_erase_of_ne tables.result different]
    exact gone.assigned other size found closed

/-- The end of a window whose batch cannot be placed. -/
theorem unplaced
    (consistent : WindowConsistent cfg tables waiting phase)
    {contextSize : ℚ}
    (opens : waiting requestId = some (.lptWindow contextSize))
    (noReplica : cfg.replicas = []) (started : next ≠ .idle) :
    WindowConsistent cfg { tables with pending := [] }
      (Function.update waiting requestId none)
      (Function.update phase requestId next) := by
  have gone :
      WindowConsistent cfg tables (Function.update waiting requestId none)
        (Function.update phase requestId next) :=
    consistent.left started
  obtain ⟨collecting, _, unique⟩ :=
    consistent.opener requestId contextSize opens
  have nobody : ∀ other,
      other ∉ LptTables.sessions { tables with pending := [] } :=
    fun other => List.not_mem_nil
  refine
    { unopened := fun unset => ⟨rfl, (gone.unopened unset).2⟩
      closedSet := gone.closedSet
      emptied := fun _ => rfl
      unassigned := gone.unassigned
      distinct := List.nodup_nil
      known := fun other member => absurd member (nobody other)
      outsider := fun other _ _ _ => nobody other
      opener := ?_
      member := fun _ _ _ _ => .inr noReplica
      assigned := gone.assigned
      acquiring := gone.acquiring }
  intro other size found
  by_cases here : other = requestId
  · subst other
    rw [Function.update_self] at found
    cases found
  · rw [Function.update_of_ne here] at found
    exact absurd (unique other size found) here

/-- The end of a window whose batch is placed: every session still waiting
for it has a replica assigned. -/
theorem closed
    (consistent : WindowConsistent cfg tables waiting phase)
    {contextSize : ℚ}
    (opens : waiting requestId = some (.lptWindow contextSize))
    {placed : List ((ℚ × String × ℚ) × String)}
    (everyone : (placed.map Prod.fst).Perm tables.pending)
    (targets : ∀ entry ∈ placed, entry.2 ∈ cfg.replicas) :
    WindowConsistent cfg
      { pending := []
        result := (tables.result.assignAll (fun item => item.2.1)
          placed).erase requestId
        event := some true
        closed := true }
      (Function.update waiting requestId none)
      (Function.update phase requestId next) := by
  obtain ⟨collecting, inSessions, unique⟩ :=
    consistent.opener requestId contextSize opens
  have placedSessions :
      (placed.map fun entry => entry.1.2.1).Perm tables.sessions := by
    have mapped := everyone.map fun item : ℚ × String × ℚ => item.2.1
    rwa [List.map_map] at mapped
  have before : ∀ other held,
      Function.update waiting requestId none other = some held →
        other ≠ requestId ∧ waiting other = some held := by
    intro other held found
    by_cases here : other = requestId
    · subst other
      rw [Function.update_self] at found
      cases found
    · rw [Function.update_of_ne here] at found
      exact ⟨here, found⟩
  refine
    { unopened := ?_
      closedSet := ⟨fun _ => rfl, fun _ => rfl⟩
      emptied := fun _ => rfl
      unassigned := ?_
      distinct := List.nodup_nil
      known := ?_
      outsider := fun _ _ _ _ => List.not_mem_nil
      opener := ?_
      member := ?_
      assigned := ?_
      acquiring :=
        consistent.acquiring_update fun impossible => absurd rfl impossible }
  · intro impossible
    cases impossible
  · intro impossible
    cases impossible
  · intro other member
    cases member
  · intro other size found
    obtain ⟨different, old⟩ := before other _ found
    exact absurd (unique other size old) different
  · intro other size found impossible
    cases impossible
  · intro other size found _
    obtain ⟨different, old⟩ := before other _ found
    have placedOther :
        ∃ entry ∈ placed, entry.1.2.1 = other := by
      rcases consistent.member other size old collecting with
        inWindow | noReplica
      · exact List.mem_map.mp (placedSessions.mem_iff.mpr inWindow)
      · obtain ⟨entry, member, _⟩ :=
          List.mem_map.mp (placedSessions.mem_iff.mpr inSessions)
        have target := targets entry member
        rw [noReplica] at target
        cases target
    obtain ⟨entry, member, rfl⟩ := placedOther
    have distinct :
        (placed.map fun entry => entry.1.2.1).Nodup :=
      placedSessions.nodup_iff.mpr consistent.distinct
    change ((tables.result.assignAll (fun item => item.2.1) placed).erase
      requestId).get? entry.1.2.1 ≠ none
    rw [OrderedDict.get?_erase_of_ne _ different,
      OrderedDict.get?_assignAll_of_mem distinct tables.result member]
    exact Option.some_ne_none entry.2

end WindowConsistent

/-! ## Every step keeps the window consistent -/

namespace Clients

def Windowed (cfg : Config) (clients : Clients) : Prop :=
  WindowConsistent cfg clients.calls.ledger.lptTables clients.calls.waiting
    clients.phase

theorem windowed_init (cfg : Config) : (init cfg).Windowed cfg where
  unopened := by
    intro _
    refine ⟨rfl, ?_⟩
    intro requestId parked impossible
    cases impossible
  closedSet := by simp [init, Calls.init, Ledger.init, Ledger.lptTables]
  emptied := fun _ => rfl
  unassigned := fun _ _ => rfl
  distinct := List.nodup_nil
  known := by
    intro requestId member
    cases member
  outsider := by
    intro requestId parked impossible
    cases impossible
  opener := by
    intro requestId contextSize impossible
    cases impossible
  member := by
    intro requestId contextSize impossible
    cases impossible
  assigned := by
    intro requestId contextSize impossible
    cases impossible
  acquiring := by
    intro requestId parked
    exact absurd rfl parked

theorem parked_eq_none
    {outcome : Outcome}
    (stays : ∀ waiting, outcome ≠ .suspended waiting) :
    Calls.parked outcome = none := by
  cases outcome with
  | suspended waiting =>
      exact absurd rfl (stays waiting)
  | returned placement =>
      rfl
  | raised error =>
      rfl

theorem afterSegment_ne_idle (turn : Nat) (outcome : Outcome) :
    Phase.afterSegment turn outcome ≠ .idle := by
  cases outcome <;> simp [Phase.afterSegment]

variable {cfg : Config} {clients next : Clients}

/-- A segment that is not suspended leaves the call out of the window. -/
theorem Windowed.runSegment
    {requestId : String} {turnIndex : Int} {segment : Segment} (turn : Nat)
    (stays : ∀ waiting, segment.outcome ≠ .suspended waiting)
    (consistent :
      WindowConsistent cfg segment.ledger.lptTables
        (Function.update clients.calls.waiting requestId none)
        (Function.update clients.phase requestId
          (.afterSegment turn segment.outcome))) :
    (clients.runSegment turn
      (requestId, turnIndex, segment)).Windowed cfg := by
  have gone : Function.update clients.calls.waiting requestId
        (Calls.parked segment.outcome) =
      Function.update clients.calls.waiting requestId none := by
    rw [parked_eq_none stays]
  unfold Windowed Clients.runSegment Calls.ranSegment
  dsimp only
  rw [gone]
  exact consistent

/-- Steps of the client outside `acquire` do not touch the window. -/
theorem Windowed.of_same
    {requestId : String} {phase : Phase}
    (windowed : clients.Windowed cfg)
    (tables :
      next.calls.ledger.lptTables = clients.calls.ledger.lptTables)
    (waiting : next.calls.waiting = clients.calls.waiting)
    (phases : next.phase = Function.update clients.phase requestId phase)
    (awake : clients.phase requestId ≠ .acquiring)
    (started : phase ≠ .idle) :
    next.Windowed cfg := by
  have absent : clients.calls.waiting requestId = none := by
    by_contra parked
    exact awake (windowed.acquiring requestId parked)
  have same : Function.update clients.calls.waiting requestId none =
      clients.calls.waiting := by
    rw [← absent, Function.update_eq_self]
  have gone :
      WindowConsistent cfg clients.calls.ledger.lptTables
        (Function.update clients.calls.waiting requestId none)
        (Function.update clients.phase requestId phase) :=
    WindowConsistent.left windowed started
  rw [Windowed, tables, waiting, phases, ← same]
  exact gone

theorem Windowed.step
    {event : ClientEvent} (windowed : clients.Windowed cfg)
    (stepped : clients.step cfg event = some next) :
    next.Windowed cfg := by
  cases stepped_of_step stepped with
  | acquired requestId contextSize hint clock turn due =>
      have lpt := Ledger.acquire_lpt cfg clients.calls.ledger requestId
        (hint.args turn contextSize) clock
      by_cases first : turn = 0
      · subst turn
        apply WindowConsistent.effect windowed 0 ?_ lpt
        intro member
        apply windowed.known requestId member
        cases phase : clients.phase requestId <;>
          simp [phase, Phase.nextTurn] at due ⊢
      · have later : 0 < (hint.args turn contextSize).turnIndex := by
          simp only [SessionHint.args]
          omega
        have stays := Ledger.acquire_not_suspended cfg
          clients.calls.ledger requestId later clock
        refine Windowed.runSegment turn stays ?_
        have same := lpt.tables_eq stays
        rw [same]
        exact WindowConsistent.left windowed
          (afterSegment_ne_idle turn _)
  | resumed requestId wakeup waiting segment acquiring parked ran =>
      rcases Ledger.resume_lpt ran with ⟨outside, lpt⟩ | exits
      · exact WindowConsistent.effect windowed 0
          (windowed.outsider requestId waiting parked outside) lpt
      · refine Windowed.runSegment 0 exits.not_suspended ?_
        cases exits with
        | ended contextSize =>
            cases scheduled : clients.calls.ledger.lptSchedule cfg with
            | none =>
                rw [Ledger.lptWindowOver_of_unscheduled scheduled]
                exact WindowConsistent.unplaced windowed parked
                  (Ledger.lptSchedule_eq_none scheduled)
                  (afterSegment_ne_idle 0 _)
            | some placed =>
                rw [Ledger.lptWindowOver_of_scheduled scheduled,
                  Ledger.lptTables_lptFinish]
                exact WindowConsistent.closed windowed parked
                  (Ledger.longestFirst_of_lptSchedule scheduled).everyone
                  (fun _ => Ledger.lptSchedule_mem scheduled)
        | collected contextSize set =>
            rw [Ledger.lptTables_lptFinish]
            exact WindowConsistent.collected windowed
              (afterSegment_ne_idle 0 _)
        | timedOut contextSize =>
            rw [Ledger.lptTables_place]
            exact WindowConsistent.left windowed
              (afterSegment_ne_idle 0 _)
  | generated requestId succeeded turn placed =>
      exact windowed.of_same rfl rfl rfl (by simp [placed]) (by simp)
  | recorded requestId contextSize turn succeeded ended =>
      exact windowed.of_same
        (Ledger.lptTables_recordTurn cfg clients.calls.ledger requestId
          turn contextSize)
        rfl rfl (by simp [ended]) (by simp)
  | finished requestId turn last =>
      exact windowed.of_same rfl rfl rfl (by simp [last]) (by simp)

theorem windowed_of_run
    {events : List ClientEvent} {final : Clients}
    (ran : run (step cfg) (init cfg) events = some final) :
    final.Windowed cfg :=
  run_invariant (fun _ _ _ windowed stepped => windowed.step stepped)
    (windowed_init cfg) ran

/-- A trajectory that may send `acquire` is not inside one. -/
theorem Windowed.free
    (windowed : clients.Windowed cfg) {requestId : String} {turn : Nat}
    (due : (clients.phase requestId).nextTurn = some turn) :
    clients.calls.waiting requestId = none := by
  by_contra parked
  rw [windowed.acquiring requestId parked] at due
  cases due

theorem within_step
    {event : ClientEvent} (within : clients.calls.ledger.Within cfg)
    (stepped : clients.step cfg event = some next) :
    next.calls.ledger.Within cfg := by
  cases stepped_of_step stepped with
  | acquired requestId contextSize hint clock turn due =>
      exact within.acquire requestId (hint.args turn contextSize) clock
  | resumed requestId wakeup waiting segment acquiring parked ran =>
      exact within.resume ran
  | generated requestId succeeded turn placed =>
      exact within
  | recorded requestId contextSize turn succeeded ended =>
      exact within.recordTurn requestId turn contextSize
  | finished requestId turn last =>
      exact within.onTrajectoryDone requestId

end Clients

end LlmDRl.Admission
