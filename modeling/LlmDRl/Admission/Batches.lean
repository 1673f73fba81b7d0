import LlmDRl.Admission.Decisions
import LlmDRl.Admission.GroupKeys

/-!
# Rollout batches on one ledger

The ledger lives as long as the training run and serves one rollout batch
after the other.  A batch starts at rest, with every trajectory before it
done.  What coordinates the members of a batch, the collection window and the
group tables, is written once and never reset.  So it works for the first
batch that opens a window, and for the first batch that uses a group key.
-/

namespace LlmDRl.Admission

open LlmDRl.Library
open scoped List

/-- The call of this notice was placed by `_lpt_place`, or is parked in it. -/
def Notice.ReachesLpt : Notice → Prop
  | .segment _ _ booked outcome =>
      (∃ booking ∈ booked, booking.rule = .lpt) ∨
        ∃ waiting, outcome = .suspended waiting ∧ waiting.InWindow
  | _ => False

/-- The wait of a session for its window times out. -/
def ClientEvent.TimesOut : ClientEvent → Prop
  | .resume _ .lptTimeout => True
  | _ => False

instance (event : ClientEvent) : Decidable event.TimesOut := by
  unfold ClientEvent.TimesOut
  split <;> infer_instance

/-- The trajectory is past its first turn. -/
def Phase.PastFirst : Phase → Prop
  | .recorded _ => True
  | .placed turn | .generated turn _ => 0 < turn
  | _ => False

theorem Phase.pastFirst_of_nextTurn
    {phase : Phase} {turn : Nat} (due : phase.nextTurn = some turn)
    (later : 0 < turn) : phase.PastFirst := by
  cases phase with
  | recorded earlier =>
      trivial
  | idle =>
      cases due
      exact absurd later (lt_irrefl 0)
  | acquiring =>
      cases due
  | placed turn =>
      cases due
  | generated turn succeeded =>
      cases due
  | done =>
      cases due
  | failed =>
      cases due

/-- A segment that places a later turn leaves its trajectory past the first
one; no other segment does. -/
theorem Phase.pos_of_pastFirst_afterSegment
    {turn : Nat} {outcome : Outcome}
    (past : (Phase.afterSegment turn outcome).PastFirst) : 0 < turn := by
  cases outcome with
  | suspended held =>
      cases past
  | returned placement =>
      exact past
  | raised error =>
      cases past

namespace Clients

/-- Every trajectory so far is done. -/
def AtRest (clients : Clients) : Prop :=
  ∀ requestId,
    clients.phase requestId = .idle ∨ clients.phase requestId = .done

/-- The group key sent with a turn-0 call. -/
def sends (clients : Clients) : ClientEvent → List String
  | .acquire requestId _ hint _ =>
      if clients.phase requestId = .idle then hint.groupKey.toList else []
  | _ => []

/-- How a state of a batch follows from its start, the group keys sent in the
batch so far and the notices its events have left. -/
structure InBatch (start : Clients) (sent : List String)
    (fresh : List Notice) (now : Clients) : Prop where
  log : now.calls.log = fresh ++ start.calls.log
  unopened : (∀ notice ∈ fresh, ¬ notice.ReachesLpt) →
    now.calls.ledger.lptEvent = none
  attended : ∀ requestId ∈ now.calls.ledger.lptTables.sessions,
    now.InWindow requestId
  claimed : ∀ groupKey ∈ now.calls.ledger.groupClaimed,
    groupKey ∈ start.calls.ledger.groupClaimed ∨ groupKey ∈ sent
  parked : ∀ requestId waiting groupKey,
    now.calls.waiting requestId = some waiting →
      waiting.groupKey = some groupKey → groupKey ∈ sent
  recorded : ∀ requestId, (now.phase requestId).PastFirst →
    .recorded requestId 0 ∈ fresh

variable {cfg : Config} {start now next : Clients}
  {sent : List String} {fresh : List Notice}

theorem mem_sends_of_heeded
    {requestId groupKey : String} {hint : SessionHint} {turn : Nat}
    (due : (now.phase requestId).nextTurn = some turn)
    (contextSize : ℚ≥0) (clock : Clock)
    (heeded :
      (hint.args turn contextSize).heededKey = some groupKey) :
    groupKey ∈ now.sends (.acquire requestId contextSize hint clock) := by
  unfold AcquireArgs.heededKey at heeded
  split at heeded
  · cases heeded
  · next notLater =>
      have idle : now.phase requestId = .idle := by
        cases phase : now.phase requestId with
        | idle =>
            rfl
        | recorded earlier =>
            rw [phase] at due
            cases due
            exact absurd (Int.natCast_pos.mpr (Nat.succ_pos earlier))
              notLater
        | acquiring =>
            rw [phase] at due
            cases due
        | placed earlier =>
            rw [phase] at due
            cases due
        | generated earlier succeeded =>
            rw [phase] at due
            cases due
        | done =>
            rw [phase] at due
            cases due
        | failed =>
            rw [phase] at due
            cases due
      rw [sends, if_pos idle]
      exact Option.mem_toList.mpr heeded

/-- Nobody waits at rest. -/
theorem AtRest.waiting_eq_none
    (rest : start.AtRest) (windowed : start.Windowed cfg)
    (requestId : String) : start.calls.waiting requestId = none := by
  by_contra waits
  have acquiring := windowed.acquiring requestId waits
  rcases rest requestId with idle | done
  · cases idle.symm.trans acquiring
  · cases done.symm.trans acquiring

theorem InBatch.first
    (rest : start.AtRest) (windowed : start.Windowed cfg)
    (unopened : start.calls.ledger.lptEvent = none) :
    InBatch start [] [] start where
  log := rfl
  unopened := fun _ => unopened
  attended := by
    intro requestId member
    have empty : start.calls.ledger.lptTables.pending = [] :=
      (windowed.unopened unopened).1
    rw [LptTables.sessions, empty] at member
    cases member
  claimed := fun _ member => .inl member
  parked := by
    intro requestId waiting groupKey waits
    cases (rest.waiting_eq_none windowed requestId).symm.trans waits
  recorded := by
    intro requestId past
    rcases rest requestId with idle | done
    · rw [idle] at past
      cases past
    · rw [done] at past
      cases past

namespace InBatch

/-- A step that runs no segment of `acquire`. -/
theorem quiet
    (batch : InBatch start sent fresh now) (more : List String)
    {notice : Notice} {requestId : String} {phase : Phase}
    (log : next.calls.log = notice :: now.calls.log)
    (tables :
      next.calls.ledger.lptTables = now.calls.ledger.lptTables)
    (claimed :
      next.calls.ledger.groupClaimed = now.calls.ledger.groupClaimed)
    (waiting : next.calls.waiting = now.calls.waiting)
    (phases : next.phase = Function.update now.phase requestId phase)
    (past : phase.PastFirst →
      .recorded requestId 0 ∈ notice :: fresh) :
    InBatch start (sent ++ more) (notice :: fresh) next where
  log := by
    rw [log, batch.log]
    rfl
  unopened := by
    intro silence
    have earlier := batch.unopened fun older member =>
      silence older (List.mem_cons_of_mem notice member)
    exact (congrArg LptTables.event tables).trans earlier
  attended := by
    intro other member
    rw [tables] at member
    obtain ⟨held, waits, inside⟩ := batch.attended other member
    exact ⟨held, waiting ▸ waits, inside⟩
  claimed := by
    intro groupKey member
    rw [claimed] at member
    rcases batch.claimed groupKey member with older | earlier
    · exact .inl older
    · exact .inr (List.mem_append_left more earlier)
  parked := by
    intro other held groupKey waits keyed
    rw [waiting] at waits
    exact List.mem_append_left more
      (batch.parked other held groupKey waits keyed)
  recorded := by
    intro other pastFirst
    rw [phases] at pastFirst
    by_cases here : other = requestId
    · subst other
      rw [Function.update_self] at pastFirst
      exact past pastFirst
    · rw [Function.update_of_ne here] at pastFirst
      exact List.mem_cons_of_mem notice (batch.recorded other pastFirst)

/-- A step that runs a segment of `acquire` with this group key. -/
theorem segment
    (batch : InBatch start sent fresh now) (more : List String)
    {requestId : String} {turnIndex : Int} {segment : Segment}
    (turn : Nat) {key : Option String}
    (keyed : segment.Keyed now.calls.ledger key)
    (known : ∀ groupKey, key = some groupKey → groupKey ∈ sent ++ more)
    (unopened :
      (∀ notice ∈ fresh, ¬ notice.ReachesLpt) →
        ¬ (Notice.segment requestId turnIndex segment.booked
          segment.outcome).ReachesLpt →
            segment.ledger.lptEvent = none)
    (attended : ∀ other ∈ segment.ledger.lptTables.sessions,
      (now.runSegment turn (requestId, turnIndex, segment)).InWindow
        other)
    (past : (Phase.afterSegment turn segment.outcome).PastFirst →
      .recorded requestId 0 ∈ fresh) :
    InBatch start (sent ++ more)
      (.segment requestId turnIndex segment.booked segment.outcome :: fresh)
      (now.runSegment turn (requestId, turnIndex, segment)) where
  log := congrArg (List.cons _) batch.log
  unopened := by
    intro silence
    exact unopened
      (fun older member => silence older (List.mem_cons_of_mem _ member))
      (silence _ (List.mem_cons_self ..))
  attended := attended
  claimed := by
    intro groupKey member
    rcases keyed.claimed groupKey member with claimed | own
    · rcases batch.claimed groupKey claimed with older | earlier
      · exact .inl older
      · exact .inr (List.mem_append_left more earlier)
    · exact .inr (known groupKey own)
  parked := by
    intro other held groupKey waits carried
    rcases Calls.waiting_ranSegment waits with
      ⟨_, suspended⟩ | ⟨_, before⟩
    · exact known groupKey (keyed.parked held groupKey suspended carried)
    · exact List.mem_append_left more
        (batch.parked other held groupKey before carried)
  recorded := by
    intro other pastFirst
    change (Function.update now.phase requestId
      (.afterSegment turn segment.outcome) other).PastFirst at pastFirst
    by_cases here : other = requestId
    · subst other
      rw [Function.update_self] at pastFirst
      exact List.mem_cons_of_mem _ (past pastFirst)
    · rw [Function.update_of_ne here] at pastFirst
      exact List.mem_cons_of_mem _ (batch.recorded other pastFirst)

/-- While nobody has reached the window, only a call that opens it sets its
event. -/
theorem unopened_of_effect
    (unset : now.calls.ledger.lptEvent = none)
    {requestId : String} {turnIndex : Int} {segment : Segment}
    {contextSize : ℚ} {sessionWork : Option ℚ}
    (lpt :
      segment.Lpt cfg now.calls.ledger requestId contextSize sessionWork)
    (silent :
      ¬ (Notice.segment requestId turnIndex segment.booked
        segment.outcome).ReachesLpt) :
    segment.ledger.lptEvent = none := by
  have notSet : now.calls.ledger.lptTables.event = none := unset
  have after : segment.ledger.lptTables.event = none := by
    unfold Segment.Lpt at lpt
    generalize segment.booked = booked at lpt silent
    generalize segment.outcome = outcome at lpt silent
    generalize segment.ledger.lptTables = tables at lpt
    cases lpt with
    | outside rule parks =>
        exact notSet
    | late closed stays =>
        exact notSet
    | opened collecting unset =>
        exact absurd (.inr ⟨_, rfl, trivial⟩) silent
    | joined collecting present =>
        exact absurd notSet present
  exact after

/-- Whoever is collected by the window waits in it. -/
theorem attended_of_effect
    (batch : InBatch start sent fresh now)
    {requestId : String} {turnIndex : Int} {segment : Segment}
    {contextSize : ℚ} {sessionWork : Option ℚ} (turn : Nat)
    (outside : requestId ∉ now.calls.ledger.lptTables.sessions)
    (lpt :
      segment.Lpt cfg now.calls.ledger requestId contextSize sessionWork)
    (other : String)
    (member : other ∈ segment.ledger.lptTables.sessions) :
    (now.runSegment turn (requestId, turnIndex, segment)).InWindow
      other := by
  have before : ∀ session ∈ now.calls.ledger.lptTables.sessions,
      (now.runSegment turn (requestId, turnIndex, segment)).InWindow
        session := by
    intro session old
    obtain ⟨held, waits, inside⟩ := batch.attended session old
    have different : session ≠ requestId := by
      intro same
      subst session
      exact outside old
    exact ⟨held, (Function.update_of_ne different _ _).trans waits, inside⟩
  have caller : ∀ held, segment.outcome = .suspended held →
      held.InWindow →
        (now.runSegment turn (requestId, turnIndex, segment)).InWindow
          requestId := by
    intro held suspended inside
    refine ⟨held, ?_, inside⟩
    change Function.update now.calls.waiting requestId
      (Calls.parked segment.outcome) requestId = some held
    rw [Function.update_self, suspended]
    rfl
  have collected : ∀ tables : LptTables,
      tables.sessions =
          now.calls.ledger.lptTables.sessions ++ [requestId] →
        other ∈ tables.sessions →
          (∃ held, segment.outcome = .suspended held ∧ held.InWindow) →
            (now.runSegment turn
              (requestId, turnIndex, segment)).InWindow other := by
    intro tables sessions inTables suspended
    rw [sessions, List.mem_append, List.mem_singleton] at inTables
    obtain ⟨held, outcome, inside⟩ := suspended
    rcases inTables with old | rfl
    · exact before other old
    · exact caller held outcome inside
  unfold Segment.Lpt at lpt
  generalize segment.booked = booked at lpt
  generalize outcomeEq : segment.outcome = outcome at lpt
  generalize segment.ledger.lptTables = tables at lpt member
  cases lpt with
  | outside rule parks =>
      exact before other member
  | late closed stays =>
      exact before other member
  | opened collecting unset =>
      exact collected _
        (LptTables.sessions_collect now.calls.ledger.lptTables requestId
          contextSize sessionWork)
        member ⟨_, outcomeEq, trivial⟩
  | joined collecting present =>
      exact collected _
        (LptTables.sessions_collect now.calls.ledger.lptTables requestId
          contextSize sessionWork)
        member ⟨_, outcomeEq, trivial⟩

theorem step
    {event : ClientEvent}
    (batch : InBatch start sent fresh now)
    (windowed : now.Windowed cfg) (patient : ¬ event.TimesOut)
    (stepped : now.step cfg event = some next) :
    ∃ notice,
      InBatch start (sent ++ now.sends event) (notice :: fresh) next := by
  cases stepped_of_step stepped with
  | acquired requestId contextSize hint clock turn due =>
      have keyed := Ledger.acquire_keyed cfg now.calls.ledger requestId
        (hint.args turn contextSize) clock
      have lpt := Ledger.acquire_lpt cfg now.calls.ledger requestId
        (hint.args turn contextSize) clock
      have outside :
          requestId ∉ now.calls.ledger.lptTables.sessions := by
        intro member
        obtain ⟨held, waits, _⟩ := batch.attended requestId member
        cases (windowed.free due).symm.trans waits
      refine ⟨_, batch.segment _ turn keyed ?_
        (fun silence => unopened_of_effect (batch.unopened silence) lpt)
        (fun other => batch.attended_of_effect turn outside lpt other)
        ?_⟩
      · intro groupKey own
        exact List.mem_append_right sent
          (mem_sends_of_heeded due contextSize clock own)
      · intro past
        exact batch.recorded requestId
          (Phase.pastFirst_of_nextTurn due
            (Phase.pos_of_pastFirst_afterSegment past))
  | resumed requestId wakeup waiting segment acquiring parked ran =>
      have keyed := Ledger.resume_keyed cfg now.calls.ledger requestId ran
      have known : ∀ groupKey, waiting.groupKey = some groupKey →
          groupKey ∈ sent ++ now.sends (.resume requestId wakeup) := by
        intro groupKey carried
        exact List.mem_append_left _
          (batch.parked requestId waiting groupKey parked carried)
      have first : (Phase.afterSegment 0 segment.outcome).PastFirst →
          .recorded requestId 0 ∈ fresh := by
        intro past
        exact absurd (Phase.pos_of_pastFirst_afterSegment past)
          (lt_irrefl 0)
      rcases Ledger.resume_lpt ran with ⟨notInWindow, lpt⟩ | exits
      · have outside :=
          windowed.outsider requestId waiting parked notInWindow
        exact ⟨_, batch.segment _ 0 keyed known
          (fun silence => unopened_of_effect (batch.unopened silence) lpt)
          (fun other => batch.attended_of_effect 0 outside lpt other)
          first⟩
      · have inside := exits.inWindow
        have opened : ¬ (∀ notice ∈ fresh, ¬ notice.ReachesLpt) := by
          intro silence
          have nobody := (windowed.unopened (batch.unopened silence)).2
          exact nobody requestId waiting parked inside
        have emptied : ∀ tables : LptTables, tables.pending = [] →
            ∀ other ∈ tables.sessions,
              (now.runSegment 0 (requestId, 0, segment)).InWindow
                other := by
          intro tables empty other member
          rw [LptTables.sessions, empty] at member
          cases member
        refine ⟨_, batch.segment _ 0 keyed known
          (fun silence => absurd silence opened) (emptied _ ?_) first⟩
        cases exits with
        | ended contextSize =>
            cases scheduled : now.calls.ledger.lptSchedule cfg with
            | none =>
                rw [Ledger.lptWindowOver_of_unscheduled scheduled]
                rfl
            | some placed =>
                rw [Ledger.lptWindowOver_of_scheduled scheduled,
                  Ledger.lptTables_lptFinish]
                rfl
        | collected contextSize set =>
            rw [Ledger.lptTables_lptFinish]
            exact windowed.emptied (windowed.closedSet.mpr set)
        | timedOut contextSize =>
            exact absurd trivial patient
  | generated requestId succeeded turn placed =>
      refine ⟨_, batch.quiet _ rfl rfl rfl rfl rfl ?_⟩
      intro past
      apply List.mem_cons_of_mem
      apply batch.recorded requestId
      rw [placed]
      exact past
  | recorded requestId contextSize turn succeeded ended =>
      refine ⟨_, batch.quiet _ rfl
        (Ledger.lptTables_recordTurn cfg now.calls.ledger requestId turn
          contextSize)
        (Ledger.groupClaimed_recordTurn cfg now.calls.ledger requestId
          turn contextSize)
        rfl rfl ?_⟩
      intro _
      by_cases first : turn = 0
      · subst turn
        exact List.mem_cons_self ..
      · apply List.mem_cons_of_mem
        apply batch.recorded requestId
        rw [ended]
        exact Nat.pos_of_ne_zero first
  | finished requestId turn last =>
      exact ⟨_, batch.quiet _ rfl rfl rfl rfl rfl
        (fun impossible => impossible.elim)⟩

/-- What holds of a batch so far holds after more of its events. -/
theorem run
    {events : List ClientEvent} {final : Clients}
    (batch : InBatch start sent fresh now)
    (windowed : now.Windowed cfg)
    (patient : ∀ event ∈ events, ¬ event.TimesOut)
    (ran : Library.run (Clients.step cfg) now events = some final) :
    ∃ after,
      InBatch start (sent ++ emitted (Clients.step cfg) sends now events)
        after final := by
  induction events generalizing sent fresh now with
  | nil =>
      cases ran
      rw [emitted, List.append_nil]
      exact ⟨fresh, batch⟩
  | cons event rest inductionHypothesis =>
      obtain ⟨next, stepped, continued⟩ := run_cons_eq_some.mp ran
      obtain ⟨notice, stepBatch⟩ := batch.step windowed
        (patient event (List.mem_cons_self ..)) stepped
      obtain ⟨after, reached⟩ := inductionHypothesis stepBatch
        (windowed.step stepped)
        (fun later member =>
          patient later (List.mem_cons_of_mem event member))
        continued
      have split : emitted (Clients.step cfg) sends now (event :: rest) =
          now.sends event ++
            emitted (Clients.step cfg) sends next rest := by
        rw [emitted, stepped]
      rw [split, ← List.append_assoc]
      exact ⟨after, reached⟩

end InBatch

/-! ## The groups of a batch -/

/-- The group tables agree with the log: a group is open only after its
leader's turn 0 has been recorded. -/
def Grouped (cfg : Config) (clients : Clients) : Prop :=
  GroupsConsistent (fun leaderRid => [.recorded leaderRid 0]) cfg
    clients.calls.ledger.toGroupTables clients.calls.log

theorem Grouped.step
    {event : ClientEvent} (grouped : now.Grouped cfg)
    (stepped : now.step cfg event = some next) : next.Grouped cfg := by
  cases stepped_of_step stepped with
  | acquired requestId contextSize hint clock turn due =>
      exact GroupsConsistent.segment grouped
        (Ledger.acquire_groups cfg now.calls.ledger requestId
          (hint.args turn contextSize) clock)
  | resumed requestId wakeup waiting segment acquiring parked ran =>
      exact GroupsConsistent.segment grouped
        (Ledger.resume_groups cfg now.calls.ledger requestId ran)
  | generated requestId succeeded turn placed =>
      exact GroupsConsistent.cons grouped (fun _ => rfl) trivial
  | recorded requestId contextSize turn succeeded ended =>
      refine GroupsConsistent.recordTurn grouped requestId turn contextSize
        ?_
      intro _ groupKey replica index _ member
      exact (List.singleton_sublist.mpr member).cons_cons _
  | finished requestId turn last =>
      exact GroupsConsistent.cons grouped (fun _ => rfl) trivial

theorem grouped_init (cfg : Config) : (init cfg).Grouped cfg :=
  groupsConsistent_init cfg

theorem grouped_of_run
    {events : List ClientEvent} {final : Clients}
    (ran : Library.run (step cfg) (init cfg) events = some final) :
    final.Grouped cfg :=
  run_invariant (fun _ _ _ grouped stepped => grouped.step stepped)
    (grouped_init cfg) ran

/-- An open group that nobody led before the batch has a leader of the batch,
whose turn 0 has been recorded in the batch. -/
theorem InBatch.released
    (batch : InBatch start sent fresh now)
    (grouped : now.Grouped cfg) (groupedStart : start.Grouped cfg)
    {groupKey : String}
    (opened : now.calls.ledger.toGroupTables.Open groupKey)
    (unclaimed : groupKey ∉ start.calls.ledger.groupClaimed) :
    ∃ leaderRid turnIndex replica,
      [.recorded leaderRid 0, .ledBy groupKey leaderRid replica turnIndex]
        <+ fresh := by
  obtain ⟨replica, _, leaderRid, turnIndex, ordered⟩ :=
    GroupsConsistent.released_of_open grouped opened
  refine ⟨leaderRid, turnIndex, replica, ?_⟩
  rw [batch.log] at ordered
  obtain ⟨newer, older, split, inFresh, inStart⟩ :=
    List.sublist_append_iff.mp ordered
  have noLeader : .ledBy groupKey leaderRid replica turnIndex ∉
      start.calls.log := by
    have none := groupedStart.unled groupKey unclaimed
    rw [List.countP_eq_zero] at none
    intro member
    exact none _ member (by simp [Notice.ledBy, Notice.leads])
  rcases List.eq_nil_or_concat older with rfl | ⟨rest, last, rfl⟩
  · rw [List.append_nil] at split
    rw [← split] at inFresh
    exact inFresh
  · -- the leader's placement is the oldest of the two notices
    have lastIs : last = .ledBy groupKey leaderRid replica turnIndex := by
      have ends := congrArg List.getLast? split
      simpa using ends.symm
    subst last
    exact absurd (inStart.subset (by simp)) noLeader

/-! ## The segment behind a notice -/

/-- Context size and work a call arrives at the window with. -/
def arrival (clients : Clients) : ClientEvent → ℚ × Option ℚ
  | .acquire _ contextSize hint _ => (contextSize, hint.sessionWork)
  | .resume requestId _ =>
      match clients.calls.waiting requestId with
      | some waiting => (waiting.contextSize, waiting.sessionWork)
      | none => (0, none)
  | _ => (0, none)

/-- What is known of the segment an event runs for `turn` of a request. -/
structure Ran (cfg : Config) (clients : Clients) (event : ClientEvent)
    (requestId : String) (turn : Nat) (segment : Segment) : Prop where
  window :
    segment.Lpt cfg clients.calls.ledger requestId
        (clients.arrival event).1 (clients.arrival event).2 ∨
      ∃ waiting wakeup, event = .resume requestId wakeup ∧
        clients.calls.waiting requestId = some waiting ∧
          WindowExit cfg clients.calls.ledger requestId waiting wakeup
            segment
  groups : segment.Groups cfg clients.calls.ledger requestId turn
  keyed : ∃ key, segment.Keyed clients.calls.ledger key ∧
    ∀ groupKey, key = some groupKey →
      groupKey ∈ clients.sends event ∨
        ∃ waiting, clients.calls.waiting requestId = some waiting ∧
          waiting.groupKey = some groupKey
  later : 0 < turn → (clients.phase requestId).PastFirst

/-- The segment whose notice a step leaves. -/
theorem ran_of_step
    {event : ClientEvent}
    (stepped : now.step cfg event = some next)
    {requestId : String} {turnIndex : Int} {booked : Option Booking}
    {outcome : Outcome}
    (log :
      next.calls.log =
        .segment requestId turnIndex booked outcome :: now.calls.log) :
    ∃ turn segment,
      turnIndex = ((turn : Nat) : Int) ∧ booked = segment.booked ∧
        outcome = segment.outcome ∧
          next = now.runSegment turn (requestId, (turn : Int), segment) ∧
            Ran cfg now event requestId turn segment := by
  cases stepped_of_step stepped with
  | acquired caller contextSize hint clock turn due =>
      obtain ⟨same, _⟩ := List.cons.inj log
      cases same
      refine ⟨turn, _, rfl, rfl, rfl, rfl, ?_⟩
      exact
        { window := .inl (Ledger.acquire_lpt cfg now.calls.ledger caller
            (hint.args turn contextSize) clock)
          groups := Ledger.acquire_groups cfg now.calls.ledger caller
            (hint.args turn contextSize) clock
          keyed := ⟨(hint.args turn contextSize).heededKey,
            Ledger.acquire_keyed cfg now.calls.ledger caller
              (hint.args turn contextSize) clock,
            fun _ own => .inl (mem_sends_of_heeded due contextSize clock
              own)⟩
          later := Phase.pastFirst_of_nextTurn due }
  | resumed caller wakeup waiting segment acquiring parked ran =>
      obtain ⟨same, _⟩ := List.cons.inj log
      cases same
      refine ⟨0, segment, rfl, rfl, rfl, rfl, ?_⟩
      exact
        { window := by
            rcases Ledger.resume_lpt ran with ⟨_, lpt⟩ | exits
            · simp only [arrival, parked]
              exact .inl lpt
            · exact .inr ⟨waiting, wakeup, rfl, parked, exits⟩
          groups := Ledger.resume_groups cfg now.calls.ledger caller ran
          keyed := ⟨waiting.groupKey,
            Ledger.resume_keyed cfg now.calls.ledger caller ran,
            fun _ carried => .inr ⟨waiting, parked, carried⟩⟩
          later := fun impossible => absurd impossible (lt_irrefl 0) }
  | generated caller succeeded turn placed =>
      obtain ⟨impossible, _⟩ := List.cons.inj log
      cases impossible
  | recorded caller contextSize turn succeeded ended =>
      obtain ⟨impossible, _⟩ := List.cons.inj log
      cases impossible
  | finished caller turn last =>
      obtain ⟨impossible, _⟩ := List.cons.inj log
      cases impossible

/-! ## The window of a batch -/

/-- The first call of the batch to reach the window opens it. -/
theorem InBatch.opens
    (batch : InBatch start sent fresh now) (windowed : now.Windowed cfg)
    (silence : ∀ notice ∈ fresh, ¬ notice.ReachesLpt)
    {event : ClientEvent} {requestId : String} {turn : Nat}
    {segment : Segment} (ran : Ran cfg now event requestId turn segment)
    (reaches :
      (Notice.segment requestId turn segment.booked
        segment.outcome).ReachesLpt) :
    segment.outcome = .suspended (.lptWindow (now.arrival event).1) ∧
      segment.ledger.lptPending =
        [(-sessionLoad (now.arrival event).1 (now.arrival event).2,
          requestId, (now.arrival event).1)] := by
  have unset : now.calls.ledger.lptTables.event = none :=
    batch.unopened silence
  obtain ⟨empty, nobody⟩ := windowed.unopened unset
  rcases ran.window with lpt | ⟨waiting, wakeup, _, parked, exits⟩
  · have pending : segment.ledger.lptPending =
        segment.ledger.lptTables.pending := rfl
    rw [pending]
    unfold Segment.Lpt at lpt
    generalize segment.booked = booked at lpt reaches
    generalize segment.outcome = outcome at lpt reaches ⊢
    generalize segment.ledger.lptTables = tables at lpt ⊢
    cases lpt with
    | outside rule parks =>
        rcases reaches with
          ⟨booking, found, lptRule⟩ | ⟨held, suspended, inside⟩
        · exact absurd lptRule (rule booking found)
        · exact absurd inside (parks held suspended)
    | late closed stays =>
        have set := windowed.closedSet.mp closed
        cases unset.symm.trans set
    | opened collecting _ =>
        refine ⟨rfl, ?_⟩
        simp only [LptTables.collect, empty, List.nil_append]
    | joined collecting present =>
        exact absurd unset present
  · exact absurd exits.inWindow (nobody requestId waiting parked)

/-- While the window is open, every call that reaches it joins it, until the
window ends. -/
theorem joins
    (windowed : now.Windowed cfg)
    (collecting : now.calls.ledger.lptEvent = some false)
    {event : ClientEvent} (patient : ¬ event.TimesOut)
    (goesOn : ¬ now.EndsWindow event)
    {requestId : String} {turn : Nat} {segment : Segment}
    (ran : Ran cfg now event requestId turn segment)
    (reaches :
      (Notice.segment requestId turn segment.booked
        segment.outcome).ReachesLpt) :
    segment.outcome = .suspended (.lptEvent (now.arrival event).1) ∧
      segment.ledger.lptPending =
        now.calls.ledger.lptPending ++
          [(-sessionLoad (now.arrival event).1 (now.arrival event).2,
            requestId, (now.arrival event).1)] := by
  have set : now.calls.ledger.lptTables.event = some false := collecting
  rcases ran.window with lpt | ⟨waiting, wakeup, same, parked, exits⟩
  · have pending : segment.ledger.lptPending =
        segment.ledger.lptTables.pending := rfl
    rw [pending]
    unfold Segment.Lpt at lpt
    generalize segment.booked = booked at lpt reaches
    generalize segment.outcome = outcome at lpt reaches ⊢
    generalize segment.ledger.lptTables = tables at lpt ⊢
    cases lpt with
    | outside rule parks =>
        rcases reaches with
          ⟨booking, found, lptRule⟩ | ⟨held, suspended, inside⟩
        · exact absurd lptRule (rule booking found)
        · exact absurd inside (parks held suspended)
    | late closed stays =>
        have closedSet := windowed.closedSet.mp closed
        cases set.symm.trans closedSet
    | opened _ unset =>
        cases set.symm.trans unset
    | joined _ present =>
        exact ⟨rfl, rfl⟩
  · subst event
    cases exits with
    | ended contextSize =>
        refine absurd ?_ goesOn
        simp only [EndsWindow, parked]
    | collected contextSize ready =>
        cases set.symm.trans ready
    | timedOut contextSize =>
        exact absurd trivial patient

/-- Nothing but an arrival or the end of the window changes who is
collected. -/
theorem pending_kept
    {event : ClientEvent} (goesOn : ¬ now.EndsWindow event)
    (stepped : now.step cfg event = some next)
    (noArrival : ∀ requestId turnIndex booked waiting,
      next.calls.log =
          .segment requestId turnIndex booked (.suspended waiting) ::
            now.calls.log →
        ¬ waiting.InWindow) :
    next.calls.ledger.lptPending = now.calls.ledger.lptPending := by
  have outside : ∀ {requestId : String} {segment : Segment}
      {contextSize : ℚ} {sessionWork : Option ℚ},
      segment.Lpt cfg now.calls.ledger requestId contextSize sessionWork →
        (∀ waiting, segment.outcome = .suspended waiting →
          ¬ waiting.InWindow) →
            segment.ledger.lptTables.pending =
              now.calls.ledger.lptTables.pending := by
    intro requestId segment contextSize sessionWork lpt parks
    unfold Segment.Lpt at lpt
    generalize segment.booked = booked at lpt
    generalize segment.outcome = outcome at lpt parks
    generalize segment.ledger.lptTables = tables at lpt ⊢
    cases lpt with
    | outside rule elsewhere =>
        rfl
    | late closed stays =>
        rfl
    | opened collecting unset =>
        exact absurd trivial (parks _ rfl)
    | joined collecting present =>
        exact absurd trivial (parks _ rfl)
  cases stepped_of_step stepped with
  | acquired requestId contextSize hint clock turn due =>
      refine outside (Ledger.acquire_lpt cfg now.calls.ledger requestId
        (hint.args turn contextSize) clock) ?_
      intro waiting suspended
      apply noArrival
      rw [← suspended]
      rfl
  | resumed requestId wakeup waiting segment acquiring parked ran =>
      rcases Ledger.resume_lpt ran with ⟨_, lpt⟩ | exits
      · refine outside lpt ?_
        intro held suspended
        apply noArrival
        rw [← suspended]
        rfl
      · cases exits with
        | ended contextSize =>
            refine absurd ?_ goesOn
            simp only [EndsWindow, parked]
        | collected contextSize set =>
            exact congrArg LptTables.pending
              (Ledger.lptTables_lptFinish requestId contextSize)
        | timedOut contextSize =>
            exact congrArg LptTables.pending
              (Ledger.lptTables_place cfg now.calls.ledger requestId 0
                contextSize .lpt (now.calls.ledger.leastLoaded cfg))
  | generated requestId succeeded turn placed =>
      rfl
  | recorded requestId contextSize turn succeeded ended =>
      exact congrArg LptTables.pending
        (Ledger.lptTables_recordTurn cfg now.calls.ledger requestId turn
          contextSize)
  | finished requestId turn last =>
      rfl

end Clients

/-! ## The first segment of a turn 0 -/

namespace Ledger

variable {cfg : Config} {ledger : Ledger}

theorem lptPlace_reaches
    (replicas : cfg.replicas ≠ []) (requestId : String) (turnIndex : Int)
    (contextSize : ℚ) (sessionWork : Option ℚ) :
    (Notice.segment requestId turnIndex
      (ledger.lptPlace cfg requestId contextSize sessionWork).booked
      (ledger.lptPlace cfg requestId contextSize
        sessionWork).outcome).ReachesLpt := by
  unfold lptPlace
  split
  · refine .inl ?_
    cases chosen : ledger.leastLoaded cfg with
    | none =>
        exact absurd (Books.leastLoaded_eq_none chosen) replicas
    | some replica =>
        exact ⟨⟨replica, .lpt⟩, rfl, rfl⟩
  · dsimp only
    split
    · exact .inr ⟨_, rfl, trivial⟩
    · exact .inr ⟨_, rfl, trivial⟩

/-- A turn 0 outside the groups reaches the window. -/
theorem acquire_reaches
    (replicas : cfg.replicas ≠ []) (window : 0 < cfg.lptWindowS)
    (requestId : String) {args : AcquireArgs} (clock : Clock)
    (first : ¬ 0 < args.turnIndex)
    (ungrouped : cfg.staggerGroups = true → args.groupKey.getD "" = "")
    (turnIndex : Int) :
    (Notice.segment requestId turnIndex
      (ledger.acquire cfg requestId args clock).booked
      (ledger.acquire cfg requestId args clock).outcome).ReachesLpt := by
  unfold acquire
  dsimp only
  rw [if_neg first]
  have reaches := fun hinted : Ledger =>
    hinted.lptPlace_reaches replicas requestId turnIndex args.contextSize
      args.sessionWork
  split
  · next groupKey found =>
      have unnamed : ¬ (cfg.staggerGroups = true ∧ groupKey ≠ "") := by
        rintro ⟨staggered, named⟩
        have empty := ungrouped staggered
        rw [found] at empty
        exact named empty
      rw [if_neg unnamed, acquireUngrouped, if_pos window]
      exact reaches _
  · rw [acquireUngrouped, if_pos window]
    exact reaches _

/-- The first turn 0 with a group key that is not claimed is its leader. -/
theorem acquire_leads
    (replicas : cfg.replicas ≠ []) (staggered : cfg.staggerGroups = true)
    (requestId : String) {args : AcquireArgs} (clock : Clock)
    (first : ¬ 0 < args.turnIndex) {groupKey : String}
    (key : args.groupKey = some groupKey) (named : groupKey ≠ "")
    (unclaimed : groupKey ∉ ledger.groupClaimed) :
    ∃ replica,
      (ledger.acquire cfg requestId args clock).booked =
          some ⟨replica, .leader groupKey⟩ ∧
        (ledger.acquire cfg requestId args clock).outcome =
          .returned ⟨replica, none⟩ := by
  have claimed :
      (ledger.hintSessionFinal requestId args.sessionFinal).groupClaimed =
        ledger.groupClaimed :=
    congrArg GroupTables.groupClaimed
      (ledger.hintSessionFinal_counted requestId args.sessionFinal).groups
  have fresh : groupKey ∉
      (ledger.hintSessionFinal requestId args.sessionFinal).groupClaimed :=
    claimed ▸ unclaimed
  simp only [acquire, if_neg first, key, staggered, ne_eq, named,
    not_false_eq_true, and_self, if_true, staggerPlace, if_pos fresh]
  unfold staggerLead
  dsimp only
  split
  · next chosen =>
      exact absurd (Books.leastLoaded_eq_none chosen) replicas
  · next replica chosen =>
      exact ⟨replica, rfl, rfl⟩

end Ledger

namespace Clients

variable {cfg : Config} {start now next : Clients}
  {sent : List String} {fresh : List Notice}

/-- The segment a turn-0 call runs. -/
theorem log_of_first
    {requestId : String} {contextSize : ℚ≥0} {hint : SessionHint}
    {clock : Clock} (idle : now.phase requestId = .idle)
    (stepped :
      now.step cfg (.acquire requestId contextSize hint clock) =
        some next) :
    next.calls.log =
      .segment requestId 0
          (now.calls.ledger.acquire cfg requestId
            (hint.args 0 contextSize) clock).booked
          (now.calls.ledger.acquire cfg requestId
            (hint.args 0 contextSize) clock).outcome ::
        now.calls.log := by
  cases stepped_of_step stepped with
  | acquired _ _ _ _ turn due =>
      rw [idle] at due
      cases due
      rfl

/-- The members of a group pull from a leader of their own batch, and every
other trajectory from where it was before. -/
theorem InBatch.sources
    (batch : InBatch start sent fresh now) {event : ClientEvent}
    (grouped : now.Grouped cfg) (groupedStart : start.Grouped cfg)
    (unclaimed : ∀ groupKey ∈ sent ++ now.sends event,
      groupKey ∉ start.calls.ledger.groupClaimed)
    {requestId : String} {turn : Nat} {segment : Segment}
    (ran : Ran cfg now event requestId turn segment)
    {placement : Placement} {source : String}
    (returned : segment.outcome = .returned placement)
    (handed : placement.kvSource = some source) :
    (∃ groupKey leaderRid turnIndex replica,
      segment.booked =
          some ⟨placement.replica, .follower groupKey⟩ ∧
        [.recorded leaderRid 0,
          .ledBy groupKey leaderRid replica turnIndex] <+ fresh) ∨
    .recorded requestId 0 ∈ fresh := by
  obtain ⟨key, keyed, own⟩ := ran.keyed
  have groups := ran.groups
  have rule := keyed.rule
  unfold Segment.Groups at groups
  generalize segment.booked = booked at groups rule ⊢
  generalize segment.outcome = outcome at groups returned
  generalize segment.ledger.toGroupTables = tables at groups
  cases groups with
  | ungrouped _ known =>
      obtain ⟨later, _⟩ := known placement source returned handed
      exact .inr
        (batch.recorded requestId (ran.later (Int.natCast_pos.mp later)))
  | claimed groupKey error _ =>
      cases returned
  | led groupKey replica _ =>
      cases returned
      cases handed
  | followed groupKey leader target opened leads different known =>
      refine .inl ?_
      obtain ⟨same, _⟩ := known placement returned
      have mine := rule _ groupKey rfl (.inr rfl)
      have inBatch : groupKey ∈ sent ++ now.sends event := by
        rcases own groupKey mine with sends | ⟨waiting, parked, carried⟩
        · exact List.mem_append_right sent sends
        · exact List.mem_append_left _
            (batch.parked requestId waiting groupKey parked carried)
      obtain ⟨leaderRid, turnIndex, replica, ordered⟩ :=
        batch.released grouped groupedStart opened
          (unclaimed groupKey inBatch)
      refine ⟨groupKey, leaderRid, turnIndex, replica, ?_, ordered⟩
      rw [same]

end Clients

end LlmDRl.Admission
