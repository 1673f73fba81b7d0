import LlmDRl.Admission.Decisions

/-!
# Decisions that wait to be collected

What a session in the window has to collect is the last decision taken for
it, whoever wakes up first.  So a pick that comes in between misses that
decision, and the condition for seeing all of them is exact in runs whose
windows end with all their sessions waiting.
-/

namespace LlmDRl.Admission

open LlmDRl.Library

namespace Deciding

variable {cfg : Config} {state next : Deciding} {event : ClientEvent}

/-- What a session in the window has to collect is the last decision for
it. -/
def Assigned (state : Deciding) : Prop :=
  ∀ requestId contextSize replica,
    state.clients.calls.waiting requestId =
        some (.lptEvent contextSize) →
      state.clients.calls.ledger.lptResult.get? requestId =
          some replica →
        state.decided requestId = some replica

theorem Assigned.of_segment
    {requestId : String} {turnIndex : Int} {segment : Segment} (turn : Nat)
    (ran :
      state.clients.segmentOf cfg event =
        some (requestId, turnIndex, segment))
    (others : ∀ other contextSize replica, other ≠ requestId →
      state.clients.calls.waiting other = some (.lptEvent contextSize) →
        segment.ledger.lptResult.get? other = some replica →
          state.batched cfg event other = some replica)
    (caller : ∀ contextSize,
      segment.outcome = .suspended (.lptEvent contextSize) →
        segment.ledger.lptResult.get? requestId = none) :
    Assigned
      ⟨state.clients.runSegment turn (requestId, turnIndex, segment),
        state.decisions cfg event⟩ := by
  obtain ⟨elsewhere, _⟩ := decisions_of_segmentOf ran
  intro other contextSize replica parked assigned
  change segment.ledger.lptResult.get? other = some replica at assigned
  change state.decisions cfg event other = some replica
  rcases Calls.waiting_ranSegment parked with
    ⟨rfl, suspended⟩ | ⟨different, before⟩
  · cases (caller contextSize suspended).symm.trans assigned
  · rw [elsewhere other different]
    exact others other contextSize replica different before assigned

/-- A segment that neither ends a window nor comes out of it. -/
theorem Assigned.of_effect
    (assigned : state.Assigned)
    (windowed : state.clients.Windowed cfg)
    {requestId : String} {turnIndex : Int} {segment : Segment}
    {contextSize : ℚ} {sessionWork : Option ℚ} (turn : Nat)
    (ran :
      state.clients.segmentOf cfg event =
        some (requestId, turnIndex, segment))
    (goesOn : ¬ state.clients.EndsWindow event)
    (lpt :
      segment.Lpt cfg state.clients.calls.ledger requestId contextSize
        sessionWork) :
    Assigned
      ⟨state.clients.runSegment turn (requestId, turnIndex, segment),
        state.decisions cfg event⟩ := by
  have result : segment.ledger.lptResult =
      state.clients.calls.ledger.lptResult := lpt.result_eq.1
  refine Assigned.of_segment turn ran ?_ ?_
  · intro other size replica _ parked found
    rw [batched_of_not_endsWindow goesOn]
    rw [result] at found
    exact assigned other size replica parked found
  · intro size suspended
    rw [result]
    have collecting : state.clients.calls.ledger.lptTables.closed =
        false := by
      unfold Segment.Lpt at lpt
      rw [suspended] at lpt
      generalize segment.booked = booked at lpt
      generalize segment.ledger.lptTables = after at lpt
      cases lpt with
      | outside rule parks =>
          exact absurd trivial (parks _ rfl)
      | late closed stays =>
          exact absurd rfl (stays _)
      | joined collecting present =>
          exact collecting
    exact windowed.unassigned collecting requestId

theorem Assigned.step
    (assigned : state.Assigned)
    (windowed : state.clients.Windowed cfg)
    (stepped : state.step cfg event = some next) : next.Assigned := by
  obtain ⟨clients, clientStep, rfl⟩ := Option.map_eq_some_iff.mp stepped
  cases Clients.stepped_of_step clientStep with
  | acquired requestId contextSize hint clock turn due =>
      exact assigned.of_effect windowed turn
        (segmentOf_acquire due (windowed.free due) contextSize hint clock)
        (fun impossible => impossible)
        (Ledger.acquire_lpt cfg state.clients.calls.ledger requestId
          (hint.args turn contextSize) clock)
  | resumed requestId wakeup waiting segment acquiring parked ran =>
      have runs := segmentOf_resume acquiring parked ran
      rcases Ledger.resume_lpt ran with ⟨outside, lpt⟩ | exits
      · refine assigned.of_effect windowed 0 runs ?_ lpt
        intro ends
        obtain ⟨size, same⟩ := endsWindow_resume parked ends
        subst waiting
        exact outside trivial
      · have outside : ∀ contextSize,
            segment.outcome = .suspended (.lptEvent contextSize) →
              segment.ledger.lptResult.get? requestId = none :=
          fun _ suspended => absurd suspended (exits.not_suspended _)
        cases exits with
        | ended contextSize =>
            obtain ⟨collecting, _⟩ :=
              windowed.opener requestId contextSize parked
            have unassigned := windowed.unassigned collecting
            cases scheduled :
                state.clients.calls.ledger.lptSchedule cfg with
            | none =>
                refine Assigned.of_segment 0 runs ?_ outside
                intro other size replica _ _ found
                rw [Ledger.lptWindowOver_of_unscheduled scheduled] at found
                cases (unassigned other).symm.trans found
            | some placed =>
                refine Assigned.of_segment 0 runs ?_ outside
                intro other size replica different _ found
                have ends : state.clients.EndsWindow
                    (.resume requestId .lptWindowOver) := by
                  simp only [Clients.EndsWindow, parked]
                have written := OrderedDict.get?_assignAll
                  (fun item : ℚ × String × ℚ => item.2.1) placed
                  state.clients.calls.ledger.lptResult other
                rw [Ledger.lptWindowOver_of_scheduled scheduled,
                  Ledger.lptResult_lptFinish,
                  OrderedDict.get?_erase_of_ne _ different] at found
                rw [batched, Clients.batchOf, if_pos ends, scheduled,
                  Option.getD_some]
                have fresh := written.symm.trans found
                have nothing : state.clients.calls.ledger.lptResult.get?
                    other = none := unassigned other
                rw [nothing, Option.or_none] at fresh
                rw [fresh]
                rfl
        | collected contextSize set =>
            refine Assigned.of_segment 0 runs ?_ outside
            intro other size replica different waits found
            rw [Ledger.lptResult_lptFinish,
              OrderedDict.get?_erase_of_ne _ different] at found
            have goesOn : ¬ state.clients.EndsWindow
                (.resume requestId .lptReady) :=
              fun impossible => impossible
            rw [batched_of_not_endsWindow goesOn]
            exact assigned other size replica waits found
        | timedOut contextSize =>
            refine Assigned.of_segment 0 runs ?_ outside
            intro other size replica _ waits found
            rw [Ledger.lptResult_place] at found
            have goesOn : ¬ state.clients.EndsWindow
                (.resume requestId .lptTimeout) :=
              fun impossible => impossible
            rw [batched_of_not_endsWindow goesOn]
            exact assigned other size replica waits found
  | generated requestId succeeded turn placed =>
      exact assigned
  | recorded requestId contextSize turn succeeded ended =>
      intro other size replica waits found
      dsimp only at found
      rw [Ledger.lptResult_recordTurn] at found
      exact assigned other size replica waits found
  | finished requestId turn last =>
      intro other size replica waits found
      have waited : state.clients.calls.waiting other ≠ none := by
        intro gone
        cases gone.symm.trans waits
      have different : other ≠ requestId := by
        intro same
        subst other
        cases last.symm.trans (windowed.acquiring requestId waited)
      have before := assigned other size replica waits found
      exact (Function.update_of_ne different _ _).trans before

theorem assigned_init (cfg : Config) : (init cfg).Assigned := by
  intro requestId contextSize replica impossible
  cases impossible

/-- A run of the decisions is a run of the clients. -/
theorem windowed_of_run
    {events : List ClientEvent} {final : Deciding}
    (ran : run (step cfg) (init cfg) events = some final) :
    final.clients.Windowed cfg :=
  Clients.windowed_of_run
    ((run_iff_clients cfg events (init cfg) final.clients).mp
      ⟨final.decided, ran⟩)

theorem assigned_of_run
    {events : List ClientEvent} {final : Deciding}
    (ran : run (step cfg) (init cfg) events = some final) :
    final.Assigned := by
  have preserved : ∀ (state : Deciding) event next,
      state.clients.Windowed cfg ∧ state.Assigned →
        step cfg state event = some next →
          next.clients.Windowed cfg ∧ next.Assigned := by
    intro state event next held stepped
    obtain ⟨windowed, assigned⟩ := held
    refine ⟨?_, assigned.step windowed stepped⟩
    obtain ⟨clients, clientStep, rfl⟩ := Option.map_eq_some_iff.mp stepped
    exact windowed.step clientStep
  exact (run_invariant preserved
    ⟨Clients.windowed_init cfg, assigned_init cfg⟩ ran).2

/-- Where a step picks, it is informed only if every session of the batch
has collected its replica. -/
theorem Kept.informed_iff
    (kept : state.Kept cfg) (assigned : state.Assigned) :
    state.Informed cfg event ↔
      state.clients.CollectedBefore cfg event := by
  refine ⟨?_, kept.informed⟩
  intro informed picks requestId key inWindow
  obtain ⟨waiting, parked, inside⟩ := inWindow
  have found :
      state.clients.calls.ledger.lptResult.get? requestId ≠ none := by
    intro absent
    exact (OrderedDict.get?_eq_none_iff _ requestId).mp absent key
  obtain ⟨replica, assignment⟩ := Option.ne_none_iff_exists'.mp found
  cases waiting with
  | poll size deadline =>
      cases inside
  | group groupKey size sessionWork =>
      cases inside
  | lptWindow size =>
      obtain ⟨collecting, _⟩ := kept.windowed.opener requestId size parked
      exact found (kept.windowed.unassigned collecting requestId)
  | lptEvent size =>
      have resident := informed.resident picks requestId replica
        (assigned requestId size replica parked assignment)
      have waits : state.clients.calls.waiting requestId ≠ none := by
        intro gone
        cases gone.symm.trans parked
      have unbooked :
          state.clients.books.BookedUpTo requestId none :=
        kept.balanced.bookedUpTo (kept.windowed.acquiring requestId waits)
          fun _ same => same
      cases unbooked.1.symm.trans resident

/-- In a run whose windows end with all their sessions waiting, every pick
sees every earlier decision exactly when no call picks a replica while a
session has one to collect. -/
theorem picks_see_every_decision_iff
    {events : List ClientEvent} {final : Deciding}
    (attended :
      StepsMeet (step cfg)
        (fun state event => state.clients.Attended event)
        (init cfg) events)
    (ran : run (step cfg) (init cfg) events = some final) :
    StepsMeet (step cfg) (Informed cfg) (init cfg) events ↔
      StepsMeet (step cfg)
        (fun state event => state.clients.CollectedBefore cfg event)
        (init cfg) events := by
  have preserved : ∀ (state : Deciding) event next,
      state.Kept cfg ∧ state.Assigned → state.clients.Attended event →
        step cfg state event = some next →
          next.Kept cfg ∧ next.Assigned := by
    intro state event next held present stepped
    obtain ⟨kept, assigned⟩ := held
    exact ⟨kept.step present stepped, assigned.step kept.windowed stepped⟩
  exact StepsMeet.congr_of_invariant preserved
    (fun _ _ _ held _ => held.1.informed_iff held.2)
    ⟨kept_init cfg, assigned_init cfg⟩ attended ran

end Deciding

end LlmDRl.Admission
