import LlmDRl.Admission.Leftovers
import LlmDRl.Admission.Stagger

/-!
# What a trajectory leaves behind

Seven tables of the ledger are keyed by request id.  The three booking tables
always have the same keys, and lose them when a trajectory is done.  So every
entry belongs to a trajectory under way exactly when no trajectory that is
reported done has left an entry in one of the other four.
-/

namespace LlmDRl.Admission

open LlmDRl.Library
open scoped NNRat

/-! ## The booking tables have the same keys -/

/-- Residency, history and reserve charge are kept for the same requests. -/
def Books.SameKeys (books : Books) : Prop :=
  ∀ requestId,
    (requestId ∈ books.resident.keys ↔ requestId ∈ books.history.keys) ∧
      (requestId ∈ books.resident.keys ↔
        requestId ∈ books.reserveCharge.keys)

namespace Books.SameKeys

variable {books : Books}

theorem init : Books.init.SameKeys := fun _ => ⟨Iff.rfl, Iff.rfl⟩

theorem book
    (same : books.SameKeys) (requestId replica : String)
    (turnIndex : Int) (contextSize charge : ℚ) :
    (books.book requestId replica turnIndex contextSize charge).SameKeys := by
  intro other
  simp only [Books.book, OrderedDict.mem_keys_insert_iff]
  exact ⟨or_congr_right (same other).1, or_congr_right (same other).2⟩

theorem effect
    (same : books.SameKeys) {cfg : Config} {requestId : String}
    {turnIndex : Int} {contextSize charge : ℚ} {booked : Option Booking}
    {after : Books}
    (effect :
      SegmentEffect cfg books requestId turnIndex contextSize charge booked
        after) :
    after.SameKeys := by
  cases effect with
  | unbooked absent =>
      exact same
  | booked booking fits stays =>
      exact same.book requestId booking.replica turnIndex contextSize charge
  | moved booking resident later found different moves fits =>
      have released :
          (books.releaseBooking requestId resident
            (turnIndex - 1)).SameKeys := same
      exact released.book requestId booking.replica turnIndex contextSize
        charge

theorem recordTurn
    (same : books.SameKeys) (requestId : String) (turnIndex : Int)
    (contextSize charge : ℚ) :
    (books.recordTurn requestId turnIndex contextSize charge).SameKeys := by
  unfold Books.recordTurn
  split
  · exact same
  · next replica home =>
      intro other
      have known := OrderedDict.mem_keys_of_get? home
      have written : ∀ key : String, key = requestId ∨
          key ∈ books.resident.keys ↔ key ∈ books.resident.keys := by
        intro key
        refine or_iff_right_of_imp ?_
        rintro rfl
        exact known
      simp only [OrderedDict.mem_keys_insert_iff]
      rw [← (same other).1, ← (same other).2, written]
      exact ⟨Iff.rfl, Iff.rfl⟩

theorem onTrajectoryDone
    (same : books.SameKeys) (requestId : String) :
    (books.onTrajectoryDone requestId).SameKeys := by
  obtain ⟨resident, history, reserve⟩ :=
    popped_onTrajectoryDone books requestId
  intro other
  rw [resident, history, reserve]
  simp only [OrderedDict.mem_keys_erase_iff]
  exact ⟨and_congr_right fun _ => (same other).1,
    and_congr_right fun _ => (same other).2⟩

end Books.SameKeys

/-! ## Runs of clients -/

/-- The request is in one of the seven tables. -/
def Ledger.Mentions (ledger : Ledger) (requestId : String) : Prop :=
  requestId ∈ ledger.resident.keys ∨ requestId ∈ ledger.history.keys ∨
    requestId ∈ ledger.reserveCharge.keys ∨
      requestId ∈ ledger.oracleFinal.keys ∨
        requestId ∈ ledger.groupLeaderRid.keys ∨
          requestId ∈ ledger.lptResult.keys ∨
            requestId ∈ ledger.lptPending.map fun item => item.2.1

theorem Ledger.mentions_iff
    {ledger : Ledger} (same : ledger.toBooks.SameKeys)
    (requestId : String) :
    ledger.Mentions requestId ↔
      requestId ∈ ledger.resident.keys ∨ ledger.Noted requestId ∨
        ledger.lptTables.Keeps requestId := by
  have history := (same requestId).1
  have reserve := (same requestId).2
  have pending :
      (requestId ∈ ledger.lptPending.map fun item => item.2.1) ↔
        requestId ∈ ledger.lptTables.sessions := Iff.rfl
  have result :
      requestId ∈ ledger.lptResult.keys ↔
        requestId ∈ ledger.lptTables.result.keys := Iff.rfl
  unfold Ledger.Mentions Ledger.Noted LptTables.Keeps
  rw [← history, ← reserve, pending, result]
  grind

namespace Clients

variable {cfg : Config} {clients next : Clients} {event : ClientEvent}

/-- The booking tables have the same keys, and every entry of a table belongs
to a trajectory that has called `acquire` and is not yet done. -/
structure NoResidue (clients : Clients) : Prop where
  sameKeys : clients.books.SameKeys
  underWay : ∀ requestId, clients.calls.ledger.Mentions requestId →
    clients.phase requestId ≠ .idle ∧ clients.phase requestId ≠ .done

/-- What holds of the tables in every reachable state. -/
structure Tabled (cfg : Config) (clients : Clients) : Prop where
  windowed : clients.Windowed cfg
  balanced : clients.Balanced
  within : clients.calls.ledger.Within cfg
  sameKeys : clients.books.SameKeys
  begun : ∀ requestId,
    clients.calls.ledger.Noted requestId ∨
        clients.calls.ledger.lptTables.Keeps requestId →
      clients.phase requestId ≠ .idle

theorem tabled_init (cfg : Config) : (init cfg).Tabled cfg where
  windowed := windowed_init cfg
  balanced := balanced_init cfg
  within := Ledger.Within.init cfg
  sameKeys := Books.SameKeys.init
  begun := by
    rintro requestId ((entry | entry) | (entry | entry)) <;> cases entry

theorem afterSegment_ne_done (turn : Nat) (outcome : Outcome) :
    Phase.afterSegment turn outcome ≠ .done := by
  cases outcome <;> simp [Phase.afterSegment]

/-- A step moves its own trajectory on, to the end only when it is reported
done. -/
theorem phase_of_caller
    (stepped : clients.Stepped cfg event next) :
    next.phase event.requestId ≠ .idle ∧
      (next.phase event.requestId = .done →
        event = .done event.requestId) := by
  cases stepped with
  | acquired requestId contextSize hint clock turn due =>
      simp only [runSegment, setPhase, ClientEvent.requestId,
        Function.update_self]
      exact ⟨afterSegment_ne_idle turn _,
        fun ended => absurd ended (afterSegment_ne_done turn _)⟩
  | resumed requestId wakeup waiting segment acquiring parked ran =>
      simp only [runSegment, setPhase, ClientEvent.requestId,
        Function.update_self]
      exact ⟨afterSegment_ne_idle 0 _,
        fun ended => absurd ended (afterSegment_ne_done 0 _)⟩
  | generated requestId succeeded turn placed =>
      simp [setPhase, ClientEvent.requestId]
  | recorded requestId contextSize turn succeeded ended =>
      simp [setPhase, ClientEvent.requestId]
  | finished requestId turn last =>
      simp [setPhase, ClientEvent.requestId]

theorem not_notes_of_other
    {requestId : String} (other : requestId ≠ event.requestId) :
    ¬ clients.Notes cfg event requestId := by
  cases event with
  | acquire caller contextSize hint clock =>
      exact fun notes => other notes.1
  | _ =>
      exact id

theorem sameKeys_step
    (same : clients.books.SameKeys)
    (stepped : clients.Stepped cfg event next) :
    next.books.SameKeys := by
  cases stepped with
  | acquired requestId contextSize hint clock turn due =>
      exact same.effect (Ledger.acquire_spec_anyTurn cfg
        clients.calls.ledger requestId (hint.args turn contextSize)
        clock).effect
  | resumed requestId wakeup waiting segment acquiring parked ran =>
      exact same.effect
        (Ledger.resume_spec cfg clients.calls.ledger requestId ran).effect
  | generated requestId succeeded turn placed =>
      exact same
  | recorded requestId contextSize turn succeeded ended =>
      have written := Ledger.recordTurn_toBooks cfg clients.calls.ledger
        requestId turn contextSize
      simp only [books, written]
      exact same.recordTurn requestId turn contextSize _
  | finished requestId turn last =>
      exact same.onTrajectoryDone requestId

theorem Tabled.step
    (tabled : clients.Tabled cfg)
    (ran : clients.step cfg event = some next) : next.Tabled cfg where
  windowed := tabled.windowed.step ran
  balanced := (tabled.balanced.step ran).1
  within := within_step tabled.within ran
  sameKeys := sameKeys_step tabled.sameKeys (stepped_of_step ran)
  begun := by
    have stepped := stepped_of_step ran
    intro requestId entry
    by_cases caller : requestId = event.requestId
    · subst caller
      exact (phase_of_caller stepped).1
    · rw [phase_of_other ran caller]
      apply tabled.begun requestId
      rcases entry with noted | kept
      · exact .inl (((noted_step stepped requestId).mp noted).resolve_right
          (not_notes_of_other caller))
      · exact .inr ((keeps_of_other stepped caller).1 kept)

/-- Whoever is resident has called `acquire` and is not done. -/
theorem underWay_of_resident
    (balanced : clients.Balanced) {requestId : String}
    (resident : requestId ∈ clients.books.resident.keys) :
    clients.phase requestId ≠ .idle ∧ clients.phase requestId ≠ .done := by
  have home : clients.books.resident.get? requestId ≠ none := by
    intro absent
    exact (OrderedDict.get?_eq_none_iff _ _).mp absent resident
  obtain ⟨turn, allowed, booked⟩ := balanced.standing requestId
  refine ⟨?_, ?_⟩ <;>
  · intro phase
    rw [phase] at allowed
    cases allowed
    exact home booked.1

/-- A trajectory that is reported done waits for nothing. -/
theorem remains_of_done
    (windowed : clients.Windowed cfg) {requestId : String}
    (stepped : clients.Stepped cfg (.done requestId) next) :
    clients.Remains requestId ↔
      clients.calls.ledger.Noted requestId ∨
        clients.calls.ledger.lptTables.Keeps requestId := by
  cases stepped with
  | finished _ turn last =>
      refine or_congr_right (leftInWindow_of_free ?_)
      intro parked waits
      have acquiring := windowed.acquiring requestId
        (by rw [waits]; exact Option.some_ne_none parked)
      cases last.symm.trans acquiring

/-- A step keeps the tables free of residue unless it reports a trajectory
done of which an entry remains. -/
theorem noResidue_step_iff
    (tabled : clients.Tabled cfg) (clean : clients.NoResidue)
    (ran : clients.step cfg event = some next) :
    next.NoResidue ↔
      ∀ requestId, event = .done requestId →
        ¬ clients.Remains requestId := by
  have stepped := stepped_of_step ran
  have tabledNext := tabled.step ran
  constructor
  · rintro cleanNext requestId rfl remains
    have entry := (remains_of_done tabled.windowed stepped).mp remains
    have mentioned : next.calls.ledger.Mentions requestId := by
      rw [Ledger.mentions_iff tabledNext.sameKeys]
      cases stepped with
      | finished _ turn last =>
          exact .inr entry
    apply (cleanNext.underWay requestId mentioned).2
    cases stepped with
    | finished _ turn last =>
        exact Function.update_self ..
  · intro popped
    refine ⟨tabledNext.sameKeys, ?_⟩
    intro requestId mentioned
    rw [Ledger.mentions_iff tabledNext.sameKeys] at mentioned
    rcases mentioned with resident | entry
    · exact underWay_of_resident tabledNext.balanced resident
    · refine ⟨tabledNext.begun requestId entry, ?_⟩
      by_cases caller : requestId = event.requestId
      · subst caller
        intro ended
        have reported := (phase_of_caller stepped).2 ended
        apply popped event.requestId reported
        rw [reported] at stepped
        rw [remains_of_done tabled.windowed stepped]
        generalize event.requestId = requestId at *
        cases stepped with
        | finished _ turn last =>
            exact entry
      · rw [phase_of_other ran caller]
        refine (clean.underWay requestId ?_).2
        rw [Ledger.mentions_iff tabled.sameKeys]
        rcases entry with noted | kept
        · exact .inr (.inl (((noted_step stepped
            requestId).mp noted).resolve_right
              (not_notes_of_other caller)))
        · exact .inr (.inr ((keeps_of_other stepped caller).1 kept))

theorem noResidue_init (cfg : Config) : (init cfg).NoResidue where
  sameKeys := Books.SameKeys.init
  underWay := by
    intro requestId mentioned
    rw [Ledger.mentions_iff Books.SameKeys.init] at mentioned
    rcases mentioned with
      entry | (entry | entry) | (entry | entry) <;> cases entry

theorem tabled_of_run
    {events : List ClientEvent} {final : Clients}
    (ran : run (step cfg) (init cfg) events = some final) :
    final.Tabled cfg :=
  run_invariant (fun _ _ _ tabled stepped => tabled.step stepped)
    (tabled_init cfg) ran

/-- An entry remains exactly when a step has left it. -/
theorem remains_iff_someStep
    (someReplica : cfg.replicas ≠ []) {events : List ClientEvent}
    {final : Clients}
    (ran : run (step cfg) (init cfg) events = some final)
    (requestId : String) :
    final.Remains requestId ↔
      SomeStep (step cfg)
        (fun clients event => LeavesEntry cfg clients event requestId)
        (init cfg) events := by
  have raised : ∀ (clients : Clients) event next,
      clients.Windowed cfg → step cfg clients event = some next →
        (next.Remains requestId ↔ clients.Remains requestId ∨
          clients.LeavesEntry cfg event requestId) :=
    fun _ _ _ windowed stepped =>
      remains_step windowed someReplica (stepped_of_step stepped) requestId
  have nothing : ¬ (init cfg).Remains requestId := by
    rintro ((entry | entry) | ⟨entry | entry, _⟩) <;> cases entry
  rw [flag_iff_someStep (fun _ _ _ windowed stepped =>
    Windowed.step windowed stepped) raised (windowed_init cfg) ran]
  exact or_iff_right nothing

/-- A trajectory that can be reported done has been placed. -/
theorem someReplica_of_done
    (tabled : clients.Tabled cfg) {requestId : String}
    (stepped : clients.Stepped cfg (.done requestId) next) :
    cfg.replicas ≠ [] := by
  cases stepped with
  | finished _ turn last =>
      have booked : clients.books.BookedUpTo requestId (some turn) :=
        tabled.balanced.bookedUpTo last fun _ same => same
      obtain ⟨resident, history, home, _⟩ := booked
      exact List.ne_nil_of_mem
        (tabled.within.resident requestId resident home)

/-- In a run of clients no table ever has an entry of a trajectory that has
not begun or is done, and the booking tables have the same keys, exactly when
no trajectory that is reported done has sent `session_final`, led a group, or
waited for the LPT window until its wait timed out. -/
theorem no_residue_iff
    (cfg : Config) (events : List ClientEvent) (final : Clients)
    (ran : run (step cfg) (init cfg) events = some final) :
    StatesMeet (step cfg) NoResidue (init cfg) events ↔
      ∀ before requestId after,
        events = before ++ .done requestId :: after →
          ¬ SomeStep (step cfg)
            (fun clients event => LeavesEntry cfg clients event requestId)
            (init cfg) before := by
  have agree : ∀ (clients : Clients) event next,
      clients.Tabled cfg → clients.NoResidue →
        step cfg clients event = some next →
          (next.NoResidue ↔ ∀ requestId, event = .done requestId →
            ¬ clients.Remains requestId) :=
    fun _ _ _ tabled clean stepped => noResidue_step_iff tabled clean stepped
  rw [statesMeet_iff_stepsMeet
    (fun _ _ _ tabled stepped => Tabled.step tabled stepped) agree
    (tabled_init cfg) (noResidue_init cfg) ran,
    stepsMeet_iff_of_split ran]
  have remains : ∀ before requestId after state,
      events = before ++ .done requestId :: after →
        run (step cfg) (init cfg) before = some state →
          (state.Remains requestId ↔
            SomeStep (step cfg)
              (fun clients event =>
                LeavesEntry cfg clients event requestId)
              (init cfg) before) := by
    rintro before requestId after state rfl reached
    rw [run_append reached] at ran
    obtain ⟨next, stepped, _⟩ := run_cons_eq_some.mp ran
    -- only a placed trajectory gets here, so there is a replica
    exact remains_iff_someStep (someReplica_of_done
      (tabled_of_run reached) (stepped_of_step stepped)) reached requestId
  constructor
  · intro popped before requestId after split
    subst split
    obtain ⟨state, reached, _⟩ := exists_middle_of_run_append ran
    rw [← remains before requestId after state rfl reached]
    exact popped before _ after rfl state reached requestId rfl
  · rintro clean before event after split state reached requestId rfl
    rw [remains before requestId after state split reached]
    exact clean before requestId after split

/-- Two turns without hints, groups or a window. -/
theorem no_residue_iff_plain :
    ∃ final,
      run (step oneReplica) (init oneReplica) (twoTurns 15) =
          some final ∧
        StatesMeet (step oneReplica) NoResidue (init oneReplica)
          (twoTurns 15) := by
  obtain ⟨final, ran, _⟩ :=
    exists_final_of_map_eq
      (show (run (step oneReplica) (init oneReplica) (twoTurns 15)).map
        (fun _ => true) = some true by decide +kernel)
  refine ⟨final, ran,
    (no_residue_iff oneReplica (twoTurns 15) final ran).mpr ?_⟩
  intro before requestId after split left
  obtain ⟨state, event, member, leaves⟩ := left.exists_mem
  have plain : event ∈ twoTurns 15 := by
    rw [split]
    exact List.mem_append_left _ member
  simp only [twoTurns, List.mem_cons, List.not_mem_nil, or_false] at plain
  rcases plain with rfl | rfl | rfl | rfl | rfl | rfl | rfl <;>
    simp [LeavesEntry, Notes, Ledger.Leads, SessionHint.args] at leaves

/-- One turn of a trajectory that leads a group and hints at its final
context. -/
def hintedLeader : List ClientEvent :=
  [.acquire "t" 13 ⟨some 17, none, some "g"⟩ ⟨0, 0⟩,
    .generateEnds "t" true, .recordTurn "t" 13, .done "t"]

/-- A trajectory that is done is still in two tables. -/
theorem hinted_leader_stays_in_tables :
    ∃ final,
      run (step staggered) (init staggered) hintedLeader =
          some final ∧
        final.phase "t" = .done ∧
        "t" ∈ final.calls.ledger.oracleFinal.keys ∧
        "t" ∈ final.calls.ledger.groupLeaderRid.keys ∧
        ¬ final.NoResidue := by
  obtain ⟨final, ran, reached⟩ :=
    exists_final_of_map_eq
      (show (run (step staggered) (init staggered) hintedLeader).map
        (fun final => decide (final.phase "t" = .done ∧
          "t" ∈ final.calls.ledger.oracleFinal.keys ∧
          "t" ∈ final.calls.ledger.groupLeaderRid.keys)) =
          some true by decide +kernel)
  obtain ⟨ended, hinted, leading⟩ := of_decide_eq_true reached
  refine ⟨final, ran, ended, hinted, leading, ?_⟩
  intro clean
  exact (clean.underWay "t"
    (.inr (.inr (.inr (.inl hinted))))).2 ended

end Clients

end LlmDRl.Admission
