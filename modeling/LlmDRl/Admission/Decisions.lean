import LlmDRl.Admission.WindowRuns

/-!
# Decisions and bookings

Most branches of `acquire` decide on a replica and book it in one segment.
The LPT batch does not: the end of the window decides for every session it
has collected, and each of them books its replica when it wakes up.  Between
the two its context counts nowhere.

`decided` is a history variable next to the clients: the replica the ledger
last decided on for a request, until the request is done.  It is written by
what a step books and by the batch of a window, and never read by the step
function.
-/

namespace LlmDRl.Admission

open LlmDRl.Library
open scoped NNRat

namespace Clients

/-- The segment of `acquire` an event runs, if it runs one. -/
def segmentOf (cfg : Config) (clients : Clients) :
    ClientEvent → Option (String × Int × Segment)
  | .acquire requestId contextSize hint clock =>
      (clients.phase requestId).nextTurn.bind fun turn =>
        clients.calls.segmentOf cfg
          (.acquire requestId (hint.args turn contextSize) clock)
  | .resume requestId wakeup =>
      if clients.phase requestId = .acquiring then
        clients.calls.segmentOf cfg (.resume requestId wakeup)
      else
        none
  | _ => none

/-- What the event books. -/
def bookingOf (cfg : Config) (clients : Clients) (event : ClientEvent) :
    Option (String × Booking) :=
  (clients.segmentOf cfg event).bind fun ran =>
    ran.2.2.booked.map fun booking => (ran.1, booking)

/-- The end of an LPT window. -/
def EndsWindow (clients : Clients) : ClientEvent → Prop
  | .resume requestId .lptWindowOver =>
      match clients.calls.waiting requestId with
      | some (.lptWindow _) => True
      | _ => False
  | _ => False

instance (clients : Clients) (event : ClientEvent) :
    Decidable (clients.EndsWindow event) := by
  unfold EndsWindow
  split
  · split <;> infer_instance
  · infer_instance

/-- The placements an event makes for the batch of a window. -/
def batchOf (cfg : Config) (clients : Clients) (event : ClientEvent) :
    List ((ℚ × String × ℚ) × String) :=
  if clients.EndsWindow event then
    (clients.calls.ledger.lptSchedule cfg).getD []
  else
    []

/-- The event lets a session collect the replica its batch assigned to it. -/
def Collects (clients : Clients) : ClientEvent → Prop
  | .resume requestId .lptReady =>
      clients.calls.ledger.lptResult.getD requestId "" ≠ ""
  | _ => False

instance (clients : Clients) (event : ClientEvent) :
    Decidable (clients.Collects event) := by
  unfold Collects
  split <;> infer_instance

/-- The event books a replica that is decided on here and now. -/
def Picks (cfg : Config) (clients : Clients) (event : ClientEvent) : Prop :=
  clients.bookingOf cfg event ≠ none ∧ ¬ clients.Collects event

instance (cfg : Config) (clients : Clients) (event : ClientEvent) :
    Decidable (clients.Picks cfg event) :=
  inferInstanceAs (Decidable (_ ∧ _))

/-- The request is parked in the window. -/
def InWindow (clients : Clients) (requestId : String) : Prop :=
  ∃ waiting ∈ clients.calls.waiting requestId, waiting.InWindow

instance (clients : Clients) (requestId : String) :
    Decidable (clients.InWindow requestId) :=
  inferInstanceAs (Decidable (∃ waiting ∈ _, _))

/-- No call picks a replica while a session has one to collect. -/
def CollectedBefore (cfg : Config) (clients : Clients)
    (event : ClientEvent) : Prop :=
  clients.Picks cfg event →
    ∀ requestId ∈ clients.calls.ledger.lptResult.keys,
      ¬ clients.InWindow requestId

/-- A window ends with all its sessions still waiting for it. -/
def Attended (clients : Clients) (event : ClientEvent) : Prop :=
  clients.EndsWindow event →
    ∀ requestId ∈ clients.calls.ledger.lptTables.sessions,
      clients.InWindow requestId

def CollectedFirst (cfg : Config) (clients : Clients)
    (event : ClientEvent) : Prop :=
  clients.CollectedBefore cfg event ∧ clients.Attended event

instance (cfg : Config) (clients : Clients) (event : ClientEvent) :
    Decidable (clients.CollectedBefore cfg event) :=
  inferInstanceAs (Decidable (_ → _))

instance (clients : Clients) (event : ClientEvent) :
    Decidable (clients.Attended event) :=
  inferInstanceAs (Decidable (_ → _))

instance (cfg : Config) (clients : Clients) (event : ClientEvent) :
    Decidable (clients.CollectedFirst cfg event) :=
  inferInstanceAs (Decidable (_ ∧ _))

end Clients

structure Deciding where
  clients : Clients
  decided : String → Option String

namespace Deciding

def init (cfg : Config) : Deciding := ⟨.init cfg, fun _ => none⟩

/-- The decisions once an event has placed the batch of a window. -/
def batched (cfg : Config) (state : Deciding) (event : ClientEvent)
    (requestId : String) : Option String :=
  ((OrderedDict.empty.assignAll (fun item : ℚ × String × ℚ => item.2.1)
    (state.clients.batchOf cfg event)).get? requestId).or
    (state.decided requestId)

/-- The decisions once it has booked its own caller as well. -/
def booked (cfg : Config) (state : Deciding) (event : ClientEvent) :
    String → Option String :=
  match state.clients.bookingOf cfg event with
  | some (requestId, booking) =>
      Function.update (state.batched cfg event) requestId
        (some booking.replica)
  | none => state.batched cfg event

/-- The decisions after an event: none for a request that is done. -/
def decisions (cfg : Config) (state : Deciding) (event : ClientEvent) :
    String → Option String :=
  match event with
  | .done requestId => Function.update state.decided requestId none
  | _ => state.booked cfg event

def step (cfg : Config) (state : Deciding) (event : ClientEvent) :
    Option Deciding :=
  (state.clients.step cfg event).map fun clients =>
    ⟨clients, state.decisions cfg event⟩

/-- The history variable changes no run. -/
theorem run_iff_clients
    (cfg : Config) (events : List ClientEvent) (start : Deciding)
    (final : Clients) :
    (∃ decided, run (step cfg) start events = some ⟨final, decided⟩) ↔
      run (Clients.step cfg) start.clients events = some final := by
  induction events generalizing start with
  | nil =>
      constructor
      · rintro ⟨decided, ran⟩
        cases ran
        rfl
      · intro ran
        cases ran
        exact ⟨start.decided, rfl⟩
  | cons event rest inductionHypothesis =>
      constructor
      · rintro ⟨decided, ran⟩
        obtain ⟨next, stepped, continued⟩ := run_cons_eq_some.mp ran
        obtain ⟨clients, clientStep, rfl⟩ :=
          Option.map_eq_some_iff.mp stepped
        exact run_cons_eq_some.mpr
          ⟨clients, clientStep,
            (inductionHypothesis _).mp ⟨decided, continued⟩⟩
      · intro ran
        obtain ⟨clients, clientStep, continued⟩ := run_cons_eq_some.mp ran
        obtain ⟨decided, lifted⟩ :=
          (inductionHypothesis ⟨clients, start.decisions cfg event⟩).mpr
            continued
        exact ⟨decided, run_cons_eq_some.mpr
          ⟨_, Option.map_eq_some_iff.mpr ⟨clients, clientStep, rfl⟩,
            lifted⟩⟩

/-! ## What a step decides -/

variable {cfg : Config} {state next : Deciding} {event : ClientEvent}

theorem batched_of_not_endsWindow
    (goesOn : ¬ state.clients.EndsWindow event) :
    state.batched cfg event = state.decided := by
  funext requestId
  simp only [batched, Clients.batchOf, if_neg goesOn]
  rfl

/-- A step that runs a segment decides for the batch, if it places one, and
for the caller, if it books one. -/
theorem decisions_of_segmentOf
    {requestId : String} {turnIndex : Int} {segment : Segment}
    (ran :
      state.clients.segmentOf cfg event =
        some (requestId, turnIndex, segment)) :
    (∀ other, other ≠ requestId →
      state.decisions cfg event other = state.batched cfg event other) ∧
    state.decisions cfg event requestId =
      (segment.booked.map Booking.replica).or
        (state.batched cfg event requestId) := by
  have notDone : ∀ caller, event ≠ .done caller := by
    intro caller same
    subst event
    cases ran
  have booking : state.clients.bookingOf cfg event =
      segment.booked.map fun booked => (requestId, booked) := by
    simp only [Clients.bookingOf, ran, Option.bind_some]
  have decided :
      state.decisions cfg event = state.booked cfg event := by
    cases event with
    | done caller =>
        exact absurd rfl (notDone caller)
    | acquire caller contextSize hint clock =>
        rfl
    | resume caller wakeup =>
        rfl
    | generateEnds caller succeeded =>
        rfl
    | recordTurn caller contextSize =>
        rfl
  rw [decided, booked, booking]
  cases segment.booked with
  | none =>
      exact ⟨fun _ _ => rfl, rfl⟩
  | some chosen =>
      refine ⟨?_, ?_⟩
      · intro other different
        exact Function.update_of_ne different _ _
      · exact Function.update_self _ _ _

/-! ## Where a decision stands -/

/-- The request is resident on the replica, or parked with the replica
assigned to it. -/
def StandsAt (clients : Clients) (requestId replica : String) : Prop :=
  clients.books.resident.get? requestId = some replica ∨
    (∃ contextSize,
      clients.calls.waiting requestId = some (.lptEvent contextSize)) ∧
    clients.calls.ledger.lptResult.get? requestId = some replica

/-- What holds of the decisions in every state of a run whose windows end
with all their sessions waiting. -/
structure Kept (cfg : Config) (state : Deciding) : Prop where
  balanced : state.clients.Balanced
  windowed : state.clients.Windowed cfg
  within : state.clients.calls.ledger.Within cfg
  standing : ∀ requestId replica,
    state.decided requestId = some replica →
      StandsAt state.clients requestId replica

theorem kept_init (cfg : Config) : (init cfg).Kept cfg where
  balanced := Clients.balanced_init cfg
  windowed := Clients.windowed_init cfg
  within := Ledger.Within.init cfg
  standing := by
    intro requestId replica impossible
    cases impossible

/-- What a segment books is where its caller is resident. -/
theorem standsAt_of_booked
    {clients : Clients} {requestId : String} {turnIndex : Int}
    {contextSize : ℚ} {segment : Segment} {booking : Booking} (turn : Nat)
    (spec :
      segment.Spec cfg clients.calls.ledger requestId turnIndex
        contextSize)
    (booked : segment.booked = some booking) :
    StandsAt (clients.runSegment turn (requestId, turnIndex, segment))
      requestId booking.replica := by
  refine .inl ?_
  have resident := spec.effect.resident_eq
  rw [booked] at resident
  exact resident

/-- Another caller's segment moves no decision that leaves the assignment of
the request alone. -/
theorem StandsAt.of_other
    {clients : Clients} {requestId other replica : String}
    {turnIndex : Int} {contextSize : ℚ} {segment : Segment} (turn : Nat)
    (stands : StandsAt clients other replica)
    (spec :
      segment.Spec cfg clients.calls.ledger requestId turnIndex
        contextSize)
    (different : other ≠ requestId)
    (result :
      segment.ledger.lptResult.get? other =
        clients.calls.ledger.lptResult.get? other) :
    StandsAt (clients.runSegment turn (requestId, turnIndex, segment))
      other replica := by
  rcases stands with resident | ⟨⟨size, parked⟩, assigned⟩
  · exact .inl
      ((spec.effect.sameElsewhere other different).1.trans resident)
  · refine .inr ⟨⟨size, ?_⟩, result.trans assigned⟩
    exact (Function.update_of_ne different _ _).trans parked

/-- A caller whose segment books nothing keeps its residency. -/
theorem standsAt_of_unbooked
    {clients : Clients} {requestId replica : String}
    {turnIndex : Int} {contextSize : ℚ} {segment : Segment} (turn : Nat)
    (resident :
      clients.books.resident.get? requestId = some replica)
    (spec :
      segment.Spec cfg clients.calls.ledger requestId turnIndex
        contextSize)
    (unbooked : segment.booked = none) :
    StandsAt (clients.runSegment turn (requestId, turnIndex, segment))
      requestId replica := by
  refine .inl ?_
  have after := spec.effect.resident_eq
  rw [unbooked] at after
  exact after.trans resident

/-- A segment that ends without a booking and without being suspended has
found no replica. -/
theorem noReplica_of_unbooked
    {ledger : Ledger} {requestId : String} {turnIndex : Int}
    {contextSize : ℚ} {segment : Segment}
    (spec : segment.Spec cfg ledger requestId turnIndex contextSize)
    (chosen : segment.Chosen cfg)
    (stays : ∀ waiting, segment.outcome ≠ .suspended waiting)
    (unbooked : segment.booked = none) : cfg.replicas = [] := by
  cases outcome : segment.outcome with
  | suspended waiting =>
      exact absurd outcome (stays waiting)
  | returned placement =>
      obtain ⟨rule, booked⟩ := spec.returned placement outcome
      cases booked.symm.trans unbooked
  | raised error =>
      exact chosen.unbooked error outcome unbooked

/-- A decision stands at a replica of the ledger. -/
theorem StandsAt.mem
    {clients : Clients} {requestId replica : String}
    (stands : StandsAt clients requestId replica)
    (within : clients.calls.ledger.Within cfg) :
    replica ∈ cfg.replicas := by
  rcases stands with resident | ⟨_, assigned⟩
  · exact within.resident requestId replica resident
  · exact within.result requestId replica assigned

/-- A segment that ends no window keeps every decision standing. -/
theorem Kept.standing_of_segment
    (kept : state.Kept cfg)
    {requestId : String} {turnIndex : Int} {contextSize : ℚ}
    {segment : Segment} (turn : Nat)
    (ran :
      state.clients.segmentOf cfg event =
        some (requestId, turnIndex, segment))
    (goesOn : ¬ state.clients.EndsWindow event)
    (spec :
      segment.Spec cfg state.clients.calls.ledger requestId turnIndex
        contextSize)
    (result : ∀ other, other ≠ requestId →
      segment.ledger.lptResult.get? other =
        state.clients.calls.ledger.lptResult.get? other)
    (resident : segment.booked = none → ∀ replica,
      StandsAt state.clients requestId replica →
        state.clients.books.resident.get? requestId = some replica)
    (other replica : String)
    (decided : state.decisions cfg event other = some replica) :
    StandsAt
      (state.clients.runSegment turn (requestId, turnIndex, segment))
      other replica := by
  obtain ⟨elsewhere, here⟩ := decisions_of_segmentOf ran
  rw [batched_of_not_endsWindow goesOn] at elsewhere here
  by_cases caller : other = requestId
  · subst other
    rw [here] at decided
    cases booked : segment.booked with
    | none =>
        rw [booked] at decided
        exact standsAt_of_unbooked turn
          (resident booked replica
            (kept.standing requestId replica decided))
          spec booked
    | some booking =>
        rw [booked] at decided
        cases decided
        exact standsAt_of_booked turn spec booked
  · rw [elsewhere other caller] at decided
    exact (kept.standing other replica decided).of_other turn spec caller
      (result other caller)

/-- The batch places only sessions of the window, on replicas that exist. -/
theorem mem_sessions_of_assigned
    {ledger : Ledger} {placed : List ((ℚ × String × ℚ) × String)}
    (scheduled : ledger.lptSchedule cfg = some placed)
    {other replica : String}
    (assigned :
      (OrderedDict.empty.assignAll
        (fun item : ℚ × String × ℚ => item.2.1) placed).get? other =
          some replica) :
    other ∈ ledger.lptTables.sessions ∧ replica ∈ cfg.replicas := by
  obtain ⟨entry, member, same⟩ := OrderedDict.mem_of_get?_assignAll assigned
  have everyone := (Ledger.longestFirst_of_lptSchedule scheduled).everyone
  have pending : entry.1 ∈ ledger.lptPending :=
    everyone.mem_iff.mp (List.mem_map.mpr ⟨entry, member, rfl⟩)
  have targets : (OrderedDict.empty.assignAll
      (fun item : ℚ × String × ℚ => item.2.1) placed).AllValues
        (· ∈ cfg.replicas) :=
    (OrderedDict.allValues_empty _).assignAll _
      fun _ member => Ledger.lptSchedule_mem scheduled member
  exact ⟨List.mem_map.mpr ⟨entry.1, pending, same⟩,
    targets other replica assigned⟩

/-- The sessions of a window wait for its event, but for the opener. -/
theorem Kept.lptEvent_of_inWindow
    (kept : state.Kept cfg)
    {requestId other : String} {contextSize : ℚ}
    (opens :
      state.clients.calls.waiting requestId =
        some (.lptWindow contextSize))
    (caller : other ≠ requestId) (parked : state.clients.InWindow other) :
    ∃ size, state.clients.calls.waiting other = some (.lptEvent size) := by
  obtain ⟨waiting, parked, inWindow⟩ := parked
  cases waiting with
  | poll size deadline =>
      cases inWindow
  | group groupKey size sessionWork =>
      cases inWindow
  | lptWindow size =>
      obtain ⟨_, _, unique⟩ :=
        kept.windowed.opener requestId contextSize opens
      exact absurd (unique other size parked) caller
  | lptEvent size =>
      exact ⟨size, parked⟩

/-- The opener is only left without a booking for want of a replica. -/
theorem Kept.noReplica_of_opener
    (kept : state.Kept cfg) {requestId : String} {contextSize : ℚ}
    (spec :
      (state.clients.calls.ledger.lptWindowOver cfg requestId
        contextSize).Spec cfg state.clients.calls.ledger requestId 0
          contextSize)
    {placed : List ((ℚ × String × ℚ) × String)}
    (scheduled : state.clients.calls.ledger.lptSchedule cfg = some placed)
    (unbooked :
      (state.clients.calls.ledger.lptWindowOver cfg requestId
        contextSize).booked = none) :
    cfg.replicas = [] := by
  have closes := Ledger.lptWindowOver_of_scheduled scheduled requestId
    contextSize
  refine noReplica_of_unbooked spec ?_ ?_ unbooked
  · rw [closes]
    exact Ledger.lptFinish_chosen cfg _ requestId contextSize
      (Ledger.closeWindow_result_within kept.within.result scheduled)
  · rw [closes]
    exact Ledger.lptFinish_not_suspended requestId contextSize

/-- The end of a window decides for its sessions, all of them still waiting,
and books for the one that opened it. -/
theorem Kept.standing_of_batch
    (kept : state.Kept cfg)
    {requestId : String} {contextSize : ℚ}
    (opens :
      state.clients.calls.waiting requestId =
        some (.lptWindow contextSize))
    (ends : state.clients.EndsWindow event)
    (ran :
      state.clients.segmentOf cfg event =
        some (requestId, 0,
          state.clients.calls.ledger.lptWindowOver cfg requestId
            contextSize))
    (present : ∀ session ∈ state.clients.calls.ledger.lptTables.sessions,
      state.clients.InWindow session)
    (spec :
      (state.clients.calls.ledger.lptWindowOver cfg requestId
        contextSize).Spec cfg state.clients.calls.ledger requestId 0
          contextSize)
    {placed : List ((ℚ × String × ℚ) × String)}
    (scheduled :
      state.clients.calls.ledger.lptSchedule cfg = some placed)
    (other replica : String)
    (decided : state.decisions cfg event other = some replica) :
    StandsAt
      (state.clients.runSegment 0
        (requestId, 0,
          state.clients.calls.ledger.lptWindowOver cfg requestId
            contextSize))
      other replica := by
  have closes := Ledger.lptWindowOver_of_scheduled scheduled requestId
    contextSize
  have tables :
      (state.clients.calls.ledger.lptWindowOver cfg requestId
          contextSize).ledger.lptResult =
        (state.clients.calls.ledger.closeWindow placed).lptResult.erase
          requestId := by
    rw [closes]
    exact Ledger.lptResult_lptFinish requestId contextSize
  obtain ⟨elsewhere, here⟩ := decisions_of_segmentOf ran
  have batch : state.clients.batchOf cfg event = placed := by
    rw [Clients.batchOf, if_pos ends, scheduled, Option.getD_some]
  have written := fun probe =>
    OrderedDict.get?_assignAll (fun item : ℚ × String × ℚ => item.2.1)
      placed state.clients.calls.ledger.lptResult probe
  by_cases caller : other = requestId
  · subst other
    rw [here, batched, batch] at decided
    cases booked :
        (state.clients.calls.ledger.lptWindowOver cfg requestId
          contextSize).booked with
    | some booking =>
        rw [booked] at decided
        cases decided
        exact standsAt_of_booked 0 spec booked
    | none =>
        -- without a replica there is nothing to decide on
        have noReplica := kept.noReplica_of_opener spec scheduled booked
        have member : replica ∈ cfg.replicas := by
          rw [booked] at decided
          rcases Option.or_eq_some_iff.mp decided with
            assigned | ⟨_, older⟩
          · cases assigned
          · rcases Option.or_eq_some_iff.mp older with
              assigned | ⟨_, before⟩
            · exact (mem_sessions_of_assigned scheduled assigned).2
            · exact (kept.standing requestId replica before).mem
                kept.within
        rw [noReplica] at member
        cases member
  · rw [elsewhere other caller, batched, batch] at decided
    have result :
        (state.clients.calls.ledger.lptWindowOver cfg requestId
            contextSize).ledger.lptResult.get? other =
          ((OrderedDict.empty.assignAll
            (fun item : ℚ × String × ℚ => item.2.1) placed).get?
              other).or
            (state.clients.calls.ledger.lptResult.get? other) := by
      rw [tables, OrderedDict.get?_erase_of_ne _ caller]
      exact written other
    rcases Option.or_eq_some_iff.mp decided with
      assigned | ⟨unassigned, before⟩
    · have session := (mem_sessions_of_assigned scheduled assigned).1
      obtain ⟨size, parked⟩ :=
        kept.lptEvent_of_inWindow opens caller (present other session)
      refine .inr ⟨?_, ?_⟩
      · exact ⟨size, (Function.update_of_ne caller _ _).trans parked⟩
      · exact result.trans (by rw [assigned]; rfl)
    · refine (kept.standing other replica before).of_other 0 spec caller ?_
      rw [result, unassigned]
      rfl

/-- A step outside `acquire` keeps every decision that still counts. -/
theorem Kept.standing_of_same
    (kept : state.Kept cfg) {clients : Clients}
    (gone : ∀ requestId replica,
      state.decisions cfg event requestId = some replica →
        state.decided requestId = some replica ∧
          clients.books.resident.get? requestId =
            state.clients.books.resident.get? requestId)
    (waiting : clients.calls.waiting = state.clients.calls.waiting)
    (result :
      clients.calls.ledger.lptResult =
        state.clients.calls.ledger.lptResult)
    (requestId replica : String)
    (decided : state.decisions cfg event requestId = some replica) :
    StandsAt clients requestId replica := by
  obtain ⟨before, residentSame⟩ := gone requestId replica decided
  rcases kept.standing requestId replica before with
    resident | ⟨parked, assigned⟩
  · exact .inl (residentSame.trans resident)
  · exact .inr ⟨waiting ▸ parked, result ▸ assigned⟩

theorem segmentOf_acquire
    {clients : Clients} {requestId : String} {turn : Nat}
    (due : (clients.phase requestId).nextTurn = some turn)
    (free : clients.calls.waiting requestId = none)
    (contextSize : ℚ≥0) (hint : SessionHint) (clock : Clock) :
    clients.segmentOf cfg (.acquire requestId contextSize hint clock) =
      some (requestId, (turn : Int),
        clients.calls.ledger.acquire cfg requestId
          (hint.args turn contextSize) clock) := by
  simp only [Clients.segmentOf, due, Option.bind_some, Calls.segmentOf,
    free, SessionHint.args]

theorem segmentOf_resume
    {clients : Clients} {requestId : String} {wakeup : Wakeup}
    {waiting : Waiting} {segment : Segment}
    (acquiring : clients.phase requestId = .acquiring)
    (parked : clients.calls.waiting requestId = some waiting)
    (ran :
      clients.calls.ledger.resume cfg requestId waiting wakeup =
        some segment) :
    clients.segmentOf cfg (.resume requestId wakeup) =
      some (requestId, 0, segment) := by
  simp only [Clients.segmentOf, if_pos acquiring, Calls.segmentOf, parked,
    ran, Option.map_some]

/-- Only the opener's wake-up at the end of its sleep ends a window. -/
theorem endsWindow_resume
    {clients : Clients} {requestId : String} {wakeup : Wakeup}
    {waiting : Waiting}
    (parked : clients.calls.waiting requestId = some waiting)
    (ends : clients.EndsWindow (.resume requestId wakeup)) :
    ∃ contextSize, waiting = .lptWindow contextSize := by
  cases wakeup with
  | lptWindowOver =>
      simp only [Clients.EndsWindow, parked] at ends
      cases waiting with
      | lptWindow contextSize =>
          exact ⟨contextSize, rfl⟩
      | poll size deadline =>
          cases ends
      | group groupKey size sessionWork =>
          cases ends
      | lptEvent size =>
          cases ends
  | pollOver now =>
      cases ends
  | groupReady clock =>
      cases ends
  | groupTimeout clock =>
      cases ends
  | lptReady =>
      cases ends
  | lptTimeout =>
      cases ends

/-- A window that ends without a schedule has no replica to decide on. -/
theorem Kept.undecided_of_unscheduled
    (kept : state.Kept cfg) {requestId : String} {contextSize : ℚ}
    (runs :
      state.clients.segmentOf cfg (.resume requestId .lptWindowOver) =
        some (requestId, 0,
          state.clients.calls.ledger.lptWindowOver cfg requestId
            contextSize))
    (scheduled : state.clients.calls.ledger.lptSchedule cfg = none)
    (other replica : String) :
    state.decisions cfg (.resume requestId .lptWindowOver) other ≠
      some replica := by
  intro decided
  have noReplica := Ledger.lptSchedule_eq_none scheduled
  obtain ⟨elsewhere, here⟩ := decisions_of_segmentOf runs
  have batch :
      state.batched cfg (.resume requestId .lptWindowOver) =
        state.decided := by
    funext probe
    simp only [batched, Clients.batchOf, scheduled, Option.getD_none,
      ite_self]
    rfl
  have closes :=
    Ledger.lptWindowOver_of_unscheduled scheduled requestId contextSize
  have before : state.decided other = some replica := by
    rw [batch] at elsewhere here
    by_cases caller : other = requestId
    · subst other
      rw [here, closes] at decided
      exact decided
    · rw [elsewhere other caller] at decided
      exact decided
  have member := (kept.standing other replica before).mem kept.within
  rw [noReplica] at member
  cases member

/-- A wake-up keeps the decisions standing. -/
theorem Kept.standing_of_resume
    (kept : state.Kept cfg) {requestId : String} {wakeup : Wakeup}
    {waiting : Waiting} {segment : Segment}
    (present : state.clients.Attended (.resume requestId wakeup))
    (acquiring : state.clients.phase requestId = .acquiring)
    (parked : state.clients.calls.waiting requestId = some waiting)
    (ran :
      state.clients.calls.ledger.resume cfg requestId waiting wakeup =
        some segment) :
    ∀ other replica,
      state.decisions cfg (.resume requestId wakeup) other =
          some replica →
        StandsAt (state.clients.runSegment 0 (requestId, 0, segment)) other
          replica := by
  have spec := Ledger.resume_spec cfg state.clients.calls.ledger
    requestId ran
  have chosen := Ledger.resume_chosen cfg state.clients.calls.ledger
    requestId kept.within ran
  have runs := segmentOf_resume acquiring parked ran
  rcases Ledger.resume_lpt ran with ⟨outside, lpt⟩ | exits
  · refine kept.standing_of_segment 0 runs ?_ spec ?_ ?_
    · intro ends
      obtain ⟨size, same⟩ := endsWindow_resume parked ends
      subst waiting
      exact outside trivial
    · intro other _
      exact congrArg (OrderedDict.get? · other) lpt.result_eq.1
    · intro _ replica stands
      rcases stands with resident | ⟨⟨size, here⟩, _⟩
      · exact resident
      · cases parked.symm.trans here
        exact absurd trivial outside
  · have unplaced : segment.booked = none → ∀ replica,
        StandsAt state.clients requestId replica →
          state.clients.books.resident.get? requestId =
            some replica := by
      intro unbooked replica stands
      have member := stands.mem kept.within
      rw [noReplica_of_unbooked spec chosen exits.not_suspended
        unbooked] at member
      cases member
    cases exits with
    | ended contextSize =>
        cases scheduled :
            state.clients.calls.ledger.lptSchedule cfg with
        | some placed =>
            have ends : state.clients.EndsWindow
                (.resume requestId .lptWindowOver) := by
              simp only [Clients.EndsWindow, parked]
            exact kept.standing_of_batch parked ends runs
              (present ends) spec scheduled
        | none =>
            intro other replica decided
            exact absurd decided
              (kept.undecided_of_unscheduled runs scheduled other replica)
    | collected contextSize set =>
        refine kept.standing_of_segment 0 runs
          (fun impossible => impossible) spec ?_ unplaced
        intro other different
        rw [Ledger.lptResult_lptFinish]
        exact OrderedDict.get?_erase_of_ne _ different
    | timedOut contextSize =>
        refine kept.standing_of_segment 0 runs
          (fun impossible => impossible) spec ?_ unplaced
        intro other _
        rw [Ledger.lptResult_place]

/-- Every step keeps the decisions standing, if a window that ends still has
all its sessions. -/
theorem Kept.step
    (kept : state.Kept cfg)
    (present : state.clients.Attended event)
    (stepped : state.step cfg event = some next) : next.Kept cfg := by
  obtain ⟨clients, clientStep, rfl⟩ := Option.map_eq_some_iff.mp stepped
  refine
    { balanced := (kept.balanced.step clientStep).1
      windowed := kept.windowed.step clientStep
      within := Clients.within_step kept.within clientStep
      standing := ?_ }
  change ∀ requestId replica,
    state.decisions cfg event requestId = some replica →
      StandsAt clients requestId replica
  cases Clients.stepped_of_step clientStep with
  | acquired requestId contextSize hint clock turn due =>
      have free := kept.windowed.free due
      refine kept.standing_of_segment turn
        (segmentOf_acquire due free contextSize hint clock)
        (fun impossible => impossible)
        (Ledger.acquire_spec cfg state.clients.calls.ledger requestId
          (hint.args turn contextSize) clock (Int.natCast_nonneg turn))
        ?_ ?_
      · intro other _
        have same := (Ledger.acquire_lpt cfg state.clients.calls.ledger
          requestId (hint.args turn contextSize) clock).result_eq.1
        exact congrArg (OrderedDict.get? · other) same
      · intro _ replica stands
        rcases stands with resident | ⟨⟨size, parked⟩, _⟩
        · exact resident
        · cases free.symm.trans parked
  | resumed requestId wakeup waiting segment acquiring parked ran =>
      exact kept.standing_of_resume present acquiring parked ran
  | generated requestId succeeded turn placed =>
      refine kept.standing_of_same ?_ rfl rfl
      intro other replica decided
      exact ⟨decided, rfl⟩
  | recorded requestId contextSize turn succeeded ended =>
      refine kept.standing_of_same ?_ rfl ?_
      · intro other replica decided
        refine ⟨decided, ?_⟩
        have written := Ledger.recordTurn_toBooks cfg
          state.clients.calls.ledger requestId turn contextSize
        simp only [Clients.books, written, Books.resident_recordTurn]
      · exact Ledger.lptResult_recordTurn cfg state.clients.calls.ledger
          requestId turn contextSize
  | finished requestId turn last =>
      refine kept.standing_of_same ?_ rfl rfl
      intro other replica decided
      have different : other ≠ requestId := by
        intro same
        subst other
        simp [decisions] at decided
      refine ⟨?_, ?_⟩
      · simpa [decisions, Function.update_of_ne different] using decided
      · exact (Books.sameElsewhere_onTrajectoryDone
          state.clients.books requestId other different).1

/-! ## What a pick sees -/

/-- A step that picks a replica finds every decision booked, its context
counted, and the batch of a window charges its own placements as it goes. -/
structure Informed (cfg : Config) (state : Deciding)
    (event : ClientEvent) : Prop where
  resident : state.clients.Picks cfg event → ∀ requestId replica,
    state.decided requestId = some replica →
      state.clients.books.resident.get? requestId = some replica
  counted : ∀ replica,
    state.clients.books.residentTokens replica ≤
      state.clients.books.used replica
  provisional :
    state.clients.EndsWindow event → ∀ placed,
      state.clients.calls.ledger.lptSchedule cfg = some placed →
        LongestFirst cfg state.clients.books
          state.clients.calls.ledger.lptPending placed

theorem Kept.informed
    (kept : state.Kept cfg)
    (collected : state.clients.CollectedBefore cfg event) :
    state.Informed cfg event where
  resident := by
    intro picks requestId replica decided
    rcases kept.standing requestId replica decided with
      resident | ⟨⟨contextSize, parked⟩, assigned⟩
    · exact resident
    · have assignedKey := OrderedDict.mem_keys_of_get? assigned
      exact absurd ⟨_, parked, trivial⟩
        (collected picks requestId assignedKey)
  counted := by
    intro replica
    have covered := kept.balanced.covered replica
    rw [Books.slack] at covered
    linarith
  provisional := fun _ _ => Ledger.longestFirst_of_lptSchedule

/-- In every run in which the sessions of a batch collect their replicas
before anything else is picked, and none leaves the window early, every pick
sees every earlier decision. -/
theorem picks_see_every_decision_if_collected_first
    (cfg : Config) (events : List ClientEvent)
    (collected :
      StepsMeet (step cfg)
        (fun state event => state.clients.CollectedFirst cfg event)
        (init cfg) events) :
    StepsMeet (step cfg) (Informed cfg) (init cfg) events :=
  StepsMeet.of_invariant
    (fun _ _ _ kept first stepped => kept.step first.2 stepped)
    (fun _ _ kept first => kept.informed first.1)
    (kept_init cfg) collected

end Deciding

/-! ## A late arrival -/

/-- Two replicas and a collection window. -/
def windowedPair : Config where
  replicas := ["A", "B"]
  budgetTokensPerReplica := 100
  wave1Size := 0
  initialGrowthGuess := 0
  priorWeight := 0
  maxWaitS := 0
  lptWindowS := 1
  sqrt := id

/-- A window with two sessions is over, and the first of them has booked. -/
def windowOfTwo : List ClientEvent :=
  [.acquire "t1" 12 {} ⟨0, 0⟩, .acquire "t2" 20 {} ⟨0, 0⟩,
    .resume "t1" .lptWindowOver]

def lateArrival : ClientEvent := .acquire "t3" 5 {} ⟨0, 0⟩

namespace Deciding

theorem picks_see_every_decision_if_collected_first_late :
    StepsMeet (step windowedPair) (Informed windowedPair) (init windowedPair)
      (windowOfTwo ++ [.resume "t2" .lptReady, lateArrival]) :=
  picks_see_every_decision_if_collected_first windowedPair _
    (by decide +kernel)

/-- The batch has put a session of 20 tokens on `A`.  Before it wakes up a
late arrival is placed on `A` as well, for want of those tokens the freer
replica. -/
theorem late_arrival_does_not_see_the_batch :
    ∃ state,
      run (step windowedPair) (init windowedPair) windowOfTwo = some state ∧
        state.decided "t2" = some "A" ∧
        state.clients.books.resident.get? "t2" = none ∧
        state.clients.books.used "A" = 0 ∧
        state.clients.Picks windowedPair lateArrival ∧
        (state.step windowedPair lateArrival).map (fun next =>
          next.clients.books.resident.get? "t3") = some (some "A") ∧
        ¬ state.Informed windowedPair lateArrival := by
  obtain ⟨state, ran, reached⟩ :=
    exists_final_of_map_eq
      (show (run (step windowedPair) (init windowedPair) windowOfTwo).map
        (fun state => decide (state.decided "t2" = some "A" ∧
          state.clients.books.resident.get? "t2" = none ∧
          state.clients.books.used "A" = 0 ∧
          state.clients.Picks windowedPair lateArrival ∧
          (state.step windowedPair lateArrival).map (fun next =>
            next.clients.books.resident.get? "t3") =
              some (some "A"))) = some true by decide +kernel)
  obtain ⟨decided, absent, used, picks, late⟩ := of_decide_eq_true reached
  refine ⟨state, ran, decided, absent, used, picks, late, ?_⟩
  intro informed
  cases absent.symm.trans (informed.resident picks "t2" "A" decided)

end Deciding

end LlmDRl.Admission
