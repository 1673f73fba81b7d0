import LlmDRl.Admission.Ledger
import Mathlib.Data.List.Sort

/-!
# `acquire`, cut at its awaits

`acquire` is a coroutine.  Between two awaits it runs without interruption, so
it is modelled as the segments it runs: each takes the ledger as it finds it
and ends suspended, returned or raised.  A suspended call keeps in `Waiting`
the local variables it still needs.

`Segment.booked` is not part of the source: it records which replica the
segment booked and which branch of the source decided so.
-/

namespace LlmDRl.Admission

open LlmDRl.Library

/-- Arguments of `acquire` besides the request id. -/
structure AcquireArgs where
  turnIndex : Int
  contextSize : ℚ
  sessionFinal : Option ℚ := none
  sessionWork : Option ℚ := none
  groupKey : Option String := none

/-- What `acquire` returns to its caller. -/
structure Placement where
  replica : String
  kvSource : Option String
  deriving DecidableEq, Repr

/-- Where a suspended turn-0 call is parked, with its live variables. -/
inductive Waiting where
  /-- `asyncio.sleep` of the gated admission loop. -/
  | poll (contextSize deadline : ℚ)
  /-- The ready event of a staggered group. -/
  | group (groupKey : String) (contextSize : ℚ) (sessionWork : Option ℚ)
  /-- The sleep of the LPT window's first arrival. -/
  | lptWindow (contextSize : ℚ)
  /-- The event of an open LPT window. -/
  | lptEvent (contextSize : ℚ)
  deriving DecidableEq, Repr

/-- What resumes a suspended call. `time.monotonic()` is read by the loop test
of a poll, and by a call that falls through from its group to the gated
admission. -/
structure Clock where
  atDeadline : ℚ
  atTest : ℚ

inductive Wakeup where
  | pollOver (now : ℚ)
  | groupReady (clock : Clock)
  | groupTimeout (clock : Clock)
  | lptWindowOver
  | lptReady
  | lptTimeout

inductive Outcome where
  | suspended (waiting : Waiting)
  | returned (placement : Placement)
  | raised (error : PyError)
  deriving DecidableEq, Repr

/-- The branch of the source a booking was made in. -/
inductive Rule where
  | leader (groupKey : String)
  | follower (groupKey : String)
  | lpt
  | wave1
  | gated
  | forced
  | failSafe
  | rebalance
  | inPlace
  | migration
  | overshoot
  deriving DecidableEq, Repr

structure Booking where
  replica : String
  rule : Rule
  deriving DecidableEq, Repr

structure Segment where
  ledger : Ledger
  outcome : Outcome
  booked : Option Booking

/-! ## The rules of a later turn -/

namespace Books

/-- The replica the rebalance rule moves a resident request to, if any. -/
def rebalanceTarget (cfg : Config) (books : Books) (resident : String)
    (contextSize : ℚ) : Option String :=
  if 0 ≤ cfg.rebalanceSlack ∧ cfg.allowReactiveMigration then
    match books.freest cfg (cfg.othersThan resident) with
    | none => none
    | some cand =>
        let gain :=
          books.estimatedFree cfg cand - books.estimatedFree cfg resident
        if cfg.rebalanceSlack * cfg.budgetTokensPerReplica < gain ∧
            contextSize ≤ books.estimatedFree cfg cand then
          some cand
        else
          none
  else
    none

/-- The replica the reactive rule moves a resident request to, if any. -/
def migrationTarget (cfg : Config) (books : Books) (resident : String)
    (contextSize incrementalNeed : ℚ) : Option String :=
  let deficit := incrementalNeed - books.estimatedFree cfg resident
  if cfg.allowReactiveMigration ∧
      cfg.effectiveCostRatio * contextSize ≤ deficit then
    match books.freest cfg (cfg.othersThan resident) with
    | none => none
    | some target =>
        if contextSize ≤ books.estimatedFree cfg target then
          some target
        else
          none
  else
    none

/-- `max(0.0, context_size - prev_size)` of a resident request. -/
def incrementalNeed (books : Books) (requestId : String)
    (turnIndex : Int) (contextSize : ℚ) : ℚ :=
  max 0 (contextSize -
    (books.historyOf requestId).getD (turnIndex - 1) 0)

end Books

namespace Ledger

variable (cfg : Config)

/-- Book on `replica` and return it without a source; `max()` of no replica
raises. -/
def place (ledger : Ledger) (requestId : String) (turnIndex : Int)
    (contextSize : ℚ) (rule : Rule) (replica : Option String) : Segment :=
  match replica with
  | none => ⟨ledger, .raised .emptyMax, none⟩
  | some r =>
      ⟨ledger.book cfg requestId r turnIndex contextSize,
        .returned ⟨r, none⟩, some ⟨r, rule⟩⟩

/-! ## Gated admission -/

/-- One test of the loop in `acquire`, up to the next sleep or the return. -/
def gateLoop (ledger : Ledger) (requestId : String)
    (contextSize deadline now : ℚ) : Segment :=
  if now < deadline then
    match ledger.leastLoaded cfg with
    | none => ⟨ledger, .raised .emptyMax, none⟩
    | some candidate =>
        if contextSize ≤ ledger.estimatedFree cfg candidate then
          ledger.place cfg requestId 0 contextSize .gated (some candidate)
        else
          ⟨{ ledger with delayedPolls := ledger.delayedPolls + 1 },
            .suspended (.poll contextSize deadline), none⟩
  else
    let forced :=
      { ledger with forcedAdmissions := ledger.forcedAdmissions + 1 }
    forced.place cfg requestId 0 contextSize .forced
      (forced.leastLoaded cfg)

/-- The wave-1 and gated part of `acquire`. -/
def admitGated (ledger : Ledger) (requestId : String) (contextSize : ℚ)
    (clock : Clock) : Segment :=
  let counted :=
    { ledger with admittedCount := ledger.admittedCount + 1 }
  if counted.admittedCount ≤ cfg.wave1Size then
    counted.place cfg requestId 0 contextSize .wave1
      (counted.leastLoaded cfg)
  else
    counted.gateLoop cfg requestId contextSize
      (clock.atDeadline + cfg.maxWaitS) clock.atTest

/-! ## Windowed LPT -/

/-- Python's order on the tuples `(-work, rid, context)`. -/
def PendingLe (left right : ℚ × String × ℚ) : Prop :=
  left.1 < right.1 ∨
    (left.1 = right.1 ∧
      (left.2.1 < right.2.1 ∨
        (left.2.1 = right.2.1 ∧ left.2.2 ≤ right.2.2)))

instance : DecidableRel PendingLe := fun _ _ =>
  inferInstanceAs (Decidable (_ ∨ _))

/-- Greedy placement of a sorted batch, charging each assignment as it goes.
`none` is the `max()` over no replica. -/
def lptAssign (ledger : Ledger) :
    List (ℚ × String × ℚ) → (String → ℚ) → OrderedDict String String →
      Option (OrderedDict String String)
  | [], _, result => some result
  | (negw, rid, _) :: rest, provisional, result =>
      match cfg.replicas.argmax
          (fun r => ledger.estimatedFree cfg r - provisional r) with
      | none => none
      | some target =>
          lptAssign ledger rest
            (Function.update provisional target
              (provisional target + -negw))
            (result.insert rid target)

/-- `self._lpt_result.pop(request_id, None) or self._least_loaded()`, and the
booking `acquire` makes with it. -/
def lptFinish (ledger : Ledger) (requestId : String) (contextSize : ℚ) :
    Segment :=
  let popped :=
    { ledger with lptResult := ledger.lptResult.erase requestId }
  match ledger.lptResult.get? requestId with
  | some target =>
      if target = "" then
        popped.place cfg requestId 0 contextSize .lpt
          (popped.leastLoaded cfg)
      else
        popped.place cfg requestId 0 contextSize .lpt (some target)
  | none =>
      popped.place cfg requestId 0 contextSize .lpt
        (popped.leastLoaded cfg)

/-- `_lpt_place` up to its first await. -/
def lptPlace (ledger : Ledger) (requestId : String) (contextSize : ℚ)
    (sessionWork : Option ℚ) : Segment :=
  if ledger.lptClosed then
    ledger.place cfg requestId 0 contextSize .lpt (ledger.leastLoaded cfg)
  else
    let work :=
      match sessionWork with
      | some given => if given = 0 then contextSize else given
      | none => contextSize
    let pending := ledger.lptPending ++ [(-work, requestId, contextSize)]
    match ledger.lptEvent with
    | none =>
        ⟨{ ledger with lptPending := pending, lptEvent := some false },
          .suspended (.lptWindow contextSize), none⟩
    | some _ =>
        ⟨{ ledger with lptPending := pending },
          .suspended (.lptEvent contextSize), none⟩

/-- `_lpt_place` of the first arrival once its window is over. -/
def lptWindowOver (ledger : Ledger) (requestId : String)
    (contextSize : ℚ) : Segment :=
  let batch := ledger.lptPending.insertionSort PendingLe
  let taken := { ledger with lptPending := [] }
  match taken.lptAssign cfg batch (fun _ => 0) taken.lptResult with
  | none => ⟨taken, .raised .emptyMax, none⟩
  | some result =>
      let closed :=
        { taken with
          lptResult := result
          lptBatches := taken.lptBatches + 1
          lptClosed := true
          lptEvent := some true }
      closed.lptFinish cfg requestId contextSize

/-! ## Staggered groups -/

/-- `acquire` for turn 0 without a group, or after `_stagger_place` returned
`None`. -/
def acquireUngrouped (ledger : Ledger) (requestId : String)
    (contextSize : ℚ) (sessionWork : Option ℚ) (clock : Clock) : Segment :=
  if 0 < cfg.lptWindowS then
    ledger.lptPlace cfg requestId contextSize sessionWork
  else
    ledger.admitGated cfg requestId contextSize clock

/-- The follower part of `_stagger_place`, `none` where it returns `None`. -/
def staggerFollow (ledger : Ledger) (requestId groupKey : String)
    (contextSize : ℚ) : Option Segment :=
  match ledger.groupLeader.get? groupKey with
  | none => none
  | some leader =>
      match ledger.freest cfg (cfg.othersThan leader) with
      | none => none
      | some target =>
          let booked :=
            { ledger.book cfg requestId target 0 contextSize with
              staggerFollowers := ledger.staggerFollowers + 1 }
          let booking : Booking := ⟨target, .follower groupKey⟩
          match cfg.kvSourceFrom leader with
          | .ok kvSource =>
              some ⟨booked, .returned ⟨target, kvSource⟩, some booking⟩
          | .error error =>
              some ⟨booked, .raised error, some booking⟩

/-- The leader part of `_stagger_place`: the first caller for a group. -/
def staggerLead (ledger : Ledger) (requestId groupKey : String)
    (contextSize : ℚ) : Segment :=
  let claimed :=
    { ledger with
      groupClaimed := insert groupKey ledger.groupClaimed
      groupReady := ledger.groupReady.insert groupKey false }
  match claimed.leastLoaded cfg with
  | none => ⟨claimed, .raised .emptyMax, none⟩
  | some replica =>
      let leading :=
        { claimed with
          groupLeader := claimed.groupLeader.insert groupKey replica
          groupLeaderRid :=
            claimed.groupLeaderRid.insert requestId groupKey }
      ⟨{ leading.book cfg requestId replica 0 contextSize with
          staggerLeaders := leading.staggerLeaders + 1 },
        .returned ⟨replica, none⟩, some ⟨replica, .leader groupKey⟩⟩

/-- `_stagger_place` up to its await, with what `acquire` does when it returns
`None`. -/
def staggerPlace (ledger : Ledger) (requestId groupKey : String)
    (contextSize : ℚ) (sessionWork : Option ℚ) (clock : Clock) : Segment :=
  if groupKey ∉ ledger.groupClaimed then
    ledger.staggerLead cfg requestId groupKey contextSize
  else
    match ledger.groupReady.get? groupKey with
    | some false =>
        ⟨ledger, .suspended (.group groupKey contextSize sessionWork), none⟩
    | _ =>
        match ledger.staggerFollow cfg requestId groupKey contextSize with
        | some segment => segment
        | none =>
            ledger.acquireUngrouped cfg requestId contextSize sessionWork
              clock

/-! ## Later turns -/

/-- Release the booking on `resident` and book on `target`.  The listener
address is computed last, after both changes. -/
def moveTo (ledger : Ledger) (requestId resident target : String)
    (turnIndex : Int) (contextSize : ℚ) (rule : Rule) : Segment :=
  let moved :=
    (ledger.releaseBooking requestId resident (turnIndex - 1)).book cfg
      requestId target turnIndex contextSize
  match cfg.kvSourceFrom resident with
  | .ok kvSource =>
      ⟨moved, .returned ⟨target, kvSource⟩, some ⟨target, rule⟩⟩
  | .error error => ⟨moved, .raised error, some ⟨target, rule⟩⟩

def continueOrMigrate (ledger : Ledger) (requestId : String)
    (turnIndex : Int) (contextSize : ℚ) : Segment :=
  match ledger.resident.get? requestId with
  | none =>
      ledger.place cfg requestId turnIndex contextSize .failSafe
        (ledger.leastLoaded cfg)
  | some resident =>
      let need := ledger.incrementalNeed requestId turnIndex contextSize
      match ledger.rebalanceTarget cfg resident contextSize with
      | some cand =>
          { ledger with rebalances := ledger.rebalances + 1 }.moveTo cfg
            requestId resident cand turnIndex contextSize .rebalance
      | none =>
          if need ≤ ledger.estimatedFree cfg resident then
            ledger.place cfg requestId turnIndex contextSize .inPlace
              (some resident)
          else
            match ledger.migrationTarget cfg resident contextSize need with
            | some target =>
                { ledger with migrations := ledger.migrations + 1 }.moveTo
                  cfg requestId resident target turnIndex contextSize
                  .migration
            | none =>
                ledger.place cfg requestId turnIndex contextSize .overshoot
                  (some resident)

/-! ## The coroutine -/

/-- `if session_final is not None: self._oracle_final[request_id] = …` -/
def hintSessionFinal (ledger : Ledger) (requestId : String) :
    Option ℚ → Ledger
  | some final =>
      { ledger with
        oracleFinal := ledger.oracleFinal.insert requestId final }
  | none => ledger

/-- `acquire` up to its first await. -/
def acquire (ledger : Ledger) (requestId : String) (args : AcquireArgs)
    (clock : Clock) : Segment :=
  let hinted := ledger.hintSessionFinal requestId args.sessionFinal
  if 0 < args.turnIndex then
    hinted.continueOrMigrate cfg requestId args.turnIndex args.contextSize
  else
    match args.groupKey with
    | some groupKey =>
        -- an empty group key is falsy
        if cfg.staggerGroups ∧ groupKey ≠ "" then
          hinted.staggerPlace cfg requestId groupKey args.contextSize
            args.sessionWork clock
        else
          hinted.acquireUngrouped cfg requestId args.contextSize
            args.sessionWork clock
    | none =>
        hinted.acquireUngrouped cfg requestId args.contextSize
          args.sessionWork clock

/-- The next segment of a suspended call, `none` for a wake-up that cannot
reach it. -/
def resume (ledger : Ledger) (requestId : String) :
    Waiting → Wakeup → Option Segment
  | .poll contextSize deadline, .pollOver now =>
      some (ledger.gateLoop cfg requestId contextSize deadline now)
  | .group groupKey contextSize sessionWork, .groupReady clock =>
      if ledger.groupReady.get? groupKey = some true then
        match ledger.staggerFollow cfg requestId groupKey contextSize with
        | some segment => some segment
        | none =>
            some (ledger.acquireUngrouped cfg requestId contextSize
              sessionWork clock)
      else
        none
  | .group _ contextSize sessionWork, .groupTimeout clock =>
      let timedOut :=
        { ledger with staggerTimeouts := ledger.staggerTimeouts + 1 }
      some (timedOut.acquireUngrouped cfg requestId contextSize sessionWork
        clock)
  | .lptWindow contextSize, .lptWindowOver =>
      some (ledger.lptWindowOver cfg requestId contextSize)
  | .lptEvent contextSize, .lptReady =>
      if ledger.lptEvent = some true then
        some (ledger.lptFinish cfg requestId contextSize)
      else
        none
  | .lptEvent contextSize, .lptTimeout =>
      some (ledger.place cfg requestId 0 contextSize .lpt
        (ledger.leastLoaded cfg))
  | _, _ => none

end Ledger

end LlmDRl.Admission
