import LlmDRl.Admission.Calls
import Mathlib.Data.NNRat.Defs

/-!
# Trajectories following the client protocol

`WaveAdmissionLLMClient.generate` acquires a replica for the next turn, has
the server generate, and reports the turn to the ledger from a `finally`
block; after the last turn the trajectory is reported done.  A trajectory is
identified by its request id, and the phases below are what its client may do
next.  Any number of trajectories run interleaved, each over any number of
turns, and any of them may stop at any point.

Context sizes are non-negative by type.
-/

namespace LlmDRl.Admission

open LlmDRl.Library
open scoped NNRat

inductive Phase where
  | idle
  /-- Inside a suspended `acquire` of turn 0. -/
  | acquiring
  /-- `acquire` has returned for this turn. -/
  | placed (turn : Nat)
  /-- `actor.generate` has returned (`true`) or raised (`false`). -/
  | generated (turn : Nat) (succeeded : Bool)
  /-- `record_turn` has been called for this turn. -/
  | recorded (turn : Nat)
  | done
  /-- `acquire` has raised into the client. -/
  | failed
  deriving DecidableEq, Repr

/-- Hints a client may send along with `acquire`. -/
structure SessionHint where
  sessionFinal : Option ℚ := none
  sessionWork : Option ℚ := none
  groupKey : Option String := none

/-- The arguments `generate` passes to `acquire`. -/
def SessionHint.args (hint : SessionHint) (turn : Nat)
    (contextSize : ℚ≥0) : AcquireArgs where
  turnIndex := turn
  contextSize := contextSize
  sessionFinal := hint.sessionFinal
  sessionWork := hint.sessionWork
  groupKey := hint.groupKey

inductive ClientEvent where
  | acquire (requestId : String) (contextSize : ℚ≥0) (hint : SessionHint)
      (clock : Clock)
  | resume (requestId : String) (wakeup : Wakeup)
  | generateEnds (requestId : String) (succeeded : Bool)
  | recordTurn (requestId : String) (contextSize : ℚ≥0)
  | done (requestId : String)

/-- The request an event is about. -/
def ClientEvent.requestId : ClientEvent → String
  | .acquire requestId _ _ _ => requestId
  | .resume requestId _ => requestId
  | .generateEnds requestId _ => requestId
  | .recordTurn requestId _ => requestId
  | .done requestId => requestId

structure Clients where
  calls : Calls
  phase : String → Phase

namespace Phase

/-- The turn whose `acquire` a client in this phase may send. -/
def nextTurn : Phase → Option Nat
  | idle => some 0
  | recorded turn => some (turn + 1)
  | _ => none

/-- The phase a segment of `acquire` for `turn` ends in. -/
def afterSegment (turn : Nat) : Outcome → Phase
  | .suspended _ => acquiring
  | .returned _ => placed turn
  | .raised _ => failed

end Phase

namespace Clients

def init (cfg : Config) : Clients := ⟨Calls.init cfg, fun _ => .idle⟩

def setPhase (clients : Clients) (requestId : String) (phase : Phase) :
    String → Phase :=
  Function.update clients.phase requestId phase

/-- Run one segment of a trajectory's `acquire` for `turn`. -/
def runSegment (clients : Clients) (turn : Nat)
    (ran : String × Int × Segment) : Clients where
  calls := clients.calls.ranSegment ran.1 ran.2.1 ran.2.2
  phase := clients.setPhase ran.1 (.afterSegment turn ran.2.2.outcome)

def step (cfg : Config) (clients : Clients) :
    ClientEvent → Option Clients
  | .acquire requestId contextSize hint clock =>
      (clients.phase requestId).nextTurn.bind fun turn =>
        (clients.calls.segmentOf cfg
          (.acquire requestId (hint.args turn contextSize) clock)).map
          (clients.runSegment turn)
  | .resume requestId wakeup =>
      if clients.phase requestId = .acquiring then
        (clients.calls.segmentOf cfg (.resume requestId wakeup)).map
          (clients.runSegment 0)
      else
        none
  | .generateEnds requestId succeeded =>
      match clients.phase requestId with
      | .placed turn =>
          some
            { calls :=
                { clients.calls with
                  log :=
                    .generated requestId turn succeeded ::
                      clients.calls.log }
              phase :=
                clients.setPhase requestId (.generated turn succeeded) }
      | _ => none
  | .recordTurn requestId contextSize =>
      match clients.phase requestId with
      | .generated turn _ =>
          (clients.calls.step cfg
            (.recordTurn requestId turn contextSize)).map fun calls =>
              ⟨calls, clients.setPhase requestId (.recorded turn)⟩
      | _ => none
  | .done requestId =>
      match clients.phase requestId with
      | .recorded _ =>
          (clients.calls.step cfg (.onTrajectoryDone requestId)).map
            fun calls => ⟨calls, clients.setPhase requestId .done⟩
      | _ => none

/-- Everything a step of the protocol can be. -/
inductive Stepped (cfg : Config) (clients : Clients) :
    ClientEvent → Clients → Prop
  | acquired (requestId : String) (contextSize : ℚ≥0)
      (hint : SessionHint) (clock : Clock) (turn : Nat)
      (due : (clients.phase requestId).nextTurn = some turn) :
      Stepped cfg clients (.acquire requestId contextSize hint clock)
        (clients.runSegment turn
          (requestId, turn,
            clients.calls.ledger.acquire cfg requestId
              (hint.args turn contextSize) clock))
  | resumed (requestId : String) (wakeup : Wakeup) (waiting : Waiting)
      (segment : Segment)
      (acquiring : clients.phase requestId = .acquiring)
      (parked : clients.calls.waiting requestId = some waiting)
      (ran :
        clients.calls.ledger.resume cfg requestId waiting wakeup =
          some segment) :
      Stepped cfg clients (.resume requestId wakeup)
        (clients.runSegment 0 (requestId, 0, segment))
  | generated (requestId : String) (succeeded : Bool) (turn : Nat)
      (placed : clients.phase requestId = .placed turn) :
      Stepped cfg clients (.generateEnds requestId succeeded)
        { calls :=
            { clients.calls with
              log :=
                .generated requestId turn succeeded :: clients.calls.log }
          phase := clients.setPhase requestId (.generated turn succeeded) }
  | recorded (requestId : String) (contextSize : ℚ≥0) (turn : Nat)
      (succeeded : Bool)
      (ended : clients.phase requestId = .generated turn succeeded) :
      Stepped cfg clients (.recordTurn requestId contextSize)
        { calls :=
            { clients.calls with
              ledger :=
                clients.calls.ledger.recordTurn cfg requestId turn
                  contextSize
              log := .recorded requestId turn :: clients.calls.log }
          phase := clients.setPhase requestId (.recorded turn) }
  | finished (requestId : String) (turn : Nat)
      (last : clients.phase requestId = .recorded turn) :
      Stepped cfg clients (.done requestId)
        { calls :=
            { clients.calls with
              ledger := clients.calls.ledger.onTrajectoryDone requestId
              log := .finished requestId :: clients.calls.log }
          phase := clients.setPhase requestId .done }

theorem stepped_of_step
    {cfg : Config} {clients next : Clients} {event : ClientEvent}
    (stepped : clients.step cfg event = some next) :
    clients.Stepped cfg event next := by
  cases event with
  | acquire requestId contextSize hint clock =>
      simp only [step, Option.bind_eq_some_iff,
        Option.map_eq_some_iff] at stepped
      obtain ⟨turn, due, ⟨caller, index, segment⟩, ran, rfl⟩ := stepped
      cases Calls.started_of_segmentOf ran
      exact .acquired requestId contextSize hint clock turn due
  | resume requestId wakeup =>
      simp only [step] at stepped
      split at stepped
      · next acquiring =>
          simp only [Option.map_eq_some_iff] at stepped
          obtain ⟨⟨caller, index, segment⟩, ran, rfl⟩ := stepped
          cases Calls.started_of_segmentOf ran with
          | resumed _ _ waiting _ parked found =>
              exact .resumed requestId wakeup waiting segment acquiring
                parked found
      · cases stepped
  | generateEnds requestId succeeded =>
      simp only [step] at stepped
      split at stepped
      · next turn placed =>
          cases stepped
          exact .generated requestId succeeded turn placed
      · cases stepped
  | recordTurn requestId contextSize =>
      simp only [step] at stepped
      split at stepped
      · next turn succeeded ended =>
          cases stepped
          exact .recorded requestId contextSize turn succeeded ended
      · cases stepped
  | done requestId =>
      simp only [step] at stepped
      split at stepped
      · next turn last =>
          cases stepped
          exact .finished requestId turn last
      · cases stepped

/-- An event leaves the other trajectories in their phases. -/
theorem phase_of_other
    {cfg : Config} {start final : Clients} {event : ClientEvent}
    {requestId : String}
    (stepped : start.step cfg event = some final)
    (other : requestId ≠ event.requestId) :
    final.phase requestId = start.phase requestId := by
  cases stepped_of_step stepped <;>
    exact Function.update_of_ne other _ _

end Clients

end LlmDRl.Admission
