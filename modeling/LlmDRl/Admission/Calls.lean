import LlmDRl.Admission.Acquire
import LlmDRl.Library.Runs

/-!
# Interleaved calls on the ledger

The ledger actor serves any number of calls on one event loop; they switch
only at awaits.  `Calls.step` runs one segment of one call, in any order and
with any arguments: nothing is assumed here about who calls what when, except
that two calls in flight at the same time carry different request ids.

`log` is a history variable, newest entry first.  It is never read by the
step function.
-/

namespace LlmDRl.Admission

open LlmDRl.Library

/-- One entry of the history: a segment of `acquire` that has run, a call of
`record_turn` or `on_trajectory_done`, or (written by the client model) the
end of a turn's generation. -/
inductive Notice where
  | segment (requestId : String) (turnIndex : Int)
      (booked : Option Booking) (outcome : Outcome)
  | recorded (requestId : String) (turnIndex : Int)
  | finished (requestId : String)
  | generated (requestId : String) (turnIndex : Int) (succeeded : Bool)
  deriving DecidableEq

inductive Call where
  | acquire (requestId : String) (args : AcquireArgs) (clock : Clock)
  | resume (requestId : String) (wakeup : Wakeup)
  | recordTurn (requestId : String) (turnIndex : Int) (contextSize : ℚ)
  | onTrajectoryDone (requestId : String)

structure Calls where
  ledger : Ledger
  waiting : String → Option Waiting
  log : List Notice

namespace Calls

def init (cfg : Config) : Calls := ⟨Ledger.init cfg, fun _ => none, []⟩

/-- The waiting state a segment leaves its call in. -/
def parked : Outcome → Option Waiting
  | .suspended waiting => some waiting
  | _ => none

/-- Account for a segment that has run. -/
def ranSegment (calls : Calls) (requestId : String) (turnIndex : Int)
    (segment : Segment) : Calls where
  ledger := segment.ledger
  waiting := Function.update calls.waiting requestId (parked segment.outcome)
  log :=
    .segment requestId turnIndex segment.booked segment.outcome :: calls.log

/-- Run the segment an `acquire` or a wake-up starts, `none` if there is no
such segment. -/
def segmentOf (cfg : Config) (calls : Calls) :
    Call → Option (String × Int × Segment)
  | .acquire requestId args clock =>
      match calls.waiting requestId with
      | none =>
          some (requestId, args.turnIndex,
            calls.ledger.acquire cfg requestId args clock)
      | some _ => none
  | .resume requestId wakeup =>
      match calls.waiting requestId with
      | none => none
      | some waiting =>
          (calls.ledger.resume cfg requestId waiting wakeup).map
            fun segment => (requestId, 0, segment)
  | _ => none

def step (cfg : Config) (calls : Calls) (call : Call) : Option Calls :=
  match call with
  | .recordTurn requestId turnIndex contextSize =>
      some
        { calls with
          ledger :=
            calls.ledger.recordTurn cfg requestId turnIndex contextSize
          log := .recorded requestId turnIndex :: calls.log }
  | .onTrajectoryDone requestId =>
      some
        { calls with
          ledger := calls.ledger.onTrajectoryDone requestId
          log := .finished requestId :: calls.log }
  | .acquire .. | .resume .. =>
      (calls.segmentOf cfg call).map fun ran =>
        calls.ranSegment ran.1 ran.2.1 ran.2.2

theorem suspended_of_parked
    {outcome : Outcome} {waiting : Waiting}
    (parkedAs : parked outcome = some waiting) :
    outcome = .suspended waiting := by
  cases outcome with
  | suspended held =>
      cases parkedAs
      rfl
  | returned placement =>
      cases parkedAs
  | raised error =>
      cases parkedAs

/-- After a segment its caller waits if it was suspended; the others wait as
before. -/
theorem waiting_ranSegment
    {calls : Calls} {requestId other : String} {turnIndex : Int}
    {segment : Segment} {waiting : Waiting}
    (waits :
      (calls.ranSegment requestId turnIndex segment).waiting other =
        some waiting) :
    (other = requestId ∧ segment.outcome = .suspended waiting) ∨
      (other ≠ requestId ∧ calls.waiting other = some waiting) := by
  have updated : Function.update calls.waiting requestId
      (parked segment.outcome) other = some waiting := waits
  by_cases here : other = requestId
  · subst other
    rw [Function.update_self] at updated
    exact .inl ⟨rfl, suspended_of_parked updated⟩
  · rw [Function.update_of_ne here] at updated
    exact .inr ⟨here, updated⟩

/-- The two ways a segment of `acquire` starts. -/
inductive Started (cfg : Config) (calls : Calls) :
    Call → String → Int → Segment → Prop
  | acquired (requestId : String) (args : AcquireArgs) (clock : Clock)
      (free : calls.waiting requestId = none) :
      Started cfg calls (.acquire requestId args clock) requestId
        args.turnIndex (calls.ledger.acquire cfg requestId args clock)
  | resumed (requestId : String) (wakeup : Wakeup) (waiting : Waiting)
      (segment : Segment)
      (parked : calls.waiting requestId = some waiting)
      (ran :
        calls.ledger.resume cfg requestId waiting wakeup = some segment) :
      Started cfg calls (.resume requestId wakeup) requestId 0 segment

theorem started_of_segmentOf
    {cfg : Config} {calls : Calls} {call : Call} {requestId : String}
    {turnIndex : Int} {segment : Segment}
    (ran :
      calls.segmentOf cfg call = some (requestId, turnIndex, segment)) :
    calls.Started cfg call requestId turnIndex segment := by
  cases call with
  | acquire caller args clock =>
      simp only [segmentOf] at ran
      split at ran
      · next free =>
          cases ran
          exact .acquired requestId args clock free
      · cases ran
  | resume caller wakeup =>
      simp only [segmentOf] at ran
      split at ran
      · cases ran
      · next waiting parked =>
          simp only [Option.map_eq_some_iff, Prod.mk.injEq] at ran
          obtain ⟨resumed, found, rfl, rfl, rfl⟩ := ran
          exact .resumed caller wakeup waiting resumed parked found
  | recordTurn caller turn contextSize =>
      cases ran
  | onTrajectoryDone caller =>
      cases ran

end Calls

end LlmDRl.Admission
