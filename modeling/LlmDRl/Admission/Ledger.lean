import LlmDRl.Admission.Estimator
import Mathlib.Data.Finset.Insert
import Mathlib.Data.List.MinMax
import Mathlib.Data.Rat.Floor
import Mathlib.Logic.Function.Basic

/-!
# The admission ledger

State and synchronous operations of `AdmissionLedger`.  The fields of the
actor are grouped by what they are for:

* `Books` holds the booking dictionaries, `_used`, `_resident`, `_history`
  and `_reserve_charge`;
* `GroupTables` holds the staggered-group tables;
* `Ledger` adds the estimator, the oracle hints, the windowed-LPT state and
  the counters.

Token counts are exact rationals.  `_used` has the same keys, the replicas,
for the whole life of the ledger, so it is a total function.
-/

namespace LlmDRl.Admission

open LlmDRl.Library

/-- The exceptions the ledger can raise. -/
inductive PyError where
  /-- `ValueError` of `p2p_listener_host`, with its text. -/
  | replicaIndexOutside (text : String)
  /-- `ValueError` of `max()` over no replica. -/
  | emptyMax
  /-- `ValueError` of `list.index`. -/
  | notInList
  deriving DecidableEq, Repr

/-- Constructor arguments of `AdmissionLedger` that its methods read.  `sqrt`
is the square root behind the estimator's `x ** 0.5`. -/
structure Config where
  replicas : List String
  budgetTokensPerReplica : ℚ
  wave1Size : Int
  initialGrowthGuess : ℚ
  priorWeight : ℚ
  maxWaitS : ℚ
  allowReactiveMigration : Bool := true
  reserveMode : ReserveMode := .size
  reserveZ : ℚ := 0
  migrationCostRatio : ℚ := 1
  p2pKvAvailable : Bool := false
  p2pPort : Int := 7777
  migrationCostRatioP2p : ℚ := 0
  oracleReserve : Bool := false
  lptWindowS : ℚ := 0
  rebalanceSlack : ℚ := -1
  staggerGroups : Bool := false
  sqrt : ℚ → ℚ

/-- IP that replica `replicaIndex` binds its P2P control socket on. -/
def p2pListenerHost (replicaIndex : Nat) : Except PyError String :=
  if replicaIndex > 253 then
    .error (.replicaIndexOutside
      s!"replica_index {replicaIndex} outside the 127.0.7.0/24 alias block; use real per-replica IPs for a fleet this large")
  else
    .ok s!"127.0.7.{replicaIndex + 1}"

namespace Config

/-- The P2P control socket of a replica:
`f"{p2p_listener_host(self._replicas.index(replica))}:{self._p2p_port}"`. -/
def p2pAddress (cfg : Config) (replica : String) : Except PyError String :=
  match cfg.replicas.idxOf? replica with
  | none => .error .notInList
  | some index =>
      (p2pListenerHost index).map fun host => s!"{host}:{cfg.p2pPort}"

/-- The `kv_source` of a placement that pulls from `replica`, `None` without
P2P. -/
def kvSourceFrom (cfg : Config) (replica : String) :
    Except PyError (Option String) :=
  if cfg.p2pKvAvailable then
    (cfg.p2pAddress replica).map some
  else
    .ok none

/-- A full re-prefill without P2P, a cheap pull with it. -/
def effectiveCostRatio (cfg : Config) : ℚ :=
  if cfg.p2pKvAvailable then
    cfg.migrationCostRatioP2p
  else
    cfg.migrationCostRatio

/-- `[g for g in self._replicas if g != replica]` -/
def othersThan (cfg : Config) (replica : String) : List String :=
  cfg.replicas.filter fun other => other ≠ replica

end Config

/-! ## Bookings -/

/-- Turn index to the context size measured after that turn. -/
abbrev TurnHistory := OrderedDict Int ℚ

/-- `history[max(history.keys())]`, zero for an empty history. -/
def TurnHistory.finalSize (history : TurnHistory) : ℚ :=
  match history.keys.max? with
  | none => 0
  | some turnIndex => history.getD turnIndex 0

structure Books where
  used : String → ℚ
  resident : OrderedDict String String
  history : OrderedDict String TurnHistory
  reserveCharge : OrderedDict String ℚ

namespace Books

def init : Books := ⟨fun _ => 0, .empty, .empty, .empty⟩

/-- `self._history.get(request_id, {})` -/
def historyOf (books : Books) (requestId : String) : TurnHistory :=
  books.history.getD requestId .empty

def reserve (books : Books) (replica : String) : ℚ :=
  books.resident.sumWhere (fun r => r = replica)
    (fun rid => books.reserveCharge.getD rid 0)

def estimatedFree (cfg : Config) (books : Books) (replica : String) : ℚ :=
  cfg.budgetTokensPerReplica - books.used replica - books.reserve replica

/-- `max(replicas, key=self._estimated_free)`: the first maximum, `none` for
no replica. -/
def freest (cfg : Config) (books : Books) (replicas : List String) :
    Option String :=
  replicas.argmax (books.estimatedFree cfg)

def leastLoaded (cfg : Config) (books : Books) : Option String :=
  books.freest cfg cfg.replicas

/-- What `_book` adds to `_used[replica]`: the growth over the previous turn
when the request stays on its replica, the whole context otherwise. -/
def bookedTokens (books : Books) (requestId replica : String)
    (turnIndex : Int) (contextSize : ℚ) : ℚ :=
  match (books.historyOf requestId).get? (turnIndex - 1) with
  | some prev =>
      if books.resident.get? requestId = some replica then
        max 0 (contextSize - prev)
      else
        contextSize
  | none => contextSize

/-- `_book`, given the reserve charge it caches. -/
def book (books : Books) (requestId replica : String)
    (turnIndex : Int) (contextSize charge : ℚ) : Books where
  used := Function.update books.used replica
    (books.used replica +
      books.bookedTokens requestId replica turnIndex contextSize)
  resident := books.resident.insert requestId replica
  history := books.history.insert requestId
    ((books.historyOf requestId).insert turnIndex contextSize)
  reserveCharge := books.reserveCharge.insert requestId charge

def releaseBooking (books : Books) (requestId replica : String)
    (turnIndex : Int) : Books :=
  let size := (books.historyOf requestId).getD turnIndex 0
  { books with
    used := Function.update books.used replica
      (max 0 (books.used replica - size)) }

/-- `record_turn` on the booking dictionaries, given the reserve charge. -/
def recordTurn (books : Books) (requestId : String)
    (turnIndex : Int) (contextSize charge : ℚ) : Books :=
  match books.resident.get? requestId with
  | none => books
  | some replica =>
      let history := books.historyOf requestId
      let prevSize := history.getD turnIndex contextSize
      let delta := contextSize - prevSize
      { used :=
          if delta ≠ 0 then
            Function.update books.used replica (books.used replica + delta)
          else
            books.used
        resident := books.resident
        history := books.history.insert requestId
          (history.insert turnIndex contextSize)
        reserveCharge := books.reserveCharge.insert requestId charge }

/-- `on_trajectory_done` on the booking dictionaries. -/
def onTrajectoryDone (books : Books) (requestId : String) : Books :=
  let popped : Books :=
    { used := books.used
      resident := books.resident.erase requestId
      history := books.history.erase requestId
      reserveCharge := books.reserveCharge.erase requestId }
  match books.resident.get? requestId with
  | none => popped
  | some replica =>
      let history := books.historyOf requestId
      if history.entries = [] then
        popped
      else
        { popped with
          used := Function.update books.used replica
            (max 0 (books.used replica - history.finalSize)) }

end Books

/-! ## The ledger -/

structure GroupTables where
  groupLeader : OrderedDict String String
  groupReady : OrderedDict String Bool
  groupClaimed : Finset String
  groupLeaderRid : OrderedDict String String

structure Ledger extends Books, GroupTables where
  estimator : GrowthEstimator ℚ
  admittedCount : Int
  delayedPolls : Nat
  forcedAdmissions : Nat
  migrations : Nat
  oracleFinal : OrderedDict String ℚ
  lptPending : List (ℚ × String × ℚ)
  lptResult : OrderedDict String String
  lptEvent : Option Bool
  lptClosed : Bool
  lptBatches : Nat
  rebalances : Nat
  staggerLeaders : Nat
  staggerFollowers : Nat
  staggerTimeouts : Nat

namespace Ledger

def init (cfg : Config) : Ledger where
  toBooks := Books.init
  toGroupTables := ⟨.empty, .empty, ∅, .empty⟩
  estimator := .init cfg.initialGrowthGuess cfg.priorWeight
    cfg.reserveMode cfg.reserveZ
  admittedCount := 0
  delayedPolls := 0
  forcedAdmissions := 0
  migrations := 0
  oracleFinal := .empty
  lptPending := []
  lptResult := .empty
  lptEvent := none
  lptClosed := false
  lptBatches := 0
  rebalances := 0
  staggerLeaders := 0
  staggerFollowers := 0
  staggerTimeouts := 0

/-- Reserve charge for a resident: the predicted remaining growth, or in
oracle mode what is left to the known final context. -/
def charge (cfg : Config) (ledger : Ledger) (requestId : String)
    (contextSize : ℚ) (turnIndex : Int) : ℚ :=
  match if cfg.oracleReserve then
      ledger.oracleFinal.get? requestId else none with
  | some final => max 0 (final - contextSize)
  | none =>
      ledger.estimator.estimate cfg.sqrt
        (ledger.estimator.key contextSize turnIndex)

def book (cfg : Config) (ledger : Ledger) (requestId replica : String)
    (turnIndex : Int) (contextSize : ℚ) : Ledger :=
  { ledger with
    toBooks := ledger.toBooks.book requestId replica turnIndex contextSize
      (ledger.charge cfg requestId contextSize turnIndex) }

def releaseBooking (ledger : Ledger) (requestId replica : String)
    (turnIndex : Int) : Ledger :=
  { ledger with
    toBooks :=
      ledger.toBooks.releaseBooking requestId replica turnIndex }

/-- Set the ready event of the group `requestId` leads, if it leads one. -/
def markGroupReady (ledger : Ledger) (requestId : String) : Ledger :=
  match ledger.groupLeaderRid.get? requestId with
  | none => ledger
  | some groupKey =>
      match ledger.groupReady.get? groupKey with
      | some false =>
          { ledger with
            groupReady := ledger.groupReady.insert groupKey true }
      | _ => ledger

def recordTurn (cfg : Config) (ledger : Ledger) (requestId : String)
    (turnIndex : Int) (contextSize : ℚ) : Ledger :=
  let marked :=
    if cfg.staggerGroups ∧ turnIndex = 0 then
      ledger.markGroupReady requestId
    else
      ledger
  { marked with
    toBooks := marked.toBooks.recordTurn requestId turnIndex contextSize
      (marked.charge cfg requestId contextSize turnIndex) }

/-- Feed the estimator every turn of a completed conversation. -/
def observeAll (estimator : GrowthEstimator ℚ) (history : TurnHistory) :
    GrowthEstimator ℚ :=
  history.entries.foldl
    (fun fed entry =>
      fed.observe (fed.key entry.2 entry.1)
        (history.finalSize - entry.2))
    estimator

def onTrajectoryDone (ledger : Ledger) (requestId : String) : Ledger :=
  { ledger with
    toBooks := ledger.toBooks.onTrajectoryDone requestId
    estimator :=
      match ledger.resident.get? requestId with
      | none => ledger.estimator
      | some _ =>
          observeAll ledger.estimator (ledger.historyOf requestId) }

end Ledger

end LlmDRl.Admission
