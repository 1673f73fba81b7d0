import LlmDRl.Admission.Replicas

/-!
# The trace player on the ledger

`TracePlayerAgentLoop.run` replays one conversation: a turn at a time it has
`WaveAdmissionLLMClient.generate` acquire a replica, generate there and
record the turn, and after the last turn it calls the hook that releases the
ledger entry.  Here one such run takes its steps among any other calls on the
ledger.  Nothing is assumed of those, except that they carry other request
ids: the loop makes its own up with a fresh uuid.

The hook is not in a `finally`.  An exception of a turn leaves the loop
before it, and whatever the turns so far have booked stays booked.
-/

namespace LlmDRl.Admission

open LlmDRl.Library

namespace TracePlayer

structure Turn where
  inputTokens : Int
  outputTokens : Int
  deriving DecidableEq

/-- One run of the loop: its trace, the limits of the rollout configuration,
and the servers its client knows.  `stableSeed` stands for the digest of the
conversation id. -/
structure Trajectory where
  requestId : String
  convId : String
  turns : List Turn
  stableSeed : Nat
  promptLength : Nat
  responseLength : Nat
  addressToHandle : List String

/-- The token ids `count` steps of the generator make. -/
def tokenIds : Nat → Nat → List Nat
  | 0, _ => []
  | count + 1, state =>
      let next :=
        (state * 6364136223846793005 + 1442695040888963407) % 2 ^ 64
      (10 + next / 2 ^ 33 % (30000 - 10)) :: tokenIds count next

/-- `nested_prompt_ids` for a conversation with this seed. -/
def nestedPromptIds (stableSeed : Nat) (n : Int) : List Nat :=
  tokenIds (max 1 n).toNat (if stableSeed = 0 then 1 else stableSeed)

namespace Trajectory

variable (trajectory : Trajectory)

def promptIds (turn : Turn) : List Nat :=
  (nestedPromptIds trajectory.stableSeed turn.inputTokens).take
    trajectory.promptLength

/-- The forced output length, `max_tokens` and `min_tokens` of a turn. -/
def outLen (turn : Turn) : Int :=
  max 1 (min turn.outputTokens trajectory.responseLength)

/-- The context the client announces before generating. -/
def contextSize (turn : Turn) : ℚ :=
  ((trajectory.promptIds turn).length : ℚ) + trajectory.outLen turn

/-- The context it records when `tokens` have been generated. -/
def actualContextSize (turn : Turn) (tokens : Nat) : ℚ :=
  ((trajectory.promptIds turn).length : ℚ) + tokens

/-- A turn capped as `run` caps it for its hints. -/
def cappedTokens (turn : Turn) : ℚ :=
  (min turn.inputTokens trajectory.promptLength +
    min turn.outputTokens trajectory.responseLength : Int)

/-- What `generate` passes to `acquire` for turn `turnIndex`. -/
def acquireArgs (turn : Turn) (turnIndex : Nat) : AcquireArgs where
  turnIndex := turnIndex
  contextSize := trajectory.contextSize turn
  sessionFinal := trajectory.turns.getLast?.map trajectory.cappedTokens
  sessionWork := some (trajectory.turns.map trajectory.cappedTokens).sum
  groupKey := some trajectory.convId

end Trajectory

/-- What the server's `generate` came to. -/
inductive Answer where
  | output (tokens : Nat)
  | raised
  deriving DecidableEq, Repr

/-- The tokens `record_turn` is told of, none after an exception. -/
def Answer.tokens : Answer → Nat
  | output tokens => tokens
  | raised => 0

/-- What `server_manager.generate` came to. -/
inductive TurnOutcome where
  | returned
  | raised
  deriving DecidableEq, Repr

def Answer.outcome : Answer → TurnOutcome
  | output _ => .returned
  | raised => .raised

/-- Where the run is. -/
inductive Playing where
  /-- At the head of the loop, with these turns to play. -/
  | atTurn (rest : List Turn)
  /-- Inside a suspended `acquire`. -/
  | acquiring (turn : Turn) (rest : List Turn)
  /-- Awaiting the server. -/
  | generating (turn : Turn) (rest : List Turn)
  /-- In the `finally` block of `generate`. -/
  | recording (turn : Turn) (rest : List Turn) (answer : Answer)
  | returned
  | raised
  deriving DecidableEq

/-- `outcomes` is a history variable, the outcomes of the turns played so
far, newest first. -/
structure Player where
  calls : Calls
  playing : Playing
  turnCount : Nat
  outcomes : List TurnOutcome

inductive PlayerEvent where
  /-- A call on the ledger that is not this run's. -/
  | elsewhere (call : Call)
  | acquire (clock : Clock)
  | resume (wakeup : Wakeup)
  | generateEnds (answer : Answer)
  | recordTurn
  | trajectoryDone

namespace Player

def init (cfg : Config) (trajectory : Trajectory) : Player where
  calls := .init cfg
  playing := .atTurn trajectory.turns
  turnCount := 0
  outcomes := []

/-- A turn ends in an exception. -/
def failTurn (player : Player) (calls : Calls) : Player :=
  { player with
    calls := calls
    playing := .raised
    outcomes := .raised :: player.outcomes }

/-- Go on after a segment of this run's `acquire`: a placement is looked up
in `_address_to_handle`, and an unknown address is a `KeyError`. -/
def runSegment (trajectory : Trajectory) (player : Player) (turn : Turn)
    (rest : List Turn) (ran : String × Int × Segment) : Player :=
  let calls := player.calls.ranSegment ran.1 ran.2.1 ran.2.2
  match ran.2.2.outcome with
  | .suspended _ =>
      { player with calls := calls, playing := .acquiring turn rest }
  | .returned placement =>
      if placement.replica ∈ trajectory.addressToHandle then
        { player with calls := calls, playing := .generating turn rest }
      else
        player.failTurn calls
  | .raised _ => player.failTurn calls

/-- Go on after `record_turn`, with the result or the exception the `finally`
block passes on. -/
def afterRecord (player : Player) (calls : Calls) (rest : List Turn)
    (answer : Answer) : Player where
  calls := calls
  playing :=
    match answer with
    | .output _ => .atTurn rest
    | .raised => .raised
  turnCount := player.turnCount + 1
  outcomes := answer.outcome :: player.outcomes

def step (cfg : Config) (trajectory : Trajectory) (player : Player) :
    PlayerEvent → Option Player
  | .elsewhere call =>
      if call.requestId = trajectory.requestId then
        none
      else
        (player.calls.step cfg call).map fun calls =>
          { player with calls := calls }
  | .acquire clock =>
      match player.playing with
      | .atTurn (turn :: rest) =>
          (player.calls.segmentOf cfg
            (.acquire trajectory.requestId
              (trajectory.acquireArgs turn player.turnCount) clock)).map
            (player.runSegment trajectory turn rest)
      | _ => none
  | .resume wakeup =>
      match player.playing with
      | .acquiring turn rest =>
          (player.calls.segmentOf cfg
            (.resume trajectory.requestId wakeup)).map
            (player.runSegment trajectory turn rest)
      | _ => none
  | .generateEnds answer =>
      match player.playing with
      | .generating turn rest =>
          some { player with playing := .recording turn rest answer }
      | _ => none
  | .recordTurn =>
      match player.playing with
      | .recording turn rest answer =>
          (player.calls.step cfg
            (.recordTurn trajectory.requestId player.turnCount
              (trajectory.actualContextSize turn answer.tokens))).map
            fun calls => player.afterRecord calls rest answer
      | _ => none
  | .trajectoryDone =>
      match player.playing with
      | .atTurn [] =>
          (player.calls.step cfg
            (.onTrajectoryDone trajectory.requestId)).map
            fun calls => { player with calls := calls, playing := .returned }
      | _ => none

/-- `run` has returned or raised. -/
def Ended (player : Player) : Prop :=
  player.playing = .returned ∨ player.playing = .raised

/-! ## What the run holds -/

def books (player : Player) : Books := player.calls.ledger.toBooks

/-- Where the request is resident. -/
def home (trajectory : Trajectory) (player : Player) : Option String :=
  player.books.resident.get? trajectory.requestId

/-- What the ledger holds for the request at each point of the run. -/
def Holding (cfg : Config) (trajectory : Trajectory)
    (player : Player) : Prop :=
  match player.playing with
  | .atTurn _ =>
      (player.home trajectory = none ↔ player.turnCount = 0) ∧
        .raised ∉ player.outcomes
  | .acquiring _ _ =>
      player.home trajectory = none ∧ player.turnCount = 0 ∧
        .raised ∉ player.outcomes
  | .generating _ _ | .recording _ _ _ =>
      player.home trajectory ≠ none ∧ .raised ∉ player.outcomes
  | .returned =>
      player.home trajectory = none ∧ .raised ∉ player.outcomes
  | .raised =>
      (player.home trajectory = none → cfg.replicas = []) ∧
        .raised ∈ player.outcomes

structure Standing (cfg : Config) (trajectory : Trajectory)
    (player : Player) : Prop where
  residing : player.calls.Residing cfg
  holding : player.Holding cfg trajectory

theorem standing_init (cfg : Config) (trajectory : Trajectory) :
    (init cfg trajectory).Standing cfg trajectory where
  residing := Calls.residing_init cfg
  holding := ⟨⟨fun _ => rfl, fun _ => rfl⟩, by simp [init]⟩

variable {cfg : Config} {trajectory : Trajectory} {player next : Player}

/-- Nothing changes for the run while its residency and position stay. -/
theorem Holding.of_same
    (holding : player.Holding cfg trajectory)
    (homeSame : next.home trajectory = player.home trajectory)
    (playing : next.playing = player.playing)
    (turnCount : next.turnCount = player.turnCount)
    (outcomes : next.outcomes = player.outcomes) :
    next.Holding cfg trajectory := by
  unfold Holding at holding ⊢
  rw [homeSame, playing, turnCount, outcomes]
  exact holding

/-- A segment of the run's own `acquire`. -/
theorem Standing.runSegment
    (standing : player.Standing cfg trajectory) {call : Call}
    {turnIndex : Int} {segment : Segment} {turn : Turn} {rest : List Turn}
    (started :
      player.calls.Started cfg call trajectory.requestId turnIndex segment)
    (clean : .raised ∉ player.outcomes)
    (first : turnIndex ≤ 0 → player.home trajectory = none ∧
      player.turnCount = 0)
    (later : 0 < turnIndex → player.home trajectory ≠ none) :
    (player.runSegment trajectory turn rest
      (trajectory.requestId, turnIndex, segment)).Standing cfg
        trajectory := by
  have residing := standing.residing.ranSegment started
  have chosen := standing.residing.chosen started
  obtain ⟨contextSize, spec⟩ := started.spec
  have homeAfter := spec.effect.resident_eq
  -- a booking makes the request resident, and a failed turn leaves it so
  have failed : ∀ error, segment.outcome = .raised error →
      segment.ledger.resident.get? trajectory.requestId = none →
        cfg.replicas = [] := by
    intro error raised gone
    apply chosen.unbooked error raised
    rw [homeAfter] at gone
    cases booked : segment.booked with
    | none =>
        rfl
    | some booking =>
        rw [booked] at gone
        cases gone
  have placed : ∀ placement, segment.outcome = .returned placement →
      segment.ledger.resident.get? trajectory.requestId ≠ none := by
    intro placement returned
    obtain ⟨rule, booked⟩ := spec.returned placement returned
    rw [homeAfter, booked]
    exact Option.some_ne_none placement.replica
  unfold Player.runSegment
  dsimp only
  split
  · next waiting suspended =>
      refine ⟨residing, ?_⟩
      obtain ⟨unbooked, _⟩ := spec.suspended waiting suspended
      have homeSame :
          segment.ledger.resident.get? trajectory.requestId =
            player.home trajectory := by
        rw [homeAfter, unbooked]
        rfl
      have notLater : ¬ 0 < turnIndex := by
        intro positive
        have effect := spec.effect
        rw [unbooked] at effect
        exact later positive
          (effect.absent_of_unbooked (lt_max_of_lt_right positive))
      obtain ⟨homeNone, zero⟩ := first (not_lt.mp notLater)
      exact ⟨homeSame.trans homeNone, zero, clean⟩
  · next placement returned =>
      split
      · exact ⟨residing, placed placement returned, clean⟩
      · refine ⟨residing, ?_, List.mem_cons_self ..⟩
        intro gone
        exact absurd gone (placed placement returned)
  · next error raised =>
      exact ⟨residing, failed error raised, List.mem_cons_self ..⟩

theorem Standing.step
    {event : PlayerEvent} (standing : player.Standing cfg trajectory)
    (stepped : player.step cfg trajectory event = some next) :
    next.Standing cfg trajectory := by
  obtain ⟨residing, holding⟩ := id standing
  cases event with
  | elsewhere call =>
      simp only [Player.step] at stepped
      split at stepped
      · cases stepped
      · next different =>
          obtain ⟨calls, called, rfl⟩ := Option.map_eq_some_iff.mp stepped
          exact ⟨residing.step called,
            holding.of_same
              (Calls.resident_of_other called (Ne.symm different)) rfl rfl
              rfl⟩
  | acquire clock =>
      simp only [Player.step] at stepped
      split at stepped
      · next turn rest playing =>
          obtain ⟨⟨caller, turnIndex, segment⟩, ran, rfl⟩ :=
            Option.map_eq_some_iff.mp stepped
          have started := Calls.started_of_segmentOf ran
          have callerEq : caller = trajectory.requestId := by
            cases started
            rfl
          have turnEq : turnIndex = player.turnCount := by
            cases started
            rfl
          subst caller
          rw [Holding, playing] at holding
          obtain ⟨home, clean⟩ := holding
          refine standing.runSegment started clean ?_ ?_
          · intro notLater
            have zero : player.turnCount = 0 := by omega
            exact ⟨home.mpr zero, zero⟩
          · intro positive gone
            have zero := home.mp gone
            omega
      · cases stepped
  | resume wakeup =>
      simp only [Player.step] at stepped
      split at stepped
      · next turn rest playing =>
          obtain ⟨⟨caller, turnIndex, segment⟩, ran, rfl⟩ :=
            Option.map_eq_some_iff.mp stepped
          have started := Calls.started_of_segmentOf ran
          have callerEq : caller = trajectory.requestId := by
            cases started
            rfl
          have turnEq : turnIndex = 0 := by
            cases started
            rfl
          subst caller
          rw [Holding, playing] at holding
          obtain ⟨home, zero, clean⟩ := holding
          refine standing.runSegment started clean ?_ ?_
          · intro _
            exact ⟨home, zero⟩
          · intro positive
            omega
      · cases stepped
  | generateEnds answer =>
      simp only [Player.step] at stepped
      split at stepped
      · next turn rest playing =>
          cases stepped
          rw [Holding, playing] at holding
          exact ⟨residing, holding⟩
      · cases stepped
  | recordTurn =>
      simp only [Player.step] at stepped
      split at stepped
      · next turn rest answer playing =>
          obtain ⟨calls, called, rfl⟩ := Option.map_eq_some_iff.mp stepped
          rw [Holding, playing] at holding
          obtain ⟨home, clean⟩ := holding
          have recorded := residing.step called
          have homeAfter :
              calls.ledger.resident.get? trajectory.requestId ≠ none := by
            cases called
            have written := Ledger.recordTurn_toBooks cfg
              player.calls.ledger trajectory.requestId player.turnCount
              (trajectory.actualContextSize turn answer.tokens)
            simp only [written, Books.resident_recordTurn]
            exact home
          refine ⟨recorded, ?_⟩
          cases answer with
          | output tokens =>
              refine ⟨⟨fun gone => absurd gone homeAfter, ?_⟩, ?_⟩
              · intro zero
                exact absurd zero (Nat.succ_ne_zero _)
              · simpa [afterRecord, Answer.outcome] using clean
          | raised =>
              exact ⟨fun gone => absurd gone homeAfter,
                List.mem_cons_self ..⟩
      · cases stepped
  | trajectoryDone =>
      simp only [Player.step] at stepped
      split at stepped
      · next playing =>
          obtain ⟨calls, called, rfl⟩ := Option.map_eq_some_iff.mp stepped
          rw [Holding, playing] at holding
          refine ⟨residing.step called, ?_, holding.2⟩
          cases called
          exact (Books.bookedUpTo_onTrajectoryDone
            player.calls.ledger.toBooks trajectory.requestId).1
      · cases stepped

theorem standing_of_run
    {events : List PlayerEvent} {final : Player}
    (ran :
      run (step cfg trajectory) (init cfg trajectory) events =
        some final) :
    final.Standing cfg trajectory :=
  run_invariant (fun _ _ _ standing stepped => standing.step stepped)
    (standing_init cfg trajectory) ran

/-- When `run` has ended, the ledger holds nothing for its request exactly
when no turn raised, or when there was no replica to book on. -/
theorem holds_nothing_iff_no_turn_raised
    (cfg : Config) (trajectory : Trajectory) (events : List PlayerEvent)
    (final : Player)
    (ran :
      run (step cfg trajectory) (init cfg trajectory) events = some final)
    (ended : final.Ended) :
    final.books.HoldsNothing trajectory.requestId ↔
      cfg.replicas = [] ∨ .raised ∉ final.outcomes := by
  obtain ⟨residing, holding⟩ := standing_of_run ran
  have tracked : final.books.Tracked := residing.tracked
  rw [Books.holdsNothing_iff tracked]
  rcases ended with returned | raised
  · rw [Holding, returned] at holding
    obtain ⟨gone, clean⟩ := holding
    exact ⟨fun _ => .inr clean, fun _ => gone⟩
  · rw [Holding, raised] at holding
    obtain ⟨unplaced, failed⟩ := holding
    constructor
    · intro gone
      exact .inl (unplaced gone)
    · intro either
      rcases either with noReplica | clean
      · have residents := residing.within.resident
        cases home : final.books.resident.get? trajectory.requestId with
        | none =>
            rfl
        | some replica =>
            have member := residents trajectory.requestId replica home
            rw [noReplica] at member
            cases member
      · exact absurd failed clean

end Player

/-! ## A turn that raises -/

/-- Two turns of one conversation, with one server. -/
def twoTurnTrace : Trajectory where
  requestId := "trace-c-1f"
  convId := "c"
  turns := [⟨3, 2⟩, ⟨6, 2⟩]
  stableSeed := 7
  promptLength := 8
  responseLength := 4
  addressToHandle := ["A"]

/-- The first turn generates two tokens, the second comes to `answer`. -/
def playedTurns (answer : Answer) : List PlayerEvent :=
  [.acquire ⟨0, 0⟩, .generateEnds (.output 2), .recordTurn,
    .acquire ⟨0, 0⟩, .generateEnds answer, .recordTurn]

namespace Player

theorem holds_nothing_iff_all_returned :
    ∃ final,
      run (step oneReplica twoTurnTrace) (init oneReplica twoTurnTrace)
          (playedTurns (.output 2) ++ [.trajectoryDone]) = some final ∧
        final.books.HoldsNothing "trace-c-1f" := by
  obtain ⟨final, ran, reached⟩ :=
    exists_final_of_map_eq
      (show (run (step oneReplica twoTurnTrace)
          (init oneReplica twoTurnTrace)
          (playedTurns (.output 2) ++ [.trajectoryDone])).map
        (fun final => decide (final.playing = .returned ∧
          .raised ∉ final.outcomes)) = some true by decide +kernel)
  obtain ⟨returned, clean⟩ := of_decide_eq_true reached
  exact ⟨final, ran,
    (holds_nothing_iff_no_turn_raised oneReplica twoTurnTrace _ final ran
      (.inl returned)).mpr (.inr clean)⟩

/-- The second turn raises: the run is over, and six tokens stay booked. -/
theorem failed_turn_keeps_its_booking :
    ∃ final,
      run (step oneReplica twoTurnTrace) (init oneReplica twoTurnTrace)
          (playedTurns .raised) = some final ∧
        final.playing = .raised ∧
        final.books.resident.get? "trace-c-1f" = some "A" ∧
        final.books.history.get? "trace-c-1f" ≠ none ∧
        final.books.reserveCharge.get? "trace-c-1f" ≠ none ∧
        final.books.used "A" = 6 := by
  obtain ⟨final, ran, reached⟩ :=
    exists_final_of_map_eq
      (show (run (step oneReplica twoTurnTrace)
          (init oneReplica twoTurnTrace) (playedTurns .raised)).map
        (fun final => decide (final.playing = .raised ∧
          final.books.resident.get? "trace-c-1f" = some "A" ∧
          final.books.history.get? "trace-c-1f" ≠ none ∧
          final.books.reserveCharge.get? "trace-c-1f" ≠ none ∧
          final.books.used "A" = 6)) = some true by decide +kernel)
  exact ⟨final, ran, of_decide_eq_true reached⟩

end Player

end TracePlayer

end LlmDRl.Admission
