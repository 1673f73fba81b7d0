import LlmDRl.Admission.TracePlayer
import LlmDRl.Library.OrderedDict
import LlmDRl.Replay.NestedPrompts
import LlmDRl.Weka.Linearize

/-!
# Replaying a conversation

`TracePlayerAgentLoop.run` sends one `generate` for each turn of a trace and
stops at the first that raises.  The prompts it sends are initial segments of
the conversation's stream, whatever the limits of the rollout and the answers
of the server.
-/

namespace LlmDRl.Replay

open LlmDRl.Library
open LlmDRl.Weka (Turn sliceTo)

universe u

/-- A sampling parameter; those of the caller are passed on as they are. -/
inductive SamplingValue (α : Type u) where
  | given (value : α)
  | tokens (value : Int)
  | flag (value : Bool)

structure ConversationTrace where
  convId : String
  turns : List Turn

structure SessionHint where
  sessionFinal : ℚ
  groupKey : String
  sessionWork : ℚ

/-- The arguments of `server_manager.generate`. -/
structure GenerateCall (α : Type u) where
  requestId : String
  promptIds : List Int
  samplingParams : OrderedDict String (SamplingValue α)
  hint : Option SessionHint

/-- What the loop awaits. -/
inductive Action (α : Type u) where
  | sleep (seconds : ℚ)
  | generate (call : GenerateCall α)
  | onTrajectoryDone (requestId : String)

inductive RunError where
  | prompt (error : PromptError)
  | raised (text : String)

/-- `generate` answers the calls by their number with token ids; the hook need
not be there. -/
structure ServerManager (α : Type u) where
  wantsSessionHint : Bool
  generate : Nat → GenerateCall α → Except String (List Int)
  onTrajectoryDone : Option (Except String Unit)

structure AgentLoopOutput where
  promptIds : List Int
  responseIds : List Int
  responseMask : List Int
  numTurns : Nat
  convId : String

/-- The limits of the rollout configuration, the cap on the gaps, the client
and the arguments of one run; `uuid` is `uuid4().hex[:8]`. -/
structure Player (α : Type u) where
  promptLength : Int
  responseLength : Int
  gapCap : ℚ
  serverManager : ServerManager α
  samplingParams : OrderedDict String (SamplingValue α)
  uuid : String

/-- `prompt_ids`, cut to `prompt_length` where it is longer. -/
def truncated (promptLength : Int) (promptIds : List Int) : List Int :=
  if promptLength < promptIds.length then sliceTo promptLength promptIds
  else promptIds

/-- The local variables of the loop, and what it has awaited. -/
structure Progress (α : Type u) where
  actions : List (Action α) := []
  lastPromptIds : List Int := [0]
  lastOutput : Option (List Int) := none
  numTurns : Nat := 0

def Progress.await {α : Type u} (progress : Progress α) (action : Action α) :
    Progress α :=
  { progress with actions := progress.actions ++ [action] }

namespace Player

variable {α : Type u} (player : Player α)
variable (blake2b : List UInt8 → Vector UInt8 8)

def requestId (trace : ConversationTrace) : String :=
  s!"trace-{trace.convId}-{player.uuid}"

def cappedTokens (turn : Turn) : Int :=
  min turn.inputTokens player.promptLength +
    min turn.outputTokens player.responseLength

def hint (trace : ConversationTrace) : Option SessionHint :=
  if player.serverManager.wantsSessionHint then
    trace.turns.getLast?.map fun last =>
      { sessionFinal := player.cappedTokens last
        groupKey := trace.convId
        sessionWork := (trace.turns.map player.cappedTokens).sum }
  else
    none

def promptIds (convId : String) (turn : Turn) : Except PromptError (List Int) :=
  match nestedPromptIds blake2b convId turn.inputTokens with
  | .error error => .error error
  | .ok promptIds => .ok (truncated player.promptLength promptIds)

def outLen (turn : Turn) : Int :=
  max 1 (min turn.outputTokens player.responseLength)

def turnParams (turn : Turn) : OrderedDict String (SamplingValue α) :=
  ((player.samplingParams.insert "max_tokens"
    (.tokens (player.outLen turn))).insert "min_tokens"
    (.tokens (player.outLen turn))).insert "ignore_eos" (.flag true)

def generateCall (trace : ConversationTrace) (turn : Turn)
    (promptIds : List Int) : GenerateCall α where
  requestId := player.requestId trace
  promptIds := promptIds
  samplingParams := player.turnParams turn
  hint := player.hint trace

/-- The gap before a turn. -/
def pause (progress : Progress α) (turn : Turn) : Progress α :=
  if 0 < turn.preGapS then
    progress.await (.sleep (min turn.preGapS player.gapCap))
  else
    progress

/-- The loop over the turns; an exception leaves it. -/
def play (trace : ConversationTrace) :
    Progress α → List Turn → Progress α × Except RunError Unit
  | progress, [] => (progress, .ok ())
  | progress, turn :: rest =>
      let progress := player.pause progress turn
      match player.promptIds blake2b trace.convId turn with
      | .error error => (progress, .error (.prompt error))
      | .ok promptIds =>
          let call := player.generateCall trace turn promptIds
          let progress := progress.await (.generate call)
          match player.serverManager.generate progress.numTurns call with
          | .error text => (progress, .error (.raised text))
          | .ok output =>
              play trace
                { progress with
                  lastPromptIds := promptIds
                  lastOutput := some output
                  numTurns := progress.numTurns + 1 }
                rest

def output (trace : ConversationTrace) (progress : Progress α) :
    AgentLoopOutput :=
  let responseIds :=
    sliceTo player.responseLength (progress.lastOutput.getD [0])
  { promptIds := progress.lastPromptIds
    responseIds := responseIds
    responseMask := List.replicate responseIds.length 1
    numTurns := progress.numTurns
    convId := trace.convId }

/-- What the run awaits, and what it comes to. -/
def run (trace : ConversationTrace) :
    List (Action α) × Except RunError AgentLoopOutput :=
  match player.play blake2b trace {} trace.turns with
  | (progress, .error error) => (progress.actions, .error error)
  | (progress, .ok ()) =>
      match player.serverManager.onTrajectoryDone with
      | none => (progress.actions, .ok (player.output trace progress))
      | some hook =>
          let progress :=
            progress.await (.onTrajectoryDone (player.requestId trace))
          match hook with
          | .error text => (progress.actions, .error (.raised text))
          | .ok () => (progress.actions, .ok (player.output trace progress))

end Player

/-- The prompts among what was awaited. -/
def sentPrompts {α : Type u} (actions : List (Action α)) : List (List Int) :=
  actions.filterMap fun action =>
    match action with
    | .generate call => some call.promptIds
    | .sleep _ | .onTrajectoryDone _ => none

/-! ## Prompts -/

variable {blake2b : List UInt8 → Vector UInt8 8} {convId : String}

theorem truncated_isPrefix (promptLength : Int) (promptIds : List Int) :
    truncated promptLength promptIds <+: promptIds := by
  unfold truncated
  by_cases long : promptLength < promptIds.length
  · rw [if_pos long]
    unfold sliceTo
    by_cases nonneg : 0 ≤ promptLength
    · rw [if_pos nonneg]
      exact List.take_prefix _ promptIds
    · rw [if_neg nonneg]
      exact List.take_prefix _ promptIds
  · rw [if_neg long]

theorem truncated_of_nonneg
    {promptLength : Int} (nonneg : 0 ≤ promptLength) (promptIds : List Int) :
    truncated promptLength promptIds = promptIds.take promptLength.toNat := by
  unfold truncated
  by_cases long : promptLength < promptIds.length
  · rw [if_pos long]
    unfold sliceTo
    rw [if_pos nonneg]
  · rw [if_neg long]
    exact (List.take_of_length_le (by omega)).symm

/-- A limit cuts longer prompts to no less. -/
theorem length_truncated_mono
    (promptLength : Int) {promptIds longer : List Int}
    (le : promptIds.length ≤ longer.length) :
    (truncated promptLength promptIds).length ≤
      (truncated promptLength longer).length := by
  by_cases nonneg : 0 ≤ promptLength
  · rw [truncated_of_nonneg nonneg, truncated_of_nonneg nonneg,
      List.length_take, List.length_take]
    omega
  · have fromEnd : ∀ ids : List Int, (truncated promptLength ids).length =
        ids.length - (-promptLength).toNat := by
      intro ids
      unfold truncated sliceTo
      rw [if_pos (by omega), if_neg nonneg, List.length_take]
      omega
    rw [fromEnd, fromEnd]
    omega

namespace Player

variable {α : Type u} {player : Player α}

/-- The prompt that the stream of the conversation gives for a turn. -/
def prompt (player : Player α) (blake2b : List UInt8 → Vector UInt8 8)
    (convId : String) (turn : Turn) : List Int :=
  truncated player.promptLength
    ((tokenStream blake2b convId 10 30000).take (max 1 turn.inputTokens).toNat)

theorem promptIds_eq (turn : Turn) :
    player.promptIds blake2b convId turn =
      .ok (player.prompt blake2b convId turn) := by
  unfold promptIds
  rw [nestedPromptIds_eq (by decide)]
  rfl

theorem isInitial_prompt (turn : Turn) :
    IsInitial (tokenStream blake2b convId 10 30000)
      (player.prompt blake2b convId turn) :=
  IsInitial.of_isPrefix (truncated_isPrefix _ _) (isInitial_take _ _)

theorem prompt_isPrefix_prompt
    {turn longer : Turn} (le : turn.inputTokens ≤ longer.inputTokens) :
    player.prompt blake2b convId turn <+:
      player.prompt blake2b convId longer := by
  apply (isInitial_prompt turn).isPrefix (isInitial_prompt longer)
  apply length_truncated_mono
  rw [Stream'.length_take, Stream'.length_take]
  omega

/-! ## The player on the ledger -/

theorem nextState_eq (state : Nat) :
    nextState state =
      (state * 6364136223846793005 + 1442695040888963407) % 2 ^ 64 :=
  Nat.and_two_pow_sub_one_eq_mod _ 64

theorem map_tokenIds (count state : Nat) :
    (Admission.TracePlayer.tokenIds count state).map Int.ofNat =
      (appended nextState
        (fun state => 10 + Int.fmod (state >>> 33 : Nat) (30000 - 10))
        state).take count := by
  induction count generalizing state with
  | zero =>
      rfl
  | succ count inductionHypothesis =>
      have id : Int.ofNat (10 + nextState state / 2 ^ 33 % (30000 - 10)) =
          10 + Int.fmod (nextState state >>> 33 : Nat) (30000 - 10) := by
        rw [Nat.shiftRight_eq_div_pow, Int.fmod_eq_emod_of_nonneg _ (by decide),
          Int.ofNat_eq_natCast]
        omega
      rw [Admission.TracePlayer.tokenIds, take_succ_appended, ← nextState_eq,
        List.map_cons, id, inductionHypothesis]

/-- The prompts whose sizes the ledger is told. -/
theorem promptIds_trajectory
    {trajectory : Admission.TracePlayer.Trajectory}
    (seed : stableSeed blake2b trajectory.convId = trajectory.stableSeed)
    (limit : player.promptLength = trajectory.promptLength) (turn : Turn) :
    player.promptIds blake2b trajectory.convId turn =
      .ok ((trajectory.promptIds
        ⟨turn.inputTokens, turn.outputTokens⟩).map Int.ofNat) := by
  rw [promptIds_eq]
  unfold prompt tokenStream firstState
  unfold Admission.TracePlayer.Trajectory.promptIds
  unfold Admission.TracePlayer.nestedPromptIds
  rw [seed, limit, List.map_take, map_tokenIds,
    truncated_of_nonneg (Int.natCast_nonneg _)]
  rfl

/-! ## Runs -/

theorem sentPrompts_await_generate
    (progress : Progress α) (call : GenerateCall α) :
    sentPrompts (progress.await (.generate call)).actions =
      sentPrompts progress.actions ++ [call.promptIds] :=
  List.filterMap_append

theorem sentPrompts_pause (progress : Progress α) (turn : Turn) :
    sentPrompts (player.pause progress turn).actions =
      sentPrompts progress.actions := by
  unfold pause
  by_cases waits : 0 < turn.preGapS
  · rw [if_pos waits]
    exact List.filterMap_append.trans (List.append_nil _)
  · rw [if_neg waits]

/-- The loop sends the prompts of its turns, up to the one that raises. -/
theorem exists_played
    (trace : ConversationTrace) (progress : Progress α) (turns : List Turn) :
    ∃ played, played <+: turns ∧
      sentPrompts (player.play blake2b trace progress turns).1.actions =
        sentPrompts progress.actions ++
          played.map (player.prompt blake2b trace.convId) := by
  induction turns generalizing progress with
  | nil =>
      refine ⟨[], List.prefix_rfl, ?_⟩
      rw [play, List.map_nil, List.append_nil]
  | cons turn rest inductionHypothesis =>
      rw [play, promptIds_eq]
      dsimp only
      generalize promptIds : player.prompt blake2b trace.convId turn = prompt
      generalize called : player.generateCall trace turn prompt = call
      have sent : sentPrompts
          ((player.pause progress turn).await (.generate call)).actions =
            sentPrompts progress.actions ++ [prompt] := by
        rw [sentPrompts_await_generate, sentPrompts_pause, ← called]
        rfl
      cases player.serverManager.generate
          ((player.pause progress turn).await (.generate call)).numTurns
          call with
      | error text =>
          refine ⟨[turn], ⟨rest, rfl⟩, ?_⟩
          rw [List.map_singleton, promptIds]
          exact sent
      | ok output =>
          dsimp only
          obtain ⟨played, begins, prompts⟩ := inductionHypothesis
            { actions :=
                ((player.pause progress turn).await (.generate call)).actions
              lastPromptIds := prompt
              lastOutput := some output
              numTurns :=
                ((player.pause progress turn).await
                  (.generate call)).numTurns + 1 }
          refine ⟨turn :: played, ?_, ?_⟩
          · exact (List.prefix_cons_inj turn).mpr begins
          · rw [prompts]
            dsimp only
            rw [sent, List.map_cons, promptIds, List.append_assoc,
              List.singleton_append]

theorem sentPrompts_await_onTrajectoryDone
    (progress : Progress α) (requestId : String) :
    sentPrompts (progress.await (.onTrajectoryDone requestId)).actions =
      sentPrompts progress.actions :=
  List.filterMap_append.trans (List.append_nil _)

/-- The hook sends no prompt. -/
theorem sentPrompts_run_eq (trace : ConversationTrace) :
    sentPrompts (player.run blake2b trace).1 =
      sentPrompts (player.play blake2b trace {} trace.turns).1.actions := by
  unfold run
  cases player.play blake2b trace {} trace.turns with
  | mk progress ending =>
      cases ending with
      | error error => rfl
      | ok done =>
          dsimp only
          cases player.serverManager.onTrajectoryDone with
          | none => rfl
          | some hook =>
              have kept := sentPrompts_await_onTrajectoryDone progress
                (player.requestId trace)
              cases hook with
              | error text => exact kept
              | ok returned => exact kept

/-- The prompts of a run are those of the turns it has played. -/
theorem sentPrompts_run (trace : ConversationTrace) :
    ∃ played, played <+: trace.turns ∧
      sentPrompts (player.run blake2b trace).1 =
        played.map (player.prompt blake2b trace.convId) := by
  obtain ⟨played, begins, prompts⟩ :
      ∃ played, played <+: trace.turns ∧
        sentPrompts (player.play blake2b trace {} trace.turns).1.actions =
          [] ++ played.map (player.prompt blake2b trace.convId) :=
    exists_played trace {} trace.turns
  refine ⟨played, begins, ?_⟩
  rw [sentPrompts_run_eq, prompts, List.nil_append]

theorem isInitial_of_mem_sentPrompts
    {trace : ConversationTrace} {ids : List Int}
    (sent : ids ∈ sentPrompts (player.run blake2b trace).1) :
    IsInitial (tokenStream blake2b trace.convId 10 30000) ids := by
  obtain ⟨played, _, prompts⟩ :
      ∃ played, played <+: trace.turns ∧
        sentPrompts (player.run blake2b trace).1 =
          played.map (player.prompt blake2b trace.convId) :=
    sentPrompts_run trace
  rw [prompts] at sent
  obtain ⟨turn, _, rfl⟩ := List.mem_map.mp sent
  exact isInitial_prompt turn

end Player

/-! ## Nesting -/

/-- The prompts of a conversation: their lengths, their nesting, their range
and what a limit makes of them; and what the player sends for it. -/
theorem prompts_nest {α : Type u} (blake2b : List UInt8 → Vector UInt8 8)
    (convId : String) {n m vocabLo vocabHi promptLength : Int}
    (le : n ≤ m) (range : vocabLo < vocabHi) (positive : 1 ≤ promptLength) :
    (∃ ids longer,
      nestedPromptIds blake2b convId n vocabLo vocabHi = .ok ids ∧
      nestedPromptIds blake2b convId m vocabLo vocabHi = .ok longer ∧
      (ids.length : Int) = max 1 n ∧
      ids <+: longer ∧
      (∀ id ∈ ids, vocabLo ≤ id ∧ id < vocabHi) ∧
      nestedPromptIds blake2b convId (min (max 1 n) promptLength) vocabLo
        vocabHi = .ok (truncated promptLength ids)) ∧
    (∀ (player : Player α) (turn longer : Turn),
      turn.inputTokens ≤ longer.inputTokens →
        ∃ ids longerIds,
          player.promptIds blake2b convId turn = .ok ids ∧
          player.promptIds blake2b convId longer = .ok longerIds ∧
          ids <+: longerIds) ∧
    ∀ (player other : Player α) (trace otherTrace : ConversationTrace),
      trace.convId = convId → otherTrace.convId = convId →
        ∀ ids ∈ sentPrompts (player.run blake2b trace).1,
          ∀ longer ∈ sentPrompts (other.run blake2b otherTrace).1,
            ids.length ≤ longer.length → ids <+: longer := by
  refine ⟨?_, ?_, ?_⟩
  · refine ⟨_, _, nestedPromptIds_eq range n, nestedPromptIds_eq range m, ?_,
      ?_, ?_, ?_⟩
    · rw [Stream'.length_take]
      omega
    · apply (isInitial_take _ _).isPrefix (isInitial_take _ _)
      rw [Stream'.length_take, Stream'.length_take]
      omega
    · exact forall_mem_take (tokenStream_within range) _
    · have count : (max 1 (min (max 1 n) promptLength)).toNat =
          min (max 1 n).toNat promptLength.toNat := by omega
      have nonneg : 0 ≤ promptLength := by omega
      rw [nestedPromptIds_eq range, truncated_of_nonneg nonneg,
        Stream'.take_take, count]
  · intro player turn longer le
    exact ⟨_, _, Player.promptIds_eq turn, Player.promptIds_eq longer,
      Player.prompt_isPrefix_prompt le⟩
  · rintro player other trace otherTrace rfl same ids sent longer otherSent le
    have initial := Player.isInitial_of_mem_sentPrompts sent
    have otherInitial := Player.isInitial_of_mem_sentPrompts otherSent
    rw [same] at otherInitial
    exact initial.isPrefix otherInitial le

/-- The digest of the conversation `42`. -/
def digest42 (_ : List UInt8) : Vector UInt8 8 :=
  #v[87, 180, 60, 240, 38, 102, 104, 122]

def shortPlayer : Player Unit where
  promptLength := 3
  responseLength := 8
  gapCap := 10
  serverManager :=
    { wantsSessionHint := true
      generate := fun _ _ => .ok [7]
      onTrajectoryDone := none }
  samplingParams := .empty
  uuid := "0a1b2c3d"

def twoTurns : ConversationTrace where
  convId := "42"
  turns := [⟨2, 5, 0⟩, ⟨4, 5, 1 / 2⟩]

/-- A turn of two tokens, and one of four that the player cuts to three. -/
theorem twoTurns_nest :
    nestedPromptIds digest42 "42" 2 = .ok [27993, 18526] ∧
      nestedPromptIds digest42 "42" (min (max 1 4) 3) =
        .ok [27993, 18526, 27429] ∧
      sentPrompts (shortPlayer.run digest42 twoTurns).1 =
        [[27993, 18526], [27993, 18526, 27429]] ∧
      ([27993, 18526] : List Int) <+: [27993, 18526, 27429] := by
  have two : nestedPromptIds digest42 "42" 2 = .ok [27993, 18526] := by
    decide +kernel
  have four : nestedPromptIds digest42 "42" 4 =
      .ok [27993, 18526, 27429, 29257] := by
    decide +kernel
  have sent : sentPrompts (shortPlayer.run digest42 twoTurns).1 =
      [[27993, 18526], [27993, 18526, 27429]] := by
    decide +kernel
  obtain ⟨nests, -, runs⟩ :=
    @prompts_nest Unit digest42 "42" 4 4 10 30000 3 (le_refl 4) (by decide)
      (by decide)
  obtain ⟨ids, longer, made, -, -, -, -, cut⟩ := nests
  cases made.symm.trans four
  have nested := runs shortPlayer shortPlayer twoTurns twoTurns rfl rfl
  rw [sent] at nested
  exact ⟨two, cut, sent, nested _ (by decide) _ (by decide) (by decide)⟩

end LlmDRl.Replay
