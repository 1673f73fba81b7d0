import LlmDRl.Replay.Trace
import LlmDRl.Weka.Selection

/-!
# Rows that are replayed

A row of `build_rows` holds its conversation as a JSON text.  The player takes
from it the turns that `_linearize` made, and since each of them asks for a
token each way, the size hints that go with every call are the sizes of the
calls.
-/

namespace LlmDRl.Replay

open LlmDRl.Library
open LlmDRl.Weka (Turn Row Session Call collectCalls linearizeCalls linearize
  sliceTo rowOf buildRows bounds_of_mem_linearizeCalls)

universe u

/-! ## Rows -/

/-- The conversation of a row. -/
def traceOf (row : Row) : ConversationTrace := ⟨row.convId, row.turns⟩

/-- The `extra_info` of a row. -/
def extraInfo (format : FloatFormat ℚ) (row : Row) : List (String × Raw) :=
  [("index", .value (.int row.index)),
    ("conv_id", .value (.text row.convId)),
    ("num_turns", .value (.int row.turns.length)),
    ("trace_turns",
      .value (.text (Json.dumps format (traceJson (traceOf row)))))]

theorem getTrace_extraInfo {format : FloatFormat ℚ} {row : Row}
    (floats : (traceOf row).Floats format) (casts : Casts) :
    getTrace format casts (some (extraInfo format row)) (.value .null) =
      .ok (traceOf row) := by
  have parsed := parseTraceTurns_dumps casts floats
  have turns : cell (extraInfo format row) "trace_turns" =
      .value (.text (Json.dumps format (traceJson (traceOf row)))) := by
    rfl
  have named : cell (extraInfo format row) "conv_id" =
      .value (.text row.convId) := by
    rfl
  unfold getTrace
  simp only [turns, named, parsed]
  change (if _ then _ else _) = _
  split
  · rfl
  · rfl

/-! ## Turns -/

theorem mem_of_mem_sliceTo {α : Type} {stop : Int} {items : List α} {item : α}
    (member : item ∈ sliceTo stop items) : item ∈ items := by
  unfold sliceTo at member
  split at member
  · exact List.mem_of_mem_take member
  · exact List.mem_of_mem_take member

theorem mem_linearizeCalls_of_mem
    {sess : Session} {includeSubagents : Bool} {gapCap : Option ℚ}
    {capIn capOut maxTurnsPerConv : Int} {turn : Turn}
    (member : turn ∈
      linearize sess includeSubagents gapCap capIn capOut maxTurnsPerConv) :
    turn ∈ linearizeCalls gapCap capIn capOut none
      (collectCalls sess includeSubagents) := by
  unfold linearize at member
  dsimp only at member
  split at member
  · exact mem_of_mem_sliceTo member
  · exact member

/-- A gap is rounded to four decimals. -/
theorem exists_roundTo_of_mem_linearizeCalls
    {gapCap : Option ℚ} {capIn capOut : Int} {prevEnd : Option ℚ}
    {calls : List Call} {turn : Turn}
    (member : turn ∈ linearizeCalls gapCap capIn capOut prevEnd calls) :
    ∃ gap, turn.preGapS = roundTo 4 gap := by
  induction calls generalizing prevEnd with
  | nil =>
      cases member
  | cons call rest inductionHypothesis =>
      rw [linearizeCalls] at member
      split at member
      · cases member
      · obtain rfl | later := List.mem_cons.mp member
        · exact ⟨_, rfl⟩
        · exact inductionHypothesis later

/-- What a row holds. -/
theorem exists_session_of_mem_buildRows
    {lines : List (Option Session)} {indices : List Nat}
    {includeSubagents : Bool} {gapCap : Option ℚ}
    {maxTotalTokens capIn capOut maxTurnsPerConv : Int} {row : Row}
    (member : row ∈ buildRows lines indices includeSubagents gapCap
      maxTotalTokens capIn capOut maxTurnsPerConv) :
    ∃ sess, row.turns =
        linearize sess includeSubagents gapCap capIn capOut maxTurnsPerConv ∧
      row.turns ≠ [] := by
  obtain ⟨item, -, made⟩ := List.mem_filterMap.mp member
  unfold rowOf at made
  split at made
  · cases made
  · next sess _ =>
      dsimp only at made
      split at made
      · cases made
      · next nonempty =>
          split at made
          · cases made
          · obtain rfl := Option.some.inj made
            exact ⟨sess, rfl, nonempty⟩

/-- Its turns ask for a token each way, and their gaps are rounded. -/
theorem bounds_of_mem_buildRows
    {lines : List (Option Session)} {indices : List Nat}
    {includeSubagents : Bool} {gapCap : Option ℚ}
    {maxTotalTokens capIn capOut maxTurnsPerConv : Int} (nonneg : 0 ≤ capOut)
    {row : Row}
    (member : row ∈ buildRows lines indices includeSubagents gapCap
      maxTotalTokens capIn capOut maxTurnsPerConv) :
    row.turns ≠ [] ∧ ∀ turn ∈ row.turns,
      1 ≤ turn.inputTokens ∧ 1 ≤ turn.outputTokens ∧
        ∃ gap, turn.preGapS = roundTo 4 gap := by
  obtain ⟨sess, turns, nonempty⟩ := exists_session_of_mem_buildRows member
  refine ⟨nonempty, fun turn inTurns => ?_⟩
  rw [turns] at inTurns
  have inCalls := mem_linearizeCalls_of_mem inTurns
  obtain ⟨input, output, -⟩ := bounds_of_mem_linearizeCalls nonneg inCalls
  exact ⟨input, output, exists_roundTo_of_mem_linearizeCalls inCalls⟩

/-! ## Calls -/

/-- The calls among what was awaited. -/
def sentCalls {α : Type u} (actions : List (Action α)) :
    List (GenerateCall α) :=
  actions.filterMap fun action =>
    match action with
    | .generate call => some call
    | .sleep _ | .onTrajectoryDone _ => none

/-- `len(prompt_ids) + max_tokens` -/
def GenerateCall.size {α : Type u} (call : GenerateCall α) : Int :=
  call.promptIds.length +
    match call.samplingParams.get? "max_tokens" with
    | some (.tokens count) => count
    | some (.given _) | some (.flag _) | none => 0

namespace Player

variable {α : Type u} {player : Player α}
variable {blake2b : List UInt8 → Vector UInt8 8}

/-- The call of a turn. -/
def callOf (player : Player α) (blake2b : List UInt8 → Vector UInt8 8)
    (trace : ConversationTrace) (turn : Turn) : GenerateCall α :=
  player.generateCall trace turn (player.prompt blake2b trace.convId turn)

theorem sentCalls_pause (progress : Progress α) (turn : Turn) :
    sentCalls (player.pause progress turn).actions =
      sentCalls progress.actions := by
  unfold pause
  split
  · exact List.filterMap_append.trans (List.append_nil _)
  · rfl

theorem numTurns_pause (progress : Progress α) (turn : Turn) :
    (player.pause progress turn).numTurns = progress.numTurns := by
  unfold pause
  split
  · rfl
  · rfl

/-- A loop that no exception leaves has sent the call of every turn. -/
theorem sentCalls_play_of_ok
    (trace : ConversationTrace) {progress : Progress α} {turns : List Turn}
    (ok : (player.play blake2b trace progress turns).2 = .ok ()) :
    sentCalls (player.play blake2b trace progress turns).1.actions =
        sentCalls progress.actions ++
          turns.map (player.callOf blake2b trace) ∧
      (player.play blake2b trace progress turns).1.numTurns =
        progress.numTurns + turns.length := by
  induction turns generalizing progress with
  | nil =>
      rw [play, List.map_nil, List.append_nil]
      exact ⟨rfl, rfl⟩
  | cons turn rest inductionHypothesis =>
      rw [play, promptIds_eq] at ok ⊢
      dsimp only at ok ⊢
      have sent : sentCalls ((player.pause progress turn).await (.generate
          (player.callOf blake2b trace turn))).actions =
            sentCalls progress.actions ++
              [player.callOf blake2b trace turn] := by
        have paused : sentCalls (player.pause progress turn).actions =
            sentCalls progress.actions := sentCalls_pause progress turn
        rw [← paused]
        exact List.filterMap_append
      have before : ((player.pause progress turn).await (.generate
          (player.callOf blake2b trace turn))).numTurns =
            progress.numTurns :=
        numTurns_pause progress turn
      have called : player.generateCall trace turn
          (player.prompt blake2b trace.convId turn) =
            player.callOf blake2b trace turn := rfl
      rw [called] at ok ⊢
      split at ok
      · cases ok
      · next output _ =>
          obtain ⟨calls, count⟩ := inductionHypothesis ok
          refine ⟨?_, ?_⟩
          · rw [calls]
            dsimp only
            rw [sent, List.map_cons, List.append_assoc, List.singleton_append]
          · rw [count]
            dsimp only
            rw [before, List.length_cons]
            omega

/-- The calls of a run that ends well are those of the turns of its trace. -/
theorem sentCalls_run_of_ok
    {trace : ConversationTrace} {output : AgentLoopOutput}
    (ok : (player.run blake2b trace).2 = .ok output) :
    sentCalls (player.run blake2b trace).1 =
        trace.turns.map (player.callOf blake2b trace) ∧
      output.numTurns = trace.turns.length ∧
      output.convId = trace.convId := by
  have played : (player.play blake2b trace {} trace.turns).2 = .ok () →
      sentCalls (player.play blake2b trace {} trace.turns).1.actions =
          trace.turns.map (player.callOf blake2b trace) ∧
        (player.play blake2b trace {} trace.turns).1.numTurns =
          0 + trace.turns.length :=
    fun ok => sentCalls_play_of_ok trace ok
  unfold run at ok ⊢
  generalize player.play blake2b trace {} trace.turns = result
    at ok played ⊢
  obtain ⟨progress, ending⟩ := result
  cases ending with
  | error error => cases ok
  | ok done =>
      obtain ⟨calls, count⟩ := played rfl
      have counted : progress.numTurns = trace.turns.length :=
        count.trans (Nat.zero_add _)
      dsimp only at ok ⊢
      cases hook : player.serverManager.onTrajectoryDone with
      | none =>
          rw [hook] at ok
          obtain rfl := Except.ok.inj ok
          exact ⟨calls, counted, rfl⟩
      | some answer =>
          rw [hook] at ok
          cases answer with
          | error text => cases ok
          | ok returned =>
              obtain rfl := Except.ok.inj ok
              refine ⟨?_, counted, rfl⟩
              dsimp only
              rw [← calls]
              exact List.filterMap_append.trans (List.append_nil _)

/-- The limits are what is sent for a turn that asks for a token each way. -/
theorem size_callOf
    (promptPositive : 1 ≤ player.promptLength)
    (responsePositive : 1 ≤ player.responseLength)
    (trace : ConversationTrace) {turn : Turn}
    (input : 1 ≤ turn.inputTokens) (output : 1 ≤ turn.outputTokens) :
    (player.callOf blake2b trace turn).size = player.cappedTokens turn := by
  have maxTokens : (player.turnParams turn).get? "max_tokens" =
      some (.tokens (player.outLen turn)) := by
    simp [turnParams, OrderedDict.get?_insert]
  have prompt : ((player.prompt blake2b trace.convId turn).length : Int) =
      min turn.inputTokens player.promptLength := by
    unfold Player.prompt
    rw [truncated_of_nonneg (by omega), List.length_take, Stream'.length_take]
    omega
  have answer : player.outLen turn =
      min turn.outputTokens player.responseLength := by
    unfold outLen
    omega
  unfold GenerateCall.size callOf generateCall
  simp only [maxTokens, prompt, answer, cappedTokens]

end Player

/-- Every row of the data set is replayed as it was made: the player takes
the turns from it, and in a run that ends well sends one call for each, whose
sizes add up to the hint that goes with every one of them. -/
theorem buildRows_replayed {α : Type u}
    {format : FloatFormat ℚ}
    (decimals : ∀ gap, format.IsFloat (roundTo 4 gap)) (casts : Casts)
    {lines : List (Option Session)} {indices : List Nat}
    {includeSubagents : Bool} {gapCap : Option ℚ}
    {maxTotalTokens capIn capOut maxTurnsPerConv : Int} (nonneg : 0 ≤ capOut)
    {row : Row}
    (member : row ∈ buildRows lines indices includeSubagents gapCap
      maxTotalTokens capIn capOut maxTurnsPerConv)
    (player : Player α) (blake2b : List UInt8 → Vector UInt8 8)
    (promptPositive : 1 ≤ player.promptLength)
    (responsePositive : 1 ≤ player.responseLength) :
    ∃ trace,
      getTrace format casts (some (extraInfo format row)) (.value .null) =
        .ok trace ∧
      trace.convId = row.convId ∧ trace.turns = row.turns ∧
      ∀ output, (player.run blake2b trace).2 = .ok output →
        let calls := sentCalls (player.run blake2b trace).1
        output.numTurns = calls.length ∧ calls.length = row.turns.length ∧
        calls.map GenerateCall.size = row.turns.map player.cappedTokens ∧
        (player.serverManager.wantsSessionHint = true →
          ∀ call ∈ calls, ∃ hint, call.hint = some hint ∧
            hint.groupKey = row.convId ∧
            hint.sessionWork = (calls.map GenerateCall.size).sum ∧
            ∃ last, calls.getLast? = some last ∧
              hint.sessionFinal = last.size) := by
  obtain ⟨nonempty, bounds⟩ := bounds_of_mem_buildRows nonneg member
  have floats : (traceOf row).Floats format := by
    intro turn inTurns
    obtain ⟨-, -, gap, rounded⟩ := bounds turn inTurns
    rw [rounded]
    exact decimals gap
  refine ⟨traceOf row, getTrace_extraInfo floats casts, rfl, rfl, ?_⟩
  intro output ok
  obtain ⟨calls, counted, -⟩ := Player.sentCalls_run_of_ok ok
  have sizes : (row.turns.map (player.callOf blake2b (traceOf row))).map
      GenerateCall.size = row.turns.map player.cappedTokens := by
    rw [List.map_map]
    exact List.map_congr_left fun turn inTurns =>
      Player.size_callOf promptPositive responsePositive (traceOf row)
        (bounds turn inTurns).1 (bounds turn inTurns).2.1
  have sameTurns : (traceOf row).turns = row.turns := rfl
  rw [sameTurns] at calls counted
  dsimp only
  rw [calls, sizes, List.length_map]
  refine ⟨counted, rfl, rfl, ?_⟩
  intro wants call inCalls
  obtain ⟨turn, -, rfl⟩ := List.mem_map.mp inCalls
  have lastTurn := List.getLast?_eq_some_getLast nonempty
  have lastMember := List.getLast_mem nonempty
  have size : (player.callOf blake2b (traceOf row)
      (row.turns.getLast nonempty)).size =
        player.cappedTokens (row.turns.getLast nonempty) :=
    Player.size_callOf promptPositive responsePositive (traceOf row)
      (bounds _ lastMember).1 (bounds _ lastMember).2.1
  refine ⟨⟨player.cappedTokens (row.turns.getLast nonempty), row.convId,
    (row.turns.map player.cappedTokens).sum⟩, ?_, rfl, rfl,
    player.callOf blake2b (traceOf row) (row.turns.getLast nonempty), ?_, ?_⟩
  · change player.hint (traceOf row) = _
    unfold Player.hint
    rw [if_pos wants, sameTurns, lastTurn]
    rfl
  · rw [List.getLast?_map, lastTurn]
    rfl
  · rw [size]

/-- The row of a conversation of two turns, one second apart. -/
def twoCallsRow : Row where
  index := 0
  convId := "0"
  turns := [⟨1, 1, 0⟩, ⟨1, 1, 1⟩]

theorem twoCallsRow_replayed :
    ∃ trace,
      getTrace Decimal.format plainCasts
        (some (extraInfo Decimal.format twoCallsRow)) (.value .null) =
          .ok trace ∧
      trace.turns = twoCallsRow.turns ∧
      (sentCalls (shortPlayer.run digest42 trace).1).map GenerateCall.size =
        [2, 2] := by
  have fields : (buildRows [some Weka.twoCalls] [0] false (some 10) 0 0 0 0).map
      (fun row => (row.index, row.convId, row.turns)) =
        [(0, "0", [⟨1, 1, 0⟩, ⟨1, 1, 1⟩])] := by
    decide +kernel
  have made : twoCallsRow ∈
      buildRows [some Weka.twoCalls] [0] false (some 10) 0 0 0 0 := by
    obtain ⟨row, rows, same⟩ := List.map_eq_singleton_iff.mp fields
    obtain ⟨index, convId, turns⟩ := row
    simp only [Prod.mk.injEq] at same
    obtain ⟨rfl, rfl, rfl⟩ := same
    rw [rows]
    exact List.mem_singleton.mpr rfl
  have decimals : ∀ gap, Decimal.format.IsFloat (roundTo 4 gap) :=
    Decimal.isDecimal_roundTo
  obtain ⟨trace, taken, named, turns, played⟩ :=
    buildRows_replayed decimals plainCasts (le_refl 0) made shortPlayer digest42
      (by decide) (by decide)
  have same : trace = traceOf twoCallsRow := by
    cases trace
    cases named
    cases turns
    rfl
  have ends : ∃ output,
      (shortPlayer.run digest42 (traceOf twoCallsRow)).2 = .ok output := by
    have isOk : (shortPlayer.run digest42
        (traceOf twoCallsRow)).2.toOption.isSome = true := by
      decide +kernel
    cases ending : (shortPlayer.run digest42 (traceOf twoCallsRow)).2 with
    | error error =>
        rw [ending] at isOk
        cases isOk
    | ok output => exact ⟨output, rfl⟩
  obtain ⟨output, ok⟩ := ends
  rw [← same] at ok
  obtain ⟨-, -, sizes, -⟩ := played output ok
  exact ⟨trace, taken, turns, sizes⟩

end LlmDRl.Replay
