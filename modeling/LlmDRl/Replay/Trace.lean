import LlmDRl.Library.Decimal
import LlmDRl.Library.JsonLines
import LlmDRl.Replay.Player

/-!
# Reading a trace

`parse_trace_turns`, `load_traces_jsonl` and `_get_trace` take a conversation
from what a row of the data set, or a line of a file, holds.  Numbers are
exact here, so the floats that are none are left out; what `int`, `float` and
`str` make of the other values is a parameter.
-/

namespace LlmDRl.Replay

open LlmDRl.Library
open LlmDRl.Weka (Turn truncate)

/-- The exceptions of the parser. -/
inductive TraceError where
  | missing
  | unicodeDecodeError
  | jsonDecodeError
  | keyError (key : String)
  | typeError
  | valueError
  deriving DecidableEq, Repr

/-- The value of a cell: bytes, or what JSON has; `None` is `null`. -/
inductive Raw where
  | bytes (data : List UInt8)
  | value (value : JsonValue ℚ)

/-- `int` and `float` of a string, and `str` of what is no string. -/
structure Casts where
  intOfText : String → Option Int
  floatOfText : String → Option ℚ
  str : Raw → String

namespace Casts

variable (casts : Casts)

def toInt : JsonValue ℚ → Except TraceError Int
  | .int value => .ok value
  | .bool value => .ok value.toNat
  | .float value => .ok (truncate value)
  | .text value =>
      match casts.intOfText value with
      | none => .error .valueError
      | some value => .ok value
  | .null | .array _ | .object _ => .error .typeError

def toFloat : JsonValue ℚ → Except TraceError ℚ
  | .int value => .ok value
  | .bool value => .ok value.toNat
  | .float value => .ok value
  | .text value =>
      match casts.floatOfText value with
      | none => .error .valueError
      | some value => .ok value
  | .null | .array _ | .object _ => .error .typeError

def toStr : Raw → String
  | .value (.text value) => value
  | raw => casts.str raw

end Casts

/-- `value[key]` with a string for the key. -/
def subscript (value : JsonValue ℚ) (key : String) :
    Except TraceError (JsonValue ℚ) :=
  match value with
  | .object members =>
      match members.lookup key with
      | none => .error (.keyError key)
      | some value => .ok value
  | _ => .error .typeError

/-- What a `for` loop over a value goes through. -/
def iterate : JsonValue ℚ → Except TraceError (List (JsonValue ℚ))
  | .array items => .ok items
  | .text value => .ok (value.toList.map fun char => .text char.toString)
  | .object members => .ok (members.map fun member => .text member.1)
  | .null | .bool _ | .int _ | .float _ => .error .typeError

/-- A turn of `from_obj`; `get` is only reached on a dict. -/
def turnOf (casts : Casts) (t : JsonValue ℚ) : Except TraceError Turn := do
  let inputTokens ← casts.toInt (← subscript t "input_tokens")
  let outputTokens ← casts.toInt (← subscript t "output_tokens")
  let preGapS ←
    match subscript t "pre_gap_s" with
    | .ok value => casts.toFloat value
    | .error _ => .ok 0
  return ⟨inputTokens, outputTokens, preGapS⟩

/-- `ConversationTrace.from_obj` -/
def ConversationTrace.fromObj (casts : Casts) (obj : JsonValue ℚ) :
    Except TraceError ConversationTrace := do
  let convId := casts.toStr (.value (← subscript obj "conv_id"))
  let turns ← (← iterate (← subscript obj "turns")).mapM (turnOf casts)
  return ⟨convId, turns⟩

/-- `raw.decode()` -/
def decode (data : List UInt8) : Except TraceError String :=
  match String.fromUTF8? ⟨data.toArray⟩ with
  | none => .error .unicodeDecodeError
  | some text => .ok text

variable (format : FloatFormat ℚ) (casts : Casts)

def loadsText (text : String) : Except TraceError (JsonValue ℚ) :=
  match Json.loads format text with
  | none => .error .jsonDecodeError
  | some value => .ok value

/-- A bare list of turns. -/
def wrapped : JsonValue ℚ → JsonValue ℚ
  | .array turns =>
      .object [("conv_id", .text "conv"), ("turns", .array turns)]
  | value => value

/-- `parse_trace_turns` -/
def parseTraceTurns (raw : Raw) : Except TraceError ConversationTrace := do
  let value ←
    match raw with
    | .value .null => .error .missing
    | .value (.text text) => loadsText format text
    | .value value => .ok value
    | .bytes data => loadsText format (← decode data)
  ConversationTrace.fromObj casts (wrapped value)

/-- `load_traces_jsonl`, from the text of the file. -/
def loadTracesJsonl (text : String) :
    Except TraceError (List ConversationTrace) :=
  (Json.records text).mapM fun line => do
    let value ← loadsText format (String.ofList line)
    ConversationTrace.fromObj casts value

/-- Whether `if value:` holds. -/
def Raw.truthy : Raw → Bool
  | .bytes data => data ≠ []
  | .value .null => false
  | .value (.bool flag) => flag
  | .value (.int number) => number ≠ 0
  | .value (.float number) => number ≠ 0
  | .value (.text text) => text ≠ ""
  | .value (.array items) => ¬ items.isEmpty
  | .value (.object members) => ¬ members.isEmpty

/-- `extra[key] if key in extra else extra.get(key)` -/
def cell (extra : List (String × Raw)) (key : String) : Raw :=
  (extra.lookup key).getD (.value .null)

/-- `_get_trace`; `traceTurns` is what `kwargs.get("trace_turns")` gives. -/
def getTrace (extraInfo : Option (List (String × Raw))) (traceTurns : Raw) :
    Except TraceError ConversationTrace := do
  let raw :=
    match traceTurns, extraInfo with
    | .value .null, some extra => cell extra "trace_turns"
    | raw, _ => raw
  let trace ← parseTraceTurns format casts raw
  match extraInfo with
  | none => return trace
  | some extra =>
      let cid := cell extra "conv_id"
      if trace.convId = "conv" ∧ cid.truthy then
        return { trace with convId := casts.toStr cid }
      else
        return trace

/-! ## What is written is parsed -/

/-- A turn, as `_linearize` makes one. -/
def turnJson (turn : Turn) : JsonValue ℚ :=
  .object [("input_tokens", .int turn.inputTokens),
    ("output_tokens", .int turn.outputTokens),
    ("pre_gap_s", .float turn.preGapS)]

/-- A conversation, as `build_rows` and the lines of a trace file have it. -/
def traceJson (trace : ConversationTrace) : JsonValue ℚ :=
  .object [("conv_id", .text trace.convId),
    ("turns", .array (trace.turns.map turnJson))]

theorem turnOf_turnJson (turn : Turn) :
    turnOf casts (turnJson turn) = .ok turn := by
  rfl

theorem mapM_turnOf (turns : List Turn) :
    (turns.map turnJson).mapM (turnOf casts) = .ok turns := by
  induction turns with
  | nil =>
      rfl
  | cons turn turns inductionHypothesis =>
      rw [List.map_cons, List.mapM_cons, turnOf_turnJson, inductionHypothesis]
      rfl

theorem fromObj_traceJson (trace : ConversationTrace) :
    ConversationTrace.fromObj casts (traceJson trace) = .ok trace := by
  have parsed : ConversationTrace.fromObj casts (traceJson trace) =
      ((trace.turns.map turnJson).mapM (turnOf casts)).map
        fun turns => ⟨trace.convId, turns⟩ := by
    rfl
  rw [parsed, mapM_turnOf]
  rfl

/-- The gaps are floats. -/
def ConversationTrace.Floats (trace : ConversationTrace) : Prop :=
  ∀ turn ∈ trace.turns, format.IsFloat turn.preGapS

variable {format}

theorem proper_traceJson {trace : ConversationTrace}
    (floats : trace.Floats format) :
    (traceJson trace).Proper format.IsFloat := by
  have properTurn : ∀ turn ∈ trace.turns,
      (turnJson turn).Proper format.IsFloat := by
    intro turn member
    refine .object (by simp) ?_
    intro entry inEntries
    simp only [List.mem_cons, List.not_mem_nil, or_false] at inEntries
    obtain rfl | rfl | rfl := inEntries
    · exact .int turn.inputTokens
    · exact .int turn.outputTokens
    · exact .float (floats turn member)
  refine .object (by simp) ?_
  intro entry inEntries
  simp only [List.mem_cons, List.not_mem_nil, or_false] at inEntries
  obtain rfl | rfl := inEntries
  · exact .text trace.convId
  · refine .array fun item member => ?_
    obtain ⟨turn, inTurns, rfl⟩ := List.mem_map.mp member
    exact properTurn turn inTurns

/-- The text of a conversation gives it back. -/
theorem parseTraceTurns_dumps {trace : ConversationTrace}
    (floats : trace.Floats format) :
    parseTraceTurns format casts
        (.value (.text (Json.dumps format (traceJson trace)))) =
      .ok trace := by
  have loaded := Json.loads_dumps (proper_traceJson floats)
  have parsed := fromObj_traceJson casts trace
  simp only [parseTraceTurns, loadsText, loaded]
  exact parsed

/-- So does a file of them, line by line. -/
theorem loadTracesJsonl_lines {traces : List ConversationTrace}
    (floats : ∀ trace ∈ traces, trace.Floats format) :
    loadTracesJsonl format casts
        (String.join ((traces.map traceJson).map (Json.line format))) =
      .ok traces := by
  have proper : ∀ value ∈ traces.map traceJson,
      value.Proper format.IsFloat := by
    intro value member
    obtain ⟨trace, inTraces, rfl⟩ := List.mem_map.mp member
    exact proper_traceJson (floats trace inTraces)
  unfold loadTracesJsonl
  rw [Json.records_join proper]
  induction traces with
  | nil =>
      rfl
  | cons trace traces inductionHypothesis =>
      have loaded := Json.loads_dumps (proper_traceJson (floats trace (by simp)))
      have parsed := fromObj_traceJson casts trace
      have later := inductionHypothesis
        (fun trace member => floats trace (List.mem_cons_of_mem _ member))
        (fun value member => proper value (List.mem_cons_of_mem _ member))
      rw [Json.dumps] at loaded
      simp only [List.map_cons, List.mapM_cons, loadsText, loaded] at later ⊢
      rw [later]
      simp only [parsed, bind, Except.bind]
      rfl

/-- What the built-in conversions make of plain digits. -/
def plainCasts : Casts where
  intOfText := String.toInt?
  floatOfText text := text.toInt?.map Int.cast
  str _ := ""

/-- Two conversations, one with a newline in its id and one with a character
that JSON writes as two escapes. -/
def twoTraces : List ConversationTrace :=
  [{ convId := "line\n2", turns := [⟨2, 5, 0⟩, ⟨4, 5, 1 / 2⟩] },
    { convId := "𝔻", turns := [⟨3, 1, 1 / 4⟩] }]

theorem twoTraces_loaded :
    loadTracesJsonl Decimal.format plainCasts
        (String.join ((twoTraces.map traceJson).map
          (Json.line Decimal.format))) =
      .ok twoTraces := by
  apply loadTracesJsonl_lines
  intro trace member turn inTurns
  simp only [twoTraces, List.mem_cons, List.not_mem_nil, or_false] at member
  obtain rfl | rfl := member
  · simp only [List.mem_cons, List.not_mem_nil, or_false] at inTurns
    obtain rfl | rfl := inTurns
    · exact ⟨0, by norm_num⟩
    · exact ⟨5000, by norm_num⟩
  · obtain rfl := List.mem_singleton.mp inTurns
    exact ⟨2500, by norm_num⟩

end LlmDRl.Replay
