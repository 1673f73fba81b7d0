import LlmDRl.Library.Rounding
import Mathlib.Algebra.Order.Field.Rat
import Mathlib.Data.List.Sort
import Mathlib.Data.Rat.Floor

/-!
# Turns of a conversation

`_collect_calls` and `_linearize` of `make_weka.py`, which turn a session of
the raw traces into the turns to replay.  The numbers of a session are exact,
and a field that is missing is `none`.
-/

namespace LlmDRl.Weka

open LlmDRl.Library

/-- The fields of a request that are read. -/
structure RawCall where
  t : Option ℚ
  input : Option ℚ
  output : Option ℚ
  apiTime : Option ℚ

/-- A request of a session; a subagent has requests of its own. -/
structure Request extends RawCall where
  type : Option String
  requests : Option (List RawCall)

structure Session where
  requests : Option (List Request)

/-- `int(x)` truncates towards zero. -/
def truncate (x : ℚ) : Int := if 0 ≤ x then ⌊x⌋ else ⌈x⌉

/-- What `_collect_calls` keeps of a request. -/
structure Call where
  t : ℚ
  inTok : Int
  outTok : Int
  api : ℚ

def RawCall.call (raw : RawCall) : Call where
  t := raw.t.getD 0
  inTok := truncate (raw.input.getD 0)
  outTok := truncate (raw.output.getD 0)
  api := raw.apiTime.getD 0

def Request.IsSubagent (request : Request) : Prop :=
  request.type = some "subagent"

instance : DecidablePred Request.IsSubagent := fun request =>
  inferInstanceAs (Decidable (request.type = some "subagent"))

/-- The calls of one request, in the order of the file. -/
def Request.calls (includeSubagents : Bool) (request : Request) :
    List Call :=
  if request.IsSubagent then
    if includeSubagents then
      (request.requests.getD []).map RawCall.call
    else
      []
  else
    [request.call]

/-- `_collect_calls`; the sort by start time is stable. -/
def collectCalls (sess : Session) (includeSubagents : Bool) : List Call :=
  ((sess.requests.getD []).flatMap
    (Request.calls includeSubagents)).insertionSort
      fun earlier later => earlier.t ≤ later.t

structure Turn where
  inputTokens : Int
  outputTokens : Int
  preGapS : ℚ
  deriving DecidableEq, Repr

/-- The gap before a call that starts at `t`, the previous call having ended
at `prevEnd`. -/
def gapBefore (gapCap prevEnd : Option ℚ) (t : ℚ) : ℚ :=
  match prevEnd with
  | none => 0
  | some prevEnd =>
      let gap := max 0 (t - prevEnd)
      match gapCap with
      | none => gap
      | some cap => min gap cap

/-- The loop of `_linearize`. -/
def linearizeCalls (gapCap : Option ℚ) (capIn capOut : Int) :
    Option ℚ → List Call → List Turn
  | _, [] => []
  | prevEnd, call :: rest =>
      let inTok := max 1 call.inTok
      let outTok := max 1 call.outTok
      if capIn ≠ 0 ∧ capIn < inTok then
        []
      else
        { inputTokens := inTok
          outputTokens := if capOut ≠ 0 then min outTok capOut else outTok
          preGapS := roundTo 4 (gapBefore gapCap prevEnd call.t) } ::
          linearizeCalls gapCap capIn capOut (some (call.t + call.api)) rest

/-- `items[:stop]` -/
def sliceTo {α : Type} (stop : Int) (items : List α) : List α :=
  if 0 ≤ stop then
    items.take stop.toNat
  else
    items.take (items.length - (-stop).toNat)

/-- `_linearize` -/
def linearize (sess : Session) (includeSubagents : Bool)
    (gapCap : Option ℚ) (capIn capOut maxTurnsPerConv : Int) : List Turn :=
  let turns :=
    linearizeCalls gapCap capIn capOut none
      (collectCalls sess includeSubagents)
  if maxTurnsPerConv ≠ 0 ∧ maxTurnsPerConv < turns.length then
    sliceTo maxTurnsPerConv turns
  else
    turns

/-! ## Caps -/

/-- A turn with its output capped. -/
def Turn.clamp (capOut : Int) (turn : Turn) : Turn :=
  { turn with
    outputTokens :=
      if capOut ≠ 0 then min turn.outputTokens capOut
      else turn.outputTokens }

/-- The input is within the cap, if there is one. -/
def Turn.Within (capIn : Int) (turn : Turn) : Prop :=
  capIn = 0 ∨ turn.inputTokens ≤ capIn

instance (capIn : Int) : DecidablePred (Turn.Within capIn) := fun turn =>
  inferInstanceAs (Decidable (capIn = 0 ∨ turn.inputTokens ≤ capIn))

/-- The loop with caps takes the turns of the loop without them, up to the
first one whose input is too long. -/
theorem linearizeCalls_capped
    (gapCap : Option ℚ) (capIn capOut : Int) (prevEnd : Option ℚ)
    (calls : List Call) :
    linearizeCalls gapCap capIn capOut prevEnd calls =
      ((linearizeCalls gapCap 0 0 prevEnd calls).takeWhile
        fun turn => turn.Within capIn).map (Turn.clamp capOut) := by
  induction calls generalizing prevEnd with
  | nil =>
      rfl
  | cons call rest inductionHypothesis =>
      have unlimited : ¬ ((0 : Int) ≠ 0 ∧ 0 < max 1 call.inTok) :=
        fun limited => limited.1 rfl
      rw [linearizeCalls, linearizeCalls, if_neg unlimited]
      by_cases tooLong : capIn ≠ 0 ∧ capIn < max 1 call.inTok
      · have beyond : ¬ (capIn = 0 ∨ max 1 call.inTok ≤ capIn) := by
          omega
        rw [if_pos tooLong, List.takeWhile_cons_of_neg]
        · rfl
        · simpa [Turn.Within] using beyond
      · have within : capIn = 0 ∨ max 1 call.inTok ≤ capIn := by
          omega
        rw [if_neg tooLong, List.takeWhile_cons_of_pos, List.map_cons,
          inductionHypothesis]
        · rfl
        · simpa [Turn.Within] using within

/-- Truncation, for a number of turns that is not negative. -/
theorem linearize_of_nonneg
    (sess : Session) (includeSubagents : Bool) (gapCap : Option ℚ)
    (capIn capOut : Int) (maxTurnsPerConv : ℕ) :
    linearize sess includeSubagents gapCap capIn capOut maxTurnsPerConv =
      if maxTurnsPerConv = 0 then
        linearizeCalls gapCap capIn capOut none
          (collectCalls sess includeSubagents)
      else
        (linearizeCalls gapCap capIn capOut none
          (collectCalls sess includeSubagents)).take maxTurnsPerConv := by
  unfold linearize
  generalize linearizeCalls gapCap capIn capOut none _ = turns
  by_cases unlimited : maxTurnsPerConv = 0
  · simp [unlimited]
  · rw [if_neg unlimited]
    dsimp only
    split
    · simp [sliceTo]
    · next short =>
        rw [List.take_of_length_le]
        omega

/-! ## Sizes and gaps -/

/-- Between zero and the cap, which is rounded as every gap is. -/
def GapWithin (gapCap : Option ℚ) (gap : ℚ) : Prop :=
  match gapCap with
  | none => 0 ≤ gap
  | some cap => min 0 (roundTo 4 cap) ≤ gap ∧ gap ≤ max 0 (roundTo 4 cap)

theorem gapWithin_roundTo
    (gapCap prevEnd : Option ℚ) (t : ℚ) :
    GapWithin gapCap (roundTo 4 (gapBefore gapCap prevEnd t)) := by
  have zero := roundTo_zero (K := ℚ) 4
  have monotone : Monotone (roundTo 4 : ℚ → ℚ) := fun _ _ => roundTo_mono 4
  cases gapCap with
  | none =>
      have nonneg : 0 ≤ gapBefore none prevEnd t := by
        cases prevEnd with
        | none =>
            exact le_refl _
        | some prevEnd =>
            exact le_max_left 0 (t - prevEnd)
      have rounded := monotone nonneg
      rw [zero] at rounded
      exact rounded
  | some cap =>
      have lower : min 0 cap ≤ gapBefore (some cap) prevEnd t := by
        cases prevEnd with
        | none =>
            exact min_le_left 0 cap
        | some prevEnd =>
            exact min_le_min_right cap (le_max_left 0 (t - prevEnd))
      have upper : gapBefore (some cap) prevEnd t ≤ max 0 cap := by
        cases prevEnd with
        | none =>
            exact le_max_left 0 cap
        | some prevEnd =>
            exact (min_le_right _ cap).trans (le_max_right 0 cap)
      have lowerRounded := monotone lower
      have upperRounded := monotone upper
      rw [monotone.map_min, zero] at lowerRounded
      rw [monotone.map_max, zero] at upperRounded
      exact ⟨lowerRounded, upperRounded⟩

/-- Every turn has a token in and a token out, and its gap is within the
cap. -/
theorem bounds_of_mem_linearizeCalls
    {gapCap : Option ℚ} {capIn capOut : Int} (nonneg : 0 ≤ capOut)
    {prevEnd : Option ℚ} {calls : List Call} {turn : Turn}
    (member : turn ∈ linearizeCalls gapCap capIn capOut prevEnd calls) :
    1 ≤ turn.inputTokens ∧ 1 ≤ turn.outputTokens ∧
      GapWithin gapCap turn.preGapS := by
  induction calls generalizing prevEnd with
  | nil =>
      cases member
  | cons call rest inductionHypothesis =>
      rw [linearizeCalls] at member
      by_cases tooLong : capIn ≠ 0 ∧ capIn < max 1 call.inTok
      · rw [if_pos tooLong] at member
        cases member
      · rw [if_neg tooLong] at member
        rcases List.mem_cons.mp member with rfl | later
        · refine ⟨le_max_left 1 call.inTok, ?_,
            gapWithin_roundTo gapCap prevEnd call.t⟩
          dsimp only
          split
          · omega
          · exact le_max_left 1 call.outTok
        · exact inductionHypothesis later

/-- Caps only shorten a conversation: what they leave is the longest prefix
within the input cap, cut to its first turns, with the outputs capped. -/
theorem linearize_capped
    (sess : Session) (includeSubagents : Bool) (gapCap : Option ℚ)
    (capIn capOut maxTurnsPerConv : ℕ) :
    let uncapped := linearize sess includeSubagents gapCap 0 0 0
    let within := uncapped.takeWhile fun turn => turn.Within capIn
    let capped :=
      linearize sess includeSubagents gapCap capIn capOut maxTurnsPerConv
    capped =
        (if maxTurnsPerConv = 0 then within
          else within.take maxTurnsPerConv).map (Turn.clamp capOut) ∧
      ∀ turn ∈ capped, 1 ≤ turn.inputTokens ∧ 1 ≤ turn.outputTokens ∧
        GapWithin gapCap turn.preGapS := by
  intro uncapped within capped
  have uncappedEq : uncapped = linearizeCalls gapCap 0 0 none
      (collectCalls sess includeSubagents) :=
    linearize_of_nonneg sess includeSubagents gapCap 0 0 0
  have cappedEq := linearize_of_nonneg sess includeSubagents gapCap capIn
    capOut maxTurnsPerConv
  constructor
  · change linearize sess includeSubagents gapCap capIn capOut
      maxTurnsPerConv = _
    rw [cappedEq, linearizeCalls_capped, ← uncappedEq]
    by_cases unlimited : maxTurnsPerConv = 0
    · rw [if_pos unlimited, if_pos unlimited]
    · rw [if_neg unlimited, if_neg unlimited, List.map_take]
  · intro turn member
    change turn ∈ linearize sess includeSubagents gapCap capIn capOut
      maxTurnsPerConv at member
    rw [cappedEq] at member
    split at member
    · exact bounds_of_mem_linearizeCalls (Int.natCast_nonneg capOut) member
    · exact bounds_of_mem_linearizeCalls (Int.natCast_nonneg capOut)
        (List.mem_of_mem_take member)

/-- Two calls one second apart. -/
def twoCalls : Session where
  requests := some
    [{ t := some 0, input := some 1, output := some 1, apiTime := none,
       type := none, requests := none },
      { t := some 1, input := some 1, output := some 1, apiTime := none,
        type := none, requests := none }]

/-- A gap cap of 60 microseconds is exceeded by rounding, and a negative one
by the first turn. -/
theorem rounded_gap_exceeds_cap :
    ¬ (∀ turn ∈ linearize twoCalls false (some (6 / 100000)) 0 0 0,
        0 ≤ turn.preGapS ∧ turn.preGapS ≤ 6 / 100000) ∧
      ¬ (∀ turn ∈ linearize twoCalls false (some (-1)) 0 0 0,
        0 ≤ turn.preGapS ∧ turn.preGapS ≤ -1) := by
  decide +kernel

end LlmDRl.Weka
