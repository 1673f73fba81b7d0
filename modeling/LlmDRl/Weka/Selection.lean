import LlmDRl.Library.OrderedDict
import LlmDRl.Weka.Linearize

/-!
# Selection and rows

`_select_indices` and `build_rows` of `make_weka.py` read the traces one after
the other.  With a cap the selection linearises every session to see whether a
turn is left; without one it looks at the sizes and the number of the requests
only, and a session without any is within every threshold.
-/

namespace LlmDRl.Weka

open LlmDRl.Library

/-- `_iter_sessions`, from a line number on; `none` is a blank line. -/
def iterSessions : Nat → List (Option Session) → List (Nat × Session)
  | _, [] => []
  | lineno, none :: rest => iterSessions (lineno + 1) rest
  | lineno, some sess :: rest =>
      (lineno, sess) :: iterSessions (lineno + 1) rest

/-- `_session_max_input` -/
def sessionMaxInput (sess : Session) : Int :=
  (sess.requests.getD []).foldl
    (fun mx request =>
      if request.IsSubagent then
        (request.requests.getD []).foldl
          (fun mx inner => max mx (truncate (inner.input.getD 0))) mx
      else
        max mx (truncate (request.input.getD 0))) 0

/-- `_n_main_turns` -/
def nMainTurns (sess : Session) : Nat :=
  (sess.requests.getD []).countP fun request => ¬ request.IsSubagent

/-- The options that the selection and the rows share, and those of the
selection. -/
structure Options where
  n : Int
  threshold : Int
  maxTurns : Int
  capIn : Int
  capOut : Int
  gapCap : Option ℚ
  includeSubagents : Bool

/-- Whether a session is in the pool to select from. -/
def Options.Eligible (opts : Options) (sess : Session) : Prop :=
  if opts.capIn ≠ 0 ∨ opts.capOut ≠ 0 then
    linearize sess opts.includeSubagents opts.gapCap opts.capIn opts.capOut
      opts.maxTurns ≠ []
  else
    sessionMaxInput sess < opts.threshold ∧
      (opts.maxTurns = 0 ∨
        (0 < nMainTurns sess ∧ (nMainTurns sess : Int) ≤ opts.maxTurns))

instance (opts : Options) : DecidablePred opts.Eligible := by
  intro sess
  unfold Options.Eligible
  infer_instance

def eligible (lines : List (Option Session)) (opts : Options) : List Nat :=
  ((iterSessions 0 lines).filter fun line => opts.Eligible line.2).map
    Prod.fst

/-- The two `SystemExit` of `_select_indices`. -/
inductive SystemExit where
  | noGroup (n : Int) (available : List String)
  | poolTooSmall (n : Int) (size : Nat)
  deriving DecidableEq, Repr

/-- The text of the exit, given `repr` of a list of strings. -/
def SystemExit.message (repr : List String → String) : SystemExit → String
  | noGroup n available =>
      s!"groups_file has no N={n}; available keys={repr available}"
  | poolTooSmall n size =>
      s!"requested N={n} > eligible pool {size} " ++
        "(raise --threshold/--max-turns or lower --n)"

/-- `_select_indices`; `groups` is what a groups file holds, and `shuffle` is
that of `random.Random(seed)`. -/
def selectIndices (shuffle : List Nat → List Nat)
    (lines : List (Option Session)) (opts : Options)
    (groups : Option (OrderedDict String (List Nat))) :
    Except SystemExit (List Nat) :=
  match groups with
  | some groups =>
      match groups.get? (toString opts.n) with
      | none => .error (.noGroup opts.n groups.keys)
      | some indices => .ok indices
  | none =>
      let pool := shuffle (eligible lines opts)
      if (pool.length : Int) < opts.n then
        .error (.poolTooSmall opts.n pool.length)
      else
        .ok (sliceTo opts.n pool)

/-- The loop of `build_rows` that looks for the wanted sessions, and stops
once it has all of them. -/
def collectWanted (want : Finset Nat) :
    OrderedDict Nat Session → List (Nat × Session) →
      OrderedDict Nat Session
  | byLine, [] => byLine
  | byLine, (lineno, sess) :: rest =>
      if lineno ∈ want then
        let byLine := byLine.insert lineno sess
        if byLine.keys.length = want.card then
          byLine
        else
          collectWanted want byLine rest
      else
        collectWanted want byLine rest

/-- What differs from row to row. -/
structure Row where
  index : Nat
  convId : String
  turns : List Turn

/-- One round of the loop over the indices; no limit on the total is `0`. -/
def rowOf (byLine : OrderedDict Nat Session) (includeSubagents : Bool)
    (gapCap : Option ℚ)
    (maxTotalTokens capIn capOut maxTurnsPerConv : Int)
    (index lineno : Nat) : Option Row :=
  match byLine.get? lineno with
  | none => none
  | some sess =>
      let turns :=
        linearize sess includeSubagents gapCap capIn capOut maxTurnsPerConv
      if turns = [] then
        none
      else
        let worst :=
          (turns.map fun turn =>
            turn.inputTokens + turn.outputTokens).max?.getD 0
        if maxTotalTokens ≠ 0 ∧ maxTotalTokens < worst then
          none
        else
          some ⟨index, toString lineno, turns⟩

/-- `build_rows` -/
def buildRows (lines : List (Option Session)) (indices : List Nat)
    (includeSubagents : Bool) (gapCap : Option ℚ)
    (maxTotalTokens capIn capOut maxTurnsPerConv : Int) : List Row :=
  let byLine :=
    collectWanted indices.toFinset .empty (iterSessions 0 lines)
  indices.zipIdx.filterMap fun item =>
    rowOf byLine includeSubagents gapCap maxTotalTokens capIn capOut
      maxTurnsPerConv item.2 item.1

/-! ## Conditions -/

/-- The session has a call of its own, or a subagent has one and they
count. -/
def Session.HasCall (sess : Session) (includeSubagents : Bool) : Prop :=
  ∃ request ∈ sess.requests.getD [],
    ¬ request.IsSubagent ∨
      (includeSubagents = true ∧ request.requests.getD [] ≠ [])

/-- The calls before the first one whose input is too long. -/
def leadingCalls (sess : Session) (includeSubagents : Bool) (capIn : Int) :
    List Call :=
  (collectCalls sess includeSubagents).takeWhile
    fun call => capIn = 0 ∨ max 1 call.inTok ≤ capIn

/-- Without a cap, there is a call; and a truncation counted from the end does
not take all of them. -/
def Options.KeepsTurns (opts : Options) (maxTurnsPerConv : Int)
    (sess : Session) : Prop :=
  (opts.capIn = 0 → opts.capOut = 0 → sess.HasCall opts.includeSubagents) ∧
    (maxTurnsPerConv < 0 →
      -maxTurnsPerConv <
        (leadingCalls sess opts.includeSubagents opts.capIn).length)

end LlmDRl.Weka
