import LlmDRl.Admission.TracePlayer

/-!
# What the trace player announces and what it sends

For its hints `TracePlayerAgentLoop.run` caps a turn in closed form.  What it
sends goes through `nested_prompt_ids`, which never makes an empty prompt,
and through an output length of at least one token.  The two sizes agree on a
turn exactly when neither of its token counts is below one.
-/

namespace LlmDRl.Admission

namespace TracePlayer

theorem length_tokenIds (count state : Nat) :
    (tokenIds count state).length = count := by
  induction count generalizing state with
  | zero =>
      rfl
  | succ count inductionHypothesis =>
      exact congrArg Nat.succ (inductionHypothesis _)

/-- Lists of pointwise ordered terms with one sum have the same terms. -/
theorem eq_of_sum_eq_sum
    {α : Type*} {items : List α} {lower upper : α → ℚ}
    (ordered : ∀ item ∈ items, lower item ≤ upper item)
    (sums : (items.map lower).sum = (items.map upper).sum) :
    ∀ item ∈ items, lower item = upper item := by
  intro item member
  refine le_antisymm (ordered item member) (not_lt.mp ?_)
  intro strict
  have increased : (items.map lower).sum < (items.map upper).sum :=
    List.sum_lt_sum lower upper ordered ⟨item, member, strict⟩
  exact increased.ne sums

/-- What `run` passes to `generate` for one turn. -/
structure GenerateCall where
  promptIds : List Nat
  maxTokens : Int

/-- `len(prompt_ids) + max_tokens` -/
def GenerateCall.size (call : GenerateCall) : ℚ :=
  call.promptIds.length + call.maxTokens

namespace Trajectory

def generateCall (trajectory : Trajectory) (turn : Turn) : GenerateCall where
  promptIds := trajectory.promptIds turn
  maxTokens := trajectory.outLen turn

/-- The calls of a run in which no turn raises. -/
def generateCalls (trajectory : Trajectory) : List GenerateCall :=
  trajectory.turns.map trajectory.generateCall

/-- The hints that go with every call are the total size of the calls and
the size of the last one. -/
def HintsMatch (trajectory : Trajectory) : Prop :=
  ∀ turn ∈ trajectory.turns, ∀ turnIndex,
    (trajectory.acquireArgs turn turnIndex).sessionWork =
        some (trajectory.generateCalls.map GenerateCall.size).sum ∧
      (trajectory.acquireArgs turn turnIndex).sessionFinal =
        trajectory.generateCalls.getLast?.map GenerateCall.size

variable {trajectory : Trajectory}

theorem length_promptIds (turn : Turn) :
    ((trajectory.promptIds turn).length : Int) =
      min (max 1 turn.inputTokens) trajectory.promptLength := by
  rw [promptIds, List.length_take, nestedPromptIds, length_tokenIds]
  omega

theorem size_generateCall_eq (turn : Turn) :
    (trajectory.generateCall turn).size =
      (min (max 1 turn.inputTokens) trajectory.promptLength +
        max 1 (min turn.outputTokens trajectory.responseLength) : Int) := by
  rw [← length_promptIds]
  simp [GenerateCall.size, generateCall, outLen]

theorem cappedTokens_le_size
    (promptPositive : 1 ≤ trajectory.promptLength) (turn : Turn) :
    trajectory.cappedTokens turn ≤ (trajectory.generateCall turn).size := by
  rw [size_generateCall_eq, cappedTokens, Int.cast_le]
  omega

/-- The two cappings differ where a token count is below one. -/
theorem cappedTokens_eq_size_iff
    (promptPositive : 1 ≤ trajectory.promptLength)
    (responsePositive : 1 ≤ trajectory.responseLength) (turn : Turn) :
    trajectory.cappedTokens turn = (trajectory.generateCall turn).size ↔
      1 ≤ turn.inputTokens ∧ 1 ≤ turn.outputTokens := by
  rw [size_generateCall_eq, cappedTokens, Int.cast_inj]
  omega

theorem hintsMatch_of_turns
    (same : ∀ turn ∈ trajectory.turns,
      trajectory.cappedTokens turn = (trajectory.generateCall turn).size) :
    trajectory.HintsMatch := by
  have sizes :
      trajectory.turns.map trajectory.cappedTokens =
        trajectory.generateCalls.map GenerateCall.size := by
    rw [generateCalls, List.map_map]
    exact List.map_congr_left same
  intro turn member turnIndex
  constructor
  · exact congrArg (fun tokens => some tokens.sum) sizes
  · change trajectory.turns.getLast?.map trajectory.cappedTokens = _
    rw [← List.getLast?_map, ← List.getLast?_map, sizes]

/-- The hints are what the run sends exactly when every turn of the trace
asks for at least one token each way. -/
theorem hintsMatch_iff_turns_positive
    (trajectory : Trajectory)
    (promptPositive : 1 ≤ trajectory.promptLength)
    (responsePositive : 1 ≤ trajectory.responseLength) :
    trajectory.HintsMatch ↔
      ∀ turn ∈ trajectory.turns,
        1 ≤ turn.inputTokens ∧ 1 ≤ turn.outputTokens := by
  have turnIff := fun turn =>
    cappedTokens_eq_size_iff promptPositive responsePositive turn
  constructor
  · intro hintsMatch turn member
    have work := (hintsMatch turn member 0).1
    -- no call is smaller than its hint, so equal sums leave no difference
    have sums :
        (trajectory.turns.map trajectory.cappedTokens).sum =
          (trajectory.turns.map fun turn =>
            (trajectory.generateCall turn).size).sum := by
      rw [generateCalls, List.map_map] at work
      exact Option.some.inj work
    exact (turnIff turn).mp
      (eq_of_sum_eq_sum
        (fun turn _ => cappedTokens_le_size promptPositive turn) sums turn
        member)
  · intro positive
    apply hintsMatch_of_turns
    intro turn member
    exact (turnIff turn).mpr (positive turn member)

theorem twoTurnTrace_hintsMatch :
    (1 ≤ twoTurnTrace.promptLength ∧ 1 ≤ twoTurnTrace.responseLength) ∧
      twoTurnTrace.HintsMatch :=
  ⟨by decide,
    (hintsMatch_iff_turns_positive twoTurnTrace (by decide) (by decide)).mpr
      (by decide)⟩

end Trajectory

/-! ## A turn without output -/

/-- The second turn of this trace generates nothing. -/
def silentTurnTrace : Trajectory :=
  { twoTurnTrace with turns := [⟨3, 2⟩, ⟨6, 0⟩] }

/-- Its one forced token is in no hint: eleven tokens are announced and
twelve are sent. -/
theorem silent_turn_not_in_hints :
    (silentTurnTrace.turns ≠ [] ∧ 1 ≤ silentTurnTrace.promptLength ∧
      1 ≤ silentTurnTrace.responseLength) ∧
      (silentTurnTrace.acquireArgs ⟨3, 2⟩ 0).sessionWork = some 11 ∧
      (silentTurnTrace.generateCalls.map GenerateCall.size).sum = 12 ∧
      ¬ silentTurnTrace.HintsMatch := by
  refine ⟨by decide, by decide +kernel, by decide +kernel, ?_⟩
  intro hintsMatch
  have work := (hintsMatch ⟨3, 2⟩ (by decide) 0).1
  exact absurd work (by decide +kernel)

end TracePlayer

end LlmDRl.Admission
