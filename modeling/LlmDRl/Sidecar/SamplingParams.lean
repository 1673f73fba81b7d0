import LlmDRl.Admission.TracePlayer

/-!
# The sampling parameters of a decode server

`PDDecodeVLLMHttpServer._prepare_sampling_params` turns the parameters a
caller passes into those the engine is sent.  The limit on the output is the
caller's `max_tokens`, else its `max_new_tokens`, else a default, and it is
clamped to what `max_model_len` leaves behind the prompt.  No other key is
looked at against that headroom: `min_tokens` passes as it came.

Numbers are exact, and a Boolean is the number it is in the source.
-/

namespace LlmDRl.Sidecar

open LlmDRl.Library

/-- What `_prepare_sampling_params` reads of the server's configuration. -/
structure ServerConfig where
  maxModelLen : Option Int
  promptLength : Int
  responseLength : Int
  repetitionPenalty : Option ℚ

/-- The `ValueError` for a prompt that fills the model's context. -/
structure NoHeadroom where
  promptLen : Nat
  maxModelLen : Int
  deriving DecidableEq

def NoHeadroom.message (error : NoHeadroom) : String :=
  s!"Prompt length ({error.promptLen}) leaves no room to generate within " ++
    s!"max_model_len={error.maxModelLen}; need at least 1 token of headroom."

namespace ServerConfig

variable (config : ServerConfig)

def modelLen : Int :=
  config.maxModelLen.getD (config.promptLength + config.responseLength)

/-- `max_possible_tokens` -/
def maxPossibleTokens (promptIds : List Nat) : Int :=
  config.modelLen - promptIds.length

def defaultMaxTokens (promptIds : List Nat) : Int :=
  min config.responseLength
    (config.promptLength + config.responseLength - promptIds.length)

/-- The limit on the output, popped from the parameters where they have
one. -/
def popMaxTokens (promptIds : List Nat) (params : OrderedDict String ℚ) :
    ℚ × OrderedDict String ℚ :=
  match params.get? "max_tokens" with
  | some maxTokens => (maxTokens, params.erase "max_tokens")
  | none =>
      match params.get? "max_new_tokens" with
      | some maxTokens => (maxTokens, params.erase "max_new_tokens")
      | none => (config.defaultMaxTokens promptIds, params)

/-- `if params.pop("logprobs", False): params["logprobs"] = 0` -/
def resetLogprobs (params : OrderedDict String ℚ) : OrderedDict String ℚ :=
  if params.getD "logprobs" 0 ≠ 0 then
    (params.erase "logprobs").insert "logprobs" 0
  else
    params.erase "logprobs"

def defaultRepetitionPenalty (params : OrderedDict String ℚ) :
    OrderedDict String ℚ :=
  match params.get? "repetition_penalty" with
  | some _ => params
  | none =>
      params.insert "repetition_penalty" (config.repetitionPenalty.getD 1)

/-- `_prepare_sampling_params` -/
def prepareSamplingParams
    (samplingParams : OrderedDict String (Option ℚ))
    (promptIds : List Nat) : Except NoHeadroom (OrderedDict String ℚ) :=
  let params := samplingParams.present
  if config.maxPossibleTokens promptIds < 1 then
    .error ⟨promptIds.length, config.modelLen⟩
  else
    let popped := config.popMaxTokens promptIds params
    let params := popped.2.insert "max_tokens"
      (max 1 (min popped.1 (config.maxPossibleTokens promptIds)))
    .ok (config.defaultRepetitionPenalty (resetLogprobs params))

variable {config}
variable {samplingParams : OrderedDict String (Option ℚ)}
variable {promptIds : List Nat} {prepared : OrderedDict String ℚ}

/-! ## Which keys are touched -/

theorem get?_resetLogprobs
    (params : OrderedDict String ℚ) {key : String}
    (other : key ≠ "logprobs") :
    (resetLogprobs params).get? key = params.get? key := by
  unfold resetLogprobs
  split
  · rw [OrderedDict.get?_insert_of_ne _ _ other,
      OrderedDict.get?_erase_of_ne _ other]
  · exact OrderedDict.get?_erase_of_ne _ other

theorem get?_defaultRepetitionPenalty
    (params : OrderedDict String ℚ) {key : String}
    (other : key ≠ "repetition_penalty") :
    (config.defaultRepetitionPenalty params).get? key = params.get? key := by
  unfold defaultRepetitionPenalty
  split
  · rfl
  · exact OrderedDict.get?_insert_of_ne _ _ other

theorem get?_popMaxTokens
    (params : OrderedDict String ℚ) {key : String}
    (notLimit : key ≠ "max_tokens") (notAlias : key ≠ "max_new_tokens") :
    (config.popMaxTokens promptIds params).2.get? key = params.get? key := by
  unfold popMaxTokens
  split
  · exact OrderedDict.get?_erase_of_ne _ notLimit
  · split
    · exact OrderedDict.get?_erase_of_ne _ notAlias
    · rfl

/-- The limit before it is clamped. -/
def limit (config : ServerConfig)
    (samplingParams : OrderedDict String (Option ℚ))
    (promptIds : List Nat) : ℚ :=
  (config.popMaxTokens promptIds samplingParams.present).1

/-- The limit as the engine is sent it. -/
def sentMaxTokens (config : ServerConfig)
    (samplingParams : OrderedDict String (Option ℚ))
    (promptIds : List Nat) : ℚ :=
  max 1 (min (config.limit samplingParams promptIds)
    (config.maxPossibleTokens promptIds))

theorem limit_of_maxTokens
    {maxTokens : ℚ}
    (given : samplingParams.get? "max_tokens" = some (some maxTokens)) :
    config.limit samplingParams promptIds = maxTokens := by
  have present : samplingParams.present.get? "max_tokens" =
      some maxTokens := by
    rw [OrderedDict.get?_present, given]
    rfl
  simp only [limit, popMaxTokens, present]

theorem raises_iff :
    (∃ error,
      config.prepareSamplingParams samplingParams promptIds =
        .error error) ↔
      config.maxPossibleTokens promptIds < 1 := by
  unfold prepareSamplingParams
  dsimp only
  split
  · next full =>
      exact ⟨fun _ => full, fun _ => ⟨_, rfl⟩⟩
  · next room =>
      constructor
      · intro raised
        obtain ⟨error, raisedEq⟩ := raised
        cases raisedEq
      · intro full
        exact absurd full room

/-- All that is returned of the two lengths: the limit clamped, and
`min_tokens` as the caller gave it. -/
theorem returned_lengths
    (returned :
      config.prepareSamplingParams samplingParams promptIds =
        .ok prepared) :
    1 ≤ config.maxPossibleTokens promptIds ∧
      prepared.get? "max_tokens" =
        some (config.sentMaxTokens samplingParams promptIds) ∧
      prepared.get? "min_tokens" =
        (samplingParams.get? "min_tokens").join := by
  unfold prepareSamplingParams at returned
  dsimp only at returned
  split at returned
  · cases returned
  · next room =>
      cases returned
      refine ⟨not_lt.mp room, ?_, ?_⟩
      · rw [get?_defaultRepetitionPenalty _ (by decide),
          get?_resetLogprobs _ (by decide), OrderedDict.get?_insert_self]
        rfl
      · rw [get?_defaultRepetitionPenalty _ (by decide),
          get?_resetLogprobs _ (by decide),
          OrderedDict.get?_insert_of_ne _ _ (by decide),
          get?_popMaxTokens _ (by decide) (by decide),
          OrderedDict.get?_present]

theorem exists_prepared (room : 1 ≤ config.maxPossibleTokens promptIds) :
    ∃ prepared,
      config.prepareSamplingParams samplingParams promptIds =
        .ok prepared := by
  cases outcome : config.prepareSamplingParams samplingParams promptIds with
  | error error =>
      have full := raises_iff.mp ⟨error, outcome⟩
      omega
  | ok prepared =>
      exact ⟨prepared, rfl⟩

theorem le_maxPossibleTokens_iff (minTokens : ℚ) :
    minTokens ≤ config.maxPossibleTokens promptIds ↔
      minTokens + promptIds.length ≤ config.modelLen := by
  have headroom : (config.maxPossibleTokens promptIds : ℚ) =
      config.modelLen - promptIds.length := by
    simp [maxPossibleTokens]
  rw [headroom, le_sub_iff_add_le]

/-- A lower bound on the limit survives the clamp when the headroom has room
for it. -/
theorem le_sentMaxTokens_iff
    (room : 1 ≤ config.maxPossibleTokens promptIds) {minTokens : ℚ}
    (below : minTokens ≤ config.limit samplingParams promptIds) :
    minTokens ≤ config.sentMaxTokens samplingParams promptIds ↔
      minTokens ≤ config.maxPossibleTokens promptIds := by
  have roomOne : (1 : ℚ) ≤ config.maxPossibleTokens promptIds := by
    exact_mod_cast room
  unfold sentMaxTokens
  constructor
  · intro belowSent
    refine belowSent.trans (max_le roomOne ?_)
    exact min_le_right _ _
  · intro fits
    exact le_max_of_le_right (le_min below fits)

/-! ## What the engine accepts -/

/-- The parameters `_prepare_sampling_params` makes can be served: it raises
only for want of one token of headroom, the limit it returns is within the
headroom, and lengths the caller had in order stay in order. -/
structure Serveable (config : ServerConfig)
    (samplingParams : OrderedDict String (Option ℚ))
    (promptIds : List Nat) : Prop where
  raises :
    (∃ error,
      config.prepareSamplingParams samplingParams promptIds =
        .error error) ↔
      config.maxPossibleTokens promptIds < 1
  bounded : ∀ prepared,
    config.prepareSamplingParams samplingParams promptIds = .ok prepared →
      ∃ maxTokens,
        prepared.get? "max_tokens" = some maxTokens ∧
          1 ≤ maxTokens ∧
          maxTokens ≤ config.modelLen - promptIds.length
  ordered : ∀ prepared callerMin callerMax,
    config.prepareSamplingParams samplingParams promptIds = .ok prepared →
      samplingParams.get? "min_tokens" = some (some callerMin) →
      samplingParams.get? "max_tokens" = some (some callerMax) →
      callerMin ≤ callerMax →
        ∃ minTokens maxTokens,
          prepared.get? "min_tokens" = some minTokens ∧
            prepared.get? "max_tokens" = some maxTokens ∧
            minTokens ≤ maxTokens

/-- A `min_tokens` that is at most its `max_tokens` fits behind the prompt,
where anything does. -/
def MinTokensFit (config : ServerConfig)
    (samplingParams : OrderedDict String (Option ℚ))
    (promptIds : List Nat) : Prop :=
  promptIds.length + 1 ≤ config.modelLen →
    ∀ callerMin callerMax,
      samplingParams.get? "min_tokens" = some (some callerMin) →
      samplingParams.get? "max_tokens" = some (some callerMax) →
      callerMin ≤ callerMax →
        callerMin + promptIds.length ≤ config.modelLen

theorem sentMaxTokens_bounds
    (room : 1 ≤ config.maxPossibleTokens promptIds) :
    1 ≤ config.sentMaxTokens samplingParams promptIds ∧
      config.sentMaxTokens samplingParams promptIds ≤
        config.modelLen - promptIds.length := by
  refine ⟨le_max_left _ _, ?_⟩
  have roomOne : (1 : ℚ) ≤ config.maxPossibleTokens promptIds := by
    exact_mod_cast room
  rw [le_sub_iff_add_le, ← le_maxPossibleTokens_iff]
  exact max_le roomOne (min_le_right _ _)

theorem Serveable.minTokensFit
    (serveable : config.Serveable samplingParams promptIds) :
    config.MinTokensFit samplingParams promptIds := by
  intro hasRoom callerMin callerMax minGiven maxGiven inOrder
  have room : 1 ≤ config.maxPossibleTokens promptIds := by
    unfold maxPossibleTokens
    omega
  -- with room the call returns, so the lengths it returns can be compared
  obtain ⟨prepared, returned⟩ := exists_prepared room
  obtain ⟨minTokens, maxTokens, minSent, maxSent, sentInOrder⟩ :=
    serveable.ordered prepared callerMin callerMax returned minGiven
      maxGiven inOrder
  obtain ⟨_, maxEq, minEq⟩ := returned_lengths returned
  rw [minGiven] at minEq
  cases minEq.symm.trans minSent
  cases maxEq.symm.trans maxSent
  rw [← limit_of_maxTokens maxGiven] at inOrder
  exact (le_maxPossibleTokens_iff callerMin).mp
    ((le_sentMaxTokens_iff room inOrder).mp sentInOrder)

theorem MinTokensFit.serveable
    (minTokensFit : config.MinTokensFit samplingParams promptIds) :
    config.Serveable samplingParams promptIds where
  raises := raises_iff
  bounded := by
    intro prepared returned
    obtain ⟨room, maxEq, _⟩ := returned_lengths returned
    exact ⟨_, maxEq, sentMaxTokens_bounds room⟩
  ordered := by
    intro prepared callerMin callerMax returned minGiven maxGiven inOrder
    obtain ⟨room, maxEq, minEq⟩ := returned_lengths returned
    rw [minGiven] at minEq
    have hasRoom : promptIds.length + 1 ≤ config.modelLen := by
      unfold maxPossibleTokens at room
      omega
    have fits : callerMin ≤ config.maxPossibleTokens promptIds :=
      (le_maxPossibleTokens_iff callerMin).mpr
        (minTokensFit hasRoom callerMin callerMax minGiven maxGiven inOrder)
    rw [← limit_of_maxTokens maxGiven] at inOrder
    exact ⟨callerMin, _, minEq, maxEq,
      (le_sentMaxTokens_iff room inOrder).mpr fits⟩

/-- The prepared parameters can be served exactly when a `min_tokens` at most
its `max_tokens` also fits in the headroom: only the upper limit is clamped
to it. -/
theorem serveable_iff_minTokensFit
    (config : ServerConfig)
    (samplingParams : OrderedDict String (Option ℚ))
    (promptIds : List Nat) :
    config.Serveable samplingParams promptIds ↔
      config.MinTokensFit samplingParams promptIds :=
  ⟨Serveable.minTokensFit, MinTokensFit.serveable⟩

end ServerConfig

/-! ## Lengths forced by the trace player -/

/-- `sp.update({"max_tokens": out_len, "min_tokens": out_len, "ignore_eos":
True})` -/
def forceLengths (samplingParams : OrderedDict String (Option ℚ))
    (outLen : Int) : OrderedDict String (Option ℚ) :=
  ((samplingParams.insert "max_tokens" (some outLen)).insert "min_tokens"
    (some outLen)).insert "ignore_eos" (some 1)

/-- Forced lengths can be served exactly when the whole turn fits, or not one
token of it. -/
theorem serveable_forceLengths_iff
    (config : ServerConfig)
    (samplingParams : OrderedDict String (Option ℚ))
    (promptIds : List Nat) (outLen : Int) :
    config.Serveable (forceLengths samplingParams outLen) promptIds ↔
      (promptIds.length + 1 ≤ config.modelLen →
        outLen + promptIds.length ≤ config.modelLen) := by
  have maxGiven :
      (forceLengths samplingParams outLen).get? "max_tokens" =
        some (some (outLen : ℚ)) := by
    unfold forceLengths
    rw [OrderedDict.get?_insert_of_ne _ _ (by decide),
      OrderedDict.get?_insert_of_ne _ _ (by decide),
      OrderedDict.get?_insert_self]
  have minGiven :
      (forceLengths samplingParams outLen).get? "min_tokens" =
        some (some (outLen : ℚ)) := by
    unfold forceLengths
    rw [OrderedDict.get?_insert_of_ne _ _ (by decide),
      OrderedDict.get?_insert_self]
  constructor
  · intro serveable hasRoom
    exact_mod_cast serveable.minTokensFit hasRoom outLen outLen minGiven
      maxGiven le_rfl
  · intro turnFits
    apply ServerConfig.MinTokensFit.serveable
    intro hasRoom callerMin callerMax minFound maxFound _
    cases minGiven.symm.trans minFound
    exact_mod_cast turnFits hasRoom

/-- Without a `max_model_len` of its own the server has room for every turn
of a player that runs under the same limits. -/
theorem serveable_of_default_modelLen
    (trajectory : Admission.TracePlayer.Trajectory)
    (turn : Admission.TracePlayer.Turn) (config : ServerConfig)
    (samplingParams : OrderedDict String (Option ℚ))
    (default : config.maxModelLen = none)
    (samePrompt : config.promptLength = trajectory.promptLength)
    (sameResponse : config.responseLength = trajectory.responseLength) :
    config.Serveable
      (forceLengths samplingParams (trajectory.outLen turn))
      (trajectory.promptIds turn) := by
  rw [serveable_forceLengths_iff]
  intro hasRoom
  have promptFits :
      (trajectory.promptIds turn).length ≤ trajectory.promptLength :=
    List.length_take_le ..
  simp only [ServerConfig.modelLen, default, Option.getD_none, samePrompt,
    sameResponse, Admission.TracePlayer.Trajectory.outLen] at hasRoom ⊢
  omega

/-! ## A clamped maximum below its minimum -/

/-- Eight tokens of context behind a prompt of four. -/
def smallContext : ServerConfig where
  maxModelLen := some 8
  promptLength := 4
  responseLength := 8
  repetitionPenalty := none

/-- The player asks for all eight response tokens: four are left for
`max_tokens`, and `min_tokens` stays at eight. -/
theorem forced_minimum_exceeds_clamped_maximum :
    (smallContext.prepareSamplingParams
        (forceLengths .empty 8) [11, 12, 13, 14]).toOption.map
      (fun prepared =>
        (prepared.get? "min_tokens", prepared.get? "max_tokens")) =
        some (some 8, some 4) ∧
      ¬ smallContext.Serveable (forceLengths .empty 8)
        [11, 12, 13, 14] := by
  refine ⟨by decide +kernel, ?_⟩
  rw [serveable_forceLengths_iff]
  decide

end LlmDRl.Sidecar
