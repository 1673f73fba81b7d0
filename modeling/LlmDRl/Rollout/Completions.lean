import LlmDRl.Library.OrderedDict
import LlmDRl.Rollout.Asked

/-!
# The completions request of a generate request

Which values of a generate request stand in the body that is built for the
engine.  A parameter is left out when the decoded field is zero or less, and
`top_k` is never looked at; a number that is no shortest decimal of 32 bits and
a `null` inside a list come out changed.
-/

namespace LlmDRl.Rollout

open LlmDRl.Library

/-! ## Building the body -/

def insertIf (condition : Bool) (oaiReq : OrderedDict String Value)
    (key : String) (value : Value) : OrderedDict String Value :=
  if condition then oaiReq.insert key value else oaiReq

/-- `nil` is written as `null`. -/
def tokensValue : Option (Slice Int) → Value
  | none => .scalar .null
  | some ids => .list (ids.items.map fun id : Int => .number id)

def stopItems (params : SamplingParams) : List String :=
  (params.stopStrings.map Slice.items).getD []

def addSampling (oaiReq : OrderedDict String Value) (params : SamplingParams) :
    OrderedDict String Value :=
  let oaiReq := insertIf (0 < params.temperature) oaiReq "temperature"
    (.scalar (.number (formatFloat32 params.temperature)))
  let oaiReq := insertIf (0 < params.topP) oaiReq "top_p"
    (.scalar (.number (formatFloat32 params.topP)))
  let oaiReq := insertIf (0 < params.maxTokens) oaiReq "max_tokens"
    (.scalar (.number params.maxTokens))
  let oaiReq := insertIf (0 < params.nSamples) oaiReq "n"
    (.scalar (.number params.nSamples))
  insertIf (0 < (stopItems params).length) oaiReq "stop"
    (.list ((stopItems params).map .text))

def promptRequest (modelName : String) (req : GenerateRequest)
    (tokensIn : Bool) : OrderedDict String Value :=
  let oaiReq := OrderedDict.empty.insert "model" (.scalar (.text modelName))
  if tokensIn then
    oaiReq.insert "prompt_token_ids" (tokensValue req.promptTokenIDs)
  else
    oaiReq.insert "prompt" (.scalar (.text req.prompt))

/-- The members of the body; `json.Marshal` writes them by name. -/
def buildOAIRequest (modelName : String) (req : GenerateRequest)
    (tokensIn : Bool) : OrderedDict String Value :=
  let oaiReq := promptRequest modelName req tokensIn
  let oaiReq :=
    match req.samplingParams with
    | none => oaiReq
    | some params => addSampling oaiReq params
  insertIf req.returnLogprobs oaiReq "logprobs" (.scalar (.number 1))

/-! ## Reading the body -/

/-- What is sent for a sampling parameter. -/
def SamplingParams.sent (params : SamplingParams) :
    SamplingField → Option Value
  | .temperature =>
      if 0 < params.temperature then
        some (.scalar (.number (formatFloat32 params.temperature)))
      else none
  | .topP =>
      if 0 < params.topP then
        some (.scalar (.number (formatFloat32 params.topP)))
      else none
  | .topK => none
  | .maxTokens =>
      if 0 < params.maxTokens then
        some (.scalar (.number params.maxTokens))
      else none
  | .n =>
      if 0 < params.nSamples then some (.scalar (.number params.nSamples))
      else none
  | .stop =>
      if 0 < (stopItems params).length then
        some (.list ((stopItems params).map .text))
      else none

theorem get?_insertIf (condition : Bool) (oaiReq : OrderedDict String Value)
    (key probe : String) (value : Value) :
    (insertIf condition oaiReq key value).get? probe =
      if probe = key ∧ condition then some value else oaiReq.get? probe := by
  by_cases holds : condition
  · simp [insertIf, holds, OrderedDict.get?_insert]
  · simp [insertIf, holds]

theorem get?_addSampling_of_ne {oaiReq : OrderedDict String Value}
    (params : SamplingParams) {probe : String}
    (different : ∀ field : SamplingField, probe ≠ field.name) :
    (addSampling oaiReq params).get? probe = oaiReq.get? probe := by
  have temperature := different .temperature
  have topP := different .topP
  have maxTokens := different .maxTokens
  have n := different .n
  have stop := different .stop
  simp only [SamplingField.name] at temperature topP maxTokens n stop
  simp only [addSampling, get?_insertIf, temperature, topP, maxTokens, n, stop,
    false_and, if_false]

theorem get?_addSampling {oaiReq : OrderedDict String Value}
    (params : SamplingParams) (field : SamplingField)
    (absent : oaiReq.get? field.name = none) :
    (addSampling oaiReq params).get? field.name = params.sent field := by
  cases field <;>
    simp_all [addSampling, get?_insertIf, SamplingParams.sent,
      SamplingField.name]

theorem sent_default (field : SamplingField) :
    ({} : SamplingParams).sent field = none := by
  cases field <;> rfl

theorem get?_promptRequest_sampling (modelName : String)
    (req : GenerateRequest) (tokensIn : Bool) (field : SamplingField) :
    (promptRequest modelName req tokensIn).get? field.name = none := by
  cases field <;> cases tokensIn <;> rfl

/-- The body has for a sampling parameter what is sent for it. -/
theorem get?_buildOAIRequest_sampling (modelName : String)
    (req : GenerateRequest) (tokensIn : Bool) (field : SamplingField) :
    (buildOAIRequest modelName req tokensIn).get? field.name =
      req.params.sent field := by
  have notLogprobs : field.name ≠ "logprobs" := by cases field <;> decide
  have absent := get?_promptRequest_sampling modelName req tokensIn field
  unfold buildOAIRequest GenerateRequest.params
  dsimp only
  rw [get?_insertIf, if_neg fun both => notLogprobs both.1]
  cases req.samplingParams with
  | none => rw [absent, Option.getD_none, sent_default]
  | some params => exact get?_addSampling params field absent

theorem get?_buildOAIRequest_of_ne (modelName : String)
    (req : GenerateRequest) (tokensIn : Bool) {probe : String}
    (notLogprobs : probe ≠ "logprobs")
    (different : ∀ field : SamplingField, probe ≠ field.name) :
    (buildOAIRequest modelName req tokensIn).get? probe =
      (promptRequest modelName req tokensIn).get? probe := by
  unfold buildOAIRequest
  dsimp only
  rw [get?_insertIf, if_neg fun both => notLogprobs both.1]
  cases req.samplingParams with
  | none => rfl
  | some params => exact get?_addSampling_of_ne params different

theorem get?_buildOAIRequest_prompt_token_ids (modelName : String)
    (req : GenerateRequest) :
    (buildOAIRequest modelName req true).get? "prompt_token_ids" =
      some (tokensValue req.promptTokenIDs) := by
  rw [get?_buildOAIRequest_of_ne modelName req true (by decide)
    (by intro field; cases field <;> decide)]
  exact OrderedDict.get?_insert_self _ _ _

theorem get?_buildOAIRequest_prompt (modelName : String)
    (req : GenerateRequest) :
    (buildOAIRequest modelName req false).get? "prompt" =
      some (.scalar (.text req.prompt)) := by
  rw [get?_buildOAIRequest_of_ne modelName req false (by decide)
    (by intro field; cases field <;> decide)]
  exact OrderedDict.get?_insert_self _ _ _

/-! ## What is carried -/

/-- The body has the prompt that the request names in the form of the mode. -/
def CarriesPrompt (oaiReq : OrderedDict String Value) (asked : Asked) :
    (tokensIn : Bool) → Prop
  | true =>
      ∀ value, asked.promptTokenIDs = some value →
        oaiReq.get? "prompt_token_ids" = some value.value
  | false =>
      ∀ value, asked.prompt = some value →
        oaiReq.get? "prompt" = some value.value

/-- The body has every value that the request names for the engine. -/
def Carries (oaiReq : OrderedDict String Value) (asked : Asked)
    (tokensIn : Bool) : Prop :=
  (∀ field value, asked.sampling field = some value →
    oaiReq.get? field.name = some value.value) ∧
  CarriesPrompt oaiReq asked tokensIn

/-- The values of a sampling parameter that reach the engine. -/
def Kept : SamplingField → Json → Prop
  | .temperature, value | .topP, value =>
      ∃ float, IsFloat32 float ∧ 0 < float ∧
        value.number? = some (formatFloat32 float)
  | .topK, _ => False
  | .maxTokens, value | .n, value =>
      ∃ number, value.number? = some number ∧ 0 < number
  | .stop, value => ∃ items, value = .list items ∧ items ≠ [] ∧ .null ∉ items

/-- Every sampling parameter is kept, and with token ids none is `null`. -/
def Survives (asked : Asked) (tokensIn : Bool) : Prop :=
  (∀ field value, asked.sampling field = some value → Kept field value) ∧
  (tokensIn → ∀ items, asked.promptTokenIDs = some (.list items) →
    .null ∉ items)

theorem number?_of_readFloat32 {error : DecodeError} {value : Json}
    {decoded : ℚ} (reads : readFloat32 error value = .ok decoded) :
    ∃ number, value.number? = some number ∧
      parseFloat32 number = some decoded := by
  rw [readFloat32] at reads
  cases parses : value.number?.bind parseFloat32 with
  | none =>
      simp only [parses] at reads
      cases reads
  | some parsed =>
      simp only [parses, Except.ok.injEq] at reads
      obtain ⟨number, isNumber, parse⟩ := Option.bind_eq_some_iff.mp parses
      exact ⟨number, isNumber, by rw [parse, reads]⟩

theorem value_of_number? {value : Json} {number : ℚ}
    (isNumber : value.number? = some number) :
    value.value = .scalar (.number number) := by
  cases value with
  | integer value | decimal value =>
      rw [← Option.some.inj isNumber]
      rfl
  | null | bool | text | list | object => cases isNumber

theorem eq_integer_of_readInt {bits : ℕ} {error : DecodeError} {value : Json}
    {decoded : Int} (reads : readInt bits error value = .ok decoded) :
    value = .integer decoded := by
  cases value with
  | integer value =>
      rw [readInt, parseInt] at reads
      split at reads
      · next parsed parses =>
          split at parses
          · rw [Option.some.inj parses, Except.ok.inj reads]
          · cases parses
      · cases reads
  | null | bool | decimal | text | list | object => cases reads

theorem eq_text_of_readText {error : DecodeError} {value : Json}
    {decoded : String} (reads : readText error value = .ok decoded) :
    value = .text decoded := by
  cases value with
  | text value => rw [Except.ok.inj reads]
  | null | bool | integer | decimal | list | object => cases reads

/-- A list is read as it stands if and only if no item is `null`. -/
theorem map_scalar_eq_iff {α : Type} {read : Json → Decoded α}
    {scalar : α → Scalar} {items : List Json} {cells : List α}
    (reads : ∀ item cell, read item = .ok cell → item.scalar = scalar cell)
    (notNull : ∀ cell, scalar cell ≠ .null)
    (holds : List.Forall₂ (HoldsItem read) items cells) :
    cells.map scalar = items.map Json.scalar ↔ .null ∉ items := by
  induction holds with
  | nil => simp
  | @cons item cell items cells head tail inductionHypothesis =>
      rw [List.map_cons, List.map_cons, List.cons.injEq, inductionHypothesis,
        List.mem_cons, not_or]
      apply and_congr_left
      intro
      rcases head with rfl | readsItem
      · exact ⟨fun same => absurd same (notNull cell),
          fun different => absurd rfl different⟩
      · have same := reads item cell readsItem
        refine ⟨?_, fun _ => same.symm⟩
        rintro - rfl
        exact notNull cell same.symm

/-! ## What survives -/

theorem sentFloat_iff {error : DecodeError} {value : Json} {decoded : ℚ}
    (reads : readFloat32 error value = .ok decoded) :
    (if 0 < decoded then
        some (Value.scalar (.number (formatFloat32 decoded)))
      else none) = some value.value ↔
      ∃ float, IsFloat32 float ∧ 0 < float ∧
        value.number? = some (formatFloat32 float) := by
  obtain ⟨number, isNumber, parses⟩ := number?_of_readFloat32 reads
  rw [value_of_number? isNumber]
  constructor
  · intro sent
    split at sent
    · next positive =>
        injection sent with sent
        injection sent with sent
        injection sent with sent
        rw [isNumber, ← sent]
        exact ⟨decoded, isFloat32_of_parseFloat32 parses, positive, rfl⟩
    · cases sent
  · rintro ⟨float, isFloat, positive, shortest⟩
    have same : number = formatFloat32 float :=
      Option.some.inj (isNumber.symm.trans shortest)
    have parsesToo := parseFloat32_formatFloat32 isFloat
    rw [← same, parses] at parsesToo
    rw [Option.some.inj parsesToo, if_pos positive, same]

theorem sentInt_iff {error : DecodeError} {value : Json} {decoded : Int}
    (reads : readInt 64 error value = .ok decoded) :
    (if 0 < decoded then some (Value.scalar (.number decoded)) else none) =
        some value.value ↔
      ∃ number, value.number? = some number ∧ 0 < number := by
  have integer := eq_integer_of_readInt reads
  subst integer
  constructor
  · intro sent
    split at sent
    · next positive => exact ⟨decoded, rfl, Int.cast_pos.mpr positive⟩
    · cases sent
  · rintro ⟨number, isNumber, positive⟩
    rw [← Option.some.inj isNumber] at positive
    rw [if_pos (Int.cast_pos.mp positive)]
    rfl

theorem sentStop_iff {error : DecodeError} {value : Json}
    {params : SamplingParams}
    (holds : HoldsSlice (readText error) (some value) params.stopStrings) :
    (if 0 < (stopItems params).length then
        some (Value.list ((stopItems params).map .text))
      else none) = some value.value ↔
      ∃ items, value = .list items ∧ items ≠ [] ∧ .null ∉ items := by
  obtain ⟨items, slice, rfl, isSlice, holdsItems⟩ := holds
  have stops : stopItems params = slice.items := by
    rw [stopItems, isSlice]
    rfl
  have texts :
      slice.items.map Scalar.text = items.map Json.scalar ↔ .null ∉ items :=
    map_scalar_eq_iff
      (fun item cell reads => by rw [eq_text_of_readText reads]; rfl)
      (fun cell null => by cases null) holdsItems
  have lengths := holdsItems.length_eq
  rw [stops, ← lengths]
  constructor
  · intro sent
    split at sent
    · next positive =>
        injection sent with sent
        injection sent with sent
        exact ⟨items, rfl, List.ne_nil_of_length_pos positive, texts.mp sent⟩
    · cases sent
  · rintro ⟨_, ⟨⟩, nonempty, noNull⟩
    rw [if_pos (List.length_pos_of_ne_nil nonempty), texts.mpr noNull]
    rfl

theorem sent_iff_kept {params : SamplingParams} {field : SamplingField}
    {value : Json} (holds : params.Holds field (some value)) :
    params.sent field = some value.value ↔ Kept field value := by
  cases field with
  | temperature | topP => exact sentFloat_iff holds
  | topK =>
      refine ⟨?_, False.elim⟩
      intro sent
      cases sent
  | maxTokens | n => exact sentInt_iff holds
  | stop => exact sentStop_iff holds

theorem sent_of_not_named {params : SamplingParams} {field : SamplingField}
    (holds : params.Holds field none) : params.sent field = none := by
  cases field with
  | topK => rfl
  | temperature | topP | maxTokens | n =>
      rw [SamplingParams.sent, if_neg]
      rw [show _ = _ from holds]
      exact lt_irrefl 0
  | stop =>
      have noStops : params.stopStrings = none := holds
      rw [SamplingParams.sent, stopItems, noStops]
      rfl

theorem tokensValue_iff {error : DecodeError} {value : Json}
    {ids : Option (Slice Int)}
    (holds : HoldsSlice (readInt 32 error) (some value) ids) :
    tokensValue ids = value.value ↔
      ∀ items, value = .list items → .null ∉ items := by
  obtain ⟨items, slice, rfl, rfl, holdsItems⟩ := holds
  have numbers :
      (slice.items.map fun id : Int => Scalar.number id) =
          items.map Json.scalar ↔ .null ∉ items :=
    map_scalar_eq_iff
      (fun item cell reads => by rw [eq_integer_of_readInt reads]; rfl)
      (fun cell null => by cases null) holdsItems
  rw [tokensValue, Json.value, Value.list.injEq, numbers]
  constructor
  · rintro noNull _ ⟨⟩
    exact noNull
  · intro noNull
    exact noNull items rfl

/-- A text prompt is always carried, and token ids without `null`. -/
theorem carriesPrompt_iff (modelName : String) {req : GenerateRequest}
    {asked : Asked} (tokensIn : Bool) (holds : req.Holds asked) :
    CarriesPrompt (buildOAIRequest modelName req tokensIn) asked tokensIn ↔
      (tokensIn → ∀ items, asked.promptTokenIDs = some (.list items) →
        .null ∉ items) := by
  cases tokensIn with
  | false =>
      refine ⟨fun _ inTokens => (Bool.false_ne_true inTokens).elim, ?_⟩
      rintro - value named
      have holdsPrompt := holds.prompt
      rw [named] at holdsPrompt
      rw [get?_buildOAIRequest_prompt, eq_text_of_readText holdsPrompt]
      rfl
  | true =>
      have holdsTokens := holds.promptTokenIDs
      constructor
      · intro carries _ items named
        rw [named] at holdsTokens
        have same := carries _ named
        rw [get?_buildOAIRequest_prompt_token_ids] at same
        exact (tokensValue_iff holdsTokens).mp (Option.some.inj same) items rfl
      · intro noNull value named
        rw [named] at holdsTokens
        rw [get?_buildOAIRequest_prompt_token_ids,
          (tokensValue_iff holdsTokens).mpr]
        rintro items rfl
        exact noNull rfl items named

theorem carries_iff_survives (modelName : String) {body : Json}
    {req : GenerateRequest} (tokensIn : Bool)
    (accepted : GenerateRequest.decode body = .ok req) :
    Carries (buildOAIRequest modelName req tokensIn) body.asked tokensIn ↔
      Survives body.asked tokensIn := by
  have holds := GenerateRequest.holds_decode accepted
  apply and_congr
  · apply forall_congr'
    intro field
    apply forall_congr'
    intro value
    apply imp_congr_right
    intro named
    have holdsField := holds.sampling field
    rw [named] at holdsField
    rw [get?_buildOAIRequest_sampling]
    exact sent_iff_kept holdsField
  · exact carriesPrompt_iff modelName tokensIn holds

/-- What survives is all that the body has for the sampling parameters. -/
theorem get?_of_survives (modelName : String) {body : Json}
    {req : GenerateRequest} {tokensIn : Bool}
    (accepted : GenerateRequest.decode body = .ok req)
    (survives : Survives body.asked tokensIn) (field : SamplingField) :
    (buildOAIRequest modelName req tokensIn).get? field.name =
      (body.asked.sampling field).map Json.value := by
  have holds := (GenerateRequest.holds_decode accepted).sampling field
  rw [get?_buildOAIRequest_sampling]
  cases named : body.asked.sampling field with
  | none =>
      rw [named] at holds
      exact sent_of_not_named holds
  | some value =>
      rw [named] at holds
      exact (sent_iff_kept holds).mpr (survives.1 field value named)

/-- Two requests differ in the value of some sampling parameter. -/
def Differ (asked other : Asked) : Prop :=
  ∃ field, (asked.sampling field).map Json.value ≠
    (other.sampling field).map Json.value

/-- An accepted request is carried over if and only if all that it asks for
survives, and requests that do so and differ have different bodies. -/
theorem requests_carried_iff (modelName : String) {body : Json}
    {req : GenerateRequest} (tokensIn : Bool)
    (accepted : GenerateRequest.decode body = .ok req) :
    (Carries (buildOAIRequest modelName req tokensIn) body.asked tokensIn ↔
      Survives body.asked tokensIn) ∧
    ∀ (otherModel : String) (otherBody : Json) (other : GenerateRequest),
      GenerateRequest.decode otherBody = .ok other →
      Survives body.asked tokensIn → Survives otherBody.asked tokensIn →
      Differ body.asked otherBody.asked →
        buildOAIRequest modelName req tokensIn ≠
          buildOAIRequest otherModel other tokensIn := by
  refine ⟨carries_iff_survives modelName tokensIn accepted, ?_⟩
  rintro otherModel otherBody other otherAccepted survives otherSurvives
    ⟨field, differ⟩ same
  apply differ
  rw [← get?_of_survives modelName accepted survives field, same,
    get?_of_survives otherModel otherAccepted otherSurvives field]

def samplingBody (members : List (String × Json)) : Json :=
  .object [("prompt", .text "2+2="), ("sampling_params", .object members)]

def sampled (params : SamplingParams) : GenerateRequest :=
  { prompt := "2+2=", samplingParams := some params }

theorem survives_of_temperature {temperature float : ℚ} {tokens : Int}
    (isFloat : parseFloat32 temperature = some float) (warm : 0 < float)
    (shortest : formatFloat32 float = temperature) (several : 0 < tokens) :
    Survives
      (samplingBody [("temperature", .decimal temperature),
        ("max_tokens", .integer tokens)]).asked false := by
  refine ⟨?_, fun inTokens => (Bool.false_ne_true inTokens).elim⟩
  intro field value named
  cases field with
  | temperature =>
      have first : some (Json.decimal temperature) = some value := named
      rw [← Option.some.inj first]
      exact ⟨float, isFloat32_of_parseFloat32 isFloat, warm, by
        rw [shortest]; rfl⟩
  | maxTokens =>
      have second : some (Json.integer tokens) = some value := named
      rw [← Option.some.inj second]
      exact ⟨tokens, rfl, Int.cast_pos.mpr several⟩
  | topP | topK | n | stop =>
      have absent : none = some value := named
      cases absent

/-- The usual parameters, once a little hotter. -/
theorem usual_requests_carried :
    Carries
      (buildOAIRequest "llama"
        (sampled { temperature := 11744051 / 16777216, maxTokens := 16 }) false)
      (samplingBody [("temperature", .decimal (7 / 10)),
        ("max_tokens", .integer 16)]).asked false ∧
    buildOAIRequest "llama"
        (sampled { temperature := 11744051 / 16777216, maxTokens := 16 })
        false ≠
      buildOAIRequest "llama"
        (sampled { temperature := 3 / 4, maxTokens := 16 }) false := by
  have float : parseFloat32 (7 / 10) = some (11744051 / 16777216) := by
    decide +kernel
  have hotterFloat : parseFloat32 (3 / 4) = some (3 / 4) := by decide +kernel
  have survives : Survives
      (samplingBody [("temperature", .decimal (7 / 10)),
        ("max_tokens", .integer 16)]).asked false :=
    survives_of_temperature float (by decide +kernel) (by decide +kernel)
      (by decide)
  have hotter : Survives
      (samplingBody [("temperature", .decimal (3 / 4)),
        ("max_tokens", .integer 16)]).asked false :=
    survives_of_temperature hotterFloat (by decide +kernel)
      (by decide +kernel) (by decide)
  have accepted : GenerateRequest.decode
      (samplingBody [("temperature", .decimal (7 / 10)),
        ("max_tokens", .integer 16)]) =
      .ok (sampled
        { temperature := 11744051 / 16777216, maxTokens := 16 }) := by
    decide +kernel
  have hotterAccepted : GenerateRequest.decode
      (samplingBody [("temperature", .decimal (3 / 4)),
        ("max_tokens", .integer 16)]) =
      .ok (sampled { temperature := 3 / 4, maxTokens := 16 }) := by
    decide +kernel
  obtain ⟨carries, different⟩ := requests_carried_iff "llama" false accepted
  refine ⟨carries.mpr survives, ?_⟩
  apply different "llama" _ _ hotterAccepted survives hotter
  refine ⟨.temperature, ?_⟩
  have names : some (Value.scalar (.number (7 / 10))) ≠
      some (.scalar (.number (3 / 4))) := by decide +kernel
  exact names

/-- A greedy temperature and a `top_k` do not reach the engine. -/
theorem greedy_and_top_k_dropped :
    GenerateRequest.decode (samplingBody [("temperature", .integer 0)]) =
      .ok (sampled {}) ∧
    ¬ Carries (buildOAIRequest "llama" (sampled {}) false)
      (samplingBody [("temperature", .integer 0)]).asked false ∧
    GenerateRequest.decode (samplingBody [("top_k", .integer 5)]) =
      .ok (sampled { topK := 5 }) ∧
    Differ (samplingBody [("temperature", .integer 0)]).asked
      (samplingBody [("top_k", .integer 5)]).asked ∧
    buildOAIRequest "llama" (sampled {}) false =
      buildOAIRequest "llama" (sampled { topK := 5 }) false := by
  refine ⟨rfl, ?_, rfl, ⟨.topK, ?_⟩, rfl⟩
  · intro carries
    have sent : none = some (Value.scalar (.number 0)) :=
      carries.1 .temperature (.integer 0) rfl
    cases sent
  · intro same
    have sent : none = some (Value.scalar (.number 5)) := same
    cases sent

end LlmDRl.Rollout
