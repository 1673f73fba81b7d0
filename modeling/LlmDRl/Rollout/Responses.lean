import LlmDRl.Rollout.Completions

/-!
# The response to a generate request

What `parseOAIResponse` takes from the body of the engine's response, and what
`handleGenerate` answers with it.  Only the first choice is looked at.  A log
probability that is no shortest decimal of 32 bits comes out changed, and so do
lists that contain `null`.
-/

namespace LlmDRl.Rollout

open LlmDRl.Library

/-! ## Decoding -/

inductive ChoiceField where
  | text
  | tokenIDs
  | finishReason
  | logprobs
  deriving DecidableEq, Repr

def ChoiceField.name : ChoiceField → String
  | text => "text"
  | tokenIDs => "token_ids"
  | finishReason => "finish_reason"
  | logprobs => "logprobs"

def ChoiceField.all : List ChoiceField :=
  [text, tokenIDs, finishReason, logprobs]

def choiceField? : String → Option ChoiceField :=
  fieldNamed ChoiceField.name ChoiceField.all

/-- The structs have no names of their own. -/
def ChoiceField.error (field : ChoiceField) : DecodeError where
  structName := ""
  path := s!"choices.{field.name}"
  goType :=
    match field with
    | text | finishReason => "string"
    | tokenIDs => "[]int32"
    | logprobs => "struct"

/-- The only field of the struct of log probabilities. -/
def logprobsField? : String → Option Unit :=
  fieldNamed (fun _ => "token_logprobs") [()]

def tokenLogprobsError : DecodeError :=
  ⟨"", "choices.logprobs.token_logprobs", "[]float32"⟩

structure Choice where
  text : String := ""
  tokenIDs : Option (Slice Int) := none
  finishReason : String := ""
  /-- A pointer to the struct that holds the slice. -/
  logprobs : Option (Option (Slice ℚ)) := none
  deriving DecidableEq, Repr

def decodeLogprobs (old : Option (Option (Slice ℚ))) :
    Json → Decoded (Option (Option (Slice ℚ)))
  | .null => .ok none
  | .object members =>
      (decodeMembers logprobsField?
        (fun slice _ value =>
          decodeSlice
            (readFloat32 { tokenLogprobsError with goType := "float32" }) 0
            tokenLogprobsError slice value)
        (old.getD none) members).map some
  | _ => .error ChoiceField.logprobs.error

def Choice.assign (choice : Choice) (field : ChoiceField) (value : Json) :
    Decoded Choice :=
  match field with
  | .text =>
      (keepNull (readText field.error) choice.text value).map
        fun decoded => { choice with text := decoded }
  | .tokenIDs =>
      (decodeSlice (readInt 32 { field.error with goType := "int32" }) 0
        field.error choice.tokenIDs value).map
        fun decoded => { choice with tokenIDs := decoded }
  | .finishReason =>
      (keepNull (readText field.error) choice.finishReason value).map
        fun decoded => { choice with finishReason := decoded }
  | .logprobs =>
      (decodeLogprobs choice.logprobs value).map
        fun decoded => { choice with logprobs := decoded }

/-- An object is decoded into the choice that is there. -/
def Choice.decode (choice : Choice) : Json → Decoded Choice
  | .null => .ok choice
  | .object members => decodeMembers choiceField? assign choice members
  | _ => .error ⟨"", "choices", "struct"⟩

/-- The cells after an array of choices has been decoded into them. -/
def decodeChoiceCells : List Choice → List Json → Decoded (List Choice)
  | cells, [] => .ok cells
  | cells, item :: rest =>
      match (cells.head?.getD {}).decode item with
      | .error error => .error error
      | .ok cell =>
          match decodeChoiceCells cells.tail rest with
          | .error error => .error error
          | .ok cells => .ok (cell :: cells)

def decodeChoices (old : Option (Slice Choice)) :
    Json → Decoded (Option (Slice Choice))
  | .null => .ok none
  | .list [] => .ok (some ⟨[], 0⟩)
  | .list items =>
      match decodeChoiceCells ((old.map Slice.cells).getD []) items with
      | .error error => .error error
      | .ok cells => .ok (some ⟨cells, items.length⟩)
  | _ => .error ⟨"", "choices", "[]struct"⟩

def responseField? : String → Option Unit :=
  fieldNamed (fun _ => "choices") [()]

/-- The choices of a body that is JSON. -/
def decodeResponse : Json → Decoded (Option (Slice Choice))
  | .null => .ok none
  | .object members =>
      decodeMembers responseField? (fun choices _ => decodeChoices choices)
        none members
  | _ => .error ⟨"", "", "struct"⟩

/-! ## Answering -/

structure GenerateResponse where
  outputTokenIDs : List Int := []
  logprobs : Option (Slice ℚ) := none
  weightVersion : Int := 0
  engineID : String := ""
  finishReason : String := ""
  text : String := ""
  deriving DecidableEq, Repr

/-- What is made of the first choice. -/
def Choice.response (choice : Choice) : GenerateResponse where
  finishReason := choice.finishReason
  outputTokenIDs := (choice.tokenIDs.map Slice.items).getD []
  text := choice.text
  logprobs := choice.logprobs.getD none

def firstChoice (choices : Option (Slice Choice)) : Option Choice :=
  choices.bind fun slice => slice.items.head?

def parseOAIResponse (body : Json) : Decoded GenerateResponse :=
  (decodeResponse body).map fun choices =>
    match firstChoice choices with
    | none => {}
    | some choice => choice.response

def logprobItems (resp : GenerateResponse) : List ℚ :=
  (resp.logprobs.map Slice.items).getD []

/-- The members of the answer, of which `omitempty` leaves out two. -/
def GenerateResponse.encode (resp : GenerateResponse) :
    OrderedDict String Value :=
  let body := OrderedDict.empty.insert "output_token_ids"
    (.list (resp.outputTokenIDs.map fun id : Int => .number id))
  let body := insertIf (0 < (logprobItems resp).length) body "logprobs"
    (.list ((logprobItems resp).map fun x => .number (formatFloat32 x)))
  let body := body.insert "weight_version"
    (.scalar (.number resp.weightVersion))
  let body := body.insert "engine_id" (.scalar (.text resp.engineID))
  let body := body.insert "finish_reason" (.scalar (.text resp.finishReason))
  insertIf (resp.text ≠ "") body "text" (.scalar (.text resp.text))

/-- What `handleGenerate` writes. -/
def answer (resp : GenerateResponse) (engineID : String)
    (weightVersion : Int) : OrderedDict String Value :=
  { resp with engineID := engineID, weightVersion := weightVersion }.encode

/-! ## What the first choice names -/

structure Named where
  text : Option Json := none
  tokenIDs : Option Json := none
  finishReason : Option Json := none
  tokenLogprobs : Option Json := none

def Named.add (named : Named) (field : ChoiceField) (value : Json) : Named :=
  match field, value with
  | .text, value => { named with text := namedAfter false named.text value }
  | .tokenIDs, value =>
      { named with tokenIDs := namedAfter true named.tokenIDs value }
  | .finishReason, value =>
      { named with finishReason := namedAfter false named.finishReason value }
  | .logprobs, .null => { named with tokenLogprobs := none }
  | .logprobs, .object members =>
      { named with
        tokenLogprobs :=
          addMembers logprobsField? (fun old _ => namedAfter true old)
            named.tokenLogprobs members }
  | .logprobs, _ => named

def Named.addItem (named : Named) : Json → Named
  | .object members => addMembers choiceField? Named.add named members
  | _ => named

/-- Whether there is a choice, and what the first one names; what an earlier
list named stands as long as later ones do not replace it. -/
structure FirstNamed where
  present : Bool := false
  named : Named := {}

def FirstNamed.add (first : FirstNamed) : Json → FirstNamed
  | .list (item :: _) => ⟨true, first.named.addItem item⟩
  | _ => {}

def Json.firstNamed : Json → FirstNamed
  | .object members =>
      addMembers responseField? (fun first _ => first.add) {} members
  | _ => {}

/-! ## Decoded choices -/

structure Choice.Holds (choice : Choice) (named : Named) : Prop where
  text :
    Rollout.Holds (readText ChoiceField.text.error) "" named.text choice.text
  tokenIDs :
    HoldsSlice
      (readInt 32 { ChoiceField.tokenIDs.error with goType := "int32" })
      named.tokenIDs choice.tokenIDs
  finishReason :
    Rollout.Holds (readText ChoiceField.finishReason.error) ""
      named.finishReason choice.finishReason
  logprobs :
    HoldsSlice (readFloat32 { tokenLogprobsError with goType := "float32" })
      named.tokenLogprobs (choice.logprobs.getD none)

theorem Choice.holds_default : ({} : Choice).Holds {} :=
  ⟨rfl, rfl, rfl, rfl⟩

theorem holdsSlice_of_decodeLogprobs {old new : Option (Option (Slice ℚ))}
    {named : Named} {value : Json}
    (holds :
      HoldsSlice (readFloat32 { tokenLogprobsError with goType := "float32" })
        named.tokenLogprobs (old.getD none))
    (decodes : decodeLogprobs old value = .ok new) :
    HoldsSlice (readFloat32 { tokenLogprobsError with goType := "float32" })
      (named.add .logprobs value).tokenLogprobs (new.getD none) := by
  cases value with
  | null =>
      rw [← Except.ok.inj decodes]
      rfl
  | object members =>
      obtain ⟨slice, decodesMembers, rfl⟩ := exists_of_map_eq_ok decodes
      have kept : ∀ (state : Option (Slice ℚ)) (asked : Option Json)
          (_ : Unit) value next,
          HoldsSlice
              (readFloat32 { tokenLogprobsError with goType := "float32" })
              asked state →
            decodeSlice
                (readFloat32 { tokenLogprobsError with goType := "float32" })
                0 tokenLogprobsError state value = .ok next →
              HoldsSlice
                (readFloat32 { tokenLogprobsError with goType := "float32" })
                (namedAfter true asked value) next := by
        intro _ asked _ value next _ reads
        exact holdsSlice_of_decodeSlice asked reads
      exact rel_of_decodeMembers kept holds decodesMembers
  | bool | integer | decimal | text | list => cases decodes

theorem Choice.holds_assign {choice assigned : Choice} {named : Named}
    {field : ChoiceField} {value : Json} (holds : choice.Holds named)
    (assigns : choice.assign field value = .ok assigned) :
    assigned.Holds (named.add field value) := by
  cases field <;> obtain ⟨decoded, reads, rfl⟩ := exists_of_map_eq_ok assigns
  case text =>
    exact ⟨holds.text.after reads, holds.tokenIDs, holds.finishReason,
      holds.logprobs⟩
  case tokenIDs =>
    exact ⟨holds.text, holdsSlice_of_decodeSlice named.tokenIDs reads,
      holds.finishReason, holds.logprobs⟩
  case finishReason =>
    exact ⟨holds.text, holds.tokenIDs, holds.finishReason.after reads,
      holds.logprobs⟩
  case logprobs =>
    have others : (named.add .logprobs value).text = named.text ∧
        (named.add .logprobs value).tokenIDs = named.tokenIDs ∧
        (named.add .logprobs value).finishReason = named.finishReason := by
      cases value <;> exact ⟨rfl, rfl, rfl⟩
    obtain ⟨text, tokenIDs, finishReason⟩ := others
    exact ⟨text ▸ holds.text, tokenIDs ▸ holds.tokenIDs,
      finishReason ▸ holds.finishReason,
      holdsSlice_of_decodeLogprobs holds.logprobs reads⟩

theorem Choice.holds_decode {choice decoded : Choice} {named : Named}
    {item : Json} (holds : choice.Holds named)
    (decodes : choice.decode item = .ok decoded) :
    decoded.Holds (named.addItem item) := by
  cases item with
  | null =>
      rw [← Except.ok.inj decodes]
      exact holds
  | object members =>
      have kept : ∀ (state : Choice) (asked : Named) field value next,
          state.Holds asked → state.assign field value = .ok next →
            next.Holds (asked.add field value) := by
        intro state asked field value next holds assigns
        exact holds_assign holds assigns
      exact rel_of_decodeMembers kept holds decodes
  | bool | integer | decimal | text | list => cases decodes

/-! ## The first choice -/

/-- The first cell, also one behind an empty slice. -/
def firstCell (choices : Option (Slice Choice)) : Choice :=
  (choices.bind fun slice => slice.cells.head?).getD {}

/-- The first cell holds what is named for it, and is the first choice when
there is one. -/
def HoldsFirst (choices : Option (Slice Choice)) (first : FirstNamed) :
    Prop :=
  firstChoice choices =
      (if first.present then some (firstCell choices) else none) ∧
    (firstCell choices).Holds first.named

theorem holdsFirst_default : HoldsFirst none {} :=
  ⟨rfl, Choice.holds_default⟩

theorem holdsFirst_of_decodeChoices {old new : Option (Slice Choice)}
    {first : FirstNamed} {value : Json} (holds : HoldsFirst old first)
    (decodes : decodeChoices old value = .ok new) :
    HoldsFirst new (first.add value) := by
  cases value with
  | null =>
      rw [← Except.ok.inj decodes]
      exact holdsFirst_default
  | list items =>
      cases items with
      | nil =>
          rw [← Except.ok.inj decodes]
          exact ⟨rfl, Choice.holds_default⟩
      | cons item rest =>
          rw [decodeChoices] at decodes
          · have head : ((old.map Slice.cells).getD []).head?.getD {} =
                firstCell old := by
              cases old <;> rfl
            rw [decodeChoiceCells, head] at decodes
            cases item' : (firstCell old).decode item with
            | error error =>
                simp only [item'] at decodes
                cases decodes
            | ok cell =>
                cases others : decodeChoiceCells
                    ((old.map Slice.cells).getD []).tail rest with
                | error error =>
                    simp only [item', others] at decodes
                    cases decodes
                | ok cells =>
                    simp only [item', others, Except.ok.injEq] at decodes
                    rw [← decodes]
                    exact ⟨rfl, Choice.holds_decode holds.2 item'⟩
          · intro nil
            cases nil
  | bool | integer | decimal | text | object => cases decodes

theorem holdsFirst_decodeResponse {body : Json}
    {choices : Option (Slice Choice)}
    (decodes : decodeResponse body = .ok choices) :
    HoldsFirst choices body.firstNamed := by
  cases body with
  | null =>
      rw [← Except.ok.inj decodes]
      exact holdsFirst_default
  | object members =>
      have kept : ∀ (state : Option (Slice Choice)) (asked : FirstNamed)
          (_ : Unit) value next,
          HoldsFirst state asked → decodeChoices state value = .ok next →
            HoldsFirst next (asked.add value) := by
        intro state asked _ value next holds decodes
        exact holdsFirst_of_decodeChoices holds decodes
      exact rel_of_decodeMembers kept holdsFirst_default decodes
  | bool | integer | decimal | text | list => cases decodes

/-- What the first choice names, nothing when there is none. -/
def FirstNamed.choice (first : FirstNamed) : Named :=
  if first.present then first.named else {}

/-- The response holds what the choice names. -/
structure GenerateResponse.Holds (resp : GenerateResponse) (named : Named) :
    Prop where
  outputTokenIDs : ∃ tokenIDs,
    HoldsSlice
      (readInt 32 { ChoiceField.tokenIDs.error with goType := "int32" })
      named.tokenIDs tokenIDs ∧
    resp.outputTokenIDs = (tokenIDs.map Slice.items).getD []
  finishReason :
    Rollout.Holds (readText ChoiceField.finishReason.error) ""
      named.finishReason resp.finishReason
  text :
    Rollout.Holds (readText ChoiceField.text.error) "" named.text resp.text
  logprobs :
    HoldsSlice (readFloat32 { tokenLogprobsError with goType := "float32" })
      named.tokenLogprobs resp.logprobs

theorem Choice.Holds.response {choice : Choice} {named : Named}
    (holds : choice.Holds named) : choice.response.Holds named :=
  ⟨⟨choice.tokenIDs, holds.tokenIDs, rfl⟩, holds.finishReason, holds.text,
    holds.logprobs⟩

theorem GenerateResponse.holds_parse {body : Json} {resp : GenerateResponse}
    (parses : parseOAIResponse body = .ok resp) :
    resp.Holds body.firstNamed.choice := by
  obtain ⟨choices, decodes, rfl⟩ := exists_of_map_eq_ok parses
  obtain ⟨first, holds⟩ := holdsFirst_decodeResponse decodes
  by_cases present : body.firstNamed.present
  · rw [if_pos present] at first
    rw [first, FirstNamed.choice, if_pos present]
    exact holds.response
  · rw [if_neg present] at first
    rw [first, FirstNamed.choice, if_neg present]
    exact Choice.holds_default.response

/-! ## What is delivered -/

/-- An empty value is left out of the answer. -/
def omitEmpty (empty : Value) (named : Option Json) : Option Value :=
  (named.map Json.value).filter (· ≠ empty)

/-- The answer has what the choice names and the defaults of the rest. -/
structure Delivered (body : OrderedDict String Value) (named : Named) :
    Prop where
  outputTokenIDs :
    body.get? "output_token_ids" =
      some ((named.tokenIDs.map Json.value).getD (.list []))
  finishReason :
    body.get? "finish_reason" =
      some ((named.finishReason.map Json.value).getD (.scalar (.text "")))
  text : body.get? "text" = omitEmpty (.scalar (.text "")) named.text
  logprobs : body.get? "logprobs" = omitEmpty (.list []) named.tokenLogprobs

/-- A number that is written as it was read. -/
def Shortest (value : Json) : Prop :=
  ∃ float, IsFloat32 float ∧ value.number? = some (formatFloat32 float)

/-- No token id is `null`, and the log probabilities are shortest decimals. -/
structure Exact (named : Named) : Prop where
  tokenIDs : ∀ items, named.tokenIDs = some (.list items) → .null ∉ items
  logprobs : ∀ items, named.tokenLogprobs = some (.list items) →
    ∀ item ∈ items, Shortest item

theorem get?_answer (resp : GenerateResponse) (engineID : String)
    (weightVersion : Int) :
    (answer resp engineID weightVersion).get? "output_token_ids" =
      some (.list (resp.outputTokenIDs.map fun id : Int => .number id)) ∧
    (answer resp engineID weightVersion).get? "finish_reason" =
      some (.scalar (.text resp.finishReason)) ∧
    (answer resp engineID weightVersion).get? "text" =
      (if resp.text ≠ "" then some (.scalar (.text resp.text)) else none) ∧
    (answer resp engineID weightVersion).get? "logprobs" =
      (if 0 < (logprobItems resp).length then
        some (.list
          ((logprobItems resp).map fun x => .number (formatFloat32 x)))
      else none) := by
  refine ⟨?_, ?_, ?_, ?_⟩
  case refine_4 =>
    by_cases some : 0 < (logprobItems resp).length
    · have items : 0 < ((resp.logprobs.map Slice.items).getD []).length := some
      rw [if_pos some]
      simp [answer, GenerateResponse.encode, logprobItems, get?_insertIf,
        OrderedDict.get?_insert, items]
    · have items : ¬ 0 < ((resp.logprobs.map Slice.items).getD []).length :=
        some
      rw [if_neg some]
      simp [answer, GenerateResponse.encode, logprobItems, get?_insertIf,
        OrderedDict.get?_insert, items]
  all_goals
    simp [answer, GenerateResponse.encode, get?_insertIf,
      OrderedDict.get?_insert]

/-- The labels that `handleGenerate` puts on every answer. -/
theorem get?_answer_labels (resp : GenerateResponse) (engineID : String)
    (weightVersion : Int) :
    (answer resp engineID weightVersion).get? "engine_id" =
      some (.scalar (.text engineID)) ∧
    (answer resp engineID weightVersion).get? "weight_version" =
      some (.scalar (.number weightVersion)) := by
  refine ⟨?_, ?_⟩ <;>
    simp [answer, GenerateResponse.encode, get?_insertIf,
      OrderedDict.get?_insert]

theorem holdsText_value {error : DecodeError} {named : Option Json}
    {decoded : String} (holds : Holds (readText error) "" named decoded) :
    (named.map Json.value).getD (.scalar (.text "")) =
      .scalar (.text decoded) := by
  cases named with
  | none => rw [show decoded = "" from holds]; rfl
  | some value => rw [eq_text_of_readText holds]; rfl

theorem omitEmpty_text {error : DecodeError} {named : Option Json}
    {decoded : String} (holds : Holds (readText error) "" named decoded) :
    omitEmpty (.scalar (.text "")) named =
      if decoded ≠ "" then some (.scalar (.text decoded)) else none := by
  cases named with
  | none => rw [show decoded = "" from holds]; rfl
  | some value =>
      rw [eq_text_of_readText holds]
      by_cases empty : decoded = ""
      · simp [omitEmpty, empty, Json.value, Json.scalar]
      · simp [omitEmpty, empty, Json.value, Json.scalar]

theorem tokenIDs_delivered_iff {error : DecodeError} {named : Option Json}
    {tokenIDs : Option (Slice Int)}
    (holds : HoldsSlice (readInt 32 error) named tokenIDs) :
    Value.list (((tokenIDs.map Slice.items).getD []).map
        fun id : Int => .number id) =
        (named.map Json.value).getD (.list []) ↔
      ∀ items, named = some (.list items) → .null ∉ items := by
  cases named with
  | none =>
      rw [show tokenIDs = none from holds]
      exact ⟨fun _ items absent => (nomatch absent), fun _ => rfl⟩
  | some value =>
      have carried := tokensValue_iff holds
      obtain ⟨items, slice, rfl, rfl, -⟩ := holds
      rw [tokensValue] at carried
      simp only [Option.map_some, Option.getD_some, Option.some.injEq]
      exact carried

theorem scalar_of_number? {item : Json} {number : ℚ}
    (isNumber : item.number? = some number) :
    item.scalar = .number number := by
  cases item with
  | integer value | decimal value =>
      rw [← Option.some.inj isNumber]
      rfl
  | null | bool | text | list | object => cases isNumber

theorem scalar_eq_iff_shortest {error : DecodeError} {item : Json} {cell : ℚ}
    (holds : HoldsItem (readFloat32 error) item cell) :
    Scalar.number (formatFloat32 cell) = item.scalar ↔ Shortest item := by
  rcases holds with rfl | reads
  · constructor
    · intro same
      cases same
    · rintro ⟨float, -, isNumber⟩
      cases isNumber
  · obtain ⟨number, isNumber, parses⟩ := number?_of_readFloat32 reads
    rw [scalar_of_number? isNumber, Scalar.number.injEq]
    constructor
    · intro same
      exact ⟨cell, isFloat32_of_parseFloat32 parses, by rw [isNumber, same]⟩
    · rintro ⟨float, isFloat, shortest⟩
      have same : number = formatFloat32 float :=
        Option.some.inj (isNumber.symm.trans shortest)
      have parsesToo := parseFloat32_formatFloat32 isFloat
      rw [← same, parses] at parsesToo
      rw [Option.some.inj parsesToo, same]

theorem map_formatFloat32_eq_iff {error : DecodeError} {items : List Json}
    {cells : List ℚ}
    (holds : List.Forall₂ (HoldsItem (readFloat32 error)) items cells) :
    (cells.map fun x => Scalar.number (formatFloat32 x)) =
        items.map Json.scalar ↔
      ∀ item ∈ items, Shortest item := by
  induction holds with
  | nil => simp
  | cons head tail inductionHypothesis =>
      rw [List.map_cons, List.map_cons, List.cons.injEq, inductionHypothesis,
        scalar_eq_iff_shortest head, List.forall_mem_cons]

theorem logprobs_delivered_iff {error : DecodeError} {named : Option Json}
    {logprobs : Option (Slice ℚ)}
    (holds : HoldsSlice (readFloat32 error) named logprobs) :
    (if 0 < ((logprobs.map Slice.items).getD []).length then
        some (Value.list (((logprobs.map Slice.items).getD []).map
          fun x => .number (formatFloat32 x)))
      else none) = omitEmpty (.list []) named ↔
      ∀ items, named = some (.list items) →
        ∀ item ∈ items, Shortest item := by
  cases named with
  | none =>
      rw [show logprobs = none from holds]
      exact ⟨fun _ items absent => (nomatch absent), fun _ => rfl⟩
  | some value =>
      obtain ⟨items, slice, rfl, rfl, holdsItems⟩ := holds
      have lengths := holdsItems.length_eq
      have written := map_formatFloat32_eq_iff holdsItems
      simp only [Option.map_some, Option.getD_some, Option.some.injEq,
        Json.list.injEq, forall_eq', omitEmpty, Json.value]
      rw [← written]
      cases items with
      | nil =>
          rw [List.eq_nil_of_length_eq_zero lengths.symm]
          exact iff_of_true rfl rfl
      | cons item rest =>
          have nonempty : 0 < slice.items.length := by
            rw [← lengths]
            exact Nat.succ_pos _
          rw [if_pos nonempty, Option.filter_some_pos (by simp),
            Option.some.injEq, Value.list.injEq]

theorem delivered_iff_exact {resp : GenerateResponse} {named : Named}
    (holds : resp.Holds named) (engineID : String) (weightVersion : Int) :
    Delivered (answer resp engineID weightVersion) named ↔ Exact named := by
  obtain ⟨tokenIDs, finishReason, text, logprobs⟩ :=
    get?_answer resp engineID weightVersion
  obtain ⟨slice, holdsTokens, isSlice⟩ := holds.outputTokenIDs
  have tokens := tokenIDs_delivered_iff holdsTokens
  have probabilities := logprobs_delivered_iff holds.logprobs
  rw [isSlice] at tokenIDs
  constructor
  · intro delivered
    refine ⟨tokens.mp ?_, probabilities.mp ?_⟩
    · exact Option.some.inj (tokenIDs.symm.trans delivered.outputTokenIDs)
    · exact logprobs.symm.trans delivered.logprobs
  · intro exact
    refine ⟨?_, ?_, ?_, ?_⟩
    · rw [tokenIDs, tokens.mpr exact.tokenIDs]
    · rw [finishReason, holdsText_value holds.finishReason]
    · rw [text, omitEmpty_text holds.text]
    · exact logprobs.trans (probabilities.mpr exact.logprobs)

/-- A response that parses is answered with the labels of its engine, and with
all that its first choice names if and only if that is exact. -/
theorem responses_delivered_iff {body : Json} {resp : GenerateResponse}
    (engineID : String) (weightVersion : Int)
    (parses : parseOAIResponse body = .ok resp) :
    (answer resp engineID weightVersion).get? "engine_id" =
      some (.scalar (.text engineID)) ∧
    (answer resp engineID weightVersion).get? "weight_version" =
      some (.scalar (.number weightVersion)) ∧
    (Delivered (answer resp engineID weightVersion) body.firstNamed.choice ↔
      Exact body.firstNamed.choice) := by
  obtain ⟨engine, version⟩ := get?_answer_labels resp engineID weightVersion
  exact ⟨engine, version,
    delivered_iff_exact (GenerateResponse.holds_parse parses) engineID
      weightVersion⟩

def completionBody (logprob : ℚ) : Json :=
  .object [("choices", .list [.object
    [("text", .text "4"), ("token_ids", .list [.integer 19]),
      ("finish_reason", .text "stop"),
      ("logprobs",
        .object [("token_logprobs", .list [.decimal logprob])])]])]

def completed (logprob : ℚ) : GenerateResponse where
  outputTokenIDs := [19]
  logprobs := some ⟨[logprob], 1⟩
  finishReason := "stop"
  text := "4"

theorem exact_completionBody_iff (logprob : ℚ) :
    Exact (completionBody logprob).firstNamed.choice ↔
      Shortest (.decimal logprob) := by
  have tokens : (completionBody logprob).firstNamed.choice.tokenIDs =
      some (.list [.integer 19]) := rfl
  have probabilities :
      (completionBody logprob).firstNamed.choice.tokenLogprobs =
        some (.list [.decimal logprob]) := rfl
  constructor
  · intro exact
    exact exact.logprobs _ probabilities _ (List.mem_singleton_self _)
  · intro shortest
    refine ⟨?_, ?_⟩
    · intro items named
      rw [tokens] at named
      cases named
      simp
    · intro items named
      rw [probabilities] at named
      cases named
      exact List.forall_mem_singleton.mpr shortest

/-- A quarter comes out as it went in, twelve digits do not. -/
theorem responses_delivered_quarter :
    Delivered (answer (completed (-1 / 4)) "engine-0" 3)
      (completionBody (-1 / 4)).firstNamed.choice ∧
    ∃ resp,
      parseOAIResponse (completionBody (-123456789012 / 10 ^ 12)) = .ok resp ∧
      ¬ Delivered (answer resp "engine-0" 3)
        (completionBody (-123456789012 / 10 ^ 12)).firstNamed.choice := by
  constructor
  · have parses : parseOAIResponse (completionBody (-1 / 4)) =
        .ok (completed (-1 / 4)) := by
      decide +kernel
    rw [(responses_delivered_iff "engine-0" 3 parses).2.2,
      exact_completionBody_iff]
    refine ⟨-1 / 4, ?_, ?_⟩
    · exact isFloat32_of_parseFloat32 (x := -1 / 4) (by decide +kernel)
    · decide +kernel
  · have parses : parseOAIResponse
          (completionBody (-123456789012 / 10 ^ 12)) =
        .ok (completed (-8285045 / 67108864)) := by
      decide +kernel
    refine ⟨_, parses, ?_⟩
    rw [(responses_delivered_iff "engine-0" 3 parses).2.2,
      exact_completionBody_iff]
    rintro ⟨float, isFloat, shortest⟩
    have reads := parseFloat32_formatFloat32 isFloat
    rw [← Option.some.inj shortest] at reads
    have isThis : parseFloat32 (-123456789012 / 10 ^ 12) =
        some (-8285045 / 67108864) := by
      decide +kernel
    rw [isThis] at reads
    rw [← Option.some.inj reads] at shortest
    have longer : formatFloat32 (-8285045 / 67108864) ≠
        -123456789012 / 10 ^ 12 := by
      decide +kernel
    exact longer (Option.some.inj shortest).symm

end LlmDRl.Rollout
