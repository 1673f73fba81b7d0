import Mathlib.Data.List.Induction
import LlmDRl.Library.Utf8
import LlmDRl.Wire.Fields

/-!
# The messages of the external processor

The encoders of `epp_grpc_client.py` and `_extract_headers`.  What the
encoders write is read back by decoding level by level; what
`_extract_headers` finds in a header mutation is the map in which the last
value of a key wins.
-/

namespace LlmDRl.Wire

open LlmDRl.Library

/-! ## The encoders -/

/-- One round of the loop of `_encode_header_map`. -/
def encodeHeader (header : String × Bytes) : Bytes :=
  lv 1 (lv 1 (Utf8.encode header.1) ++ lv 3 header.2)

/-- `_encode_header_map(headers)` -/
def encodeHeaderMap (headers : List (String × Bytes)) : Bytes :=
  headers.foldl (fun out header => out ++ encodeHeader header) []

/-- `_encode_request_headers(headers)` -/
def encodeRequestHeaders (headers : List (String × Bytes)) : Bytes :=
  lv 2 (lv 1 (encodeHeaderMap headers) ++ boolField 3 false)

/-- `_encode_request_body(body)` -/
def encodeRequestBody (body : Bytes) : Bytes :=
  lv 4 (lv 1 body ++ boolField 2 true)

/-- `_encode_response_headers(headers, end_of_stream=False)` -/
def encodeResponseHeaders
    (headers : List (String × Bytes)) (endOfStream : Bool) : Bytes :=
  lv 3 (lv 1 (encodeHeaderMap headers) ++ boolField 3 endOfStream)

/-- `_encode_response_body(body, end_of_stream)` -/
def encodeResponseBody (body : Bytes) (endOfStream : Bool) : Bytes :=
  lv 5 (lv 1 body ++ boolField 2 endOfStream)

/-! ## `_extract_headers` -/

abbrev HeaderMap := OrderedDict String String

/-- `for inner in _decode_fields(message).get(number, []): …` -/
def forEach
    (number : Nat) (body : HeaderMap → Bytes → Except WireError HeaderMap)
    (result : HeaderMap) (message : Bytes) : Except WireError HeaderMap := do
  let fields ← decodeFields message
  (fields.getD number []).foldlM body result

/-- `hv.get(number, [b""])[0]` -/
def firstPayload (fields : FieldMap) (number : Nat) : Bytes :=
  (fields.getD number [[]]).headD []

/-- The innermost loop body. -/
def extractHeader (result : HeaderMap) (hvBytes : Bytes) :
    Except WireError HeaderMap := do
  let hv ← decodeFields hvBytes
  let key := Utf8.decodeIgnore (firstPayload hv 1)
  let val := Utf8.decodeIgnore (firstPayload hv 3)
  if key ≠ "" then
    pure (result.insert key val)
  else
    pure result

/-- `_extract_headers(response_bytes)` -/
def extractHeaders (responseBytes : Bytes) : Except WireError HeaderMap :=
  forEach 1 (forEach 1 (forEach 2 (forEach 1 (forEach 1 extractHeader))))
    .empty responseBytes

/-! ## Decoding what was encoded -/

/-- The payload of a message that has nothing else to keep. -/
def onlyPayload (number : Nat) (message : Bytes) : Option Bytes :=
  match decodeFields message with
  | .ok fields =>
      match fields.entries with
      | [(found, [payload])] => if found = number then some payload else none
      | _ => none
  | .error _ => none

/-- Key and value of an encoded header. -/
def decodeHeader (message : Bytes) : Option (String × Bytes) :=
  match decodeFields message with
  | .ok fields =>
      match fields.entries with
      | [(1, [key]), (3, [value])] => some (Utf8.decodeIgnore key, value)
      | _ => none
  | .error _ => none

/-- The headers of a request or response, decoded level by level. -/
def decodeHeaders (number : Nat) (message : Bytes) :
    Option (List (String × Bytes)) := do
  let httpHeaders ← onlyPayload number message
  let headerMap ← onlyPayload 1 httpHeaders
  match decodeFields headerMap with
  | .ok fields => (fields.getD 1 []).mapM decodeHeader
  | .error _ => none

/-- The body of a request or response, decoded level by level. -/
def decodeBody (number : Nat) (message : Bytes) : Option Bytes := do
  let httpBody ← onlyPayload number message
  onlyPayload 1 httpBody

theorem lv_eq_serialise (number : Nat) (payload : Bytes) :
    lv number payload = serialise [.lengthDelimited number payload] := by
  rw [lv_eq_bytes, serialise, List.flatMap_singleton]

theorem onlyPayload_lv (number : Nat) (payload : Bytes) :
    onlyPayload number (lv number payload) = some payload := by
  rw [onlyPayload, lv_eq_serialise, decodeFields_serialise]
  simp [Field.store, FieldMap.append, OrderedDict.insert, OrderedDict.empty,
    assignEntries, OrderedDict.getD, OrderedDict.get?]

theorem onlyPayload_lv_bool
    (number flagNumber : Nat) (payload : Bytes) (flag : Bool) :
    onlyPayload number (lv number payload ++ boolField flagNumber flag) =
      some payload := by
  have whole :
      lv number payload ++ boolField flagNumber flag =
        serialise [.lengthDelimited number payload,
          .varint flagNumber (if flag then 1 else 0)] := by
    simp [serialise, lv_eq_bytes, boolField_eq_bytes]
  rw [onlyPayload, whole, decodeFields_serialise]
  simp [Field.store, FieldMap.append, OrderedDict.insert, OrderedDict.empty,
    assignEntries, OrderedDict.getD, OrderedDict.get?]

/-- The message inside an encoded header. -/
def headerFields (header : String × Bytes) : List Field :=
  [.lengthDelimited 1 (Utf8.encode header.1), .lengthDelimited 3 header.2]

theorem encodeHeader_eq (header : String × Bytes) :
    encodeHeader header =
      (Field.lengthDelimited 1 (serialise (headerFields header))).bytes := by
  simp [encodeHeader, headerFields, serialise, lv_eq_bytes]

theorem decodeHeader_serialise (header : String × Bytes) :
    decodeHeader (serialise (headerFields header)) = some header := by
  rw [decodeHeader, decodeFields_serialise]
  simp [headerFields, Field.store, FieldMap.append, OrderedDict.insert,
    OrderedDict.empty, assignEntries, OrderedDict.getD, OrderedDict.get?,
    lookup_cons_eq_ite]

theorem encodeHeaderMap_eq (headers : List (String × Bytes)) :
    encodeHeaderMap headers =
      serialise (headers.map fun header =>
        .lengthDelimited 1 (serialise (headerFields header))) := by
  have general : ∀ out : Bytes,
      headers.foldl (fun out header => out ++ encodeHeader header) out =
        out ++ serialise (headers.map fun header =>
          .lengthDelimited 1 (serialise (headerFields header))) := by
    induction headers with
    | nil =>
        intro out
        simp [serialise]
    | cons header rest inductionHypothesis =>
        intro out
        rw [List.foldl_cons, inductionHypothesis, encodeHeader_eq,
          List.append_assoc]
        rfl
  exact general []

theorem payloads_map (number : Nat) {α : Type} (items : List α)
    (f : α → Bytes) :
    payloads number (items.map fun item => .lengthDelimited number (f item)) =
      items.map f := by
  simp [payloads, Field.payload?, List.filterMap_map, Function.comp_def]

theorem mapM_decodeHeader (headers : List (String × Bytes)) :
    (headers.map fun header => serialise (headerFields header)).mapM
      decodeHeader = some headers := by
  induction headers with
  | nil =>
      rfl
  | cons header rest inductionHypothesis =>
      rw [List.map_cons, List.mapM_cons, decodeHeader_serialise,
        inductionHypothesis]
      rfl

theorem decodeHeaders_lv
    (number : Nat) (headers : List (String × Bytes)) (flag : Bool) :
    decodeHeaders number
      (lv number (lv 1 (encodeHeaderMap headers) ++ boolField 3 flag)) =
        some headers := by
  rw [decodeHeaders, onlyPayload_lv, Option.bind_eq_bind, Option.bind_some,
    onlyPayload_lv_bool, Option.bind_some, encodeHeaderMap_eq, decodeFields_serialise]
  simp only [getD_decoded, payloads_map, mapM_decodeHeader]

theorem decodeBody_lv (number : Nat) (body : Bytes) (flag : Bool) :
    decodeBody number (lv number (lv 1 body ++ boolField 2 flag)) =
      some body := by
  rw [decodeBody, onlyPayload_lv, Option.bind_eq_bind, Option.bind_some,
    onlyPayload_lv_bool]

/-! ## A header mutation -/

/-- The fields of this number are these payloads, in this order; fields of
other numbers stand anywhere between them. -/
def Holds (number : Nat) (wanted : List Bytes) (fields : List Field) : Prop :=
  fields.filter (fun field => field.number = number) =
    wanted.map (Field.lengthDelimited number)

/-- A message around one inner message. -/
def Wraps {α : Type} (number : Nat) (inner : α → Bytes → Prop)
    (content : α) (message : Bytes) : Prop :=
  ∃ payload fields, inner content payload ∧ Holds number [payload] fields ∧
    message = serialise fields

def IsHeaderValue (header : String × String) (message : Bytes) : Prop :=
  ∃ fields, Holds 1 [Utf8.encode header.1] fields ∧
    Holds 3 [Utf8.encode header.2] fields ∧ message = serialise fields

def IsHeaderValueOption : String × String → Bytes → Prop :=
  Wraps 1 IsHeaderValue

def IsHeaderMutation (headers : List (String × String)) (message : Bytes) :
    Prop :=
  ∃ options fields, List.Forall₂ IsHeaderValueOption headers options ∧
    Holds 1 options fields ∧ message = serialise fields

def IsCommonResponse : List (String × String) → Bytes → Prop :=
  Wraps 2 IsHeaderMutation

def IsHeadersResponse : List (String × String) → Bytes → Prop :=
  Wraps 1 IsCommonResponse

/-- A `ProcessingResponse` with a mutation of the request headers. -/
def IsProcessingResponse : List (String × String) → Bytes → Prop :=
  Wraps 1 IsHeadersResponse

theorem Field.payload?_of_ne
    {field : Field} {number : Nat} (other : field.number ≠ number) :
    field.payload? number = none := by
  cases field with
  | lengthDelimited found payload => exact if_neg other
  | _ => rfl

theorem Holds.payloads
    {number : Nat} {wanted : List Bytes} {fields : List Field}
    (holds : Holds number wanted fields) :
    Wire.payloads number fields = wanted := by
  have ofNumber : ∀ fields : List Field,
      Wire.payloads number fields =
        Wire.payloads number
          (fields.filter fun field => field.number = number) := by
    intro fields
    rw [Wire.payloads, Wire.payloads, List.filterMap_filter]
    congr 1
    funext field
    by_cases same : field.number = number
    · rw [if_pos (decide_eq_true same)]
    · rw [if_neg (by simpa using same), Field.payload?_of_ne same]
  rw [ofNumber, holds]
  simpa using payloads_map number wanted id

theorem forEach_serialise
    {number : Nat} {wanted : List Bytes} {fields : List Field}
    (holds : Holds number wanted fields)
    (body : HeaderMap → Bytes → Except WireError HeaderMap)
    (result : HeaderMap) :
    forEach number body result (serialise fields) =
      wanted.foldlM body result := by
  rw [forEach, decodeFields_serialise, ok_bind, getD_decoded, holds.payloads]

theorem forEach_wraps
    {α : Type} {number : Nat} {inner : α → Bytes → Prop} {content : α}
    {message : Bytes} (wraps : Wraps number inner content message)
    {body : HeaderMap → Bytes → Except WireError HeaderMap}
    {result after : HeaderMap}
    (step : ∀ payload, inner content payload →
      body result payload = .ok after) :
    forEach number body result message = .ok after := by
  obtain ⟨payload, fields, isInner, holds, rfl⟩ := wraps
  rw [forEach_serialise holds, List.foldlM_cons, step payload isInner]
  rfl

theorem firstPayload_decoded
    {number : Nat} {payload : Bytes} {fields : List Field}
    (holds : Holds number [payload] fields) :
    firstPayload (fields.foldl Field.store .empty) number = payload := by
  rw [firstPayload, OrderedDict.getD, get?_decoded, holds.payloads]
  rfl

theorem extractHeader_headerValue
    {header : String × String} {message : Bytes}
    (isValue : IsHeaderValue header message) (named : header.1 ≠ "")
    (result : HeaderMap) :
    extractHeader result message =
      .ok (result.insert header.1 header.2) := by
  obtain ⟨fields, keyHolds, valueHolds, rfl⟩ := isValue
  rw [extractHeader, decodeFields_serialise, ok_bind]
  simp only [firstPayload_decoded keyHolds, firstPayload_decoded valueHolds,
    Utf8.decodeIgnore_encode, ne_eq, named, not_false_eq_true, if_true]
  rfl

theorem foldlM_options
    {headers : List (String × String)} {options : List Bytes}
    (each : List.Forall₂ IsHeaderValueOption headers options)
    (named : ∀ header ∈ headers, header.1 ≠ "") (result : HeaderMap) :
    options.foldlM (forEach 1 extractHeader) result =
      .ok (headers.foldl
        (fun result header => result.insert header.1 header.2) result) := by
  induction each generalizing result with
  | nil =>
      rfl
  | @cons header option headers options isOption _ inductionHypothesis =>
      have step : forEach 1 extractHeader result option =
          .ok (result.insert header.1 header.2) :=
        forEach_wraps isOption fun payload isValue =>
          extractHeader_headerValue isValue
            (named header (List.mem_cons_self ..)) result
      rw [List.foldlM_cons, step, ok_bind,
        inductionHypothesis fun other member =>
          named other (List.mem_cons_of_mem _ member)]
      rfl

theorem extractHeaders_processingResponse
    {headers : List (String × String)} {message : Bytes}
    (isResponse : IsProcessingResponse headers message)
    (named : ∀ header ∈ headers, header.1 ≠ "") :
    extractHeaders message =
      .ok (headers.foldl
        (fun result header => result.insert header.1 header.2) .empty) := by
  refine forEach_wraps isResponse fun headersResponse isHeadersResponse => ?_
  refine forEach_wraps isHeadersResponse fun common isCommon => ?_
  refine forEach_wraps isCommon fun mutation isMutation => ?_
  obtain ⟨options, fields, each, holds, rfl⟩ := isMutation
  rw [forEach_serialise holds]
  exact foldlM_options each named .empty

/-- Assigning one entry after another, the last value of a key wins. -/
theorem get?_foldl_insert
    (headers : List (String × String)) (key : String) :
    (headers.foldl
        (fun result header => result.insert header.1 header.2)
        (.empty : HeaderMap)).get? key =
      (headers.reverse.find? fun header => header.1 = key).map Prod.snd := by
  induction headers using List.reverseRecOn with
  | nil =>
      rfl
  | append_singleton headers header inductionHypothesis =>
      rw [List.foldl_append, List.foldl_cons, List.foldl_nil,
        OrderedDict.get?_insert, inductionHypothesis, List.reverse_append,
        List.reverse_singleton, List.singleton_append, List.find?_cons]
      by_cases same : key = header.1
      · simp [same]
      · simp [same, Ne.symm same]

/-- Decoding well-formed wire data gives back what was written, from the
varints up to the headers of a mutation. -/
theorem well_formed_wire_data_is_decoded_exactly :
    (∀ (n : Nat) (before suffix : Bytes),
      decodeVarint (before ++ (varint n ++ suffix)) before.length =
        .ok (n, before.length + (varint n).length)) ∧
      (∀ fields : List Field, ∃ decoded,
        decodeFields (serialise fields) = .ok decoded ∧
          ∀ number, decoded.get? number =
            if payloads number fields = [] then none
            else some (payloads number fields)) ∧
        (∀ (headers : List (String × Bytes)) (body : Bytes)
          (endOfStream : Bool),
          decodeHeaders 2 (encodeRequestHeaders headers) = some headers ∧
            decodeHeaders 3 (encodeResponseHeaders headers endOfStream) =
              some headers ∧
              decodeBody 4 (encodeRequestBody body) = some body ∧
                decodeBody 5 (encodeResponseBody body endOfStream) =
                  some body) ∧
          ∀ (headers : List (String × String)) (message : Bytes),
            IsProcessingResponse headers message →
              (∀ header ∈ headers, header.1 ≠ "") →
                ∃ result, extractHeaders message = .ok result ∧
                  ∀ key, result.get? key =
                    (headers.reverse.find? fun header =>
                      header.1 = key).map Prod.snd := by
  refine ⟨?_, ?_, ?_, ?_⟩
  · intro n before suffix
    exact decodeVarint_of_drop (List.drop_left ..)
  · intro fields
    exact ⟨_, decodeFields_serialise fields, get?_decoded fields⟩
  · intro headers body endOfStream
    exact ⟨decodeHeaders_lv 2 headers false,
      decodeHeaders_lv 3 headers endOfStream, decodeBody_lv 4 body true,
      decodeBody_lv 5 body endOfStream⟩
  · intro headers message isResponse named
    exact ⟨_, extractHeaders_processingResponse isResponse named,
      get?_foldl_insert headers⟩

def option (key value : String) : Bytes :=
  serialise [.lengthDelimited 1 (serialise
    [.lengthDelimited 1 (Utf8.encode key), .varint 2 300,
      .lengthDelimited 3 (Utf8.encode value)])]

def mutation : Bytes :=
  serialise [.lengthDelimited 1 (option "x-endpoint" "10.0.0.1"),
    .lengthDelimited 4 [7], .lengthDelimited 1 (option "x-endpoint" "10.0.0.2")]

def commonResponse : Bytes := serialise [.lengthDelimited 2 mutation]

def headersResponse : Bytes := serialise [.lengthDelimited 1 commonResponse]

def response : Bytes :=
  serialise [.varint 9 1, .lengthDelimited 1 headersResponse]

theorem Wraps.intro
    {α : Type} {number : Nat} {inner : α → Bytes → Prop} {content : α}
    {payload : Bytes} {fields : List Field} (isInner : inner content payload)
    (holds : Holds number [payload] fields) :
    Wraps number inner content (serialise fields) :=
  ⟨payload, fields, isInner, holds, rfl⟩

theorem isHeaderValueOption_option (key value : String) :
    IsHeaderValueOption (key, value) (option key value) :=
  Wraps.intro
    ⟨[.lengthDelimited 1 (Utf8.encode key), .varint 2 300,
      .lengthDelimited 3 (Utf8.encode value)], rfl, rfl, rfl⟩ rfl

theorem well_formed_wire_data_is_decoded_exactly_last_wins :
    ∃ result, extractHeaders response = .ok result ∧
      result.get? "x-endpoint" = some "10.0.0.2" := by
  let headers := [("x-endpoint", "10.0.0.1"), ("x-endpoint", "10.0.0.2")]
  have isMutation : IsHeaderMutation headers mutation :=
    ⟨[option "x-endpoint" "10.0.0.1", option "x-endpoint" "10.0.0.2"],
      [.lengthDelimited 1 (option "x-endpoint" "10.0.0.1"),
        .lengthDelimited 4 [7],
        .lengthDelimited 1 (option "x-endpoint" "10.0.0.2")],
      .cons (isHeaderValueOption_option ..)
        (.cons (isHeaderValueOption_option ..) .nil), rfl, rfl⟩
  have isCommon : IsCommonResponse headers commonResponse :=
    Wraps.intro isMutation rfl
  have isHeaders : IsHeadersResponse headers headersResponse :=
    Wraps.intro isCommon rfl
  have isResponse : IsProcessingResponse headers response :=
    Wraps.intro isHeaders rfl
  obtain ⟨result, extracted, found⟩ :=
    well_formed_wire_data_is_decoded_exactly.2.2.2 headers response
      isResponse (by decide)
  exact ⟨result, extracted, (found "x-endpoint").trans (by decide)⟩

end LlmDRl.Wire
