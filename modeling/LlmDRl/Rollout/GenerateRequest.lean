import LlmDRl.Library.BinaryRounding

/-!
# Decoding a generate request

What `json.NewDecoder(r.Body).Decode` makes of the body of `POST /v1/generate`
in the Go types of the API.  A `null` leaves a plain field as it is, a member
can come more than once, and its name is compared without regard to case.
-/

namespace LlmDRl.Rollout

open LlmDRl.Library

/-- A number with a fraction or an exponent is a decimal, whatever its value,
and an object keeps all its members in order. -/
inductive Json where
  | null
  | bool (value : Bool)
  | integer (value : Int)
  | decimal (value : ℚ)
  | text (value : String)
  | list (items : List Json)
  | object (members : List (String × Json))

/-! ## Numbers -/

/-- The finite numbers of 32 bits. -/
def IsFloat32 (x : ℚ) : Prop :=
  Representable 24 (-126) x ∧ |x| < 2 ^ 128

/-- `strconv.ParseFloat(s, 32)`; a number that is too large is an error. -/
def parseFloat32 (x : ℚ) : Option ℚ :=
  let rounded := roundBinary 24 (-126) x
  if |rounded| < 2 ^ 128 then some rounded else none

theorem isFloat32_of_parseFloat32 {x parsed : ℚ}
    (reads : parseFloat32 x = some parsed) : IsFloat32 parsed := by
  unfold parseFloat32 at reads
  dsimp only at reads
  split at reads
  · next small =>
      rw [← Option.some.inj reads]
      exact ⟨representable_roundBinary 24 (-126) x, small⟩
  · cases reads

theorem parseFloat32_of_isFloat32 {x : ℚ} (float : IsFloat32 x) :
    parseFloat32 x = some x := by
  have same := roundBinary_of_representable (by omega) float.1
  unfold parseFloat32
  dsimp only
  rw [same, if_pos float.2]

/-- The two decimals of so many digits next to a number, the nearer first. -/
def nextDecimals (digits : ℕ) (x : ℚ) : List ℚ :=
  let scale : ℚ := 10 ^ ((digits : ℤ) - 1 - Int.log 10 |x|)
  let nearest := roundHalfEven (x * scale) / scale
  [nearest, if nearest ≤ x then nearest + 1 / scale else nearest - 1 / scale]

/-- `strconv.AppendFloat` with precision `-1` and 32 bits: the fewest digits
that are read back as the same number, of which nine always suffice. -/
def formatFloat32 (x : ℚ) : ℚ :=
  ((List.range 9).findSome? fun fewer =>
    (nextDecimals (fewer + 1) x).find? fun decimal =>
      parseFloat32 decimal = some x).getD x

/-- What a number is written as is read back as that number. -/
theorem parseFloat32_formatFloat32 {x : ℚ} (float : IsFloat32 x) :
    parseFloat32 (formatFloat32 x) = some x := by
  unfold formatFloat32
  cases found : (List.range 9).findSome? fun fewer =>
      (nextDecimals (fewer + 1) x).find? fun decimal =>
        parseFloat32 decimal = some x with
  | none => exact parseFloat32_of_isFloat32 float
  | some decimal =>
      obtain ⟨fewer, -, finds⟩ := List.exists_of_findSome?_eq_some found
      have parses := List.find?_some finds
      exact of_decide_eq_true parses

/-- `strconv.ParseInt` -/
def parseInt (bits : ℕ) (x : Int) : Option Int :=
  if -2 ^ (bits - 1) ≤ x ∧ x < 2 ^ (bits - 1) then some x else none

def Json.number? : Json → Option ℚ
  | .integer value => some value
  | .decimal value => some value
  | _ => none

/-! ## Values -/

/-- The field that a value does not fit: its struct, its path and its type. -/
structure DecodeError where
  structName : String
  path : String
  goType : String
  deriving DecidableEq, Repr

abbrev Decoded := Except DecodeError

variable {α : Type}

/-- A field of a basic type. -/
def keepNull (read : Json → Decoded α) (old : α) : Json → Decoded α
  | .null => .ok old
  | value => read value

def readFloat32 (error : DecodeError) (value : Json) : Decoded ℚ :=
  match value.number?.bind parseFloat32 with
  | some parsed => .ok parsed
  | none => .error error

def readInt (bits : ℕ) (error : DecodeError) : Json → Decoded Int
  | .integer value =>
      match parseInt bits value with
      | some parsed => .ok parsed
      | none => .error error
  | _ => .error error

def readText (error : DecodeError) : Json → Decoded String
  | .text value => .ok value
  | _ => .error error

def readBool (error : DecodeError) : Json → Decoded Bool
  | .bool value => .ok value
  | _ => .error error

/-- A slice with all the cells that were written behind it. -/
structure Slice (α : Type) where
  cells : List α
  len : Nat
  deriving DecidableEq, Repr

def Slice.items (slice : Slice α) : List α := slice.cells.take slice.len

/-- The cells after an array has been decoded into them. -/
def decodeCells (read : Json → Decoded α) (zero : α) :
    List α → List Json → Decoded (List α)
  | cells, [] => .ok cells
  | cells, item :: rest =>
      match keepNull read (cells.head?.getD zero) item with
      | .error error => .error error
      | .ok cell =>
          match decodeCells read zero cells.tail rest with
          | .error error => .error error
          | .ok cells => .ok (cell :: cells)

/-- A field of a slice type; `none` is the slice `nil`. -/
def decodeSlice (read : Json → Decoded α) (zero : α) (error : DecodeError)
    (old : Option (Slice α)) : Json → Decoded (Option (Slice α))
  | .null => .ok none
  | .list [] => .ok (some ⟨[], 0⟩)
  | .list items =>
      match decodeCells read zero ((old.map Slice.cells).getD []) items with
      | .error error => .error error
      | .ok cells => .ok (some ⟨cells, items.length⟩)
  | _ => .error error

/-! ## Structs -/

/-- The rune that all runes stand for which differ in case only; the long s and
the Kelvin sign stand for letters. -/
def foldRune (rune : Char) : Char :=
  if rune = Char.ofNat 0x17F then 'S'
  else if rune = Char.ofNat 0x212A then 'K'
  else rune.toUpper

def foldName (name : String) : List Char := name.toList.map foldRune

section Members

variable {φ σ : Type}

/-- The field that a member is decoded into; no two fields of a struct have
folded names in common. -/
def fieldNamed (name : φ → String) (fields : List φ) (key : String) :
    Option φ :=
  fields.find? fun field => foldName (name field) = foldName key

/-- The members of an object, decoded one after the other; those that name no
field are skipped. -/
def decodeMembers (field? : String → Option φ)
    (assign : σ → φ → Json → Decoded σ) :
    σ → List (String × Json) → Decoded σ
  | state, [] => .ok state
  | state, (key, value) :: rest =>
      match field? key with
      | none => decodeMembers field? assign state rest
      | some field =>
          match assign state field value with
          | .error error => .error error
          | .ok state => decodeMembers field? assign state rest

end Members

inductive SamplingField where
  | temperature
  | topP
  | topK
  | maxTokens
  | n
  | stop
  deriving DecidableEq, Repr

/-- The name of a field in JSON. -/
def SamplingField.name : SamplingField → String
  | temperature => "temperature"
  | topP => "top_p"
  | topK => "top_k"
  | maxTokens => "max_tokens"
  | n => "n"
  | stop => "stop"

def SamplingField.all : List SamplingField :=
  [temperature, topP, topK, maxTokens, n, stop]

def samplingField? : String → Option SamplingField :=
  fieldNamed SamplingField.name SamplingField.all

def SamplingField.error (field : SamplingField) : DecodeError where
  structName := "SamplingParams"
  path := s!"sampling_params.{field.name}"
  goType :=
    match field with
    | temperature | topP => "float32"
    | topK | maxTokens | n => "int"
    | stop => "[]string"

structure SamplingParams where
  temperature : ℚ := 0
  topP : ℚ := 0
  topK : Int := 0
  maxTokens : Int := 0
  nSamples : Int := 0
  stopStrings : Option (Slice String) := none
  deriving DecidableEq, Repr

def SamplingParams.assign (params : SamplingParams) (field : SamplingField)
    (value : Json) : Decoded SamplingParams :=
  match field with
  | .temperature =>
      (keepNull (readFloat32 field.error) params.temperature value).map
        fun decoded => { params with temperature := decoded }
  | .topP =>
      (keepNull (readFloat32 field.error) params.topP value).map
        fun decoded => { params with topP := decoded }
  | .topK =>
      (keepNull (readInt 64 field.error) params.topK value).map
        fun decoded => { params with topK := decoded }
  | .maxTokens =>
      (keepNull (readInt 64 field.error) params.maxTokens value).map
        fun decoded => { params with maxTokens := decoded }
  | .n =>
      (keepNull (readInt 64 field.error) params.nSamples value).map
        fun decoded => { params with nSamples := decoded }
  | .stop =>
      (decodeSlice (readText { field.error with goType := "string" }) ""
        field.error params.stopStrings value).map
        fun decoded => { params with stopStrings := decoded }

def SamplingParams.decode :
    SamplingParams → List (String × Json) → Decoded SamplingParams :=
  decodeMembers samplingField? assign

inductive RequestField where
  | prompt
  | promptTokenIDs
  | samplingParams
  | sessionID
  | returnLogprobs
  | weightVersion
  deriving DecidableEq, Repr

def RequestField.name : RequestField → String
  | prompt => "prompt"
  | promptTokenIDs => "prompt_token_ids"
  | samplingParams => "sampling_params"
  | sessionID => "session_id"
  | returnLogprobs => "return_logprobs"
  | weightVersion => "weight_version"

def RequestField.all : List RequestField :=
  [prompt, promptTokenIDs, samplingParams, sessionID, returnLogprobs,
    weightVersion]

def requestField? : String → Option RequestField :=
  fieldNamed RequestField.name RequestField.all

def RequestField.error (field : RequestField) : DecodeError where
  structName := "GenerateRequest"
  path := field.name
  goType :=
    match field with
    | prompt | sessionID => "string"
    | promptTokenIDs => "[]int32"
    | samplingParams => "v1alpha1.SamplingParams"
    | returnLogprobs => "bool"
    | weightVersion => "int64"

structure GenerateRequest where
  prompt : String := ""
  promptTokenIDs : Option (Slice Int) := none
  samplingParams : Option SamplingParams := none
  sessionID : String := ""
  returnLogprobs : Bool := false
  weightVersion : Int := 0
  deriving DecidableEq, Repr

/-- A pointer to a struct: `null` clears it, and an object is decoded into the
struct that is there. -/
def decodeSampling (old : Option SamplingParams) :
    Json → Decoded (Option SamplingParams)
  | .null => .ok none
  | .object members => (SamplingParams.decode (old.getD {}) members).map some
  | _ => .error RequestField.samplingParams.error

def GenerateRequest.assign (req : GenerateRequest) (field : RequestField)
    (value : Json) : Decoded GenerateRequest :=
  match field with
  | .prompt =>
      (keepNull (readText field.error) req.prompt value).map
        fun decoded => { req with prompt := decoded }
  | .promptTokenIDs =>
      (decodeSlice (readInt 32 { field.error with goType := "int32" }) 0
        field.error req.promptTokenIDs value).map
        fun decoded => { req with promptTokenIDs := decoded }
  | .samplingParams =>
      (decodeSampling req.samplingParams value).map
        fun decoded => { req with samplingParams := decoded }
  | .sessionID =>
      (keepNull (readText field.error) req.sessionID value).map
        fun decoded => { req with sessionID := decoded }
  | .returnLogprobs =>
      (keepNull (readBool field.error) req.returnLogprobs value).map
        fun decoded => { req with returnLogprobs := decoded }
  | .weightVersion =>
      (keepNull (readInt 64 field.error) req.weightVersion value).map
        fun decoded => { req with weightVersion := decoded }

/-- The request of a body that is JSON. -/
def GenerateRequest.decode : Json → Decoded GenerateRequest
  | .null => .ok {}
  | .object members => decodeMembers requestField? assign {} members
  | _ => .error ⟨"", "", "v1alpha1.GenerateRequest"⟩

end LlmDRl.Rollout
