import LlmDRl.Library.OrderedDict
import LlmDRl.Wire.Varint

/-!
# Fields

`_lv`, `_bool_field` and `_decode_fields` of `epp_grpc_client.py`, and what
the decoder makes of a well-formed message: a sequence of fields with wire
types 0, 1, 2 and 5.
-/

namespace LlmDRl.Wire

open LlmDRl.Library

/-- `_lv(field, data)` -/
def lv (field : Nat) (data : Bytes) : Bytes :=
  varint ((field <<< 3) ||| 2) ++ varint data.length ++ data

/-- `_bool_field(field, value)` -/
def boolField (field : Nat) (value : Bool) : Bytes :=
  varint ((field <<< 3) ||| 0) ++ [if value then 1 else 0]

/-- `dict[int, list[bytes]]` -/
abbrev FieldMap := OrderedDict Nat (List Bytes)

/-- What one round of the loop of `_decode_fields` finds. -/
inductive Read where
  | stop
  | skipped (next : Nat)
  | payload (number : Nat) (bytes : Bytes) (next : Nat)
  deriving DecidableEq, Repr

/-- The body of the loop.  A slice past the end is cut off, not an error. -/
def readField (data : Bytes) (pos : Nat) : Except WireError Read := do
  let (tag, pos) ← decodeVarint data pos
  let wireType := tag &&& 0x7
  let fieldNumber := tag >>> 3
  if wireType = 0 then
    let (_, pos) ← decodeVarint data pos
    pure (.skipped pos)
  else if wireType = 2 then
    let (length, pos) ← decodeVarint data pos
    pure (.payload fieldNumber ((data.drop pos).take length) (pos + length))
  else if wireType = 5 then
    pure (.skipped (pos + 4))
  else if wireType = 1 then
    pure (.skipped (pos + 8))
  else
    pure .stop

/-- Where the loop goes on. -/
def Read.next? : Read → Option Nat
  | .stop => none
  | .skipped next => some next
  | .payload _ _ next => some next

theorem bind_eq_ok
    {α β ε : Type} {first : Except ε α} {rest : α → Except ε β} {b : β}
    (done : (first >>= rest) = .ok b) :
    ∃ a, first = .ok a ∧ rest a = .ok b := by
  cases first with
  | error e => cases done
  | ok a => exact ⟨a, rfl, done⟩

theorem ok_bind
    {α β ε : Type} (a : α) (rest : α → Except ε β) :
    ((Except.ok a : Except ε α) >>= rest) = rest a := rfl

theorem lt_of_readField
    {data : Bytes} {pos next : Nat} {read : Read}
    (done : readField data pos = .ok read) (goesOn : read.next? = some next) :
    pos < next := by
  obtain ⟨⟨tag, afterTag⟩, tagRead, done⟩ := bind_eq_ok done
  have tagLt := lt_of_decodeVarint tagRead
  simp only at done
  split at done
  · obtain ⟨⟨value, afterValue⟩, valueRead, done⟩ := bind_eq_ok done
    have valueLt := lt_of_decodeVarint valueRead
    cases done
    cases goesOn
    exact Nat.lt_trans tagLt valueLt
  · split at done
    · obtain ⟨⟨length, start⟩, lengthRead, done⟩ := bind_eq_ok done
      have lengthLt := lt_of_decodeVarint lengthRead
      cases done
      cases goesOn
      omega
    · split at done
      · cases done
        cases goesOn
        omega
      · split at done
        · cases done
          cases goesOn
          omega
        · cases done
          cases goesOn

/-- `fields.setdefault(number, []).append(payload)` -/
def FieldMap.append (fields : FieldMap) (number : Nat) (payload : Bytes) :
    FieldMap :=
  fields.insert number (fields.getD number [] ++ [payload])

/-- The loop of `_decode_fields` from `pos` on. -/
def decodeFieldsLoop (data : Bytes) (pos : Nat) (fields : FieldMap) :
    Except WireError FieldMap :=
  if pos < data.length then
    match _done : readField data pos with
    | .error e => .error e
    | .ok .stop => .ok fields
    | .ok (.skipped next) => decodeFieldsLoop data next fields
    | .ok (.payload number payload next) =>
        decodeFieldsLoop data next (fields.append number payload)
  else
    .ok fields
termination_by data.length - pos
decreasing_by
  · have later := lt_of_readField _done rfl
    omega
  · have later := lt_of_readField _done rfl
    omega

/-- `_decode_fields(data)` -/
def decodeFields (data : Bytes) : Except WireError FieldMap :=
  decodeFieldsLoop data 0 .empty

/-! ## Well-formed messages -/

/-- One field of a message. -/
inductive Field where
  | varint (number value : Nat)
  | fixed64 (number : Nat) (payload : Vector UInt8 8)
  | lengthDelimited (number : Nat) (payload : Bytes)
  | fixed32 (number : Nat) (payload : Vector UInt8 4)

namespace Field

def number : Field → Nat
  | .varint number _ => number
  | .fixed64 number _ => number
  | .lengthDelimited number _ => number
  | .fixed32 number _ => number

def wireType : Field → Nat
  | .varint _ _ => 0
  | .fixed64 _ _ => 1
  | .lengthDelimited _ _ => 2
  | .fixed32 _ _ => 5

/-- What follows the tag. -/
def content : Field → Bytes
  | .varint _ value => Wire.varint value
  | .fixed64 _ payload => payload.toList
  | .lengthDelimited _ payload => Wire.varint payload.length ++ payload
  | .fixed32 _ payload => payload.toList

def bytes (field : Field) : Bytes :=
  Wire.varint (8 * field.number + field.wireType) ++ field.content

/-- What the decoder finds in a field that ends at `next`. -/
def read (next : Nat) : Field → Read
  | .lengthDelimited number payload => .payload number payload next
  | _ => .skipped next

/-- What the decoder keeps of a field. -/
def store (fields : FieldMap) : Field → FieldMap
  | .lengthDelimited number payload => fields.append number payload
  | _ => fields

/-- The payload of a length-delimited field of this number. -/
def payload? (number : Nat) : Field → Option Bytes
  | .lengthDelimited found payload =>
      if found = number then some payload else none
  | _ => none

end Field

/-- The bytes of a message. -/
def serialise (fields : List Field) : Bytes :=
  fields.flatMap Field.bytes

/-- The length-delimited payloads under one number, in order. -/
def payloads (number : Nat) (fields : List Field) : List Bytes :=
  fields.filterMap (Field.payload? number)

/-! ## One field -/

theorem shiftLeft_three_or {wireType : Nat} (number : Nat)
    (small : wireType < 8) : (number <<< 3) ||| wireType = 8 * number + wireType := by
  rw [← Nat.shiftLeft_add_eq_or_of_lt (small : wireType < 2 ^ 3),
    Nat.shiftLeft_eq]
  omega

theorem lv_eq_bytes (number : Nat) (payload : Bytes) :
    lv number payload = (Field.lengthDelimited number payload).bytes := by
  rw [lv, shiftLeft_three_or number (by decide), List.append_assoc]
  rfl

theorem boolField_eq_bytes (number : Nat) (value : Bool) :
    boolField number value =
      (Field.varint number (if value then 1 else 0)).bytes := by
  have small : varint (if value then 1 else 0) = [if value then 1 else 0] := by
    cases value <;> simp [varint]
  rw [boolField, shiftLeft_three_or number (by decide), Field.bytes,
    Field.content, small]
  rfl

theorem Field.wireType_lt (field : Field) : field.wireType < 8 := by
  cases field <;> simp [Field.wireType]

theorem Field.bytes_ne_nil (field : Field) : field.bytes ≠ [] := by
  intro none
  exact varint_ne_nil _ (List.append_eq_nil_iff.mp none).1

theorem tag_wireType (field : Field) :
    (8 * field.number + field.wireType) &&& 0x7 = field.wireType := by
  have small := field.wireType_lt
  rw [Nat.and_two_pow_sub_one_eq_mod _ 3]
  omega

theorem tag_number (field : Field) :
    (8 * field.number + field.wireType) >>> 3 = field.number := by
  have small := field.wireType_lt
  rw [Nat.shiftRight_eq_div_pow]
  omega

/-- A field is read where it starts, and the reader stops right after it. -/
theorem readField_of_drop
    {data rest : Bytes} {pos : Nat} (field : Field)
    (start : data.drop pos = field.bytes ++ rest) :
    readField data pos = .ok (field.read (pos + field.bytes.length)) := by
  rw [Field.bytes, List.append_assoc] at start
  have tagRead := decodeVarint_of_drop start
  have afterTag := drop_after start
  rw [readField, tagRead, ok_bind, Field.bytes, List.length_append,
    ← Nat.add_assoc]
  simp only [tag_wireType, tag_number]
  generalize pos + (varint (8 * field.number + field.wireType)).length = next
    at afterTag ⊢
  cases field with
  | varint number value =>
      have valueRead := decodeVarint_of_drop afterTag
      simp only [Field.wireType, if_true, valueRead, ok_bind]
      rfl
  | fixed64 number payload =>
      simp [Field.wireType, Field.read, Field.content]
      rfl
  | lengthDelimited number payload =>
      rw [Field.content, List.append_assoc] at afterTag
      have lengthRead := decodeVarint_of_drop afterTag
      have payloadStart := drop_after afterTag
      simp only [Field.wireType, lengthRead, ok_bind, payloadStart,
        List.take_left, Field.content, List.length_append, ← Nat.add_assoc]
      rfl
  | fixed32 number payload =>
      simp [Field.wireType, Field.read, Field.content]
      rfl

/-! ## A whole message -/

theorem decodeFieldsLoop_end
    {data : Bytes} {pos : Nat} (fields : FieldMap)
    (atEnd : data.drop pos = []) :
    decodeFieldsLoop data pos fields = .ok fields := by
  have past : ¬ pos < data.length := by
    rw [List.drop_eq_nil_iff] at atEnd
    omega
  rw [decodeFieldsLoop, if_neg past]

theorem decodeFieldsLoop_field
    {data rest : Bytes} {pos : Nat} (fields : FieldMap) (field : Field)
    (start : data.drop pos = field.bytes ++ rest) :
    decodeFieldsLoop data pos fields =
      decodeFieldsLoop data (pos + field.bytes.length)
        (field.store fields) := by
  have inside : pos < data.length := by
    by_contra past
    rw [List.drop_eq_nil_of_le (by omega), eq_comm,
      List.append_eq_nil_iff] at start
    exact field.bytes_ne_nil start.1
  have found := readField_of_drop field start
  rw [decodeFieldsLoop, if_pos inside]
  split
  · next failed =>
      rw [failed] at found
      cases found
  · next stopped =>
      rw [stopped] at found
      cases field <;> cases found
  · next next skipped =>
      rw [skipped] at found
      cases field <;> cases found <;> rfl
  · next number payload next kept =>
      rw [kept] at found
      cases field with
      | lengthDelimited _ _ =>
          cases found
          rfl
      | _ => cases found

theorem decodeFieldsLoop_serialise
    {data : Bytes} {pos : Nat} (decoded : FieldMap) (fields : List Field)
    (start : data.drop pos = serialise fields) :
    decodeFieldsLoop data pos decoded =
      .ok (fields.foldl Field.store decoded) := by
  induction fields generalizing pos decoded with
  | nil =>
      exact decodeFieldsLoop_end decoded start
  | cons field rest inductionHypothesis =>
      have split : data.drop pos = field.bytes ++ serialise rest := start
      rw [decodeFieldsLoop_field decoded field split,
        inductionHypothesis (field.store decoded) (drop_after split)]
      rfl

theorem decodeFields_serialise (fields : List Field) :
    decodeFields (serialise fields) =
      .ok (fields.foldl Field.store .empty) :=
  decodeFieldsLoop_serialise .empty fields rfl

/-! ## What is kept -/

theorem get?_store (decoded : FieldMap) (field : Field) (number : Nat) :
    (field.store decoded).get? number =
      match field.payload? number with
      | none => decoded.get? number
      | some payload => some (decoded.getD number [] ++ [payload]) := by
  cases field with
  | varint found value => rfl
  | fixed64 found payload => rfl
  | fixed32 found payload => rfl
  | lengthDelimited found payload =>
      rw [Field.store, FieldMap.append, OrderedDict.get?_insert,
        Field.payload?]
      by_cases same : found = number
      · rw [if_pos same.symm, if_pos same, same]
      · rw [if_neg (Ne.symm same), if_neg same]

theorem get?_foldl_store
    (decoded : FieldMap) (fields : List Field) (number : Nat) :
    (fields.foldl Field.store decoded).get? number =
      if payloads number fields = [] then
        decoded.get? number
      else
        some (decoded.getD number [] ++ payloads number fields) := by
  induction fields generalizing decoded with
  | nil =>
      rfl
  | cons field rest inductionHypothesis =>
      have stored := get?_store decoded field number
      rw [List.foldl_cons, inductionHypothesis, OrderedDict.getD, stored]
      cases found : field.payload? number with
      | none =>
          simp [payloads, found, OrderedDict.getD]
      | some payload =>
          by_cases none : payloads number rest = []
          · simp only [payloads] at none
            simp [payloads, found, none]
          · rw [if_neg none]
            simp [payloads, found]

/-- Each field number is mapped to its length-delimited payloads, in order. -/
theorem get?_decoded (fields : List Field) (number : Nat) :
    (fields.foldl Field.store .empty).get? number =
      if payloads number fields = [] then none
      else some (payloads number fields) := by
  rw [get?_foldl_store]
  simp [OrderedDict.getD]

theorem getD_decoded (fields : List Field) (number : Nat) :
    (fields.foldl Field.store .empty).getD number [] =
      payloads number fields := by
  rw [OrderedDict.getD, get?_decoded]
  split
  · next none => simp [none]
  · rfl

end LlmDRl.Wire
