import LlmDRl.Library.JsonLines
import LlmDRl.Routing.Pick

/-!
# The request that the endpoint picker reads

The two messages at the head of a stream carry the request as JSON: the model,
the token ids and the cache salt, if it is not empty, are read back from the
body, whatever characters the strings have, and the announced length is that
of the body.
-/

namespace LlmDRl.Routing

open LlmDRl.Library
open LlmDRl.Wire

/-! ## The text of a body -/

theorem toList_hex4 {n : Nat} (small : n < 65536) :
    (hex4 n).toList =
      [Nat.digitChar (n / 4096), Nat.digitChar (n / 256 % 16),
        Nat.digitChar (n / 16 % 16), Nat.digitChar (n % 16)] := by
  unfold hex4
  rw [String.toList_ofList]
  by_cases one : n < 16
  · have first : n / 4096 = 0 := by omega
    have second : n / 256 % 16 = 0 := by omega
    have third : n / 16 % 16 = 0 := by omega
    have fourth : n % 16 = n := by omega
    rw [Nat.toDigits_of_lt_base one, first, second, third, fourth]
    rfl
  by_cases two : n / 16 < 16
  · have first : n / 4096 = 0 := by omega
    have second : n / 256 % 16 = 0 := by omega
    have third : n / 16 % 16 = n / 16 := by omega
    rw [Nat.toDigits_of_base_le (by decide) (by omega),
      Nat.toDigits_of_lt_base two, first, second, third]
    rfl
  by_cases three : n / 16 / 16 < 16
  · have first : n / 4096 = 0 := by omega
    have second : n / 256 % 16 = n / 16 / 16 := by omega
    rw [Nat.toDigits_of_base_le (by decide) (by omega),
      Nat.toDigits_of_base_le (by decide) (by omega),
      Nat.toDigits_of_lt_base three, first, second]
    rfl
  · have first : n / 4096 = n / 16 / 16 / 16 := by omega
    have second : n / 256 % 16 = n / 16 / 16 % 16 := by omega
    rw [Nat.toDigits_of_base_le (by decide) (by omega),
      Nat.toDigits_of_base_le (by decide) (by omega),
      Nat.toDigits_of_base_le (by decide) (by omega),
      Nat.toDigits_of_lt_base (by omega), first, second]
    rfl

theorem toList_unicode {n : Nat} (small : n < 65536) :
    ("\\u" ++ hex4 n).toList = Json.unicodeEscape n := by
  rw [String.toList_append, toList_hex4 small]
  rfl

theorem toList_jsonChar (char : Char) :
    (jsonChar char).toList = Json.escape char := by
  have valid : char.toNat < 0xD800 ∨
      (0xDFFF < char.toNat ∧ char.toNat < 0x110000) := char.valid
  unfold jsonChar Json.escape
  split_ifs with slash quote newline carriage tab back feed printable short
  · decide
  · decide
  · decide
  · decide
  · decide
  · decide
  · decide
  · exact String.toList_singleton char
  · exact toList_unicode (by omega)
  · rw [String.append_assoc, String.toList_append, toList_unicode (by omega),
      toList_unicode (by omega)]

theorem toList_jsonString (value : String) :
    (jsonString value).toList = Json.writeString value.toList := by
  have escaped : (String.join (value.toList.map jsonChar)).toList =
      value.toList.flatMap Json.escape := by
    rw [String.toList_join, List.flatMap_map]
    exact List.flatMap_congr fun char _ => toList_jsonChar char
  unfold jsonString
  rw [String.toList_append, String.toList_append, escaped]
  rfl

/-- The JSON value of a part of the payload. -/
def PayloadValue.json {F : Type} : PayloadValue → JsonValue F
  | .text value => .text value
  | .tokenIds value => .array (value.map .int)

variable {F : Type} (format : FloatFormat F)

theorem toList_dumps_value (value : PayloadValue) :
    value.dumps.toList = Json.write format value.json := by
  cases value with
  | text value =>
      rw [PayloadValue.dumps, toList_jsonString, PayloadValue.json, Json.write]
  | tokenIds value =>
      have items : (value.map toString).map String.toList =
          (value.map JsonValue.int).map (Json.write format) := by
        rw [List.map_map, List.map_map]
        refine List.map_congr_left fun id _ => ?_
        rw [Function.comp_apply, Function.comp_apply, Json.write]
      rw [PayloadValue.dumps, PayloadValue.json, Json.write_array, ← items,
        String.toList_append, String.toList_append, String.toList_intercalate]
      rfl

/-- The JSON value of the payload. -/
def payloadJson (payload : OrderedDict String PayloadValue) : JsonValue F :=
  .object (payload.entries.map fun item => (item.1, item.2.json))

theorem dumps_payload (payload : OrderedDict String PayloadValue) :
    dumps payload = Json.dumps format (payloadJson payload) := by
  have members :
      (payload.entries.map fun item =>
        jsonString item.1 ++ ": " ++ item.2.dumps).map String.toList =
          (payload.entries.map fun item => (item.1, item.2.json)).map
            (Json.writeMember format) := by
    rw [List.map_map, List.map_map]
    refine List.map_congr_left fun item _ => ?_
    rw [Function.comp_apply, Function.comp_apply, String.toList_append,
      String.toList_append, toList_jsonString, toList_dumps_value format,
      Json.writeMember, List.append_assoc]
    rfl
  apply String.toList_inj.mp
  rw [Json.dumps, String.toList_ofList, payloadJson, Json.write_object,
    ← members, dumps, String.toList_append, String.toList_append,
    String.toList_intercalate]
  rfl

theorem proper_payloadJson (payload : OrderedDict String PayloadValue) :
    (payloadJson payload).Proper format.IsFloat := by
  refine .object ?_ ?_
  · rw [List.map_map]
    exact payload.nodup
  · intro member inMembers
    obtain ⟨⟨key, value⟩, -, rfl⟩ := List.mem_map.mp inMembers
    cases value with
    | text value => exact .text value
    | tokenIds value =>
        refine .array fun item inItems => ?_
        obtain ⟨id, -, rfl⟩ := List.mem_map.mp inItems
        exact .int id

/-! ## On the stream -/

/-- The request as the endpoint picker reads it. -/
def requestJson (model : String) (promptIds : List Int)
    (cacheSalt : Option String) : JsonValue F :=
  .object
    ([("model", .text model), ("token_ids", .array (promptIds.map .int))] ++
      match cacheSalt with
      | none => []
      | some salt => if salt ≠ "" then [("cache_salt", .text salt)] else [])

theorem payloadJson_payload (model : String) (promptIds : List Int)
    (cacheSalt : Option String) :
    (payloadJson (payload model promptIds cacheSalt) : JsonValue F) =
      requestJson model promptIds cacheSalt := by
  cases cacheSalt with
  | none => rfl
  | some salt =>
      unfold payload requestJson
      by_cases empty : salt ≠ ""
      · dsimp only
        rw [if_pos empty, if_pos empty]
        rfl
      · dsimp only
        rw [if_neg empty, if_neg empty]
        rfl

/-- What is put on a stream before anything is read. -/
theorem sent_route (model : String) (promptIds : List Int)
    (requestId : String) (trackCompletion : Bool) (cacheSalt : Option String)
    (reads : List ReadResult) :
    let body := requestBody model promptIds cacheSalt
    (route model promptIds requestId trackCompletion cacheSalt reads).1 =
      [if trackCompletion then requestHeaders body requestId
        else encodeRequestHeaders
          [(":method", Utf8.encode "POST"),
            (":path", Utf8.encode "/inference/v1/generate"),
            ("content-type", Utf8.encode "application/json"),
            ("content-length", Utf8.encode (toString body.length))],
        encodeRequestBody body] := by
  intro body
  cases trackCompletion with
  | false => rfl
  | true =>
      change (begin body requestId
        ⟨none, none, reads⟩).stream.sent.reduceOption = _
      rw [begin_of_puts, readDecision_sent]
      rfl

/-- Whatever comes back on the stream, the request has been put on it in a way
that gives it back. -/
theorem route_request_received (model : String) (promptIds : List Int)
    (requestId : String) (trackCompletion : Bool) (cacheSalt : Option String)
    (reads : List ReadResult) :
    ∃ first second headers body,
      (route model promptIds requestId trackCompletion cacheSalt reads).1 =
        [first, second] ∧
      decodeHeaders 2 first = some headers ∧
      decodeBody 4 second = some body ∧
      headers.lookup "content-length" =
        some (Utf8.encode (toString body.length)) ∧
      Json.loads format (Utf8.decodeIgnore body) =
        some (requestJson model promptIds cacheSalt) := by
  have sent := sent_route model promptIds requestId trackCompletion cacheSalt
    reads
  have loaded : Json.loads format
      (Utf8.decodeIgnore (requestBody model promptIds cacheSalt)) =
        some (requestJson model promptIds cacheSalt) := by
    rw [requestBody, Utf8.decodeIgnore_encode, dumps_payload format,
      Json.loads_dumps (proper_payloadJson format _), payloadJson_payload]
  cases trackCompletion with
  | false =>
      exact ⟨_, _, _, _, sent, decodeHeaders_lv 2 _ false,
        decodeBody_lv 4 _ true, rfl, loaded⟩
  | true =>
      exact ⟨_, _, _, _, sent, decodeHeaders_lv 2 _ false,
        decodeBody_lv 4 _ true, rfl, loaded⟩

end LlmDRl.Routing
