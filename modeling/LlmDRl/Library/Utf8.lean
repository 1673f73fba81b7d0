/-!
# Text as UTF-8

`encode` and a decoder that drops what is not UTF-8.  A lone byte is dropped
at a time: the continuation bytes of a sequence that was cut short are then
dropped as well, since none of them starts a character.
-/

namespace LlmDRl.Library.Utf8

/-- `text.encode()` -/
def encode (text : String) : List UInt8 :=
  text.toList.flatMap String.utf8EncodeChar

def decodeChars : List UInt8 → List Char
  | [] => []
  | byte :: rest =>
      match (byte :: rest).toByteArray.utf8DecodeChar? 0 with
      | some char => char :: decodeChars (rest.drop (char.utf8Size - 1))
      | none => decodeChars rest
termination_by bytes => bytes.length
decreasing_by
  · simp only [List.length_drop, List.length_cons]
    omega
  · simp

/-- `data.decode(errors="ignore")` -/
def decodeIgnore (data : List UInt8) : String :=
  String.ofList (decodeChars data)

theorem decodeChars_encodeChar (char : Char) (rest : List UInt8) :
    decodeChars (String.utf8EncodeChar char ++ rest) =
      char :: decodeChars rest := by
  have length : (String.utf8EncodeChar char).length = char.utf8Size :=
    String.length_utf8EncodeChar char
  have positive := char.utf8Size_pos
  have decoded :
      (String.utf8EncodeChar char ++ rest).toByteArray.utf8DecodeChar? 0 =
        some char := by
    rw [List.toByteArray_append]
    exact ByteArray.utf8DecodeChar?_utf8EncodeChar_append
  cases bytes : String.utf8EncodeChar char with
  | nil =>
      rw [bytes, List.length_nil] at length
      omega
  | cons first others =>
      rw [bytes] at decoded
      rw [bytes, List.length_cons] at length
      rw [List.cons_append] at decoded ⊢
      rw [decodeChars, decoded]
      have after : (others ++ rest).drop (char.utf8Size - 1) = rest := by
        rw [← length, Nat.add_sub_cancel, List.drop_left]
      simp only [after]

theorem decodeChars_encode (chars : List Char) :
    decodeChars (chars.flatMap String.utf8EncodeChar) = chars := by
  induction chars with
  | nil =>
      rw [List.flatMap_nil, decodeChars]
  | cons char rest inductionHypothesis =>
      rw [List.flatMap_cons, decodeChars_encodeChar, inductionHypothesis]

/-- Text survives being encoded and decoded. -/
@[simp]
theorem decodeIgnore_encode (text : String) :
    decodeIgnore (encode text) = text := by
  rw [decodeIgnore, encode, decodeChars_encode, String.ofList_toList]

end LlmDRl.Library.Utf8
