import LlmDRl.Library.OrderedDict
import Mathlib.Algebra.Ring.Nat
import Mathlib.Data.Int.Notation

/-!
# JSON texts

`write` is `json.dumps` and `loads` is `json.loads`, both with their default
arguments, on lists of characters.  The type of the floats is a parameter:
a `FloatFormat` says how one is written and read back.

A Lean string holds no surrogates, so an escape of one that is not half of a
pair is refused here, where `json.loads` returns a string that cannot be
encoded.  Every round of the scanner reads at least one character, so fuel
beyond the length of the text is never used up.
-/

namespace LlmDRl.Library

/-- A value as the standard decoder returns it; an object is a `dict`, with
its items in order. -/
inductive JsonValue (F : Type) where
  | null
  | bool (value : Bool)
  | int (value : Int)
  | float (value : F)
  | text (value : String)
  | array (items : List (JsonValue F))
  | object (members : List (String × JsonValue F))

namespace JsonValue

/-- At no depth does an object have a key twice, or is a number no float. -/
inductive Proper {F : Type} (IsFloat : F → Prop) : JsonValue F → Prop
  | null : Proper IsFloat .null
  | bool (value : Bool) : Proper IsFloat (.bool value)
  | int (value : Int) : Proper IsFloat (.int value)
  | float {value : F} (isFloat : IsFloat value) :
      Proper IsFloat (.float value)
  | text (value : String) : Proper IsFloat (.text value)
  | array {items : List (JsonValue F)}
      (each : ∀ item ∈ items, Proper IsFloat item) :
      Proper IsFloat (.array items)
  | object {members : List (String × JsonValue F)}
      (keys : (members.map Prod.fst).Nodup)
      (each : ∀ member ∈ members, Proper IsFloat member.2) :
      Proper IsFloat (.object members)

end JsonValue

namespace Json

/-! ## Strings -/

/-- `"\\u{0:04x}".format(unit)` -/
def unicodeEscape (unit : Nat) : List Char :=
  ['\\', 'u', Nat.digitChar (unit / 4096), Nat.digitChar (unit / 256 % 16),
    Nat.digitChar (unit / 16 % 16), Nat.digitChar (unit % 16)]

/-- A character of a string; what is not printable ASCII is escaped. -/
def escape (char : Char) : List Char :=
  if char = '\\' then ['\\', '\\']
  else if char = '"' then ['\\', '"']
  else if char = '\n' then ['\\', 'n']
  else if char = '\r' then ['\\', 'r']
  else if char = '\t' then ['\\', 't']
  else if char.toNat = 0x08 then ['\\', 'b']
  else if char.toNat = 0x0C then ['\\', 'f']
  else if 0x20 ≤ char.toNat ∧ char.toNat ≤ 0x7E then [char]
  else if char.toNat ≤ 0xFFFF then unicodeEscape char.toNat
  else
    -- a surrogate pair
    unicodeEscape (0xD800 + (char.toNat - 0x10000) / 0x400) ++
      unicodeEscape (0xDC00 + (char.toNat - 0x10000) % 0x400)

def writeString (chars : List Char) : List Char :=
  '"' :: chars.flatMap escape ++ ['"']

def hexValue (char : Char) : Option Nat :=
  if char.isDigit then some (char.toNat - 48)
  else if 'a' ≤ char ∧ char ≤ 'f' then some (char.toNat - 87)
  else if 'A' ≤ char ∧ char ≤ 'F' then some (char.toNat - 55)
  else none

/-- The number of four hexadecimal digits. -/
def hexValue4 (a b c d : Char) : Option Nat :=
  (hexValue a).bind fun a => (hexValue b).bind fun b =>
    (hexValue c).bind fun c => (hexValue d).map fun d =>
      4096 * a + 256 * b + 16 * c + d

/-- The character that a backslash and this one stand for. -/
def simpleEscape (char : Char) : Option Char :=
  [('"', '"'), ('\\', '\\'), ('/', '/'), ('b', '\x08'), ('f', '\x0c'),
    ('n', '\n'), ('r', '\r'), ('t', '\t')].lookup char

/-- Put a character in front of a string that has been scanned. -/
def prepend (char : Char) (scanned : List Char × List Char) :
    List Char × List Char :=
  (char :: scanned.1, scanned.2)

/-- `scanstring`, after the opening quote: the string, and what follows the
closing quote. -/
def scanString : List Char → Option (List Char × List Char)
  | [] => none
  | char :: rest =>
      if char = '"' then some ([], rest)
      else if char = '\\' then
        match rest with
        | 'u' :: a :: b :: c :: d :: rest =>
            match hexValue4 a b c d with
            | none => none
            | some unit =>
                if 0xD800 ≤ unit ∧ unit ≤ 0xDBFF then
                  match rest with
                  | '\\' :: 'u' :: a :: b :: c :: d :: rest =>
                      match hexValue4 a b c d with
                      | none => none
                      | some low =>
                          if 0xDC00 ≤ low ∧ low ≤ 0xDFFF then
                            (scanString rest).map (prepend (Char.ofNat
                              (0x10000 + (unit - 0xD800) * 0x400 +
                                (low - 0xDC00))))
                          else none
                  | _ => none
                else if 0xDC00 ≤ unit ∧ unit ≤ 0xDFFF then none
                else (scanString rest).map (prepend (Char.ofNat unit))
        | escaped :: rest =>
            match simpleEscape escaped with
            | none => none
            | some char => (scanString rest).map (prepend char)
        | [] => none
      else if char.toNat < 0x20 then none
      else (scanString rest).map (prepend char)

/-! ## Numbers -/

/-- `-` at the start of a text, and the rest. -/
def splitMinus : List Char → List Char × List Char
  | '-' :: rest => (['-'], rest)
  | text => ([], text)

/-- The digits at the start of a text, and the rest. -/
def splitDigits (text : List Char) : List Char × List Char :=
  (text.takeWhile Char.isDigit, text.dropWhile Char.isDigit)

/-- `-?(?:0|[1-9][0-9]*)` -/
def scanInteger (text : List Char) : Option (List Char × List Char) :=
  let minus := splitMinus text
  match minus.2 with
  | '0' :: rest => some (minus.1 ++ ['0'], rest)
  | body =>
      let digits := splitDigits body
      if digits.1 = [] then none else some (minus.1 ++ digits.1, digits.2)

/-- `(\.[0-9]+)?` -/
def scanFraction (text : List Char) : List Char × List Char :=
  match text with
  | '.' :: rest =>
      let digits := splitDigits rest
      if digits.1 = [] then ([], text) else ('.' :: digits.1, digits.2)
  | _ => ([], text)

/-- `[-+]?` -/
def splitSign : List Char → List Char × List Char
  | '-' :: rest => (['-'], rest)
  | '+' :: rest => (['+'], rest)
  | text => ([], text)

/-- `([eE][-+]?[0-9]+)?` -/
def scanExponent (text : List Char) : List Char × List Char :=
  match text with
  | letter :: rest =>
      if letter = 'e' ∨ letter = 'E' then
        let sign := splitSign rest
        let digits := splitDigits sign.2
        if digits.1 = [] then ([], text)
        else (letter :: sign.1 ++ digits.1, digits.2)
      else ([], text)
  | [] => ([], [])

/-- `int()` of what `scanInteger` finds. -/
def readInteger : List Char → Int
  | '-' :: digits => -(Nat.ofDigitChars 10 digits 0 : Int)
  | digits => (Nat.ofDigitChars 10 digits 0 : Int)

/-! What a number looks like. -/

theorem forall_mem_of_all {p : Char → Prop} [DecidablePred p]
    {text : List Char}
    (all : text.all (fun char => decide (p char)) = true) :
    ∀ char ∈ text, p char := by
  intro char member
  exact of_decide_eq_true (List.all_eq_true.mp all char member)

def IsDigits (text : List Char) : Prop :=
  text ≠ [] ∧ ∀ char ∈ text, char.isDigit

def IsInteger (text : List Char) : Prop :=
  ∃ minus digits, text = minus ++ digits ∧ (minus = [] ∨ minus = ['-']) ∧
    IsDigits digits ∧ (digits.head? = some '0' → digits = ['0'])

def IsFraction (text : List Char) : Prop :=
  text = [] ∨ ∃ digits, IsDigits digits ∧ text = '.' :: digits

def IsExponent (text : List Char) : Prop :=
  text = [] ∨ ∃ letter sign digits,
    (letter = 'e' ∨ letter = 'E') ∧
      (sign = [] ∨ sign = ['-'] ∨ sign = ['+']) ∧ IsDigits digits ∧
      text = letter :: sign ++ digits

/-- A number with a fraction or an exponent. -/
def IsFloatLiteral (text : List Char) : Prop :=
  ∃ integer fraction exponent,
    text = integer ++ fraction ++ exponent ∧ IsInteger integer ∧
      IsFraction fraction ∧ IsExponent exponent ∧
      ¬ (fraction = [] ∧ exponent = [])

def nullWord : List Char := ['n', 'u', 'l', 'l']
def trueWord : List Char := ['t', 'r', 'u', 'e']
def falseWord : List Char := ['f', 'a', 'l', 's', 'e']
def nan : List Char := ['N', 'a', 'N']
def infinity : List Char := ['I', 'n', 'f', 'i', 'n', 'i', 't', 'y']
def negInfinity : List Char := '-' :: infinity

end Json

/-- How floats are written and read: `float.__repr__` and `float()`, with the
names JSON texts of Python have for those that are not finite.  A number that
is no float need not be read back. -/
structure FloatFormat (F : Type) where
  IsFloat : F → Prop
  write : F → List Char
  read : List Char → F
  shape : ∀ x, IsFloat x → Json.IsFloatLiteral (write x) ∨
    write x ∈ [Json.nan, Json.infinity, Json.negInfinity]
  read_write : ∀ x, IsFloat x → read (write x) = x

namespace Json

variable {F : Type} (format : FloatFormat F)

/-! ## Writing -/

mutual

/-- `json.dumps` -/
def write : JsonValue F → List Char
  | .null => nullWord
  | .bool true => trueWord
  | .bool false => falseWord
  | .int value => (toString value).toList
  | .float value => format.write value
  | .text value => writeString value.toList
  | .array [] => ['[', ']']
  | .array (item :: rest) => '[' :: write item ++ writeItems rest
  | .object [] => ['\x7b', '\x7d']
  | .object ((key, value) :: rest) =>
      '\x7b' :: writeString key.toList ++ ':' :: ' ' :: write value ++
        writeMembers rest

/-- The items after the first one, and the bracket. -/
def writeItems : List (JsonValue F) → List Char
  | [] => [']']
  | item :: rest => ',' :: ' ' :: write item ++ writeItems rest

/-- The members after the first one, and the brace. -/
def writeMembers : List (String × JsonValue F) → List Char
  | [] => ['\x7d']
  | (key, value) :: rest =>
      ',' :: ' ' :: writeString key.toList ++ ':' :: ' ' :: write value ++
        writeMembers rest

end

def dumps (value : JsonValue F) : String := String.ofList (write format value)

/-- A key and its value. -/
def writeMember (member : String × JsonValue F) : List Char :=
  writeString member.1.toList ++ ':' :: ' ' :: write format member.2

theorem write_append_writeItems
    (item : JsonValue F) (items : List (JsonValue F)) :
    write format item ++ writeItems format items =
      [',', ' '].intercalate ((item :: items).map (write format)) ++ [']'] := by
  induction items generalizing item with
  | nil =>
      rw [writeItems, List.map_singleton, List.intercalate_singleton]
  | cons next items inductionHypothesis =>
      rw [writeItems, List.cons_append, List.cons_append,
        inductionHypothesis next]
      simp

theorem writeMember_append_writeMembers
    (member : String × JsonValue F) (members : List (String × JsonValue F)) :
    writeMember format member ++ writeMembers format members =
      [',', ' '].intercalate ((member :: members).map (writeMember format)) ++
        ['\x7d'] := by
  induction members generalizing member with
  | nil =>
      rw [writeMembers, List.map_singleton, List.intercalate_singleton]
  | cons next members inductionHypothesis =>
      have others := inductionHypothesis next
      obtain ⟨key, value⟩ := next
      rw [List.map_cons, List.map_cons, List.intercalate_cons_cons,
        List.append_assoc, ← List.map_cons, ← others, writeMembers]
      simp [writeMember]

theorem write_array (items : List (JsonValue F)) :
    write format (.array items) =
      '[' :: [',', ' '].intercalate (items.map (write format)) ++ [']'] := by
  cases items with
  | nil =>
      rw [write]
      rfl
  | cons item items =>
      rw [write, List.cons_append, write_append_writeItems, List.cons_append]

theorem write_object (members : List (String × JsonValue F)) :
    write format (.object members) =
      '\x7b' :: [',', ' '].intercalate (members.map (writeMember format)) ++
        ['\x7d'] := by
  cases members with
  | nil =>
      rw [write]
      rfl
  | cons member members =>
      have separated := writeMember_append_writeMembers format member members
      obtain ⟨key, value⟩ := member
      rw [List.cons_append, ← separated, write, writeMember]
      simp

/-! ## Reading -/

def isSpace (char : Char) : Bool :=
  char = ' ' || char = '\t' || char = '\n' || char = '\r'

def skipSpace (text : List Char) : List Char := text.dropWhile isSpace

/-- The values that are words. -/
def words : List (List Char × JsonValue F) :=
  [(nullWord, .null), (trueWord, .bool true), (falseWord, .bool false),
    (nan, .float (format.read nan)),
    (infinity, .float (format.read infinity)),
    (negInfinity, .float (format.read negInfinity))]

def scanWord (text : List Char) : Option (JsonValue F × List Char) :=
  (words format).findSome? fun word =>
    if word.1.isPrefixOf text then
      some (word.2, text.drop word.1.length)
    else
      none

/-- `match_number` -/
def scanNumber (text : List Char) : Option (JsonValue F × List Char) :=
  match scanInteger text with
  | none => none
  | some (integer, rest) =>
      let fraction := scanFraction rest
      let exponent := scanExponent fraction.2
      if fraction.1 = [] ∧ exponent.1 = [] then
        some (.int (readInteger integer), exponent.2)
      else
        some (.float (format.read (integer ++ fraction.1 ++ exponent.1)),
          exponent.2)

/-- `dict(pairs)`: a later value of a key replaces an earlier one. -/
def dictOf (pairs : List (String × JsonValue F)) :
    List (String × JsonValue F) :=
  pairs.foldl (fun dict pair => assignEntries pair.1 pair.2 dict) []

mutual

/-- `scan_once`: a value at the start of a text, and the rest. -/
def scanValue : Nat → List Char → Option (JsonValue F × List Char)
  | 0, _ => none
  | _ + 1, [] => none
  | fuel + 1, char :: rest =>
      if char = '"' then
        match scanString rest with
        | none => none
        | some (chars, rest) => some (.text (String.ofList chars), rest)
      else if char = '[' then
        match skipSpace rest with
        | ']' :: rest => some (.array [], rest)
        | rest =>
            match scanItems fuel rest with
            | none => none
            | some (items, rest) => some (.array items, rest)
      else if char = '\x7b' then
        match skipSpace rest with
        | '\x7d' :: rest => some (.object [], rest)
        | rest =>
            match scanMembers fuel rest with
            | none => none
            | some (pairs, rest) => some (.object (dictOf pairs), rest)
      else
        match scanWord format (char :: rest) with
        | some found => some found
        | none => scanNumber format (char :: rest)

/-- The loop of `JSONArray`, at a value. -/
def scanItems : Nat → List Char → Option (List (JsonValue F) × List Char)
  | 0, _ => none
  | fuel + 1, text =>
      match scanValue fuel text with
      | none => none
      | some (item, rest) =>
          match skipSpace rest with
          | ']' :: rest => some ([item], rest)
          | ',' :: rest =>
              match scanItems fuel (skipSpace rest) with
              | none => none
              | some (items, rest) => some (item :: items, rest)
          | _ => none

/-- The loop of `JSONObject`, at a key. -/
def scanMembers :
    Nat → List Char → Option (List (String × JsonValue F) × List Char)
  | 0, _ => none
  | fuel + 1, text =>
      match text with
      | '"' :: rest =>
          match scanString rest with
          | none => none
          | some (key, rest) =>
              match skipSpace rest with
              | ':' :: rest =>
                  match scanValue fuel (skipSpace rest) with
                  | none => none
                  | some (value, rest) =>
                      match skipSpace rest with
                      | '\x7d' :: rest =>
                          some ([(String.ofList key, value)], rest)
                      | ',' :: rest =>
                          match scanMembers fuel (skipSpace rest) with
                          | none => none
                          | some (pairs, rest) =>
                              some ((String.ofList key, value) :: pairs, rest)
                      | _ => none
              | _ => none
      | _ => none

end

/-- `json.loads`, with `none` for a `JSONDecodeError`. -/
def loads (text : String) : Option (JsonValue F) :=
  match scanValue format (text.length + 1) (skipSpace text.toList) with
  | none => none
  | some (value, rest) => if skipSpace rest = [] then some value else none

end Json

end LlmDRl.Library
