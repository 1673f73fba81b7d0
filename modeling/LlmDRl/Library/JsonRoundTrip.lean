import LlmDRl.Library.Json

/-!
# What is written as JSON is read back

`scanValue` finds at the start of a text the value that was written there,
whatever follows that could not go on with a number.
-/

namespace LlmDRl.Library.Json

/-! ## Strings -/

theorem hexValue_digitChar {n : Nat} (small : n < 16) :
    hexValue (Nat.digitChar n) = some n := by
  have all : ∀ n : Fin 16, hexValue (Nat.digitChar n) = some n.val := by
    decide
  exact all ⟨n, small⟩

theorem hexValue4_digits {unit : Nat} (small : unit < 65536) :
    hexValue4 (Nat.digitChar (unit / 4096)) (Nat.digitChar (unit / 256 % 16))
        (Nat.digitChar (unit / 16 % 16)) (Nat.digitChar (unit % 16)) =
      some unit := by
  unfold hexValue4
  rw [hexValue_digitChar (by omega), hexValue_digitChar (by omega),
    hexValue_digitChar (by omega), hexValue_digitChar (by omega)]
  simp only [Option.bind_some, Option.map_some, Option.some.injEq]
  omega

theorem scanString_simpleEscape {escaped char : Char}
    (notU : escaped ≠ 'u') (found : simpleEscape escaped = some char)
    (rest : List Char) :
    scanString ('\\' :: escaped :: rest) =
      (scanString rest).map (prepend char) := by
  rw [scanString.eq_def]
  simp [found, notU]

theorem scanString_unicodeEscape {unit : Nat}
    (whole : unit < 0xD800 ∨ (0xDFFF < unit ∧ unit < 0x10000))
    (rest : List Char) :
    scanString (unicodeEscape unit ++ rest) =
      (scanString rest).map (prepend (Char.ofNat unit)) := by
  have value := hexValue4_digits (show unit < 65536 by omega)
  have notHigh : ¬ (0xD800 ≤ unit ∧ unit ≤ 0xDBFF) := by omega
  have notLow : ¬ (0xDC00 ≤ unit ∧ unit ≤ 0xDFFF) := by omega
  rw [scanString.eq_def]
  simp [unicodeEscape, value, notHigh, notLow]

theorem scanString_surrogates {high low : Nat}
    (highPart : 0xD800 ≤ high ∧ high ≤ 0xDBFF)
    (lowPart : 0xDC00 ≤ low ∧ low ≤ 0xDFFF)
    (rest : List Char) :
    scanString (unicodeEscape high ++ unicodeEscape low ++ rest) =
      (scanString rest).map (prepend (Char.ofNat
        (0x10000 + (high - 0xD800) * 0x400 + (low - 0xDC00)))) := by
  have highValue := hexValue4_digits (show high < 65536 by omega)
  have lowValue := hexValue4_digits (show low < 65536 by omega)
  rw [scanString.eq_def]
  simp [unicodeEscape, highValue, lowValue, highPart, lowPart]

theorem scanString_plain {char : Char}
    (notQuote : char ≠ '"') (notSlash : char ≠ '\\')
    (printable : 0x20 ≤ char.toNat) (rest : List Char) :
    scanString (char :: rest) = (scanString rest).map (prepend char) := by
  rw [scanString.eq_def]
  simp [notQuote, notSlash, printable]

theorem scanString_escape (char : Char) (rest : List Char) :
    scanString (escape char ++ rest) =
      (scanString rest).map (prepend char) := by
  have valid : char.toNat < 0xD800 ∨
      (0xDFFF < char.toNat ∧ char.toNat < 0x110000) := char.valid
  unfold escape
  split_ifs with slash quote newline carriage tab back feed printable short
  · rw [slash]
    exact scanString_simpleEscape (by decide) rfl rest
  · rw [quote]
    exact scanString_simpleEscape (by decide) rfl rest
  · rw [newline]
    exact scanString_simpleEscape (by decide) rfl rest
  · rw [carriage]
    exact scanString_simpleEscape (by decide) rfl rest
  · rw [tab]
    exact scanString_simpleEscape (by decide) rfl rest
  · have same : char = '\x08' := by
      rw [← Char.ofNat_toNat char, back]
    rw [same]
    exact scanString_simpleEscape (by decide) rfl rest
  · have same : char = '\x0c' := by
      rw [← Char.ofNat_toNat char, feed]
    rw [same]
    exact scanString_simpleEscape (by decide) rfl rest
  · exact scanString_plain quote slash printable.1 rest
  · rw [scanString_unicodeEscape (by omega), Char.ofNat_toNat]
  · rw [scanString_surrogates (by omega) (by omega)]
    have sum : 0x10000 +
          (0xD800 + (char.toNat - 0x10000) / 0x400 - 0xD800) * 0x400 +
          (0xDC00 + (char.toNat - 0x10000) % 0x400 - 0xDC00) =
        char.toNat := by
      omega
    rw [sum, Char.ofNat_toNat]

/-! ## Numbers -/

/-- Nothing that could go on with a number. -/
def Stops (rest : List Char) : Prop :=
  ∀ char, rest.head? = some char →
    char.isDigit = false ∧ char ≠ '.' ∧ char ≠ 'e' ∧ char ≠ 'E'

theorem splitDigits_append {digits rest : List Char}
    (allDigits : ∀ char ∈ digits, char.isDigit)
    (stops : ∀ char, rest.head? = some char → char.isDigit = false) :
    splitDigits (digits ++ rest) = (digits, rest) := by
  unfold splitDigits
  rw [List.takeWhile_append_of_pos allDigits,
    List.dropWhile_append_of_pos allDigits]
  cases rest with
  | nil => simp
  | cons char rest => simp [stops char rfl]

theorem splitMinus_digit {char : Char} (digit : char.isDigit)
    (rest : List Char) : splitMinus (char :: rest) = ([], char :: rest) := by
  unfold splitMinus
  split
  · next same =>
      obtain ⟨rfl, -⟩ := List.cons.inj same
      cases digit
  · rfl

theorem scanInteger_append {integer rest : List Char}
    (shape : IsInteger integer)
    (stops : ∀ char, rest.head? = some char → char.isDigit = false) :
    scanInteger (integer ++ rest) = some (integer, rest) := by
  obtain ⟨minus, digits, rfl, signed, ⟨nonempty, allDigits⟩, zero⟩ := shape
  have unsigned : splitMinus (minus ++ digits ++ rest) =
      (minus, digits ++ rest) := by
    obtain rfl | rfl := signed
    · cases digits with
      | nil => exact absurd rfl nonempty
      | cons digit digits =>
          exact splitMinus_digit (allDigits digit (by simp)) (digits ++ rest)
    · rfl
  unfold scanInteger
  rw [unsigned]
  simp only
  split
  · next tail starts =>
      have single : digits = ['0'] := by
        apply zero
        cases digits with
        | nil => exact absurd rfl nonempty
        | cons digit digits => simp_all
      subst single
      simp_all
  · rw [splitDigits_append allDigits stops, if_neg nonempty]

theorem scanFraction_append {fraction rest : List Char}
    (shape : IsFraction fraction)
    (stops : ∀ char, rest.head? = some char →
      char.isDigit = false ∧ char ≠ '.') :
    scanFraction (fraction ++ rest) = (fraction, rest) := by
  obtain rfl | ⟨digits, ⟨nonempty, allDigits⟩, rfl⟩ := shape
  · unfold scanFraction
    split
    · next text tail same =>
        exact absurd rfl (stops '.' (by simp_all)).2
    · rfl
  · simp [scanFraction, nonempty,
      splitDigits_append allDigits fun char first => (stops char first).1]

theorem scanExponent_append {exponent rest : List Char}
    (shape : IsExponent exponent) (stops : Stops rest) :
    scanExponent (exponent ++ rest) = (exponent, rest) := by
  obtain rfl | ⟨letter, sign, digits, letters, signs, ⟨nonempty, allDigits⟩,
    rfl⟩ := shape
  · cases rest with
    | nil => rfl
    | cons char rest =>
        obtain ⟨-, -, notLower, notUpper⟩ := stops char rfl
        simp [scanExponent, notLower, notUpper]
  · have split : splitSign (sign ++ (digits ++ rest)) =
        (sign, digits ++ rest) := by
      obtain rfl | rfl | rfl := signs
      · cases digits with
        | nil => exact absurd rfl nonempty
        | cons digit digits =>
            have isDigit := allDigits digit (by simp)
            unfold splitSign
            split
            · simp_all
            · simp_all
            · rfl
      · rfl
      · rfl
    simp [scanExponent, letters, split, nonempty,
      splitDigits_append allDigits fun char first => (stops char first).1]

theorem toDigits_head {n : Nat}
    (zero : (Nat.toDigits 10 n).head? = some '0') :
    Nat.toDigits 10 n = ['0'] := by
  induction n using Nat.strongRecOn with
  | ind n inductionHypothesis =>
      by_cases small : n < 10
      · rw [Nat.toDigits_of_lt_base small] at zero ⊢
        simpa using zero
      · rw [Nat.toDigits_of_base_le (by omega) (by omega)] at zero
        have first : (Nat.toDigits 10 (n / 10)).head? = some '0' := by
          rw [List.head?_append_of_ne_nil _ (by simp)] at zero
          exact zero
        have prefixZero := inductionHypothesis (n / 10) (by omega) first
        have value := Nat.ofDigitChars_ten_toDigits (n := n / 10)
        rw [prefixZero] at value
        have : n / 10 = 0 := value.symm
        omega

theorem isDigits_toDigits (n : Nat) : IsDigits (Nat.toDigits 10 n) := by
  refine ⟨by simp, fun char member => ?_⟩
  exact Nat.isDigit_of_mem_toDigits (by decide) (by decide) member

theorem toList_toString_int (value : Int) :
    (toString value).toList =
      (if value < 0 then ['-'] else []) ++ Nat.toDigits 10 value.natAbs := by
  cases value with
  | ofNat n =>
      simp [toString, Int.repr, Nat.repr]
  | negSucc n =>
      simp [toString, Int.repr, Nat.repr]

theorem isInteger_toString (value : Int) :
    IsInteger (toString value).toList := by
  rw [toList_toString_int]
  exact ⟨_, _, rfl, by split <;> simp, isDigits_toDigits _, toDigits_head⟩

theorem readInteger_toString (value : Int) :
    readInteger (toString value).toList = value := by
  rw [toList_toString_int]
  split
  · next negative =>
      show -(Nat.ofDigitChars 10 (Nat.toDigits 10 value.natAbs) 0 : Int) = value
      rw [Nat.ofDigitChars_ten_toDigits]
      omega
  · next nonneg =>
      unfold readInteger
      split
      · next digits same =>
          have bad := (isDigits_toDigits value.natAbs).2 '-' (by simp_all)
          cases bad
      · rw [List.nil_append, Nat.ofDigitChars_ten_toDigits]
        omega

variable {F : Type} (format : FloatFormat F)

/-! ## Words -/

theorem exists_cons_of_isInteger {integer : List Char}
    (shape : IsInteger integer) :
    (∃ digit rest, integer = digit :: rest ∧ digit.isDigit) ∨
      ∃ digit rest, integer = '-' :: digit :: rest ∧ digit.isDigit := by
  obtain ⟨minus, digits, rfl, signed, ⟨nonempty, allDigits⟩, -⟩ := shape
  cases digits with
  | nil => exact absurd rfl nonempty
  | cons digit digits =>
      have isDigit := allDigits digit (by simp)
      obtain rfl | rfl := signed
      · exact .inl ⟨digit, digits, rfl, isDigit⟩
      · exact .inr ⟨digit, digits, rfl, isDigit⟩

theorem scanWord_integer {integer : List Char} (shape : IsInteger integer)
    (rest : List Char) : scanWord format (integer ++ rest) = none := by
  have letters : ∀ {char : Char}, char.isDigit → char ≠ 'n' ∧ char ≠ 't' ∧
      char ≠ 'f' ∧ char ≠ 'N' ∧ char ≠ 'I' ∧ char ≠ '-' := by
    intro char digit
    refine ⟨?_, ?_, ?_, ?_, ?_, ?_⟩ <;>
      · rintro rfl
        cases digit
  obtain ⟨digit, tail, rfl, isDigit⟩ | ⟨digit, tail, rfl, isDigit⟩ :=
    exists_cons_of_isInteger shape
  · obtain ⟨n, t, f, upperN, upperI, minus⟩ := letters isDigit
    simp [scanWord, words, nullWord, trueWord, falseWord, nan, infinity,
      negInfinity, n.symm, t.symm, f.symm,
      upperN.symm, upperI.symm, minus.symm]
  · obtain ⟨n, t, f, upperN, upperI, minus⟩ := letters isDigit
    simp [scanWord, words, nullWord, trueWord, falseWord, nan, infinity,
      negInfinity, upperI.symm]

theorem scanWord_word {word : List Char} {value : JsonValue F}
    (member : (word, value) ∈ words format) (rest : List Char) :
    scanWord format (word ++ rest) = some (value, rest) := by
  simp only [words, List.mem_cons, Prod.mk.injEq, List.not_mem_nil,
    or_false] at member
  obtain ⟨rfl, rfl⟩ | ⟨rfl, rfl⟩ | ⟨rfl, rfl⟩ | ⟨rfl, rfl⟩ | ⟨rfl, rfl⟩ |
    ⟨rfl, rfl⟩ := member <;>
    simp [scanWord, words, nullWord, trueWord, falseWord, nan, infinity,
      negInfinity]

theorem scanNumber_integer {integer rest : List Char}
    (shape : IsInteger integer) (stops : Stops rest) :
    scanNumber format (integer ++ rest) =
      some (.int (readInteger integer), rest) := by
  have noFraction := scanFraction_append (.inl rfl) fun char first =>
    ⟨(stops char first).1, (stops char first).2.1⟩
  have noExponent := scanExponent_append (.inl rfl) stops
  rw [List.nil_append] at noFraction noExponent
  unfold scanNumber
  rw [scanInteger_append shape fun char first => (stops char first).1]
  simp only [noFraction, noExponent, and_self, if_true]

theorem scanNumber_float {literal rest : List Char}
    (shape : IsFloatLiteral literal) (stops : Stops rest) :
    scanNumber format (literal ++ rest) =
      some (.float (format.read literal), rest) := by
  obtain ⟨integer, fraction, exponent, rfl, isInteger, isFraction, isExponent,
    notInteger⟩ := shape
  have stopsExponent : ∀ char, (exponent ++ rest).head? = some char →
      char.isDigit = false ∧ char ≠ '.' := by
    intro char first
    obtain rfl | ⟨letter, sign, digits, rfl | rfl, -, -, rfl⟩ := isExponent
    · exact ⟨(stops char first).1, (stops char first).2.1⟩
    · obtain rfl := Option.some.inj first
      decide
    · obtain rfl := Option.some.inj first
      decide
  have stopsFraction : ∀ char,
      (fraction ++ (exponent ++ rest)).head? = some char →
        char.isDigit = false := by
    intro char first
    obtain rfl | ⟨digits, -, rfl⟩ := isFraction
    · exact (stopsExponent char first).1
    · obtain rfl := Option.some.inj first
      rfl
  unfold scanNumber
  rw [List.append_assoc, List.append_assoc,
    scanInteger_append isInteger stopsFraction]
  simp only [scanFraction_append isFraction stopsExponent,
    scanExponent_append isExponent stops, if_neg notInteger, List.append_assoc]

/-! ## Values -/

/-- Where a value starts. -/
structure Opens (char : Char) : Prop where
  notSpace : isSpace char = false
  notBracket : char ≠ ']'
  notBrace : char ≠ '\x7d'

theorem opens_of_isDigit {char : Char} (digit : char.isDigit) :
    Opens char := by
  refine ⟨?_, ?_, ?_⟩
  · by_contra space
    simp only [isSpace, Bool.or_eq_true, decide_eq_true_eq,
      Bool.not_eq_false] at space
    obtain ((rfl | rfl) | rfl) | rfl := space <;> cases digit
  · rintro rfl
    cases digit
  · rintro rfl
    cases digit

theorem exists_opens_of_isInteger {integer : List Char}
    (shape : IsInteger integer) :
    ∃ char rest, integer = char :: rest ∧ Opens char ∧
      char ≠ '"' ∧ char ≠ '[' ∧ char ≠ '\x7b' := by
  obtain ⟨digit, rest, rfl, isDigit⟩ | ⟨digit, rest, rfl, isDigit⟩ :=
    exists_cons_of_isInteger shape
  · refine ⟨digit, rest, rfl, opens_of_isDigit isDigit, ?_, ?_, ?_⟩ <;>
      · rintro rfl
        cases isDigit
  · exact ⟨'-', _, rfl, ⟨rfl, by decide, by decide⟩, by decide, by decide,
      by decide⟩

/-- A value that is not a string, an array or an object is scanned as a word
or as a number. -/
theorem scanValue_scalar {char : Char} {rest : List Char} (fuel : Nat)
    (notQuote : char ≠ '"') (notBracket : char ≠ '[')
    (notBrace : char ≠ '\x7b') :
    scanValue format (fuel + 1) (char :: rest) =
      (scanWord format (char :: rest)).or
        (scanNumber format (char :: rest)) := by
  rw [scanValue]
  simp only [notQuote, notBracket, notBrace, if_false]
  cases scanWord format (char :: rest) with
  | none => rfl
  | some found => rfl

theorem exists_cons_of_mem_words {word : List Char} {value : JsonValue F}
    (member : (word, value) ∈ words format) :
    ∃ char rest, word = char :: rest ∧ Opens char ∧
      char ≠ '"' ∧ char ≠ '[' ∧ char ≠ '\x7b' := by
  simp only [words, List.mem_cons, Prod.mk.injEq, List.not_mem_nil,
    or_false] at member
  obtain ⟨rfl, -⟩ | ⟨rfl, -⟩ | ⟨rfl, -⟩ | ⟨rfl, -⟩ | ⟨rfl, -⟩ | ⟨rfl, -⟩ :=
    member <;>
    exact ⟨_, _, rfl, ⟨rfl, by decide, by decide⟩, by decide, by decide,
      by decide⟩

/-- The text of a value is read back, whatever follows it; as many rounds of
the scanner as it has characters are enough. -/
structure Reads (value : JsonValue F) : Prop where
  opens : ∃ char rest, write format value = char :: rest ∧ Opens char
  scans : ∀ fuel rest, Stops rest → (write format value).length ≤ fuel →
    scanValue format fuel (write format value ++ rest) = some (value, rest)

variable {format}

theorem reads_word {value : JsonValue F}
    (member : (write format value, value) ∈ words format) :
    Reads format value := by
  obtain ⟨char, tail, same, opens, notQuote, notBracket, notBrace⟩ :=
    exists_cons_of_mem_words format member
  refine ⟨⟨char, tail, same, opens⟩, ?_⟩
  intro fuel rest stops enough
  cases fuel with
  | zero =>
      simp [same] at enough
  | succ fuel =>
      have found := scanWord_word format member rest
      rw [same, List.cons_append] at found ⊢
      rw [scanValue_scalar format fuel notQuote notBracket notBrace, found]
      rfl

theorem reads_number {integer tail : List Char} {value : JsonValue F}
    (same : write format value = integer ++ tail)
    (shape : IsInteger integer)
    (scanned : ∀ rest, Stops rest →
      scanNumber format (write format value ++ rest) = some (value, rest)) :
    Reads format value := by
  obtain ⟨char, others, rfl, opens, notQuote, notBracket, notBrace⟩ :=
    exists_opens_of_isInteger shape
  refine ⟨⟨char, others ++ tail, same, opens⟩, ?_⟩
  intro fuel rest stops enough
  cases fuel with
  | zero =>
      simp [same] at enough
  | succ fuel =>
      have notWord := scanWord_integer format shape (tail ++ rest)
      have found := scanned rest stops
      rw [same, List.append_assoc, List.cons_append] at found ⊢
      rw [List.cons_append] at notWord
      rw [scanValue_scalar format fuel notQuote notBracket notBrace, notWord,
        found]
      rfl

theorem reads_int (value : Int) : Reads format (.int value : JsonValue F) := by
  have written : write format (.int value : JsonValue F) =
      (toString value).toList := by
    rw [write]
  have shape := isInteger_toString value
  refine reads_number (by rw [written, List.append_nil]) shape ?_
  intro rest stops
  rw [written, scanNumber_integer format shape stops, readInteger_toString]

theorem reads_float {value : F} (isFloat : format.IsFloat value) :
    Reads format (.float value) := by
  have written : write format (.float value) = format.write value := by
    rw [write]
  have back := format.read_write value isFloat
  obtain literal | special := format.shape value isFloat
  · have parts := literal
    obtain ⟨integer, fraction, exponent, same, isInteger, -⟩ := parts
    rw [List.append_assoc] at same
    refine reads_number (written.trans same) isInteger ?_
    intro rest stops
    rw [written, scanNumber_float format literal stops, back]
  · apply reads_word
    rw [written]
    simp only [List.mem_cons, List.not_mem_nil, or_false] at special
    obtain same | same | same := special <;>
      · rw [same] at back ⊢
        simp [words, back]

theorem scanString_flatMap (chars rest : List Char) :
    scanString (chars.flatMap escape ++ '"' :: rest) = some (chars, rest) := by
  induction chars with
  | nil =>
      rw [scanString.eq_def]
      simp
  | cons char chars inductionHypothesis =>
      rw [List.flatMap_cons, List.append_assoc, scanString_escape,
        inductionHypothesis]
      rfl

theorem writeString_append (chars rest : List Char) :
    writeString chars ++ rest =
      '"' :: (chars.flatMap escape ++ '"' :: rest) := by
  simp [writeString]

theorem reads_text (value : String) :
    Reads format (.text value : JsonValue F) := by
  have opens : Opens '"' := ⟨rfl, by decide, by decide⟩
  refine ⟨⟨'"', _, by rw [write, writeString]; rfl, opens⟩, ?_⟩
  intro fuel rest stops enough
  rw [write] at enough ⊢
  cases fuel with
  | zero =>
      simp [writeString] at enough
  | succ fuel =>
      rw [writeString_append, scanValue]
      simp [scanString_flatMap]

/-! ## Arrays -/

theorem skipSpace_opens {char : Char} {text : List Char}
    (notSpace : isSpace char = false) :
    skipSpace (char :: text) = char :: text := by
  simp [skipSpace, notSpace]

theorem skipSpace_blank (text : List Char) :
    skipSpace (' ' :: text) = skipSpace text := by
  simp [skipSpace, isSpace]

theorem skipSpace_write {value : JsonValue F} (reads : Reads format value)
    (rest : List Char) :
    skipSpace (write format value ++ rest) = write format value ++ rest := by
  obtain ⟨char, tail, same, opens⟩ := reads.opens
  rw [same]
  exact skipSpace_opens opens.notSpace

theorem stops_cons {char : Char} {rest : List Char}
    (stop : char.isDigit = false ∧ char ≠ '.' ∧ char ≠ 'e' ∧ char ≠ 'E') :
    Stops (char :: rest) := by
  rintro first same
  obtain rfl := Option.some.inj same
  exact stop

theorem stops_writeItems (format : FloatFormat F)
    (items : List (JsonValue F)) (rest : List Char) :
    Stops (writeItems format items ++ rest) := by
  cases items with
  | nil =>
      rw [writeItems]
      exact stops_cons (by decide)
  | cons item items =>
      rw [writeItems]
      exact stops_cons (by decide)

theorem writeItems_length (format : FloatFormat F)
    (items : List (JsonValue F)) :
    1 ≤ (writeItems format items).length := by
  cases items with
  | nil =>
      simp [writeItems]
  | cons item items =>
      simp [writeItems]

theorem scanItems_write (items : List (JsonValue F)) :
    ∀ (item : JsonValue F) (fuel : Nat) (rest : List Char),
      Reads format item → (∀ item ∈ items, Reads format item) →
      (write format item).length + (writeItems format items).length ≤ fuel →
      scanItems format fuel
          (write format item ++ (writeItems format items ++ rest)) =
        some (item :: items, rest) := by
  induction items with
  | nil =>
      intro item fuel rest reads _ enough
      have closing := writeItems_length format []
      obtain ⟨fuel, rfl⟩ : ∃ less, fuel = less + 1 := ⟨fuel - 1, by omega⟩
      rw [scanItems,
        reads.scans fuel _ (stops_writeItems format [] rest) (by omega)]
      have bracket : isSpace ']' = false := rfl
      rw [writeItems, List.cons_append, List.nil_append]
      simp only [skipSpace_opens bracket]
  | cons next items inductionHypothesis =>
      intro item fuel rest reads readsOthers enough
      have closing := writeItems_length format (next :: items)
      obtain ⟨fuel, rfl⟩ : ∃ less, fuel = less + 1 := ⟨fuel - 1, by omega⟩
      rw [scanItems,
        reads.scans fuel _ (stops_writeItems format _ rest) (by omega)]
      rw [writeItems] at enough ⊢
      simp only [List.length_cons, List.length_append] at enough
      have readsNext := readsOthers next (by simp)
      have others := inductionHypothesis next fuel rest readsNext
        (fun item member => readsOthers item (by simp [member])) (by omega)
      have comma : isSpace ',' = false := rfl
      simp only [List.cons_append, List.append_assoc, skipSpace_opens comma,
        skipSpace_blank, skipSpace_write readsNext, others]

theorem reads_array {items : List (JsonValue F)}
    (each : ∀ item ∈ items, Reads format item) :
    Reads format (.array items) := by
  have opens : Opens '[' := ⟨rfl, by decide, by decide⟩
  cases items with
  | nil =>
      refine ⟨⟨'[', [']'], by rw [write], opens⟩, ?_⟩
      intro fuel rest stops enough
      rw [write] at enough ⊢
      obtain ⟨fuel, rfl⟩ : ∃ less, fuel = less + 1 :=
        ⟨fuel - 1, by simp at enough; omega⟩
      rw [List.cons_append, scanValue]
      simp [skipSpace_opens, isSpace]
  | cons item items =>
      refine ⟨⟨'[', _, by rw [write]; rfl, opens⟩, ?_⟩
      intro fuel rest stops enough
      rw [write] at enough ⊢
      simp only [List.length_cons, List.length_append] at enough
      obtain ⟨fuel, rfl⟩ : ∃ less, fuel = less + 1 := ⟨fuel - 1, by omega⟩
      have found := scanItems_write items item fuel rest
        (each item (by simp)) (fun item member => each item (by simp [member]))
        (by omega)
      obtain ⟨char, tail, same, opens⟩ := (each item (by simp)).opens
      rw [List.cons_append, List.cons_append, List.append_assoc, scanValue]
      rw [same, List.cons_append] at found ⊢
      simp [skipSpace_opens opens.notSpace, opens.notBracket, found]

/-! ## Objects -/

theorem stops_writeMembers (format : FloatFormat F)
    (members : List (String × JsonValue F)) (rest : List Char) :
    Stops (writeMembers format members ++ rest) := by
  cases members with
  | nil =>
      rw [writeMembers]
      exact stops_cons (by decide)
  | cons member members =>
      rw [writeMembers]
      exact stops_cons (by decide)

theorem writeMembers_length (format : FloatFormat F)
    (members : List (String × JsonValue F)) :
    1 ≤ (writeMembers format members).length := by
  cases members with
  | nil =>
      simp [writeMembers]
  | cons member members =>
      simp [writeMembers]

theorem scanMembers_write (members : List (String × JsonValue F)) :
    ∀ (key : String) (value : JsonValue F) (fuel : Nat) (rest : List Char),
      Reads format value → (∀ member ∈ members, Reads format member.2) →
      (write format value).length + (writeMembers format members).length ≤
        fuel →
      scanMembers format fuel
          (writeString key.toList ++ (':' :: ' ' :: (write format value ++
            (writeMembers format members ++ rest)))) =
        some ((key, value) :: members, rest) := by
  induction members with
  | nil =>
      intro key value fuel rest reads _ enough
      have closing := writeMembers_length format []
      obtain ⟨fuel, rfl⟩ : ∃ less, fuel = less + 1 := ⟨fuel - 1, by omega⟩
      have found := reads.scans fuel _
        (stops_writeMembers format [] rest) (by omega)
      have colon : isSpace ':' = false := rfl
      have brace : isSpace '\x7d' = false := rfl
      rw [writeMembers, List.cons_append, List.nil_append] at found ⊢
      rw [writeString_append, scanMembers]
      simp only [scanString_flatMap, skipSpace_opens colon, skipSpace_blank,
        skipSpace_write reads, found, skipSpace_opens brace,
        String.ofList_toList]
  | cons next members inductionHypothesis =>
      intro key value fuel rest reads readsOthers enough
      have closing := writeMembers_length format (next :: members)
      obtain ⟨fuel, rfl⟩ : ∃ less, fuel = less + 1 := ⟨fuel - 1, by omega⟩
      have found := reads.scans fuel _
        (stops_writeMembers format (next :: members) rest)
        (by omega)
      have colon : isSpace ':' = false := rfl
      have comma : isSpace ',' = false := rfl
      have quote : isSpace '"' = false := rfl
      obtain ⟨nextKey, nextValue⟩ := next
      rw [writeMembers] at enough found ⊢
      simp only [List.length_cons, List.length_append] at enough
      have others := inductionHypothesis nextKey nextValue fuel rest
        (readsOthers (nextKey, nextValue) (by simp))
        (fun item member => readsOthers item (by simp [member])) (by omega)
      rw [writeString_append] at others
      simp only [List.cons_append, List.append_assoc] at found ⊢
      rw [writeString_append] at found ⊢
      rw [scanMembers]
      simp only [scanString_flatMap, skipSpace_opens colon, skipSpace_blank,
        skipSpace_write reads, found, skipSpace_opens comma, writeString_append,
        skipSpace_opens quote, others, String.ofList_toList]

theorem foldl_assignEntries (pairs : List (String × JsonValue F)) :
    ∀ dict : List (String × JsonValue F),
      ((dict ++ pairs).map Prod.fst).Nodup →
      pairs.foldl (fun dict pair => assignEntries pair.1 pair.2 dict) dict =
        dict ++ pairs := by
  induction pairs with
  | nil =>
      intro dict _
      simp
  | cons pair pairs inductionHypothesis =>
      intro dict distinct
      have absent : pair.1 ∉ dict.map Prod.fst := by
        intro member
        rw [List.map_append, List.map_cons, List.nodup_append] at distinct
        exact distinct.2.2 pair.1 member pair.1 (by simp) rfl
      rw [List.foldl_cons, assignEntries_of_not_mem pair.2 absent,
        inductionHypothesis _ (by simpa using distinct), List.append_assoc]
      rfl

theorem reads_object {members : List (String × JsonValue F)}
    (keys : (members.map Prod.fst).Nodup)
    (each : ∀ member ∈ members, Reads format member.2) :
    Reads format (.object members) := by
  have opens : Opens '\x7b' := ⟨rfl, by decide, by decide⟩
  have dict := foldl_assignEntries members [] (by simpa using keys)
  rw [List.nil_append] at dict
  cases members with
  | nil =>
      refine ⟨⟨'\x7b', ['\x7d'], by rw [write], opens⟩, ?_⟩
      intro fuel rest stops enough
      rw [write] at enough ⊢
      obtain ⟨fuel, rfl⟩ : ∃ less, fuel = less + 1 :=
        ⟨fuel - 1, by simp at enough; omega⟩
      rw [List.cons_append, scanValue]
      simp [skipSpace_opens, isSpace]
  | cons member members =>
      obtain ⟨key, value⟩ := member
      refine ⟨⟨'\x7b', _, by rw [write]; rfl, opens⟩, ?_⟩
      intro fuel rest stops enough
      rw [write] at enough ⊢
      simp only [List.length_cons, List.length_append] at enough
      obtain ⟨fuel, rfl⟩ : ∃ less, fuel = less + 1 := ⟨fuel - 1, by omega⟩
      have found := scanMembers_write members key value fuel rest
        (each (key, value) (by simp))
        (fun item member => each item (by simp [member])) (by omega)
      have quote : isSpace '"' = false := rfl
      simp only [List.cons_append, List.append_assoc] at found ⊢
      rw [writeString_append] at found ⊢
      rw [scanValue]
      simp [skipSpace_opens quote, found, dictOf, dict]

theorem reads_of_proper {value : JsonValue F}
    (proper : value.Proper format.IsFloat) : Reads format value := by
  induction proper with
  | null => exact reads_word (by rw [write]; simp [words])
  | bool value =>
      cases value with
      | false => exact reads_word (by rw [write]; simp [words])
      | true => exact reads_word (by rw [write]; simp [words])
  | int value => exact reads_int value
  | float isFloat => exact reads_float isFloat
  | text value => exact reads_text value
  | array _ inductionHypothesis => exact reads_array inductionHypothesis
  | object keys _ inductionHypothesis =>
      exact reads_object keys inductionHypothesis

/-- What was written is read back. -/
theorem loads_dumps {value : JsonValue F}
    (proper : value.Proper format.IsFloat) :
    loads format (dumps format value) = some value := by
  have stops : Stops [] := by
    intro char first
    cases first
  have reads := reads_of_proper proper
  have found := reads.scans ((write format value).length + 1) [] stops
    (Nat.le_succ _)
  have start := skipSpace_write reads []
  rw [List.append_nil] at found start
  unfold loads dumps
  rw [String.toList_ofList, String.length_ofList, start, found]
  simp [skipSpace]

end LlmDRl.Library.Json
