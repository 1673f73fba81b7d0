import LlmDRl.Library.JsonRoundTrip

/-!
# Files of one JSON text a line

A text that `write` writes is printable ASCII that neither starts nor ends
with a blank, so a file of such texts, each with an end of line behind it, is
read back line by line.
-/

namespace LlmDRl.Library.Json

/-! ## Reading -/

/-- What `str.strip` takes off: the characters that are `isspace`. -/
def isBlank (char : Char) : Bool :=
  (0x09 ≤ char.toNat && char.toNat ≤ 0x0D) ||
    (0x1C ≤ char.toNat && char.toNat ≤ 0x20) || char.toNat = 0x85 ||
    char.toNat = 0xA0 || char.toNat = 0x1680 ||
    (0x2000 ≤ char.toNat && char.toNat ≤ 0x200A) || char.toNat = 0x2028 ||
    char.toNat = 0x2029 || char.toNat = 0x202F || char.toNat = 0x205F ||
    char.toNat = 0x3000

def strip (line : List Char) : List Char :=
  ((line.dropWhile isBlank).reverse.dropWhile isBlank).reverse

/-- The lines of a file opened as text, each with its end; every end of line
is read as `\n`. -/
def fileLines : List Char → List (List Char)
  | [] => []
  | '\r' :: '\n' :: rest => ['\n'] :: fileLines rest
  | char :: rest =>
      if char = '\n' ∨ char = '\r' then
        ['\n'] :: fileLines rest
      else
        match fileLines rest with
        | [] => [[char]]
        | line :: lines => (char :: line) :: lines

/-- The lines of a file that are not blank, stripped. -/
def records (text : String) : List (List Char) :=
  ((fileLines text.toList).map strip).filter (· ≠ [])

/-! ## Written texts -/

def Printable (char : Char) : Prop := 0x20 ≤ char.toNat ∧ char.toNat ≤ 0x7E

instance : DecidablePred Printable := fun char =>
  inferInstanceAs (Decidable (0x20 ≤ char.toNat ∧ char.toNat ≤ 0x7E))

theorem printable_escape (char : Char) :
    ∀ written ∈ escape char, Printable written := by
  have digit : ∀ n, n < 16 → Printable (Nat.digitChar n) := by
    have all : ∀ n : Fin 16, Printable (Nat.digitChar n) := by
      decide
    exact fun n small => all ⟨n, small⟩
  have unicode : ∀ unit, unit < 65536 →
      ∀ written ∈ unicodeEscape unit, Printable written := by
    intro unit small
    unfold unicodeEscape
    simp only [List.forall_mem_cons, List.not_mem_nil, false_imp_iff,
      implies_true, and_true]
    exact ⟨by decide, by decide, digit _ (by omega), digit _ (by omega),
      digit _ (by omega), digit _ (by omega)⟩
  have valid : char.toNat < 0xD800 ∨
      (0xDFFF < char.toNat ∧ char.toNat < 0x110000) := char.valid
  unfold escape
  split_ifs with slash quote newline carriage tab back feed printable short
  iterate 7 exact forall_mem_of_all (by decide)
  · intro written member
    obtain rfl := List.mem_singleton.mp member
    exact printable
  · exact unicode _ (by omega)
  · intro written member
    obtain first | second := List.mem_append.mp member
    · exact unicode _ (by omega) written first
    · exact unicode _ (by omega) written second

theorem printable_writeString (chars : List Char) :
    ∀ written ∈ writeString chars, Printable written := by
  intro written member
  simp only [writeString, List.cons_append, List.mem_cons, List.mem_append,
    List.mem_flatMap, List.not_mem_nil, or_false] at member
  obtain rfl | ⟨char, -, escaped⟩ | rfl := member
  · decide
  · exact printable_escape char written escaped
  · decide

/-- Printable, and neither the first nor the last character is a blank. -/
structure OneLine (text : List Char) : Prop where
  printable : ∀ char ∈ text, Printable char
  first : ∃ char rest, text = char :: rest ∧ char ≠ ' '
  last : ∃ init char, text = init ++ [char] ∧ char ≠ ' '

theorem oneLine_of_solid {text : List Char} (nonempty : text ≠ [])
    (solid : ∀ char ∈ text, Printable char ∧ char ≠ ' ') : OneLine text where
  printable := fun char member => (solid char member).1
  first := by
    cases text with
    | nil => exact absurd rfl nonempty
    | cons char rest => exact ⟨char, rest, rfl, (solid char (by simp)).2⟩
  last := by
    refine ⟨text.dropLast, text.getLast nonempty,
      (List.dropLast_append_getLast nonempty).symm, ?_⟩
    exact (solid _ (List.getLast_mem nonempty)).2

theorem solid_of_isDigits {digits : List Char} (shape : IsDigits digits) :
    ∀ char ∈ digits, Printable char ∧ char ≠ ' ' := by
  intro char member
  have digit := shape.2 char member
  have bounds := Char.isDigit_iff_toNat.mp digit
  have lower : '0'.toNat = 48 := rfl
  have upper : '9'.toNat = 57 := rfl
  refine ⟨⟨by omega, by omega⟩, ?_⟩
  rintro rfl
  cases digit

theorem solid_of_isInteger {integer : List Char} (shape : IsInteger integer) :
    ∀ char ∈ integer, Printable char ∧ char ≠ ' ' := by
  obtain ⟨minus, digits, rfl, signed, isDigits, -⟩ := shape
  intro char member
  obtain first | second := List.mem_append.mp member
  · obtain rfl | rfl := signed
    · cases first
    · obtain rfl := List.mem_singleton.mp first
      decide
  · exact solid_of_isDigits isDigits char second

theorem solid_of_isFloatLiteral {literal : List Char}
    (shape : IsFloatLiteral literal) :
    ∀ char ∈ literal, Printable char ∧ char ≠ ' ' := by
  obtain ⟨integer, fraction, exponent, rfl, isInteger, isFraction, isExponent,
    -⟩ := shape
  intro char member
  simp only [List.mem_append] at member
  obtain (inInteger | inFraction) | inExponent := member
  · exact solid_of_isInteger isInteger char inInteger
  · obtain rfl | ⟨digits, isDigits, rfl⟩ := isFraction
    · cases inFraction
    · obtain rfl | inDigits := List.mem_cons.mp inFraction
      · decide
      · exact solid_of_isDigits isDigits char inDigits
  · obtain rfl | ⟨letter, sign, digits, letters, signs, isDigits, rfl⟩ :=
      isExponent
    · cases inExponent
    · simp only [List.cons_append, List.mem_cons, List.mem_append]
        at inExponent
      obtain rfl | inSign | inDigits := inExponent
      · obtain rfl | rfl := letters <;> decide
      · obtain rfl | rfl | rfl := signs
        · cases inSign
        · obtain rfl := List.mem_singleton.mp inSign
          decide
        · obtain rfl := List.mem_singleton.mp inSign
          decide
      · exact solid_of_isDigits isDigits char inDigits

/-- What closes an array or an object. -/
structure Closes (bracket : Char) (text : List Char) : Prop where
  printable : ∀ char ∈ text, Printable char
  last : ∃ init, text = init ++ [bracket]

variable {F : Type} {format : FloatFormat F}

theorem closes_writeItems {items : List (JsonValue F)}
    (each : ∀ item ∈ items, OneLine (write format item)) :
    Closes ']' (writeItems format items) := by
  induction items with
  | nil =>
      rw [writeItems]
      exact ⟨forall_mem_of_all (by decide), [], rfl⟩
  | cons item items inductionHypothesis =>
      obtain ⟨printable, init, last⟩ := inductionHypothesis fun item member =>
        each item (List.mem_cons_of_mem _ member)
      rw [writeItems]
      refine ⟨?_, ',' :: ' ' :: write format item ++ init, by simp [last]⟩
      intro char member
      simp only [List.cons_append, List.mem_cons, List.mem_append] at member
      obtain rfl | rfl | inItem | later := member
      · decide
      · decide
      · exact (each item (by simp)).printable char inItem
      · exact printable char later

theorem closes_writeMembers {members : List (String × JsonValue F)}
    (each : ∀ member ∈ members, OneLine (write format member.2)) :
    Closes '\x7d' (writeMembers format members) := by
  induction members with
  | nil =>
      rw [writeMembers]
      exact ⟨forall_mem_of_all (by decide), [], rfl⟩
  | cons first members inductionHypothesis =>
      obtain ⟨printable, init, last⟩ := inductionHypothesis fun item member =>
        each item (List.mem_cons_of_mem _ member)
      obtain ⟨key, value⟩ := first
      rw [writeMembers]
      refine ⟨?_, ',' :: ' ' :: writeString key.toList ++ ':' :: ' ' ::
        write format value ++ init, by simp [last]⟩
      intro char member
      simp only [List.cons_append, List.append_assoc, List.mem_cons,
        List.mem_append] at member
      obtain rfl | rfl | inKey | rfl | rfl | inValue | later := member
      · decide
      · decide
      · exact printable_writeString _ char inKey
      · decide
      · decide
      · exact (each (key, value) (by simp)).printable char inValue
      · exact printable char later

theorem oneLine_write {value : JsonValue F}
    (proper : value.Proper format.IsFloat) :
    OneLine (write format value) := by
  induction proper with
  | null =>
      rw [write]
      exact oneLine_of_solid (by decide) (forall_mem_of_all (by decide))
  | bool value =>
      cases value with
      | false =>
          rw [write]
          exact oneLine_of_solid (by decide) (forall_mem_of_all (by decide))
      | true =>
          rw [write]
          exact oneLine_of_solid (by decide) (forall_mem_of_all (by decide))
  | int value =>
      have shape := isInteger_toString value
      rw [write]
      refine oneLine_of_solid ?_ (solid_of_isInteger shape)
      obtain ⟨char, rest, same, -⟩ := exists_opens_of_isInteger shape
      rw [same]
      exact List.cons_ne_nil char rest
  | @float value isFloat =>
      rw [write]
      obtain literal | special := format.shape value isFloat
      · refine oneLine_of_solid ?_ (solid_of_isFloatLiteral literal)
        obtain ⟨integer, fraction, exponent, same, isInteger, -⟩ := literal
        obtain ⟨char, rest, rfl, -⟩ := exists_opens_of_isInteger isInteger
        rw [same]
        exact List.cons_ne_nil char _
      · simp only [List.mem_cons, List.not_mem_nil, or_false] at special
        obtain same | same | same := special <;>
          · rw [same]
            exact oneLine_of_solid (by decide) (forall_mem_of_all (by decide))
  | text value =>
      rw [write]
      refine ⟨printable_writeString value.toList, ?_, ?_⟩
      · exact ⟨'"', _, rfl, by decide⟩
      · exact ⟨'"' :: value.toList.flatMap escape, '"', rfl, by decide⟩
  | @array items _ inductionHypothesis =>
      cases items with
      | nil =>
          rw [write]
          exact oneLine_of_solid (by decide) (forall_mem_of_all (by decide))
      | cons item items =>
          have ofItem := inductionHypothesis item (by simp)
          obtain ⟨printable, init, last⟩ :=
            closes_writeItems fun item member =>
              inductionHypothesis item (List.mem_cons_of_mem _ member)
          rw [write]
          refine ⟨?_, ⟨'[', _, rfl, by decide⟩,
            '[' :: write format item ++ init, ']', by simp [last], by decide⟩
          intro char member
          simp only [List.cons_append, List.mem_cons, List.mem_append]
            at member
          obtain rfl | inItem | later := member
          · decide
          · exact ofItem.printable char inItem
          · exact printable char later
  | @object members _ _ inductionHypothesis =>
      cases members with
      | nil =>
          rw [write]
          exact oneLine_of_solid (by decide) (forall_mem_of_all (by decide))
      | cons first members =>
          have ofFirst := inductionHypothesis first (by simp)
          obtain ⟨printable, init, last⟩ :=
            closes_writeMembers fun item member =>
              inductionHypothesis item (List.mem_cons_of_mem _ member)
          obtain ⟨key, value⟩ := first
          rw [write]
          refine ⟨?_, ⟨'\x7b', _, rfl, by decide⟩,
            '\x7b' :: writeString key.toList ++ ':' :: ' ' ::
              write format value ++ init,
            '\x7d', by simp [last], by decide⟩
          intro char member
          simp only [List.cons_append, List.append_assoc, List.mem_cons,
            List.mem_append] at member
          obtain rfl | inKey | rfl | rfl | inValue | later := member
          · decide
          · exact printable_writeString _ char inKey
          · decide
          · decide
          · exact ofFirst.printable char inValue
          · exact printable char later

/-! ## Files -/

theorem strip_oneLine {text : List Char} (oneLine : OneLine text) :
    strip (text ++ ['\n']) = text := by
  have notBlank : ∀ char, Printable char → char ≠ ' ' →
      isBlank char = false := by
    intro char printable notSpace
    have other : char.toNat ≠ 0x20 := by
      intro same
      apply notSpace
      rw [← Char.ofNat_toNat char, same]
    unfold Printable at printable
    simp only [isBlank, Bool.or_eq_false_iff, Bool.and_eq_false_iff,
      decide_eq_false_iff_not]
    omega
  obtain ⟨first, rest, starts, firstSolid⟩ := oneLine.first
  obtain ⟨init, last, ends, lastSolid⟩ := oneLine.last
  have firstBlank := notBlank first
    (oneLine.printable first (by simp [starts])) firstSolid
  have lastBlank := notBlank last
    (oneLine.printable last (by simp [ends])) lastSolid
  have front : (text ++ ['\n']).dropWhile isBlank = text ++ ['\n'] := by
    rw [starts, List.cons_append, List.dropWhile_cons_of_neg]
    simp [firstBlank]
  have newline : isBlank '\n' = true := rfl
  unfold strip
  rw [front, List.reverse_append, ends]
  simp [newline, lastBlank]

theorem fileLines_line {line : List Char}
    (plain : ∀ char ∈ line, char ≠ '\n' ∧ char ≠ '\r') (rest : List Char) :
    fileLines (line ++ '\n' :: rest) = (line ++ ['\n']) :: fileLines rest := by
  induction line with
  | nil =>
      rw [List.nil_append, fileLines]
      · simp
      · simp
  | cons char line inductionHypothesis =>
      obtain ⟨notNewline, notReturn⟩ := plain char (by simp)
      have later := inductionHypothesis fun char member =>
        plain char (List.mem_cons_of_mem _ member)
      rw [List.cons_append, fileLines]
      · simp [later, notNewline, notReturn]
      · intro _ same
        exact absurd same notReturn

/-- The line of a value. -/
def line (format : FloatFormat F) (value : JsonValue F) : String :=
  dumps format value ++ "\n"

theorem fileLines_join {values : List (JsonValue F)}
    (proper : ∀ value ∈ values, value.Proper format.IsFloat) :
    fileLines (String.join (values.map (line format))).toList =
      values.map fun value => write format value ++ ['\n'] := by
  induction values with
  | nil =>
      rw [List.map_nil, List.map_nil, String.toList_join, List.flatMap_nil,
        fileLines]
  | cons value values inductionHypothesis =>
      have oneLine := oneLine_write (proper value (by simp))
      have plain : ∀ char ∈ write format value, char ≠ '\n' ∧ char ≠ '\r' := by
        intro char member
        have printable := oneLine.printable char member
        constructor
        · rintro rfl
          exact absurd printable (by decide)
        · rintro rfl
          exact absurd printable (by decide)
      have newline : ("\n" : String).toList = ['\n'] := by
        decide
      have later := inductionHypothesis fun value member =>
        proper value (List.mem_cons_of_mem _ member)
      rw [List.map_cons, List.map_cons, String.join_cons, String.toList_append,
        line, dumps, String.toList_append, String.toList_ofList, newline,
        List.append_assoc, List.singleton_append, fileLines_line plain, later]

/-- A file of lines holds the texts of its values. -/
theorem records_join {values : List (JsonValue F)}
    (proper : ∀ value ∈ values, value.Proper format.IsFloat) :
    records (String.join (values.map (line format))) =
      values.map (write format) := by
  have stripped : (values.map fun value => write format value ++ ['\n']).map
      strip = values.map (write format) := by
    rw [List.map_map]
    exact List.map_congr_left fun value member =>
      strip_oneLine (oneLine_write (proper value member))
  unfold records
  rw [fileLines_join proper, stripped]
  refine List.filter_eq_self.mpr fun text member => ?_
  obtain ⟨value, inValues, rfl⟩ := List.mem_map.mp member
  obtain ⟨char, rest, same, -⟩ :=
    (oneLine_write (proper value inValues)).first
  simp [same]

theorem mapM_loads {values : List (JsonValue F)}
    (proper : ∀ value ∈ values, value.Proper format.IsFloat) :
    (values.map (write format)).mapM
        (fun line => loads format (String.ofList line)) = some values := by
  induction values with
  | nil =>
      rfl
  | cons value values inductionHypothesis =>
      have first := loads_dumps (proper value (by simp))
      rw [dumps] at first
      have later := inductionHypothesis fun value member =>
        proper value (List.mem_cons_of_mem _ member)
      rw [List.map_cons, List.mapM_cons, first, later]
      rfl

end LlmDRl.Library.Json
