import LlmDRl.Wire.Headers

/-!
# Bytes that are no message

What `_decode_fields` and `_extract_headers` make of arbitrary bytes.  Every
list of bytes begins with a sequence of whole fields and ends in one of four
ways after it: with nothing, with a field of a wire type at which the decoder
stops, inside a varint, or inside the value of a field.
-/

namespace LlmDRl.Wire

open LlmDRl.Library

/-! ## The grammar -/

/-- The bytes of a varint, in any of its spellings. -/
inductive IsVarint : Bytes → Nat → Prop
  | last (b : UInt8) (final : b.toNat &&& 0x80 = 0) :
      IsVarint [b] (b.toNat &&& 0x7F)
  | more (b : UInt8) {rest : Bytes} {n : Nat}
      (continues : b.toNat &&& 0x80 ≠ 0) (follows : IsVarint rest n) :
      IsVarint (b :: rest) ((b.toNat &&& 0x7F) ||| (n <<< 7))

def IsTag (bytes : Bytes) (number wireType : Nat) : Prop :=
  ∃ tag, IsVarint bytes tag ∧ tag >>> 3 = number ∧ tag &&& 0x7 = wireType

/-- A whole field, and what the decoder keeps of it. -/
inductive IsField : Bytes → Option (Nat × Bytes) → Prop
  | varint {tag value : Bytes} {number n : Nat}
      (tagged : IsTag tag number 0) (valued : IsVarint value n) :
      IsField (tag ++ value) none
  | fixed64 {tag value : Bytes} {number : Nat}
      (tagged : IsTag tag number 1) (whole : value.length = 8) :
      IsField (tag ++ value) none
  | lengthDelimited {tag length payload : Bytes} {number : Nat}
      (tagged : IsTag tag number 2)
      (declared : IsVarint length payload.length) :
      IsField (tag ++ (length ++ payload)) (some (number, payload))
  | fixed32 {tag value : Bytes} {number : Nat}
      (tagged : IsTag tag number 5) (whole : value.length = 4) :
      IsField (tag ++ value) none

/-- Whole fields, with their numbers and length-delimited payloads. -/
inductive IsMessage : Bytes → List (Nat × Bytes) → Prop
  | nil : IsMessage [] []
  | cons {first rest : Bytes} {kept : Option (Nat × Bytes)}
      {later : List (Nat × Bytes)}
      (field : IsField first kept) (follows : IsMessage rest later) :
      IsMessage (first ++ rest) (kept.toList ++ later)

/-- A varint without its last byte. -/
def CutVarint (bytes : Bytes) : Prop :=
  ∀ b ∈ bytes, b.toNat &&& 0x80 ≠ 0

/-- A field of another wire type begins. -/
def StopsAt (bytes : Bytes) : Prop :=
  ∃ tag number wireType more,
    IsTag tag number wireType ∧ wireType ∉ [0, 1, 2, 5] ∧
      bytes = tag ++ more

/-- A field begins, and ends inside of its tag, of its value varint or of its
length. -/
def CutInVarint (bytes : Bytes) : Prop :=
  (bytes ≠ [] ∧ CutVarint bytes) ∨
    ∃ tag number wireType more,
      IsTag tag number wireType ∧ (wireType = 0 ∨ wireType = 2) ∧
        CutVarint more ∧ bytes = tag ++ more

/-- A field begins, and ends inside of its fixed-width value or of its
payload. -/
def CutInValue (bytes : Bytes) : Prop :=
  ∃ tag number wireType more,
    IsTag tag number wireType ∧ bytes = tag ++ more ∧
      ((wireType = 1 ∧ more.length < 8) ∨
        (wireType = 5 ∧ more.length < 4) ∨
        (wireType = 2 ∧ ∃ length n payload,
          IsVarint length n ∧ more = length ++ payload ∧
            payload.length < n))

/-- After whole fields, the bytes end like this. -/
def EndsIn (ending : Bytes → Prop) (data : Bytes) : Prop :=
  ∃ before kept rest,
    IsMessage before kept ∧ ending rest ∧ data = before ++ rest

/-- The payload of a whole field of this number, among the whole fields that
the bytes begin with. -/
def HasPayload (data : Bytes) (number : Nat) (payload : Bytes) : Prop :=
  ∃ before kept rest,
    IsMessage before kept ∧ data = before ++ rest ∧
      (number, payload) ∈ kept

/-! ## Varints -/

theorem IsVarint.length_pos
    {bytes : Bytes} {n : Nat} (spelled : IsVarint bytes n) :
    0 < bytes.length := by
  cases spelled <;> simp

/-- A whole varint, or none, is where a varint begins. -/
theorem isVarint_or_cut (data : Bytes) :
    (∃ bytes n rest, IsVarint bytes n ∧ data = bytes ++ rest) ∨
      CutVarint data := by
  induction data with
  | nil =>
      exact .inr (fun b member => by cases member)
  | cons b rest inductionHypothesis =>
      by_cases final : b.toNat &&& 0x80 = 0
      · exact .inl ⟨[b], _, rest, .last b final, rfl⟩
      · rcases inductionHypothesis with
          ⟨bytes, n, after, spelled, rfl⟩ | cut
        · exact .inl ⟨b :: bytes, _, after, .more b final spelled, rfl⟩
        · refine .inr ?_
          intro other member
          rcases List.mem_cons.mp member with rfl | later
          · exact final
          · exact cut other later

theorem decodeVarintLoop_of_isVarint
    {bytes : Bytes} {n : Nat} (spelled : IsVarint bytes n)
    (suffix : Bytes) (pos result shift : Nat) :
    decodeVarintLoop (bytes ++ suffix) pos result shift =
      .ok (result ||| (n <<< shift), pos + bytes.length) := by
  induction spelled generalizing pos result shift with
  | last b final =>
      rw [List.singleton_append, decodeVarintLoop, if_pos final]
      rfl
  | @more b rest n continues _ inductionHypothesis =>
      have joined :
          ((b.toNat &&& 0x7F) <<< shift) ||| (n <<< (shift + 7)) =
            ((b.toNat &&& 0x7F) ||| (n <<< 7)) <<< shift := by
        rw [Nat.shiftLeft_or_distrib, ← Nat.shiftLeft_add,
          Nat.add_comm 7 shift]
      rw [List.cons_append, decodeVarintLoop, if_neg continues,
        inductionHypothesis, Nat.or_assoc, joined, List.length_cons]
      congr 2
      omega

theorem decodeVarintLoop_of_cut
    {data : Bytes} (cut : CutVarint data) (pos result shift : Nat) :
    decodeVarintLoop data pos result shift = .error .indexError := by
  induction data generalizing pos result shift with
  | nil =>
      rfl
  | cons b rest inductionHypothesis =>
      rw [decodeVarintLoop, if_neg (cut b List.mem_cons_self)]
      exact inductionHypothesis
        (fun other later => cut other (List.mem_cons_of_mem b later)) _ _ _

/-- The reader takes a varint in any spelling. -/
theorem decodeVarint_of_isVarint
    {data bytes suffix : Bytes} {pos n : Nat} (spelled : IsVarint bytes n)
    (start : data.drop pos = bytes ++ suffix) :
    decodeVarint data pos = .ok (n, pos + bytes.length) := by
  rw [decodeVarint, start, decodeVarintLoop_of_isVarint spelled,
    Nat.zero_or, Nat.shiftLeft_zero]

theorem decodeVarint_of_cut
    {data : Bytes} {pos : Nat} (cut : CutVarint (data.drop pos)) :
    decodeVarint data pos = .error .indexError :=
  decodeVarintLoop_of_cut cut pos 0 0

/-! ## How bytes end -/

theorem IsField.length_pos
    {bytes : Bytes} {kept : Option (Nat × Bytes)}
    (field : IsField bytes kept) : 0 < bytes.length := by
  have ofTag : ∀ {tag : Bytes} {number wireType : Nat} (more : Bytes),
      IsTag tag number wireType → 0 < (tag ++ more).length := by
    intro tag number wireType more tagged
    obtain ⟨_, spelled, _⟩ := tagged
    have positive := spelled.length_pos
    rw [List.length_append]
    omega
  cases field with
  | varint tagged _ | fixed64 tagged _ | lengthDelimited tagged _
  | fixed32 tagged _ =>
      exact ofTag _ tagged

/-- Bytes begin with a whole field, or end in it. -/
theorem isField_or_ends (data : Bytes) (nonempty : data ≠ []) :
    (∃ field kept rest, IsField field kept ∧ data = field ++ rest) ∨
      StopsAt data ∨ CutInVarint data ∨ CutInValue data := by
  rcases isVarint_or_cut data with ⟨tag, value, more, spelled, rfl⟩ | cut
  · have tagged : IsTag tag (value >>> 3) (value &&& 0x7) :=
      ⟨value, spelled, rfl, rfl⟩
    generalize value >>> 3 = number at tagged
    generalize value &&& 0x7 = wireType at tagged
    by_cases known : wireType ∈ [0, 1, 2, 5]
    · have cases : wireType = 0 ∨ wireType = 1 ∨ wireType = 2 ∨
          wireType = 5 := by
        simpa using known
      rcases cases with rfl | rfl | rfl | rfl
      · rcases isVarint_or_cut more with
          ⟨bytes, n, rest, valued, rfl⟩ | cut
        · exact .inl ⟨tag ++ bytes, none, rest, .varint tagged valued,
            (List.append_assoc ..).symm⟩
        · exact .inr (.inr (.inl (.inr
            ⟨tag, number, 0, more, tagged, .inl rfl, cut, rfl⟩)))
      · by_cases short : more.length < 8
        · exact .inr (.inr (.inr
            ⟨tag, number, 1, more, tagged, rfl, .inl ⟨rfl, short⟩⟩))
        · refine .inl ⟨tag ++ more.take 8, none, more.drop 8,
            .fixed64 tagged ?_, ?_⟩
          · rw [List.length_take]
            omega
          · rw [List.append_assoc, List.take_append_drop]
      · rcases isVarint_or_cut more with
          ⟨length, n, rest, declared, rfl⟩ | cut
        · by_cases short : rest.length < n
          · exact .inr (.inr (.inr ⟨tag, number, 2, _, tagged, rfl,
              .inr (.inr ⟨rfl, length, n, rest, declared, rfl, short⟩)⟩))
          · have whole : (rest.take n).length = n := by
              rw [List.length_take]
              omega
            refine .inl ⟨tag ++ (length ++ rest.take n),
              some (number, rest.take n), rest.drop n,
              .lengthDelimited tagged ?_, ?_⟩
            · rw [whole]
              exact declared
            · rw [List.append_assoc, List.append_assoc,
                List.take_append_drop]
        · exact .inr (.inr (.inl (.inr
            ⟨tag, number, 2, more, tagged, .inr rfl, cut, rfl⟩)))
      · by_cases short : more.length < 4
        · exact .inr (.inr (.inr
            ⟨tag, number, 5, more, tagged, rfl, .inr (.inl ⟨rfl, short⟩)⟩))
        · refine .inl ⟨tag ++ more.take 4, none, more.drop 4,
            .fixed32 tagged ?_, ?_⟩
          · rw [List.length_take]
            omega
          · rw [List.append_assoc, List.take_append_drop]
    · exact .inr (.inl ⟨tag, number, wireType, more, tagged, known, rfl⟩)
  · exact .inr (.inr (.inl (.inl ⟨nonempty, cut⟩)))

theorem EndsIn.cons
    {ending : Bytes → Prop} {field rest : Bytes}
    {kept : Option (Nat × Bytes)} (isField : IsField field kept)
    (ends : EndsIn ending rest) :
    EndsIn ending (field ++ rest) := by
  obtain ⟨before, later, after, message, isEnding, rfl⟩ := ends
  exact ⟨field ++ before, _, after, .cons isField message, isEnding,
    (List.append_assoc ..).symm⟩

theorem endsIn_of
    {ending : Bytes → Prop} {data : Bytes} (isEnding : ending data) :
    EndsIn ending data :=
  ⟨[], [], data, .nil, isEnding, rfl⟩

/-- The four ways in which bytes end. -/
theorem exists_ending (data : Bytes) :
    EndsIn (fun rest => rest = []) data ∨ EndsIn StopsAt data ∨
      EndsIn CutInVarint data ∨ EndsIn CutInValue data := by
  induction size : data.length using Nat.strong_induction_on
    generalizing data with
  | _ size inductionHypothesis =>
      by_cases nonempty : data = []
      · exact .inl (endsIn_of nonempty)
      · rcases isField_or_ends data nonempty with
          ⟨field, kept, rest, isField, rfl⟩ | stops | cut | cut
        · have positive := isField.length_pos
          rw [List.length_append] at size
          have later :=
            inductionHypothesis rest.length (by omega) rest rfl
          exact later.imp (.cons isField) (Or.imp (.cons isField)
            (Or.imp (.cons isField) (.cons isField)))
        · exact .inr (.inl (endsIn_of stops))
        · exact .inr (.inr (.inl (endsIn_of cut)))
        · exact .inr (.inr (.inr (endsIn_of cut)))

/-! ## What the decoder makes of it -/

/-- What one round of the loop finds in a whole field that ends at `next`. -/
def readOf (next : Nat) : Option (Nat × Bytes) → Read
  | none => .skipped next
  | some (number, payload) => .payload number payload next

/-- What the decoder has stored after whole fields. -/
def storeAll (fields : FieldMap) (kept : List (Nat × Bytes)) : FieldMap :=
  kept.foldl (fun fields entry => fields.append entry.1 entry.2) fields

theorem readField_of_isTag
    {data tag more : Bytes} {pos number wireType : Nat}
    (tagged : IsTag tag number wireType)
    (start : data.drop pos = tag ++ more) :
    data.drop (pos + tag.length) = more ∧
      readField data pos =
        (if wireType = 0 then do
          let (_, pos) ← decodeVarint data (pos + tag.length)
          pure (.skipped pos)
        else if wireType = 2 then do
          let (length, pos) ← decodeVarint data (pos + tag.length)
          pure (.payload number ((data.drop pos).take length)
            (pos + length))
        else if wireType = 5 then
          pure (.skipped (pos + tag.length + 4))
        else if wireType = 1 then
          pure (.skipped (pos + tag.length + 8))
        else
          pure .stop) := by
  obtain ⟨value, spelled, rfl, rfl⟩ := tagged
  refine ⟨drop_after start, ?_⟩
  rw [readField, decodeVarint_of_isVarint spelled start, ok_bind]

theorem readField_of_isField
    {data field rest : Bytes} {kept : Option (Nat × Bytes)} {pos : Nat}
    (isField : IsField field kept)
    (start : data.drop pos = field ++ rest) :
    readField data pos = .ok (readOf (pos + field.length) kept) := by
  cases isField with
  | varint tagged valued =>
      rw [List.append_assoc] at start
      obtain ⟨after, read⟩ := readField_of_isTag tagged start
      rw [read, if_pos rfl, decodeVarint_of_isVarint valued after, ok_bind,
        List.length_append, ← Nat.add_assoc]
      rfl
  | fixed64 tagged whole =>
      rw [List.append_assoc] at start
      obtain ⟨after, read⟩ := readField_of_isTag tagged start
      rw [read, List.length_append, whole, ← Nat.add_assoc]
      rfl
  | lengthDelimited tagged declared =>
      rw [List.append_assoc, List.append_assoc] at start
      obtain ⟨after, read⟩ := readField_of_isTag tagged start
      rw [read, if_neg (by decide), if_pos rfl,
        decodeVarint_of_isVarint declared after, ok_bind]
      simp only [drop_after after, List.take_left, List.length_append,
        ← Nat.add_assoc]
      rfl
  | fixed32 tagged whole =>
      rw [List.append_assoc] at start
      obtain ⟨after, read⟩ := readField_of_isTag tagged start
      rw [read, List.length_append, whole, ← Nat.add_assoc]
      rfl

theorem readField_of_stopsAt
    {data : Bytes} {pos : Nat} (stops : StopsAt (data.drop pos)) :
    readField data pos = .ok .stop := by
  obtain ⟨tag, number, wireType, more, tagged, other, start⟩ := stops
  obtain ⟨_, read⟩ := readField_of_isTag tagged start
  simp only [List.mem_cons, List.not_mem_nil, or_false, not_or] at other
  obtain ⟨notZero, notOne, notTwo, notFive⟩ := other
  rw [read, if_neg notZero, if_neg notTwo, if_neg notFive, if_neg notOne]
  rfl

theorem error_bind
    {α β ε : Type} (e : ε) (rest : α → Except ε β) :
    ((Except.error e : Except ε α) >>= rest) = .error e := rfl

theorem readField_of_cutInVarint
    {data : Bytes} {pos : Nat} (cut : CutInVarint (data.drop pos)) :
    readField data pos = .error .indexError := by
  rcases cut with
    ⟨_, cut⟩ | ⟨tag, number, wireType, more, tagged, type, cut, start⟩
  · rw [readField, decodeVarint_of_cut cut, error_bind]
  · obtain ⟨after, read⟩ := readField_of_isTag tagged start
    rw [← after] at cut
    rw [read, decodeVarint_of_cut cut]
    rcases type with rfl | rfl <;> rfl

theorem lt_length_of_drop
    {data rest : Bytes} {pos : Nat} (start : data.drop pos = rest)
    (nonempty : rest ≠ []) : pos < data.length := by
  by_contra past
  rw [List.drop_eq_nil_of_le (by omega)] at start
  exact nonempty start.symm

theorem decodeFieldsLoop_of_isField
    {data field rest : Bytes} {kept : Option (Nat × Bytes)} {pos : Nat}
    (fields : FieldMap) (isField : IsField field kept)
    (start : data.drop pos = field ++ rest) :
    decodeFieldsLoop data pos fields =
      decodeFieldsLoop data (pos + field.length)
        (storeAll fields kept.toList) := by
  have inside : pos < data.length := by
    refine lt_length_of_drop start ?_
    have positive := isField.length_pos
    exact fun none => by
      rw [(List.append_eq_nil_iff.mp none).1] at positive
      exact absurd positive (lt_irrefl 0)
  have found := readField_of_isField isField start
  rw [decodeFieldsLoop, if_pos inside]
  split
  · next failed =>
      rw [failed] at found
      cases found
  · next stopped =>
      rw [stopped] at found
      cases kept <;> cases found
  · next next skipped =>
      rw [skipped] at found
      cases kept with
      | none =>
          cases found
          rfl
      | some entry =>
          cases found
  · next number payload next stored =>
      rw [stored] at found
      cases kept with
      | none =>
          cases found
      | some entry =>
          cases found
          rfl

theorem decodeFieldsLoop_of_isMessage
    {data before rest : Bytes} {kept : List (Nat × Bytes)} {pos : Nat}
    (fields : FieldMap) (message : IsMessage before kept)
    (start : data.drop pos = before ++ rest) :
    decodeFieldsLoop data pos fields =
      decodeFieldsLoop data (pos + before.length)
        (storeAll fields kept) := by
  induction message generalizing pos fields with
  | nil =>
      rfl
  | cons isField _ inductionHypothesis =>
      rw [List.append_assoc] at start
      rw [decodeFieldsLoop_of_isField fields isField start,
        inductionHypothesis _ (drop_after start), List.length_append,
        ← Nat.add_assoc, storeAll, storeAll, storeAll, List.foldl_append]

/-- After the whole fields that the bytes begin with, the loop goes on with
their payloads stored. -/
theorem decodeFields_of_isMessage
    {before : Bytes} {kept : List (Nat × Bytes)}
    (message : IsMessage before kept) (rest : Bytes) :
    decodeFields (before ++ rest) =
      decodeFieldsLoop (before ++ rest) before.length
        (storeAll .empty kept) := by
  rw [decodeFields,
    decodeFieldsLoop_of_isMessage .empty message rfl,
    Nat.zero_add]

theorem decodeFieldsLoop_of_stopsAt
    {data : Bytes} {pos : Nat} (fields : FieldMap)
    (stops : StopsAt (data.drop pos)) :
    decodeFieldsLoop data pos fields = .ok fields := by
  have found := readField_of_stopsAt stops
  rw [decodeFieldsLoop]
  split
  · split
    · next failed =>
        rw [failed] at found
        cases found
    · rfl
    · next skipped =>
        rw [skipped] at found
        cases found
    · next stored =>
        rw [stored] at found
        cases found
  · rfl

theorem decodeFieldsLoop_of_cutInVarint
    {data : Bytes} {pos : Nat} (fields : FieldMap)
    (cut : CutInVarint (data.drop pos)) :
    decodeFieldsLoop data pos fields = .error .indexError := by
  have inside : pos < data.length := by
    refine lt_length_of_drop rfl ?_
    rcases cut with
      ⟨nonempty, _⟩ | ⟨tag, number, wireType, more, tagged, _, _, start⟩
    · exact nonempty
    · obtain ⟨_, spelled, _⟩ := tagged
      have positive := spelled.length_pos
      intro none
      rw [none] at start
      rw [(List.append_eq_nil_iff.mp start.symm).1] at positive
      exact absurd positive (lt_irrefl 0)
  have found := readField_of_cutInVarint cut
  rw [decodeFieldsLoop, if_pos inside]
  split
  · rfl
  · next stopped =>
      rw [stopped] at found
      cases found
  · next skipped =>
      rw [skipped] at found
      cases found
  · next stored =>
      rw [stored] at found
      cases found

theorem decodeFields_of_cutInVarint
    {data : Bytes} (ends : EndsIn CutInVarint data) :
    decodeFields data = .error .indexError := by
  obtain ⟨before, kept, rest, message, cut, rfl⟩ := ends
  rw [decodeFields_of_isMessage message]
  refine decodeFieldsLoop_of_cutInVarint _ ?_
  rw [List.drop_left]
  exact cut

/-- Bytes that end with whole fields, or where the decoder stops, give the
payloads of their whole fields. -/
theorem decodeFields_of_whole
    {before rest : Bytes} {kept : List (Nat × Bytes)}
    (message : IsMessage before kept) (ends : rest = [] ∨ StopsAt rest) :
    decodeFields (before ++ rest) = .ok (storeAll .empty kept) := by
  rw [decodeFields_of_isMessage message]
  rcases ends with rfl | stops
  · refine decodeFieldsLoop_end _ ?_
    rw [List.drop_left]
  · refine decodeFieldsLoop_of_stopsAt _ ?_
    rw [List.drop_left]
    exact stops

/-! ## What is kept -/

/-- The payloads of one number, in order. -/
def payloadsOf (number : Nat) (kept : List (Nat × Bytes)) : List Bytes :=
  (kept.filter fun entry => entry.1 = number).map Prod.snd

theorem mem_payloadsOf_iff
    {number : Nat} {kept : List (Nat × Bytes)} {payload : Bytes} :
    payload ∈ payloadsOf number kept ↔ (number, payload) ∈ kept := by
  simp [payloadsOf]

theorem getD_append
    (fields : FieldMap) (number found : Nat) (payload : Bytes) :
    (fields.append found payload).getD number [] =
      if number = found then fields.getD number [] ++ [payload]
      else fields.getD number [] := by
  rw [FieldMap.append, OrderedDict.getD, OrderedDict.get?_insert]
  split
  · next same =>
      rw [same]
      rfl
  · rfl

theorem getD_storeAll
    (fields : FieldMap) (kept : List (Nat × Bytes)) (number : Nat) :
    (storeAll fields kept).getD number [] =
      fields.getD number [] ++ payloadsOf number kept := by
  induction kept generalizing fields with
  | nil =>
      simp [storeAll, payloadsOf]
  | cons entry rest inductionHypothesis =>
      have later := inductionHypothesis (fields.append entry.1 entry.2)
      rw [getD_append] at later
      rw [storeAll, List.foldl_cons]
      refine later.trans ?_
      by_cases same : number = entry.1
      · simp [payloadsOf, same]
      · simp [payloadsOf, same, Ne.symm same]

/-- The loop only adds payloads. -/
theorem prefix_of_decodeFieldsLoop
    {data : Bytes} {pos : Nat} {fields after : FieldMap}
    (decoded : decodeFieldsLoop data pos fields = .ok after)
    (number : Nat) :
    fields.getD number [] <+: after.getD number [] := by
  induction pos, fields using decodeFieldsLoop.induct data with
  | case1 pos fields inside failed found =>
      rw [decodeFieldsLoop, if_pos inside, found] at decoded
      cases decoded
  | case2 pos fields inside found =>
      rw [decodeFieldsLoop, if_pos inside, found] at decoded
      cases decoded
      exact List.prefix_refl _
  | case3 pos fields inside next found inductionHypothesis =>
      rw [decodeFieldsLoop, if_pos inside, found] at decoded
      exact inductionHypothesis decoded
  | case4 pos fields inside foundNumber payload next found
      inductionHypothesis =>
      rw [decodeFieldsLoop, if_pos inside, found] at decoded
      have later := inductionHypothesis decoded
      rw [getD_append] at later
      refine List.IsPrefix.trans ?_ later
      split
      · exact List.prefix_append _ _
      · exact List.prefix_refl _
  | case5 pos fields past =>
      rw [decodeFieldsLoop, if_neg past] at decoded
      cases decoded
      exact List.prefix_refl _

/-- Bytes that are not cut inside of a value give exactly the payloads of the
whole fields they begin with. -/
theorem mem_decoded_iff
    {data : Bytes} {fields : FieldMap}
    (uncut : ¬ EndsIn CutInValue data)
    (decoded : decodeFields data = .ok fields)
    (number : Nat) (payload : Bytes) :
    payload ∈ fields.getD number [] ↔ HasPayload data number payload := by
  constructor
  · intro member
    have ofWhole : ∀ {before rest : Bytes} {kept : List (Nat × Bytes)},
        IsMessage before kept → (rest = [] ∨ StopsAt rest) →
          data = before ++ rest → HasPayload data number payload := by
      intro before rest kept message ends whole
      rw [whole, decodeFields_of_whole message ends] at decoded
      cases decoded
      rw [getD_storeAll] at member
      exact ⟨before, kept, rest, message, whole,
        mem_payloadsOf_iff.mp (by simpa [OrderedDict.getD] using member)⟩
    rcases exists_ending data with ends | ends | ends | ends
    · obtain ⟨before, kept, rest, message, isEnd, whole⟩ := ends
      exact ofWhole message (.inl isEnd) whole
    · obtain ⟨before, kept, rest, message, stops, whole⟩ := ends
      exact ofWhole message (.inr stops) whole
    · rw [decodeFields_of_cutInVarint ends] at decoded
      cases decoded
    · exact absurd ends uncut
  · intro has
    obtain ⟨before, kept, rest, message, rfl, member⟩ := has
    rw [decodeFields_of_isMessage message] at decoded
    have grown := prefix_of_decodeFieldsLoop decoded number
    rw [getD_storeAll] at grown
    refine grown.subset (List.mem_append_right _ ?_)
    exact mem_payloadsOf_iff.mpr member

end LlmDRl.Wire
