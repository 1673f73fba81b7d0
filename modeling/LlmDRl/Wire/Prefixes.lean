import LlmDRl.Wire.Endings

/-!
# What is read off arbitrary bytes

The headers `_extract_headers` returns for bytes that are cut inside of no
value are those of the whole fields they begin with; whether bytes are cut
inside of a value can be computed.  Bytes that are no message are read all the
same.
-/

namespace LlmDRl.Wire

open LlmDRl.Library

/-! ## Headers -/

/-- A message found inside of another one, through whole payloads of these
numbers. -/
def Inside : List Nat → Bytes → Bytes → Prop
  | [], message, inner => inner = message
  | number :: path, message, inner =>
      ∃ payload, HasPayload message number payload ∧
        Inside path payload inner

/-- Neither the message nor one inside of it on this path is cut inside of a
value. -/
def Uncut : List Nat → Bytes → Prop
  | [], message => ¬ EndsIn CutInValue message
  | number :: path, message =>
      ¬ EndsIn CutInValue message ∧
        ∀ payload, HasPayload message number payload → Uncut path payload

/-- The header is read off a whole key and a whole value, or off a whole key
alone if there is no value. -/
def IsHeaderOf (key value : String) (message : Bytes) : Prop :=
  (∃ payload, HasPayload message 1 payload ∧
      key = Utf8.decodeIgnore payload) ∧
    ((∃ payload, HasPayload message 3 payload ∧
        value = Utf8.decodeIgnore payload) ∨
      ((∀ payload, ¬ HasPayload message 3 payload) ∧ value = ""))

/-- Every header of the result is one that the bodies of the loops may add. -/
def AllHeaders (good : String → String → Prop) (result : HeaderMap) : Prop :=
  ∀ key value, result.get? key = some value → good key value

theorem allHeaders_empty (good : String → String → Prop) :
    AllHeaders good .empty := by
  intro key value found
  cases found

/-- A loop adds good headers if its body does. -/
theorem allHeaders_foldlM
    {good : String → String → Prop}
    {body : HeaderMap → Bytes → Except WireError HeaderMap}
    {payloads : List Bytes} {result after : HeaderMap}
    (each : ∀ payload ∈ payloads, ∀ before later, AllHeaders good before →
      body before payload = .ok later → AllHeaders good later)
    (initially : AllHeaders good result)
    (done : payloads.foldlM body result = .ok after) :
    AllHeaders good after := by
  induction payloads generalizing result with
  | nil =>
      cases done
      exact initially
  | cons payload rest inductionHypothesis =>
      rw [List.foldlM_cons] at done
      obtain ⟨next, bodyDone, restDone⟩ := bind_eq_ok done
      have nextGood :=
        each payload List.mem_cons_self result next initially bodyDone
      refine inductionHypothesis ?_ nextGood restDone
      intro other member
      exact each other (List.mem_cons_of_mem payload member)

theorem allHeaders_forEach
    {good : String → String → Prop} {number : Nat}
    {body : HeaderMap → Bytes → Except WireError HeaderMap}
    {result after : HeaderMap} {message : Bytes}
    (uncut : ¬ EndsIn CutInValue message)
    (each : ∀ payload, HasPayload message number payload →
      ∀ before later, AllHeaders good before →
        body before payload = .ok later → AllHeaders good later)
    (initially : AllHeaders good result)
    (done : forEach number body result message = .ok after) :
    AllHeaders good after := by
  obtain ⟨fields, decoded, loop⟩ := bind_eq_ok done
  refine allHeaders_foldlM ?_ initially loop
  intro payload member
  exact each payload
    ((mem_decoded_iff uncut decoded number payload).mp member)

theorem decodeIgnore_nil : Utf8.decodeIgnore [] = "" := by
  rw [Utf8.decodeIgnore, Utf8.decodeChars, String.ofList_nil]

/-- The first payload of a number is a whole one, if there is one. -/
theorem firstPayload_cases
    {data : Bytes} {fields : FieldMap}
    (uncut : ¬ EndsIn CutInValue data)
    (decoded : decodeFields data = .ok fields) (number : Nat) :
    HasPayload data number (firstPayload fields number) ∨
      ((∀ payload, ¬ HasPayload data number payload) ∧
        firstPayload fields number = []) := by
  have rule := mem_decoded_iff uncut decoded number
  rw [firstPayload, OrderedDict.getD]
  rw [OrderedDict.getD] at rule
  cases found : fields.get? number with
  | none =>
      rw [found] at rule
      refine .inr ⟨?_, rfl⟩
      intro payload has
      cases (rule payload).mpr has
  | some stored =>
      rw [found] at rule
      cases stored with
      | nil =>
          refine .inr ⟨?_, rfl⟩
          intro payload has
          cases (rule payload).mpr has
      | cons first rest =>
          exact .inl ((rule first).mp List.mem_cons_self)

theorem allHeaders_extractHeader
    {good : String → String → Prop} {result after : HeaderMap}
    {message : Bytes} (uncut : ¬ EndsIn CutInValue message)
    (isGood : ∀ key value, IsHeaderOf key value message → good key value)
    (initially : AllHeaders good result)
    (done : extractHeader result message = .ok after) :
    AllHeaders good after := by
  obtain ⟨fields, decoded, done⟩ := bind_eq_ok done
  dsimp only at done
  split at done
  · next named =>
      cases done
      have keyWhole :
          HasPayload message 1 (firstPayload fields 1) := by
        rcases firstPayload_cases uncut decoded 1 with has | ⟨_, none⟩
        · exact has
        · rw [none, decodeIgnore_nil] at named
          exact absurd rfl named
      have header :
          IsHeaderOf (Utf8.decodeIgnore (firstPayload fields 1))
            (Utf8.decodeIgnore (firstPayload fields 3)) message := by
        refine ⟨⟨_, keyWhole, rfl⟩, ?_⟩
        rcases firstPayload_cases uncut decoded 3 with has | ⟨absent, none⟩
        · exact .inl ⟨_, has, rfl⟩
        · refine .inr ⟨absent, ?_⟩
          rw [none, decodeIgnore_nil]
      intro key value found
      rcases OrderedDict.get?_of_get?_insert found with
        ⟨rfl, rfl⟩ | before
      · exact isGood _ _ header
      · exact initially key value before
  · cases done
    exact initially

/-- The path of a header value through a `ProcessingResponse`. -/
def headerPath : List Nat := [1, 1, 2, 1, 1]

/-- If nothing on the way is cut inside of a value, every header comes from a
whole key and a whole value. -/
theorem extractHeaders_whole
    {response : Bytes} {result : HeaderMap}
    (uncut : Uncut headerPath response)
    (extracted : extractHeaders response = .ok result) :
    AllHeaders (fun key value =>
      ∃ message, Inside headerPath response message ∧
        IsHeaderOf key value message) result := by
  obtain ⟨here, uncut⟩ := uncut
  refine allHeaders_forEach here ?_ (allHeaders_empty _) extracted
  intro headersResponse isHeaders _ _ before done
  obtain ⟨here, uncut⟩ := uncut headersResponse isHeaders
  refine allHeaders_forEach here ?_ before done
  intro common isCommon _ _ before done
  obtain ⟨here, uncut⟩ := uncut common isCommon
  refine allHeaders_forEach here ?_ before done
  intro mutation isMutation _ _ before done
  obtain ⟨here, uncut⟩ := uncut mutation isMutation
  refine allHeaders_forEach here ?_ before done
  intro option isOption _ _ before done
  obtain ⟨here, uncut⟩ := uncut option isOption
  refine allHeaders_forEach here ?_ before done
  intro value isValue _ _ before done
  refine allHeaders_extractHeader (uncut value isValue) ?_ before done
  intro key text header
  exact ⟨value, ⟨headersResponse, isHeaders, common, isCommon, mutation,
    isMutation, option, isOption, value, isValue, rfl⟩, header⟩

/-! ## Checking where bytes end -/

/-- The loop of `_decode_fields` runs past the end. -/
def overruns (data : Bytes) (pos : Nat) : Bool :=
  if pos < data.length then
    match _done : readField data pos with
    | .error _ => false
    | .ok .stop => false
    | .ok (.skipped next) => overruns data next
    | .ok (.payload _ _ next) => overruns data next
  else
    data.length < pos
termination_by data.length - pos
decreasing_by
  · have later := lt_of_readField _done rfl
    omega
  · have later := lt_of_readField _done rfl
    omega

theorem overruns_of_next
    {data : Bytes} {pos next : Nat} {read : Read}
    (inside : pos < data.length) (found : readField data pos = .ok read)
    (goesOn : read.next? = some next) :
    overruns data pos = overruns data next := by
  rw [overruns, if_pos inside]
  split
  · next failed =>
      rw [failed] at found
      cases found
  · next stopped =>
      rw [stopped] at found
      cases found
      cases goesOn
  · next skipped =>
      rw [skipped] at found
      cases found
      cases goesOn
      rfl
  · next stored =>
      rw [stored] at found
      cases found
      cases goesOn
      rfl

theorem next?_readOf (next : Nat) (kept : Option (Nat × Bytes)) :
    (readOf next kept).next? = some next := by
  cases kept <;> rfl

theorem overruns_of_isMessage
    {data before rest : Bytes} {kept : List (Nat × Bytes)} {pos : Nat}
    (message : IsMessage before kept)
    (start : data.drop pos = before ++ rest) :
    overruns data pos = overruns data (pos + before.length) := by
  induction message generalizing pos with
  | nil =>
      rfl
  | cons isField _ inductionHypothesis =>
      rw [List.append_assoc] at start
      have inside : pos < data.length := by
        refine lt_length_of_drop start ?_
        exact List.append_ne_nil_of_left_ne_nil
          (List.ne_nil_of_length_pos isField.length_pos) _
      rw [overruns_of_next inside (readField_of_isField isField start)
        (next?_readOf ..), inductionHypothesis (drop_after start),
        List.length_append, ← Nat.add_assoc]

/-- A value that is cut makes the loop run past the end. -/
theorem readField_of_cutInValue
    {data : Bytes} {pos : Nat} (cut : CutInValue (data.drop pos)) :
    pos < data.length ∧ ∃ read next, readField data pos = .ok read ∧
      read.next? = some next ∧ data.length < next := by
  obtain ⟨tag, number, wireType, more, tagged, start, short⟩ := cut
  obtain ⟨after, read⟩ := readField_of_isTag tagged start
  have positive : 0 < tag.length := by
    obtain ⟨_, spelled, _⟩ := tagged
    exact spelled.length_pos
  have size : data.length - pos = tag.length + more.length := by
    rw [← List.length_drop, start, List.length_append]
  rcases short with
    ⟨rfl, short⟩ | ⟨rfl, short⟩ |
      ⟨rfl, length, n, payload, declared, rfl, short⟩
  · refine ⟨by omega, _, _, read, rfl, ?_⟩
    omega
  · refine ⟨by omega, _, _, read, rfl, ?_⟩
    omega
  · rw [List.length_append] at size
    rw [if_neg (by decide), if_pos rfl,
      decodeVarint_of_isVarint declared after] at read
    refine ⟨by omega, _, _, read, rfl, ?_⟩
    omega

theorem overruns_of_past
    {data : Bytes} {pos : Nat} (past : data.length < pos) :
    overruns data pos = true := by
  rw [overruns, if_neg (by omega)]
  exact decide_eq_true past

theorem not_overruns_of_isMessage
    {data : Bytes} {kept : List (Nat × Bytes)}
    (message : IsMessage data kept) : overruns data 0 = false := by
  have start : data.drop 0 = data ++ [] := (List.append_nil data).symm
  rw [overruns_of_isMessage message start, Nat.zero_add, overruns,
    if_neg (lt_irrefl _)]
  exact decide_eq_false (lt_irrefl _)

/-- Bytes end inside of a value exactly if the loop runs past their end. -/
theorem endsIn_cutInValue_iff (data : Bytes) :
    EndsIn CutInValue data ↔ overruns data 0 = true := by
  have ofMessage : ∀ {before rest : Bytes} {kept : List (Nat × Bytes)},
      IsMessage before kept →
        overruns (before ++ rest) 0 =
          overruns (before ++ rest) before.length := by
    intro before rest kept message
    rw [overruns_of_isMessage message rfl, Nat.zero_add]
  constructor
  · intro ends
    obtain ⟨before, kept, rest, message, cut, rfl⟩ := ends
    rw [← @List.drop_left _ before rest] at cut
    obtain ⟨inside, read, next, found, goesOn, past⟩ :=
      readField_of_cutInValue cut
    rw [ofMessage message, overruns_of_next inside found goesOn,
      overruns_of_past past]
  · intro runsOver
    rcases exists_ending data with ends | ends | ends | ends
    · obtain ⟨before, kept, rest, message, rfl, rfl⟩ := ends
      rw [List.append_nil, not_overruns_of_isMessage message] at runsOver
      cases runsOver
    · obtain ⟨before, kept, rest, message, stops, rfl⟩ := ends
      rw [← @List.drop_left _ before rest] at stops
      have found := readField_of_stopsAt stops
      rw [ofMessage message, overruns] at runsOver
      split at runsOver
      · split at runsOver
        · cases runsOver
        · cases runsOver
        · next skipped =>
            rw [skipped] at found
            cases found
        · next stored =>
            rw [stored] at found
            cases found
      · simp only [decide_eq_true_eq, List.length_append] at runsOver
        omega
    · obtain ⟨before, kept, rest, message, cut, rfl⟩ := ends
      rw [← @List.drop_left _ before rest] at cut
      have found := readField_of_cutInVarint cut
      rw [ofMessage message, overruns] at runsOver
      split at runsOver
      · split at runsOver
        · cases runsOver
        · cases runsOver
        · next skipped =>
            rw [skipped] at found
            cases found
        · next stored =>
            rw [stored] at found
            cases found
      · simp only [decide_eq_true_eq, List.length_append] at runsOver
        omega
    · exact ends

instance (data : Bytes) : Decidable (EndsIn CutInValue data) :=
  decidable_of_iff _ (endsIn_cutInValue_iff data).symm

/-- Check a message and those inside of it. -/
def uncut : List Nat → Bytes → Bool
  | [], message => !overruns message 0
  | number :: path, message =>
      !overruns message 0 &&
        match decodeFields message with
        | .ok fields => (fields.getD number []).all (uncut path)
        | .error _ => false

theorem uncut_sound
    {path : List Nat} {message : Bytes} (checked : uncut path message) :
    Uncut path message := by
  induction path generalizing message with
  | nil =>
      rw [uncut] at checked
      intro ends
      rw [(endsIn_cutInValue_iff message).mp ends] at checked
      cases checked
  | cons number path inductionHypothesis =>
      rw [uncut, Bool.and_eq_true] at checked
      obtain ⟨here, inner⟩ := checked
      have whole : ¬ EndsIn CutInValue message := by
        intro ends
        rw [(endsIn_cutInValue_iff message).mp ends] at here
        cases here
      refine ⟨whole, ?_⟩
      intro payload has
      split at inner
      · next fields decoded =>
          have member := (mem_decoded_iff whole decoded number payload).mpr
            has
          exact inductionHypothesis (List.all_eq_true.mp inner payload member)
      · cases inner

/-! ## What is read as a message -/

/-- The decoder accepts bytes that are not cut inside of a value exactly if
they are whole fields up to their end, or up to a field of a wire type at which
it stops.  It keeps the payloads of these fields, and the headers of a response
come from whole keys and values. -/
theorem uncut_bytes_are_read_as_their_whole_fields :
    (∀ data, ¬ EndsIn CutInValue data →
      ((∃ fields, decodeFields data = .ok fields) ↔
        EndsIn (fun rest => rest = [] ∨ StopsAt rest) data) ∧
      (decodeFields data = .error .indexError ↔
        EndsIn CutInVarint data) ∧
      ∀ fields, decodeFields data = .ok fields →
        ∃ before kept rest, IsMessage before kept ∧
          (rest = [] ∨ StopsAt rest) ∧ data = before ++ rest ∧
          ∀ number, fields.getD number [] = payloadsOf number kept) ∧
    ∀ response result, Uncut headerPath response →
      extractHeaders response = .ok result →
        AllHeaders (fun key value =>
          ∃ message, Inside headerPath response message ∧
            IsHeaderOf key value message) result := by
  refine ⟨?_, fun response result => extractHeaders_whole⟩
  intro data uncut
  have whole :
      EndsIn (fun rest => rest = [] ∨ StopsAt rest) data ∨
        EndsIn CutInVarint data := by
    rcases exists_ending data with ends | ends | ends | ends
    · obtain ⟨before, kept, rest, message, isEnd, split⟩ := ends
      exact .inl ⟨before, kept, rest, message, .inl isEnd, split⟩
    · obtain ⟨before, kept, rest, message, stops, split⟩ := ends
      exact .inl ⟨before, kept, rest, message, .inr stops, split⟩
    · exact .inr ends
    · exact absurd ends uncut
  have accepted : ∀ fields, decodeFields data = .ok fields →
      EndsIn (fun rest => rest = [] ∨ StopsAt rest) data := by
    intro fields decoded
    rcases whole with ends | cut
    · exact ends
    · rw [decodeFields_of_cutInVarint cut] at decoded
      cases decoded
  refine ⟨⟨?_, ?_⟩, ⟨?_, decodeFields_of_cutInVarint⟩, ?_⟩
  · intro decoded
    obtain ⟨fields, decoded⟩ := decoded
    exact accepted fields decoded
  · intro ends
    obtain ⟨before, kept, rest, message, isEnd, rfl⟩ := ends
    exact ⟨_, decodeFields_of_whole message isEnd⟩
  · intro failed
    rcases whole with ⟨before, kept, rest, message, isEnd, rfl⟩ | cut
    · rw [decodeFields_of_whole message isEnd] at failed
      cases failed
    · exact cut
  · intro fields decoded
    obtain ⟨before, kept, rest, message, isEnd, rfl⟩ :=
      accepted fields decoded
    refine ⟨before, kept, rest, message, isEnd, rfl, ?_⟩
    intro number
    rw [decodeFields_of_whole message isEnd] at decoded
    cases decoded
    rw [getD_storeAll]
    rfl

/-- The first field of a message ends inside of it. -/
theorem exists_next_of_isMessage
    {data : Bytes} {kept : List (Nat × Bytes)}
    (message : IsMessage data kept) (nonempty : data ≠ []) :
    ∃ read next, readField data 0 = .ok read ∧
      read.next? = some next ∧ next ≤ data.length := by
  cases message with
  | nil =>
      exact absurd rfl nonempty
  | @cons first rest entry later isField _ =>
      refine ⟨_, first.length, readField_of_isField isField rfl, ?_, ?_⟩
      · rw [Nat.zero_add]
        cases entry <;> rfl
      · rw [List.length_append]
        omega

/-- A response with an endpoint. -/
def endpointResponse : Bytes :=
  serialise [.lengthDelimited 1 (serialise [.lengthDelimited 1
    (serialise [.lengthDelimited 2 (serialise [.lengthDelimited 1
      (option "x-endpoint" "10.0.0.1:8000")])])])]

theorem uncut_bytes_are_read_as_their_whole_fields_endpoint :
    EndsIn (fun rest => rest = [] ∨ StopsAt rest)
        (endpointResponse ++ [0x0B]) ∧
      ∃ result, extractHeaders endpointResponse = .ok result ∧
        result.get? "x-endpoint" = some "10.0.0.1:8000" ∧
        ∃ message, Inside headerPath endpointResponse message ∧
          IsHeaderOf "x-endpoint" "10.0.0.1:8000" message := by
  have rules := uncut_bytes_are_read_as_their_whole_fields
  have accepted :
      (decodeFields (endpointResponse ++ [0x0B])).toOption.isSome := by
    decide +kernel
  have found :
      (extractHeaders endpointResponse).toOption.bind
        (fun result => result.get? "x-endpoint") =
        some "10.0.0.1:8000" := by
    decide +kernel
  constructor
  · refine (rules.1 _ (by decide +kernel)).1.mp ?_
    cases decoded : decodeFields (endpointResponse ++ [0x0B]) with
    | ok fields =>
        exact ⟨fields, rfl⟩
    | error failed =>
        rw [decoded] at accepted
        cases accepted
  · cases extracted : extractHeaders endpointResponse with
    | ok result =>
        rw [extracted] at found
        exact ⟨result, rfl, found,
          rules.2 _ result (uncut_sound (by decide +kernel)) extracted _ _
            found⟩
    | error failed =>
        rw [extracted] at found
        cases found

/-- The decoder accepts a lone tag of wire type 3 as an empty message.  A
response that has lost its last two bytes is read as well, with an endpoint that
has lost them. -/
theorem bytes_that_are_no_message_are_read :
    ((decodeFields [0x0B]).toOption.isSome ∧
        ¬ ∃ kept, IsMessage [0x0B] kept) ∧
      (extractHeaders
          (endpointResponse.take (endpointResponse.length - 2))).toOption.bind
          (fun result => result.get? "x-endpoint") =
        some "10.0.0.1:80" ∧
      ¬ ∃ kept, IsMessage
        (endpointResponse.take (endpointResponse.length - 2)) kept := by
  refine ⟨⟨by decide +kernel, ?_⟩, by decide +kernel, ?_⟩
  · intro isMessage
    obtain ⟨kept, message⟩ := isMessage
    obtain ⟨read, next, found, goesOn, _⟩ :=
      exists_next_of_isMessage message (by decide)
    have stops : readField [0x0B] 0 = .ok .stop := by
      decide +kernel
    rw [stops] at found
    cases found
    cases goesOn
  · intro isMessage
    obtain ⟨kept, message⟩ := isMessage
    have runsOver :
        overruns (endpointResponse.take (endpointResponse.length - 2)) 0 =
          true := by
      decide +kernel
    rw [not_overruns_of_isMessage message] at runsOver
    cases runsOver

end LlmDRl.Wire
