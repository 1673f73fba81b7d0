import LlmDRl.Routing.TrackedStream

/-!
# Untracked routing

`EPPGrpcClient.pick` has a read loop and a request builder of its own; `route`
chooses between it and `begin`.  On the messages of a stream that comes to its
end, both decide by the first message that names a destination, and they send
the same requests up to the header that lets EPP recognise the completion.
-/

namespace LlmDRl.Routing

open LlmDRl.Library
open LlmDRl.Wire

/-! ## The body of a request -/

/-- A value of the payload. -/
inductive PayloadValue where
  | text (value : String)
  | tokenIds (value : List Int)
  deriving DecidableEq, Repr

/-- `payload`; an empty salt is left out as `None` is. -/
def payload (model : String) (promptIds : List Int)
    (cacheSalt : Option String) : OrderedDict String PayloadValue :=
  let payload :=
    (OrderedDict.empty.insert "model" (.text model)).insert "token_ids"
      (PayloadValue.tokenIds promptIds)
  match cacheSalt with
  | none => payload
  | some salt =>
      if salt ≠ "" then
        payload.insert "cache_salt" (.text salt)
      else
        payload

/-- `format(n, "04x")` -/
def hex4 (n : Nat) : String :=
  let digits := Nat.toDigits 16 n
  String.ofList (List.replicate (4 - digits.length) '0' ++ digits)

/-- A character as `json.dumps` writes it in a string. -/
def jsonChar (char : Char) : String :=
  if char = '\\' then "\\\\"
  else if char = '"' then "\\\""
  else if char = '\n' then "\\n"
  else if char = '\r' then "\\r"
  else if char = '\t' then "\\t"
  else if char.toNat = 0x08 then "\\b"
  else if char.toNat = 0x0C then "\\f"
  else if 0x20 ≤ char.toNat ∧ char.toNat ≤ 0x7E then
    String.singleton char
  else if char.toNat ≤ 0xFFFF then
    "\\u" ++ hex4 char.toNat
  else
    -- a surrogate pair
    "\\u" ++ hex4 (0xD800 + (char.toNat - 0x10000) / 0x400) ++
      "\\u" ++ hex4 (0xDC00 + (char.toNat - 0x10000) % 0x400)

def jsonString (value : String) : String :=
  "\"" ++ String.join (value.toList.map jsonChar) ++ "\""

def PayloadValue.dumps : PayloadValue → String
  | .text value => jsonString value
  | .tokenIds value =>
      "[" ++ String.intercalate ", " (value.map toString) ++ "]"

/-- `json.dumps(payload)` -/
def dumps (payload : OrderedDict String PayloadValue) : String :=
  "\x7b" ++
    String.intercalate ", "
      (payload.entries.map fun item =>
        jsonString item.1 ++ ": " ++ item.2.dumps) ++ "\x7d"

/-- `json.dumps(payload).encode()` -/
def requestBody (model : String) (promptIds : List Int)
    (cacheSalt : Option String) : Bytes :=
  Utf8.encode (dumps (payload model promptIds cacheSalt))

/-! ## `pick` and `route` -/

/-- What the generator `_iter` of `pick` yields. -/
def pickRequests (body : Bytes) : List Bytes :=
  [encodeRequestHeaders
      [(":method", Utf8.encode "POST"),
        (":path", Utf8.encode "/inference/v1/generate"),
        ("content-type", Utf8.encode "application/json"),
        ("content-length", Utf8.encode (toString body.length))],
    encodeRequestBody body]

/-- The `async for` of `pick`, which returns from within. -/
def pickDecision : List ReadResult → Outcome RoutingResult
  | [] => .waits
  | .eof :: _ => .returns ⟨none, .empty⟩
  | .raised raised :: _ => .raises raised
  | .message bytes :: rest =>
      match extractHeaders bytes with
      | .error .indexError => .raises .indexError
      | .ok headers =>
          match headers.get? destinationHeader with
          | none => pickDecision rest
          | some endpoint =>
              if endpoint ≠ "" then
                .returns
                  ⟨some endpoint, headers.erase destinationHeader⟩
              else
                pickDecision rest

/-- `pick` on the responses `reads`: what it sends, and the decision. -/
def pick (body : Bytes) (reads : List ReadResult) :
    List Bytes × Outcome RoutingResult :=
  (pickRequests body, pickDecision reads)

/-- `route` on the responses `reads`: what it sends before it has decided, and
the decision. -/
def route (model : String) (promptIds : List Int) (requestId : String)
    (trackCompletion : Bool) (cacheSalt : Option String)
    (reads : List ReadResult) :
    List Bytes × Outcome RoutingResult :=
  let body := requestBody model promptIds cacheSalt
  if trackCompletion then
    let begun := begin body requestId ⟨none, none, reads⟩
    (begun.stream.sent.reduceOption, begun.outcome)
  else
    pick body reads

/-- The messages, and then the end of the stream. -/
def readsOf (messages : List Bytes) : List ReadResult :=
  messages.map .message ++ [.eof]

/-- The headers of the message carry a non-empty destination, and the result
is this destination with the other headers. -/
def Decides (result : RoutingResult) (read : ReadResult) : Prop :=
  ∃ bytes headers endpoint, read = .message bytes ∧
    extractHeaders bytes = .ok headers ∧
    headers.get? destinationHeader = some endpoint ∧ endpoint ≠ "" ∧
    result = ⟨some endpoint, headers.erase destinationHeader⟩

/-! ## One message -/

theorem destination?_eq_some_iff (headers : HeaderMap) (endpoint : String) :
    destination? headers = some endpoint ↔
      headers.get? destinationHeader = some endpoint ∧ endpoint ≠ "" := by
  simp [destination?]

theorem undecided_message_iff (bytes : Bytes) :
    Undecided (.message bytes) ↔
      ∃ headers, extractHeaders bytes = .ok headers ∧
        destination? headers = none := by
  constructor
  · intro undecided
    obtain ⟨_, headers, same, decoded, goes⟩ := undecided
    cases same
    exact ⟨headers, decoded, goes⟩
  · intro undecided
    obtain ⟨headers, decoded, goes⟩ := undecided
    exact ⟨bytes, headers, rfl, decoded, goes⟩

theorem undecodable_message_iff (bytes : Bytes) :
    Undecodable (.message bytes) ↔
      extractHeaders bytes = .error .indexError := by
  constructor
  · intro undecodable
    obtain ⟨_, failed, same, notDecoded⟩ := undecodable
    cases same
    cases failed
    exact notDecoded
  · intro notDecoded
    exact ⟨bytes, _, rfl, notDecoded⟩

theorem decides_message_iff (result : RoutingResult) (bytes : Bytes) :
    Decides result (.message bytes) ↔
      ∃ headers endpoint, extractHeaders bytes = .ok headers ∧
        destination? headers = some endpoint ∧
        result = ⟨some endpoint, headers.erase destinationHeader⟩ := by
  simp only [destination?_eq_some_iff]
  constructor
  · intro decides
    obtain ⟨_, headers, endpoint, same, decoded, goes, named, rfl⟩ :=
      decides
    cases same
    exact ⟨headers, endpoint, decoded, ⟨goes, named⟩, rfl⟩
  · intro decides
    obtain ⟨headers, endpoint, decoded, ⟨goes, named⟩, rfl⟩ := decides
    exact ⟨bytes, headers, endpoint, rfl, decoded, goes, named, rfl⟩

/-- What the loop does on a message. -/
theorem pickDecision_message (bytes : Bytes) (rest : List ReadResult) :
    pickDecision (.message bytes :: rest) =
      match extractHeaders bytes with
      | .error .indexError => .raises .indexError
      | .ok headers =>
          match destination? headers with
          | some endpoint =>
              .returns ⟨some endpoint, headers.erase destinationHeader⟩
          | none => pickDecision rest := by
  rw [pickDecision]
  cases decoded : extractHeaders bytes with
  | error failed =>
      rfl
  | ok headers =>
      cases found : headers.get? destinationHeader with
      | none =>
          have goes : destination? headers = none := by
            simp [destination?, found]
          simp only [goes, found]
      | some endpoint =>
          by_cases named : endpoint = ""
          · have goes : destination? headers = none := by
              simp [destination?, found, named]
            simp only [goes, found, named, ne_eq, not_true_eq_false,
              if_false]
          · have goes : destination? headers = some endpoint :=
              (destination?_eq_some_iff _ _).mpr ⟨found, named⟩
            simp only [goes, found, ne_eq, named, not_false_eq_true,
              if_true]

/-! ## Whole streams -/

/-- The two loops agree, whatever the reads do. -/
theorem pickDecision_eq_readDecision
    (stream : Stream) (reads : List ReadResult) :
    pickDecision reads = (readDecision stream reads).outcome := by
  induction reads with
  | nil =>
      rfl
  | cons read rest inductionHypothesis =>
      cases read with
      | eof =>
          rfl
      | raised raised =>
          rfl
      | message bytes =>
          rw [pickDecision_message, readDecision]
          cases decoded : extractHeaders bytes with
          | error failed =>
              rfl
          | ok headers =>
              cases goes : destination? headers with
              | some endpoint =>
                  simp only [goes]
              | none =>
                  simp only [goes]
                  exact inductionHypothesis

theorem pickDecision_returns_iff
    (messages : List Bytes) (result : RoutingResult) :
    pickDecision (readsOf messages) = .returns result ↔
      MeetsUndecided (Decides result) (messages.map .message) ∨
        ((∀ bytes ∈ messages, Undecided (.message bytes)) ∧
          result = ⟨none, .empty⟩) := by
  induction messages with
  | nil =>
      have none := not_meetsUndecided_nil (Decides result)
      simp [readsOf, pickDecision, none, eq_comm]
  | cons bytes rest inductionHypothesis =>
      rw [List.map_cons, meetsUndecided_cons_iff, List.forall_mem_cons,
        decides_message_iff, undecided_message_iff]
      change pickDecision (.message bytes :: readsOf rest) = _ ↔ _
      rw [pickDecision_message]
      cases decoded : extractHeaders bytes with
      | error failed =>
          cases failed
          simp
      | ok headers =>
          cases goes : destination? headers with
          | some endpoint =>
              simp [goes, eq_comm]
          | none =>
              simp [goes, inductionHypothesis]

theorem pickDecision_raises_iff
    (messages : List Bytes) (raised : Raised) :
    pickDecision (readsOf messages) = .raises raised ↔
      MeetsUndecided Undecodable (messages.map .message) ∧
        raised = .indexError := by
  induction messages with
  | nil =>
      have none := not_meetsUndecided_nil Undecodable
      simp [readsOf, pickDecision, none]
  | cons bytes rest inductionHypothesis =>
      rw [List.map_cons, meetsUndecided_cons_iff, undecodable_message_iff,
        undecided_message_iff]
      change pickDecision (.message bytes :: readsOf rest) = _ ↔ _
      rw [pickDecision_message]
      cases decoded : extractHeaders bytes with
      | error failed =>
          cases failed
          simp [eq_comm]
      | ok headers =>
          cases goes : destination? headers with
          | some endpoint =>
              simp [goes]
          | none =>
              simp [goes, inductionHypothesis]

theorem pickDecision_ne_waits (messages : List Bytes) :
    pickDecision (readsOf messages) ≠ .waits := by
  induction messages with
  | nil =>
      intro waits
      cases waits
  | cons bytes rest inductionHypothesis =>
      change pickDecision (.message bytes :: readsOf rest) ≠ _
      rw [pickDecision_message]
      cases decoded : extractHeaders bytes with
      | error failed =>
          cases failed
          simp
      | ok headers =>
          cases goes : destination? headers with
          | some endpoint =>
              simp [goes]
          | none =>
              simpa [goes] using inductionHypothesis

/-- Once both requests are put, `begin` only reads. -/
theorem begin_of_puts
    (body : Bytes) (requestId : String) (reads : List ReadResult) :
    begin body requestId ⟨none, none, reads⟩ =
      readDecision
        ⟨[some (requestHeaders body requestId),
          some (encodeRequestBody body)], false, false, 0⟩ reads :=
  rfl

theorem readDecision_sent (stream : Stream) (reads : List ReadResult) :
    (readDecision stream reads).stream.sent = stream.sent := by
  have decision := decision_of_readDecision stream reads
  generalize readDecision stream reads = ran at decision ⊢
  cases decision with
  | undecodable | failed | waits | decided =>
      rfl

/-- Completion tracking does not change the decision, which is that of the
first message that names a destination; and it adds one header to what is
sent. -/
theorem route_tracked_eq_untracked
    (model : String) (promptIds : List Int) (requestId : String)
    (cacheSalt : Option String) (messages : List Bytes) :
    let tracked :=
      route model promptIds requestId true cacheSalt (readsOf messages)
    let untracked :=
      route model promptIds requestId false cacheSalt (readsOf messages)
    tracked.2 = untracked.2 ∧
      (∀ result, untracked.2 = .returns result ↔
        MeetsUndecided (Decides result) (messages.map .message) ∨
          ((∀ bytes ∈ messages, Undecided (.message bytes)) ∧
            result = ⟨none, .empty⟩)) ∧
      (∀ raised, untracked.2 = .raises raised ↔
        MeetsUndecided Undecodable (messages.map .message) ∧
          raised = .indexError) ∧
      untracked.2 ≠ .waits ∧
      ∃ first second body headers,
        untracked.1 = [first, body] ∧ tracked.1 = [second, body] ∧
          decodeHeaders 2 first = some headers ∧
          decodeHeaders 2 second =
            some (headers ++ [("x-request-id", Utf8.encode requestId)]) ∧
          decodeBody 4 body =
            some (requestBody model promptIds cacheSalt) := by
  intro tracked untracked
  refine ⟨?_, pickDecision_returns_iff messages,
    pickDecision_raises_iff messages, pickDecision_ne_waits messages, ?_⟩
  · change (begin _ requestId ⟨none, none, readsOf messages⟩).outcome =
      pickDecision (readsOf messages)
    rw [begin_of_puts]
    exact (pickDecision_eq_readDecision _ _).symm
  · refine ⟨_,
      requestHeaders (requestBody model promptIds cacheSalt) requestId,
      _, _, rfl, ?_, decodeHeaders_lv 2 _ false, decodeHeaders_lv 2 _ false,
      decodeBody_lv 4 _ true⟩
    change (begin _ requestId
      ⟨none, none, readsOf messages⟩).stream.sent.reduceOption = _
    rw [begin_of_puts, readDecision_sent]
    rfl

end LlmDRl.Routing
