import LlmDRl.Wire.Headers

/-!
# Tracked streams

`EPPGrpcClient.begin` and `complete`, and `EPPLLMClient.generate` with
completion tracking.  A run is given by what each `await` does; the messages of
the endpoint picker are arbitrary bytes.  A request that is sent opens one
stream, and the stream has to be ended when `generate` is over: by the
sentinel, by cancelling the call, or by a read that has failed.
-/

namespace LlmDRl.Routing

open LlmDRl.Library
open LlmDRl.Wire

/-! ## Awaits -/

/-- What is raised.  `except Exception` catches the first kind only; a
`CancelledError` is of the second. -/
inductive Raised where
  | exception (name : String)
  | baseException (name : String)
  | indexError
  | noEndpoint (requestId : String)
  | unknownEndpoint (endpoint requestId : String) (known : List String)
  deriving DecidableEq, Repr

def Raised.IsException : Raised → Prop
  | .baseException _ => False
  | _ => True

instance : DecidablePred Raised.IsException := by
  intro raised
  cases raised <;> simp only [Raised.IsException] <;> infer_instance

/-- What `await call.read()` does. -/
inductive ReadResult where
  | message (bytes : Bytes)
  | eof
  | raised (raised : Raised)
  deriving DecidableEq, Repr

/-- How a call ends, if it does not wait forever. -/
inductive Outcome (α : Type) where
  | returns (value : α)
  | raises (raised : Raised)
  | waits
  deriving DecidableEq

/-- The stream of one request: what has been put on its queue, the sentinel
being `none`, and how else its call has ended. -/
structure Stream where
  sent : List (Option Bytes)
  cancelled : Bool
  readFailed : Bool
  completes : Nat
  deriving DecidableEq, Repr

/-- The stream a call has left, and how the call ended. -/
structure Ran (α : Type) where
  stream : Stream
  outcome : Outcome α
  deriving DecidableEq

/-- What the awaits of `begin` do, `none` being a put that returns. -/
structure BeginWorld where
  putHeaders : Option Raised
  putBody : Option Raised
  reads : List ReadResult

structure CompleteWorld where
  putHeaders : Option Raised
  putBody : Option Raised
  putSentinel : Option Raised
  reads : List ReadResult

/-- `await stream.send_q.put(item)` -/
def Stream.put {α : Type} (stream : Stream) (item : Option Bytes)
    (raised : Option Raised) (next : Stream → Ran α) : Ran α :=
  match raised with
  | none => next { stream with sent := stream.sent ++ [item] }
  | some raised => ⟨stream, .raises raised⟩

/-! ## `EPPGrpcClient` -/

def destinationHeader : String := "x-gateway-destination-endpoint"

/-- `headers.get(DESTINATION_HEADER)`, when it is true. -/
def destination? (headers : HeaderMap) : Option String :=
  (headers.get? destinationHeader).filter fun endpoint => endpoint ≠ ""

/-- What `begin` returns with the stream, and `route` passes on. -/
structure RoutingResult where
  endpoint : Option String
  sidecarHeaders : HeaderMap

/-- The loop that reads up to the routing decision. -/
def readDecision (stream : Stream) : List ReadResult → Ran RoutingResult
  | [] => ⟨stream, .waits⟩
  | .eof :: _ => ⟨stream, .returns ⟨none, .empty⟩⟩
  | .raised raised :: _ =>
      ⟨{ stream with readFailed := true }, .raises raised⟩
  | .message bytes :: rest =>
      match extractHeaders bytes with
      | .error .indexError => ⟨stream, .raises .indexError⟩
      | .ok headers =>
          match destination? headers with
          | some endpoint =>
              ⟨stream, .returns
                ⟨some endpoint, headers.erase destinationHeader⟩⟩
          | none => readDecision stream rest

def requestHeaders (body : Bytes) (requestId : String) : Bytes :=
  encodeRequestHeaders
    [(":method", Utf8.encode "POST"),
      (":path", Utf8.encode "/inference/v1/generate"),
      ("content-type", Utf8.encode "application/json"),
      ("content-length", Utf8.encode (toString body.length)),
      ("x-request-id", Utf8.encode requestId)]

/-- `begin`; `body` is the request as JSON. -/
def begin (body : Bytes) (requestId : String) (world : BeginWorld) :
    Ran RoutingResult :=
  let opened : Stream := ⟨[], false, false, 0⟩
  opened.put (some (requestHeaders body requestId)) world.putHeaders
    fun stream =>
      stream.put (some (encodeRequestBody body)) world.putBody fun stream =>
        readDecision stream world.reads

/-- The loop that drains the remaining messages. -/
def drain (stream : Stream) : List ReadResult → Ran Unit
  | [] => ⟨stream, .waits⟩
  | .eof :: _ => ⟨stream, .returns ()⟩
  | .raised raised :: _ =>
      ⟨{ stream with readFailed := true }, .raises raised⟩
  | .message _ :: rest => drain stream rest

def usage (outputTokens : Nat) : Bytes :=
  Utf8.encode ("\x7b\"usage\": \x7b\"completion_tokens\": " ++
    toString outputTokens ++ "\x7d\x7d")

/-- The body of the `try` of `complete`. -/
def sendResponse (stream : Stream) (outputTokens : Nat)
    (world : CompleteWorld) : Ran Unit :=
  stream.put
    (some (encodeResponseHeaders
      [(":status", Utf8.encode "200"),
        ("content-type", Utf8.encode "application/json")] false))
    world.putHeaders fun stream =>
      stream.put (some (encodeResponseBody (usage outputTokens) true))
        world.putBody fun stream =>
          stream.put none world.putSentinel fun stream =>
            drain stream world.reads

def complete (stream : Stream) (outputTokens : Nat)
    (world : CompleteWorld) : Ran Unit :=
  let issued := { stream with completes := stream.completes + 1 }
  let ran := sendResponse issued outputTokens world
  match ran.outcome with
  | .raises raised =>
      if raised.IsException then
        ⟨{ ran.stream with cancelled := true }, .returns ()⟩
      else ran
  | _ => ran

/-! ## `EPPLLMClient.generate` -/

/-- What the awaits of a `generate` do.  The actor returns the tokens of its
output, if it has any, and the output may then fail to be tagged. -/
structure GenerateWorld where
  begin : BeginWorld
  actor : Outcome (Option Nat)
  tag : Option Raised
  complete : CompleteWorld

/-- `result.complete(ntok)`, and then what `generate` was about to do. -/
def completeThen {α : Type} (stream : Stream) (outputTokens : Nat)
    (world : CompleteWorld) (rest : Outcome α) : Ran α :=
  let ran := complete stream outputTokens world
  match ran.outcome with
  | .returns () => ⟨ran.stream, rest⟩
  | .raises raised => ⟨ran.stream, .raises raised⟩
  | .waits => ⟨ran.stream, .waits⟩

/-- The `try` of `generate` and its `finally`. -/
def callActor (stream : Stream) (world : GenerateWorld) :
    Ran (Option Nat) :=
  match world.actor with
  | .waits => ⟨stream, .waits⟩
  | .raises raised => completeThen stream 0 world.complete (.raises raised)
  | .returns tokens =>
      completeThen stream (tokens.getD 0) world.complete
        (match world.tag with
          | none => .returns tokens
          | some raised => .raises raised)

/-- `generate` with `report_completion`, for the addresses of the known
servers. -/
def generate (known : List String) (body : Bytes) (requestId : String)
    (world : GenerateWorld) : Ran (Option Nat) :=
  let routed := begin body requestId world.begin
  match routed.outcome with
  | .waits => ⟨routed.stream, .waits⟩
  | .raises raised => ⟨routed.stream, .raises raised⟩
  | .returns result =>
      match result.endpoint with
      | none =>
          completeThen routed.stream 0 world.complete
            (.raises (.noEndpoint requestId))
      | some endpoint =>
          if endpoint ∈ known then callActor routed.stream world
          else
            completeThen routed.stream 0 world.complete
              (.raises (.unknownEndpoint endpoint requestId known))

/-! ## Ended streams -/

/-- The send side is half-closed, the call is cancelled, or a failed read has
ended the call. -/
def Stream.Ended (stream : Stream) : Prop :=
  none ∈ stream.sent ∨ stream.cancelled = true ∨ stream.readFailed = true

instance (stream : Stream) : Decidable stream.Ended :=
  inferInstanceAs (Decidable (_ ∨ _ ∨ _))

/-- A message that decodes and does not say where to go. -/
def Undecided (read : ReadResult) : Prop :=
  ∃ bytes headers, read = .message bytes ∧
    extractHeaders bytes = .ok headers ∧ destination? headers = none

/-- After messages that do not decide, a read does this. -/
def MeetsUndecided (p : ReadResult → Prop) (reads : List ReadResult) :
    Prop :=
  ∃ before read after,
    reads = before ++ read :: after ∧ (∀ other ∈ before, Undecided other) ∧
      p read

/-- The message cannot be decoded. -/
def Undecodable (read : ReadResult) : Prop :=
  ∃ bytes error, read = .message bytes ∧
    extractHeaders bytes = .error error

def Fails (read : ReadResult) : Prop :=
  ∃ raised, read = .raised raised

/-- What the puts of `complete` raise first. -/
def CompleteWorld.raised? (world : CompleteWorld) : Option Raised :=
  [world.putHeaders, world.putBody, world.putSentinel].findSome? id

/-- The first put that raises, if one does, raises an `Exception`. -/
def CompleteWorld.Catches (world : CompleteWorld) : Prop :=
  ∀ raised, world.raised? = some raised → raised.IsException

/-- No put of `begin` raises, and it reads no message that cannot be
decoded. -/
def BeginWorld.Clean (world : BeginWorld) : Prop :=
  world.putHeaders = none ∧ world.putBody = none ∧
    ¬ MeetsUndecided Undecodable world.reads

/-- Besides, a read of `begin` fails, or no put of `complete` raises something
else than an `Exception`. -/
def GenerateWorld.EndsStream (world : GenerateWorld) : Prop :=
  world.begin.Clean ∧
    (MeetsUndecided Fails world.begin.reads ∨ world.complete.Catches)

/-! ## Reading up to the decision -/

theorem not_meetsUndecided_nil (p : ReadResult → Prop) :
    ¬ MeetsUndecided p [] := by
  intro meets
  obtain ⟨before, read, after, split, _⟩ := meets
  exact List.cons_ne_nil _ _ (List.append_eq_nil_iff.mp split.symm).2

theorem meetsUndecided_cons_iff
    (p : ReadResult → Prop) (read : ReadResult) (rest : List ReadResult) :
    MeetsUndecided p (read :: rest) ↔
      p read ∨ (Undecided read ∧ MeetsUndecided p rest) := by
  constructor
  · intro meets
    obtain ⟨before, found, after, split, undecided, held⟩ := meets
    cases before with
    | nil =>
        cases split
        exact .inl held
    | cons first before =>
        cases split
        refine .inr ⟨undecided _ List.mem_cons_self, before, found, after,
          rfl, ?_, held⟩
        intro other member
        exact undecided other (List.mem_cons_of_mem _ member)
  · intro either
    rcases either with held | ⟨first, before, found, after, rfl, undecided,
      held⟩
    · refine ⟨[], read, rest, rfl, ?_, held⟩
      intro other member
      cases member
    · refine ⟨read :: before, found, after, rfl, ?_, held⟩
      intro other member
      rcases List.mem_cons.mp member with rfl | member
      · exact first
      · exact undecided other member

/-- How the loop that reads the decision can end. -/
inductive Decision (stream : Stream) (reads : List ReadResult) :
    Ran RoutingResult → Prop
  | undecodable (meets : MeetsUndecided Undecodable reads) :
      Decision stream reads ⟨stream, .raises .indexError⟩
  | failed (raised : Raised)
      (decodable : ¬ MeetsUndecided Undecodable reads)
      (meets : MeetsUndecided Fails reads) :
      Decision stream reads
        ⟨{ stream with readFailed := true }, .raises raised⟩
  | waits : Decision stream reads ⟨stream, .waits⟩
  | decided (result : RoutingResult)
      (decodable : ¬ MeetsUndecided Undecodable reads)
      (unfailing : ¬ MeetsUndecided Fails reads) :
      Decision stream reads ⟨stream, .returns result⟩

theorem decision_of_readDecision
    (stream : Stream) (reads : List ReadResult) :
    Decision stream reads (readDecision stream reads) := by
  induction reads with
  | nil =>
      exact .waits
  | cons read rest inductionHypothesis =>
      have undecodable := meetsUndecided_cons_iff Undecodable read rest
      have failing := meetsUndecided_cons_iff Fails read rest
      cases read with
      | eof =>
          refine .decided _ ?_ ?_
          · rw [undecodable]
            intro meets
            rcases meets with ⟨_, _, same, _⟩ | ⟨⟨_, _, same, _⟩, _⟩
            · cases same
            · cases same
          · rw [failing]
            intro meets
            rcases meets with ⟨_, same⟩ | ⟨⟨_, _, same, _⟩, _⟩
            · cases same
            · cases same
      | raised raised =>
          refine .failed raised ?_ (failing.mpr (.inl ⟨raised, rfl⟩))
          rw [undecodable]
          intro meets
          rcases meets with ⟨_, _, same, _⟩ | ⟨⟨_, _, same, _⟩, _⟩
          · cases same
          · cases same
      | message bytes =>
          rw [readDecision]
          have notFails : ¬ Fails (.message bytes) := by
            intro fails
            obtain ⟨_, same⟩ := fails
            cases same
          rw [or_iff_right notFails] at failing
          cases decoded : extractHeaders bytes with
          | error failed =>
              exact .undecodable
                (undecodable.mpr (.inl ⟨bytes, failed, rfl, decoded⟩))
          | ok headers =>
              have decodable : ¬ Undecodable (.message bytes) := by
                intro isUndecodable
                obtain ⟨_, _, same, failed⟩ := isUndecodable
                cases same
                rw [decoded] at failed
                cases failed
              rw [or_iff_right decodable] at undecodable
              dsimp only
              cases goes : destination? headers with
              | some endpoint =>
                  have decided : ¬ Undecided (.message bytes) := by
                    intro undecided
                    obtain ⟨_, _, same, read, none⟩ := undecided
                    cases same
                    rw [decoded] at read
                    cases read
                    rw [goes] at none
                    cases none
                  refine .decided _ ?_ ?_
                  · rw [undecodable]
                    exact fun meets => decided meets.1
                  · rw [failing]
                    exact fun meets => decided meets.1
              | none =>
                  have undecided : Undecided (.message bytes) :=
                    ⟨bytes, headers, rfl, decoded, goes⟩
                  rw [and_iff_right undecided] at undecodable failing
                  generalize readDecision stream rest = ran
                    at inductionHypothesis
                  cases inductionHypothesis with
                  | undecodable meets =>
                      exact .undecodable (undecodable.mpr meets)
                  | failed raised decodable meets =>
                      exact .failed raised
                        (fun later => decodable (undecodable.mp later))
                        (failing.mpr meets)
                  | waits =>
                      exact .waits
                  | decided result decodable unfailing =>
                      exact .decided result
                        (fun later => decodable (undecodable.mp later))
                        fun later => unfailing (failing.mp later)

/-! ## Completing -/

/-- Nothing has ended the stream so far. -/
structure Stream.Open (stream : Stream) : Prop where
  notSent : none ∉ stream.sent
  notCancelled : stream.cancelled = false
  notFailed : stream.readFailed = false

theorem Stream.Open.not_ended
    {stream : Stream} (isOpen : stream.Open) : ¬ stream.Ended := by
  intro ended
  rcases ended with sent | cancelled | failed
  · exact isOpen.notSent sent
  · cases isOpen.notCancelled.symm.trans cancelled
  · cases isOpen.notFailed.symm.trans failed

/-- Messages leave the stream open. -/
theorem Stream.Open.sent
    {stream : Stream} (isOpen : stream.Open) (bytes : Bytes) :
    { stream with sent := stream.sent ++ [some bytes] : Stream }.Open where
  notSent := by
    intro member
    rcases List.mem_append.mp member with before | new
    · exact isOpen.notSent before
    · simp at new
  notCancelled := isOpen.notCancelled
  notFailed := isOpen.notFailed

/-- Draining keeps what has been sent. -/
theorem drain_stream (stream : Stream) (reads : List ReadResult) :
    (drain stream reads).stream.sent = stream.sent ∧
      (drain stream reads).stream.completes = stream.completes := by
  induction reads with
  | nil =>
      exact ⟨rfl, rfl⟩
  | cons read rest inductionHypothesis =>
      cases read with
      | message bytes =>
          exact inductionHypothesis
      | eof | raised raised =>
          exact ⟨rfl, rfl⟩

/-- A put raises and leaves the stream open, or the sentinel is sent. -/
theorem sendResponse_cases
    {stream : Stream} (isOpen : stream.Open) (outputTokens : Nat)
    (world : CompleteWorld) :
    (∃ raised left, world.raised? = some raised ∧
        sendResponse stream outputTokens world = ⟨left, .raises raised⟩ ∧
        left.Open ∧ left.completes = stream.completes) ∨
      (world.raised? = none ∧
        none ∈ (sendResponse stream outputTokens world).stream.sent ∧
        (sendResponse stream outputTokens world).stream.completes =
          stream.completes) := by
  obtain ⟨putHeaders, putBody, putSentinel, reads⟩ := world
  cases putHeaders with
  | some raised =>
      exact .inl ⟨raised, _, rfl, rfl, isOpen, rfl⟩
  | none =>
      cases putBody with
      | some raised =>
          exact .inl ⟨raised, _, rfl, rfl, isOpen.sent _, rfl⟩
      | none =>
          cases putSentinel with
          | some raised =>
              exact .inl ⟨raised, _, rfl, rfl, (isOpen.sent _).sent _, rfl⟩
          | none =>
              have drained :=
                drain_stream
                  { stream with
                    sent := stream.sent ++
                      [some (encodeResponseHeaders
                        [(":status", Utf8.encode "200"),
                          ("content-type",
                            Utf8.encode "application/json")] false)] ++
                      [some (encodeResponseBody (usage outputTokens)
                        true)] ++ [none] } reads
              refine .inr ⟨rfl, ?_, drained.2⟩
              change none ∈ (drain _ reads).stream.sent
              rw [drained.1]
              exact List.mem_append_right _ (List.mem_singleton_self _)

/-- `complete` ends the stream exactly if it catches what its puts raise. -/
theorem complete_ended_iff
    {stream : Stream} (isOpen : stream.Open) (outputTokens : Nat)
    (world : CompleteWorld) :
    (complete stream outputTokens world).stream.completes =
        stream.completes + 1 ∧
      ((complete stream outputTokens world).stream.Ended ↔
        world.Catches) := by
  have issued :
      { stream with completes := stream.completes + 1 : Stream }.Open :=
    ⟨isOpen.notSent, isOpen.notCancelled, isOpen.notFailed⟩
  rw [complete]
  rcases sendResponse_cases issued outputTokens world with
    ⟨raised, left, first, ran, leftOpen, completes⟩ |
      ⟨first, sent, completes⟩
  · have catches : world.Catches ↔ raised.IsException := by
      constructor
      · intro catches
        exact catches raised first
      · intro isException other otherFirst
        cases first.symm.trans otherFirst
        exact isException
    rw [catches]
    rw [ran]
    dsimp only
    by_cases isException : raised.IsException
    · rw [if_pos isException]
      exact ⟨completes, iff_of_true (.inr (.inl rfl)) isException⟩
    · rw [if_neg isException]
      exact ⟨completes, iff_of_false leftOpen.not_ended isException⟩
  · have catches : world.Catches := by
      intro raised otherFirst
      cases first.symm.trans otherFirst
    dsimp only
    split
    · split
      · exact ⟨completes, iff_of_true (.inl sent) catches⟩
      · exact ⟨completes, iff_of_true (.inl sent) catches⟩
    · exact ⟨completes, iff_of_true (.inl sent) catches⟩

theorem completeThen_ended_iff
    {α : Type} {stream : Stream} (isOpen : stream.Open)
    (outputTokens : Nat) (world : CompleteWorld) (rest : Outcome α) :
    (completeThen stream outputTokens world rest).stream.completes =
        stream.completes + 1 ∧
      ((completeThen stream outputTokens world rest).stream.Ended ↔
        world.Catches) := by
  rw [completeThen]
  split <;> exact complete_ended_iff isOpen outputTokens world

/-! ## Requests -/

/-- How `begin` can leave the stream it has opened. -/
inductive Begun (world : BeginWorld) : Ran RoutingResult → Prop
  | leaked (raised : Raised) (left : Stream) (isOpen : left.Open)
      (completes : left.completes = 0) (unclean : ¬ world.Clean) :
      Begun world ⟨left, .raises raised⟩
  | failed (raised : Raised) (left : Stream) (ended : left.Ended)
      (completes : left.completes = 0) (clean : world.Clean)
      (fails : MeetsUndecided Fails world.reads) :
      Begun world ⟨left, .raises raised⟩
  | waits (left : Stream) (completes : left.completes = 0) :
      Begun world ⟨left, .waits⟩
  | routed (result : RoutingResult) (left : Stream) (isOpen : left.Open)
      (completes : left.completes = 0) (clean : world.Clean)
      (unfailing : ¬ MeetsUndecided Fails world.reads) :
      Begun world ⟨left, .returns result⟩

theorem begun_of_begin
    (body : Bytes) (requestId : String) (world : BeginWorld) :
    Begun world (begin body requestId world) := by
  have opened : (⟨[], false, false, 0⟩ : Stream).Open :=
    ⟨by simp, rfl, rfl⟩
  obtain ⟨putHeaders, putBody, reads⟩ := world
  cases putHeaders with
  | some raised =>
      exact .leaked raised _ opened rfl fun clean =>
        Option.some_ne_none _ clean.1
  | none =>
      have isOpen := opened.sent (requestHeaders body requestId)
      cases putBody with
      | some raised =>
          exact .leaked raised _ isOpen rfl fun clean =>
            Option.some_ne_none _ clean.2.1
      | none =>
          have isOpen := isOpen.sent (encodeRequestBody body)
          have decision := decision_of_readDecision
            ⟨[] ++ [some (requestHeaders body requestId)] ++
              [some (encodeRequestBody body)], false, false, 0⟩ reads
          change Begun _ (readDecision _ reads)
          generalize readDecision _ reads = ran at decision ⊢
          cases decision with
          | undecodable meets =>
              exact .leaked _ _ isOpen rfl fun clean => clean.2.2 meets
          | failed raised decodable meets =>
              exact .failed raised _ (.inr (.inr rfl)) rfl
                ⟨rfl, rfl, decodable⟩ meets
          | waits =>
              exact .waits _ rfl
          | decided result decodable unfailing =>
              exact .routed result _ isOpen rfl ⟨rfl, rfl, decodable⟩
                unfailing

/-- A `generate` that is over has ended its stream exactly if the world lets
it; and it has issued at most one `complete`. -/
theorem generate_ends_stream_iff
    (known : List String) (body : Bytes) (requestId : String)
    (world : GenerateWorld) :
    ((generate known body requestId world).outcome ≠ .waits →
        ((generate known body requestId world).stream.Ended ↔
          world.EndsStream)) ∧
      (generate known body requestId world).stream.completes ≤ 1 := by
  have begun := begun_of_begin body requestId world.begin
  rw [generate, GenerateWorld.EndsStream]
  generalize begin body requestId world.begin = routed at begun
  cases begun with
  | leaked raised left isOpen completes unclean =>
      refine ⟨fun _ => iff_of_false isOpen.not_ended ?_, ?_⟩
      · exact fun ends => unclean ends.1
      · exact completes.trans_le (Nat.zero_le 1)
  | failed raised left ended completes clean fails =>
      exact ⟨fun _ => iff_of_true ended ⟨clean, .inl fails⟩,
        completes.trans_le (Nat.zero_le 1)⟩
  | waits left completes =>
      exact ⟨fun running => absurd rfl running,
        completes.trans_le (Nat.zero_le 1)⟩
  | routed result left isOpen completes clean unfailing =>
      have completed : ∀ (outputTokens : Nat)
          (rest : Outcome (Option Nat)),
          ((completeThen left outputTokens world.complete rest).stream.Ended
              ↔ world.begin.Clean ∧
                (MeetsUndecided Fails world.begin.reads ∨
                  world.complete.Catches)) ∧
            (completeThen left outputTokens world.complete
              rest).stream.completes ≤ 1 := by
        intro outputTokens rest
        obtain ⟨once, ended⟩ :=
          completeThen_ended_iff isOpen outputTokens world.complete rest
        rw [ended, and_iff_right clean, or_iff_right unfailing]
        exact ⟨Iff.rfl, by omega⟩
      dsimp only
      split
      · exact ⟨fun _ => (completed _ _).1, (completed _ _).2⟩
      · split
        · rw [callActor]
          split
          · exact ⟨fun running => absurd rfl running,
              completes.trans_le (Nat.zero_le 1)⟩
          · exact ⟨fun _ => (completed _ _).1, (completed _ _).2⟩
          · exact ⟨fun _ => (completed _ _).1, (completed _ _).2⟩
        · exact ⟨fun _ => (completed _ _).1, (completed _ _).2⟩

/-! ## Streams left open -/

def decisionMessage : Bytes :=
  serialise [.lengthDelimited 1 (serialise [.lengthDelimited 1
    (serialise [.lengthDelimited 2 (serialise [.lengthDelimited 1
      (option destinationHeader "10.0.0.1:8000")])])])]

/-- Every await returns, and the actor gives three tokens. -/
def allReturn (message : Bytes) : GenerateWorld where
  begin := ⟨none, none, [.message message]⟩
  actor := .returns (some 3)
  tag := none
  complete := ⟨none, none, none, [.eof]⟩

theorem generate_ends_stream_all_return :
    (generate ["10.0.0.1:8000"] [] "r"
      (allReturn decisionMessage)).stream.Ended := by
  have ended :
      (generate ["10.0.0.1:8000"] [] "r"
        (allReturn decisionMessage)).outcome ≠ .waits := by
    decide +kernel
  refine ((generate_ends_stream_iff ["10.0.0.1:8000"] [] "r"
    (allReturn decisionMessage)).1 ended).mpr ⟨⟨rfl, rfl, ?_⟩, .inr nofun⟩
  intro meets
  rcases (meetsUndecided_cons_iff _ _ _).mp meets with
    ⟨bytes, failed, same, undecodable⟩ | ⟨_, later⟩
  · have decoded :
        (extractHeaders decisionMessage).toOption.isSome = true := by
      decide +kernel
    cases same
    rw [undecodable] at decoded
    cases decoded
  · exact not_meetsUndecided_nil _ later

/-- A first message of one byte that no varint ends with leaves the stream
open; so does a `complete` that is cancelled while it puts. -/
theorem streams_left_open :
    ((generate ["10.0.0.1:8000"] [] "r" (allReturn [0x80])).outcome =
        .raises .indexError ∧
      ¬ (generate ["10.0.0.1:8000"] [] "r"
        (allReturn [0x80])).stream.Ended) ∧
    (generate ["10.0.0.1:8000"] [] "r"
        { allReturn decisionMessage with
          complete :=
            ⟨some (.baseException "CancelledError"), none, none, []⟩
          }).outcome = .raises (.baseException "CancelledError") ∧
      ¬ (generate ["10.0.0.1:8000"] [] "r"
        { allReturn decisionMessage with
          complete :=
            ⟨some (.baseException "CancelledError"), none, none, []⟩
          }).stream.Ended := by
  decide +kernel

end LlmDRl.Routing
