import LlmDRl.Launcher.RayRouter
import LlmDRl.Routing.Pick

/-!
# From the answer of EPP to an actor

`_on_servers_ready` maps the addresses of the servers to their Ray actors, looks
these up by rank, and has the endpoints file written.  EPP reads the file and
names one of its entries by a text of its own making; `generate` looks this text
up in the map.
-/

namespace LlmDRl.Routing

open LlmDRl.Library
open LlmDRl.Wire
open LlmDRl.Registration
open LlmDRl.Launcher

/-! ## The manager -/

/-- A Ray actor has one name, and a name one actor. -/
structure ActorHandle where
  name : String
  deriving DecidableEq, Repr

/-- The class attributes of a manager. -/
structure ManagerClass where
  serverActorPrefix : String
  engineType : String
  /-- `_actor_kwargs` is that of `SglangEPPLLMClient`. -/
  sglang : Bool

def llmdRouterAgentLoopManager : ManagerClass := ⟨"vllm_server", "vllm", false⟩

def sglangEPPRouterAgentLoopManager : ManagerClass :=
  ⟨"sglang_server", "sglang", true⟩

/-- What leaves `_on_servers_ready`. -/
inductive ManagerError where
  /-- `RuntimeError` -/
  | noActor (actorName address engineType : String)
  | router (error : RouterError)
  deriving DecidableEq, Repr

/-- The text of the first, given `repr` of a string. -/
def ManagerError.message (repr : String → String)
    (router : RouterError → String) : ManagerError → String
  | noActor actorName address engineType =>
      s!"Could not find Ray actor {repr actorName} for server {address}. " ++
        s!"Make sure the rollout backend matches {repr engineType} " ++
        "and servers are started."
  | .router error => router error

/-- The name of the actor of a rank. -/
def actorName (cls : ManagerClass) (rank : Nat) : String :=
  s!"{cls.serverActorPrefix}_{rank}_0"

/-- `ray.get_actor(name)`, of the actors that are `alive`. -/
def getActor (alive : String → Bool) (name : String) : Option ActorHandle :=
  if alive name then some ⟨name⟩ else none

/-- The loop over the addresses, from rank `i` on. -/
def handlesFrom (cls : ManagerClass) (alive : String → Bool) :
    Nat → OrderedDict String ActorHandle → List String →
      Except ManagerError (OrderedDict String ActorHandle)
  | _, addressToHandle, [] => .ok addressToHandle
  | i, addressToHandle, addr :: rest =>
      match getActor alive (actorName cls i) with
      | none => .error (.noActor (actorName cls i) addr cls.engineType)
      | some handle =>
          handlesFrom cls alive (i + 1) (addressToHandle.insert addr handle)
            rest

/-- What `_on_servers_ready` and `_create_llm_client` leave for the clients. -/
structure Client where
  cls : ManagerClass
  grpcAddr : String
  addressToHandle : OrderedDict String ActorHandle
  modelName : String
  useSidecar : Bool
  reportCompletion : Bool

/-- `_on_servers_ready` and `_create_llm_client`, with the file that is
written. -/
def onServersReady (cls : ManagerClass) (rolloutConfig : RolloutConfig)
    (modelPath : String) (serverAddresses : List String)
    (alive : String → Bool) (world : RouterWorld) :
    Except ManagerError (EndpointsFile × Client) :=
  let pdMode : Bool := rolloutConfig.name = pdRolloutName
  let p2pMode : Bool := rolloutConfig.name = "vllm-llmd-p2p"
  let serverRoles :=
    if pdMode then
      some (inferRoles serverAddresses rolloutConfig.disaggregation)
    else
      none
  match handlesFrom cls alive 0 .empty serverAddresses with
  | .error error => .error error
  | .ok addressToHandle =>
      match startKwargs rolloutConfig serverAddresses
          (some ⟨some modelPath⟩) cls.engineType serverRoles false with
      | .error error => .error (.router error)
      | .ok kwargs =>
          match RayRouter.start kwargs world with
          | .error error => .error (.router error)
          | .ok (file, grpcAddr) =>
              .ok (file,
                { cls := cls
                  grpcAddr := grpcAddr
                  addressToHandle := addressToHandle
                  modelName := modelPath
                  useSidecar := pdMode || p2pMode
                  reportCompletion :=
                    rolloutConfig.custom.eppReportCompletion })

/-! ## The client -/

/-- What an actor is given besides the request: the headers for its sidecar
and, by name, what else `generate` was called with. -/
structure ActorKwargs where
  sidecarHeaders : Option HeaderMap
  names : List String

/-- `_actor_kwargs` -/
def actorKwargs (client : Client) (sidecarHeaders : HeaderMap)
    (kwargs : List String) : ActorKwargs :=
  if client.cls.sglang then
    ⟨none, kwargs.filter fun name =>
      name ∉ ["audio_data", "mm_processor_kwargs", "priority"]⟩
  else if client.useSidecar ∧ sidecarHeaders.entries ≠ [] then
    ⟨some sidecarHeaders, []⟩
  else
    ⟨none, []⟩

structure ActorCall where
  actor : ActorHandle
  kwargs : ActorKwargs

/-- What the awaits of a `generate` do, whichever actor it calls. -/
structure FleetWorld where
  begin : BeginWorld
  actor : ActorCall → Outcome (Option Nat)
  tag : Option Raised
  complete : CompleteWorld

/-- The decision, and `complete` of the result. -/
structure Routed where
  ran : Ran RoutingResult
  complete : Stream → Nat → Ran Unit

/-- `route`, which tracks the completion or does not. -/
def Client.route (client : Client) (promptIds : List Int)
    (requestId : String) (world : FleetWorld) : Routed :=
  let body := requestBody client.modelName promptIds none
  if client.reportCompletion then
    ⟨begin body requestId world.begin,
      fun stream outputTokens => complete stream outputTokens world.complete⟩
  else
    let picked := pick body world.begin.reads
    ⟨⟨⟨picked.1.map some, false, false, 0⟩, picked.2⟩,
      fun stream _ => ⟨stream, .returns ()⟩⟩

/-- `result.complete(ntok)`, and then what `generate` was about to do. -/
def Routed.completeThen {α : Type} (routed : Routed) (outputTokens : Nat)
    (rest : Outcome α) : Ran α :=
  let ran := routed.complete routed.ran.stream outputTokens
  match ran.outcome with
  | .returns () => ⟨ran.stream, rest⟩
  | .raises raised => ⟨ran.stream, .raises raised⟩
  | .waits => ⟨ran.stream, .waits⟩

/-- The `try` of `generate` and its `finally`. -/
def Routed.callActor (routed : Routed) (call : ActorCall)
    (world : FleetWorld) : Ran (Option Nat) :=
  match world.actor call with
  | .waits => ⟨routed.ran.stream, .waits⟩
  | .raises raised => routed.completeThen 0 (.raises raised)
  | .returns tokens =>
      routed.completeThen (tokens.getD 0)
        (match world.tag with
          | none => .returns tokens
          | some raised => .raises raised)

/-- `generate`: the call of an actor, if it comes to one, and how it ends. -/
def Client.generate (client : Client) (promptIds : List Int)
    (requestId : String) (kwargs : List String) (world : FleetWorld) :
    Option ActorCall × Ran (Option Nat) :=
  let routed := client.route promptIds requestId world
  match routed.ran.outcome with
  | .waits => (none, ⟨routed.ran.stream, .waits⟩)
  | .raises raised => (none, ⟨routed.ran.stream, .raises raised⟩)
  | .returns result =>
      match result.endpoint with
      | none => (none, routed.completeThen 0 (.raises (.noEndpoint requestId)))
      | some endpoint =>
          match client.addressToHandle.get? endpoint with
          | none =>
              (none,
                routed.completeThen 0
                  (.raises
                    (.unknownEndpoint endpoint requestId
                      client.addressToHandle.keys)))
          | some actor =>
              let call : ActorCall :=
                ⟨actor, actorKwargs client result.sidecarHeaders kwargs⟩
              (some call, routed.callActor call world)

/-! ## Names of actors -/

theorem actorName_injective (cls : ManagerClass) :
    Function.Injective (actorName cls) := by
  intro first second same
  have texts : (cls.serverActorPrefix ++ "_" ++ toString first ++ "_0").toList =
      (cls.serverActorPrefix ++ "_" ++ toString second ++ "_0").toList :=
    congrArg String.toList same
  simp only [String.toList_append, List.append_cancel_right_eq,
    List.append_cancel_left_eq] at texts
  exact toList_toString_injective texts

/-! ## The map of handles -/

/-- The rank is the last one with this address. -/
def LastAt (addresses : List String) (rank : Nat) (addr : String) : Prop :=
  addresses[rank]? = some addr ∧ addr ∉ addresses.drop (rank + 1)

theorem lastAt_zero_iff (first addr : String) (rest : List String) :
    LastAt (first :: rest) 0 addr ↔ first = addr ∧ addr ∉ rest := by
  simp [LastAt]

theorem lastAt_succ_iff (first addr : String) (rest : List String)
    (rank : Nat) :
    LastAt (first :: rest) (rank + 1) addr ↔ LastAt rest rank addr := by
  simp [LastAt]

theorem exists_lastAt_of_mem {addresses : List String} {addr : String}
    (member : addr ∈ addresses) : ∃ rank, LastAt addresses rank addr := by
  induction addresses with
  | nil => cases member
  | cons first rest inductionHypothesis =>
      by_cases later : addr ∈ rest
      · obtain ⟨rank, last⟩ := inductionHypothesis later
        exact ⟨rank + 1, (lastAt_succ_iff first addr rest rank).mpr last⟩
      · rcases List.mem_cons.mp member with same | inRest
        · exact ⟨0, (lastAt_zero_iff first addr rest).mpr ⟨same.symm, later⟩⟩
        · exact absurd inRest later

theorem get?_handlesFrom
    {cls : ManagerClass} {alive : String → Bool} {i : Nat}
    {addressToHandle handles : OrderedDict String ActorHandle}
    {addresses : List String}
    (found : handlesFrom cls alive i addressToHandle addresses = .ok handles)
    (probe : String) :
    (∀ rank, LastAt addresses rank probe →
        handles.get? probe = some ⟨actorName cls (i + rank)⟩) ∧
      (probe ∉ addresses →
        handles.get? probe = addressToHandle.get? probe) := by
  induction addresses generalizing i addressToHandle with
  | nil =>
      cases found
      refine ⟨fun rank last => ?_, fun _ => rfl⟩
      cases last.1
  | cons first rest inductionHypothesis =>
      rw [handlesFrom] at found
      unfold getActor at found
      by_cases lives : alive (actorName cls i) = true
      · rw [if_pos lives] at found
        obtain ⟨hit, miss⟩ := inductionHypothesis found
        refine ⟨fun rank last => ?_, fun absent => ?_⟩
        · cases rank with
          | zero =>
              obtain ⟨rfl, absent⟩ :=
                (lastAt_zero_iff first probe rest).mp last
              rw [miss absent, OrderedDict.get?_insert_self]
              rfl
          | succ rank =>
              rw [hit rank ((lastAt_succ_iff first probe rest rank).mp last),
                Nat.add_right_comm, Nat.add_assoc]
        · rw [List.mem_cons, not_or] at absent
          rw [miss absent.2, OrderedDict.get?_insert_of_ne _ _ absent.1]
      · rw [if_neg lives] at found
        cases found

theorem get?_handlesFrom_eq_some_iff
    {cls : ManagerClass} {alive : String → Bool}
    {handles : OrderedDict String ActorHandle} {addresses : List String}
    (found : handlesFrom cls alive 0 .empty addresses = .ok handles)
    (probe : String) (handle : ActorHandle) :
    handles.get? probe = some handle ↔
      ∃ rank, LastAt addresses rank probe ∧ handle = ⟨actorName cls rank⟩ := by
  obtain ⟨hit, miss⟩ := get?_handlesFrom found probe
  constructor
  · intro holds
    by_cases member : probe ∈ addresses
    · obtain ⟨rank, last⟩ := exists_lastAt_of_mem member
      have same := hit rank last
      rw [holds, Option.some.injEq, Nat.zero_add] at same
      exact ⟨rank, last, same⟩
    · rw [miss member, OrderedDict.get?_empty] at holds
      cases holds
  · rintro ⟨rank, last, rfl⟩
    rw [hit rank last, Nat.zero_add]

/-! ## Ranks -/

/-- Without repetition every rank is the last one with its address. -/
theorem nodup_iff_lastAt (addresses : List String) :
    addresses.Nodup ↔
      ∀ (rank : Nat) addr, addresses[rank]? = some addr →
        LastAt addresses rank addr := by
  induction addresses with
  | nil => simp
  | cons first rest inductionHypothesis =>
      rw [List.nodup_cons, inductionHypothesis]
      constructor
      · rintro ⟨absent, lasts⟩ rank addr isAddr
        cases rank with
        | zero =>
            cases isAddr
            exact (lastAt_zero_iff first first rest).mpr ⟨rfl, absent⟩
        | succ rank =>
            exact (lastAt_succ_iff first addr rest rank).mpr
              (lasts rank addr isAddr)
      · intro lasts
        refine ⟨((lastAt_zero_iff first first rest).mp (lasts 0 first rfl)).2,
          fun rank addr isAddr => ?_⟩
        exact (lastAt_succ_iff first addr rest rank).mp
          (lasts (rank + 1) addr isAddr)

/-! ## A fleet that is ready -/

theorem length_inferRoles_eq (serverAddresses : List String)
    (disagg : Disaggregation) :
    (inferRoles serverAddresses disagg).length = serverAddresses.length := by
  unfold inferRoles
  dsimp only
  rw [List.length_take]
  split
  · simp only [List.length_append, List.length_replicate] at *
    omega
  · omega

theorem onServersReady_eq_ok
    {cls : ManagerClass} {rolloutConfig : RolloutConfig} {modelPath : String}
    {addresses : List String} {alive : String → Bool} {world : RouterWorld}
    {file : EndpointsFile} {client : Client}
    (ready : onServersReady cls rolloutConfig modelPath addresses alive world =
      .ok (file, client)) :
    handlesFrom cls alive 0 .empty addresses = .ok client.addressToHandle ∧
      (given rolloutConfig.custom.eppEndpointsFile ≠ none →
        Places addresses file.places) := by
  unfold onServersReady at ready
  dsimp only at ready
  cases found : handlesFrom cls alive 0 .empty addresses with
  | error raised =>
      rw [found] at ready
      cases ready
  | ok addressToHandle =>
      simp only [found] at ready
      split at ready
      · cases ready
      · next kwargs built =>
          obtain ⟨served, path, roles⟩ := startKwargsFromCustom_eq_ok built
          split at ready
          · cases ready
          · next written grpcAddr started =>
              cases ready
              refine ⟨rfl, fun hasPath => ?_⟩
              unfold RayRouter.start at started
              split at started
              · cases started
              · next written =>
                  split at started
                  · cases started
                  · cases started
                    rw [← served]
                    refine places_of_writeEndpoints written
                      (path ▸ hasPath) fun given named => ?_
                    rw [roles] at named
                    split at named
                    · cases named
                    · split at named
                      · cases named
                        rw [served, length_inferRoles_eq]
                      · cases named

/-! ## What EPP answers -/

/-- A response that sets headers, among them the destination. -/
def Answers (destination : String) (read : ReadResult) : Prop :=
  ∃ headers message, read = .message message ∧
    IsProcessingResponse headers message ∧
    (∀ header ∈ headers, header.1 ≠ "") ∧
    (headers.reverse.find? fun header => header.1 = destinationHeader).map
        Prod.snd = some destination

/-- The request is sent, and after messages that do not decide EPP names this
destination. -/
def Answered (destination : String) (world : BeginWorld) : Prop :=
  world.putHeaders = none ∧ world.putBody = none ∧
    MeetsUndecided (Answers destination) world.reads

theorem decides_of_answers {destination : String} {read : ReadResult}
    (answers : Answers destination read) (named : destination ≠ "") :
    ∃ sidecarHeaders, Decides ⟨some destination, sidecarHeaders⟩ read := by
  obtain ⟨headers, message, rfl, isResponse, keyed, last⟩ := answers
  refine ⟨_, message, _, destination, rfl,
    extractHeaders_processingResponse isResponse keyed, ?_, named, rfl⟩
  rw [get?_foldl_insert, last]

theorem pickDecision_of_decides {result : RoutingResult}
    {reads : List ReadResult}
    (meets : MeetsUndecided (Decides result) reads) :
    pickDecision reads = .returns result := by
  induction reads with
  | nil => exact absurd meets (not_meetsUndecided_nil _)
  | cons read rest inductionHypothesis =>
      rcases (meetsUndecided_cons_iff _ read rest).mp meets with
        decides | ⟨undecided, later⟩
      · cases read with
        | message bytes =>
            obtain ⟨headers, endpoint, decoded, goes, rfl⟩ :=
              (decides_message_iff result bytes).mp decides
            simp only [pickDecision_message, decoded, goes]
        | eof =>
            obtain ⟨_, _, _, same, _⟩ := decides
            cases same
        | raised raised =>
            obtain ⟨_, _, _, same, _⟩ := decides
            cases same
      · obtain ⟨bytes, headers, rfl, decoded, goes⟩ := undecided
        simp only [pickDecision_message, decoded, goes]
        exact inductionHypothesis later

/-- Tracked or not, `route` returns what EPP has answered. -/
theorem route_of_answered {client : Client} {promptIds : List Int}
    {requestId destination : String} {world : FleetWorld}
    (answered : Answered destination world.begin)
    (named : destination ≠ "") :
    ∃ sidecarHeaders,
      (client.route promptIds requestId world).ran.outcome =
        .returns ⟨some destination, sidecarHeaders⟩ := by
  obtain ⟨noHeaders, noBody, before, read, after, split, undecided, answers⟩ :=
    answered
  obtain ⟨sidecarHeaders, decides⟩ := decides_of_answers answers named
  have decided := pickDecision_of_decides
    ⟨before, read, after, split, undecided, decides⟩
  refine ⟨sidecarHeaders, ?_⟩
  unfold Client.route
  by_cases tracked : client.reportCompletion = true
  · rw [if_pos tracked]
    generalize world.begin = begins at *
    obtain ⟨putHeaders, putBody, reads⟩ := begins
    cases noHeaders
    cases noBody
    rw [begin_of_puts, ← pickDecision_eq_readDecision]
    exact decided
  · rw [if_neg tracked]
    exact decided

/-! ## Dispatch -/

/-- The actor called is the one that the map holds for the destination. -/
theorem called_of_answered {client : Client} {promptIds : List Int}
    {requestId destination : String} {kwargs : List String}
    {world : FleetWorld} (answered : Answered destination world.begin)
    (named : destination ≠ "") :
    (client.generate promptIds requestId kwargs world).1.map
        ActorCall.actor = client.addressToHandle.get? destination := by
  obtain ⟨sidecarHeaders, routed⟩ :=
    @route_of_answered client promptIds requestId _ world answered named
  unfold Client.generate
  simp only [routed]
  cases client.addressToHandle.get? destination <;> rfl

/-- EPP's answer, as one message that sets the destination. -/
def answerMessage (destination : String) : Bytes :=
  serialise [.lengthDelimited 1 (serialise [.lengthDelimited 1
    (serialise [.lengthDelimited 2 (serialise [.lengthDelimited 1
      (option destinationHeader destination)])])])]

theorem answers_answerMessage (destination : String) :
    Answers destination (.message (answerMessage destination)) := by
  let headers := [(destinationHeader, destination)]
  have isMutation : IsHeaderMutation headers (serialise
      [.lengthDelimited 1 (option destinationHeader destination)]) :=
    ⟨[option destinationHeader destination],
      [.lengthDelimited 1 (option destinationHeader destination)],
      .cons (isHeaderValueOption_option ..) .nil, rfl, rfl⟩
  have isCommon : IsCommonResponse headers (serialise
      [.lengthDelimited 2 (serialise
        [.lengthDelimited 1 (option destinationHeader destination)])]) :=
    Wraps.intro isMutation rfl
  have isHeaders : IsHeadersResponse headers (serialise
      [.lengthDelimited 1 (serialise [.lengthDelimited 2 (serialise
        [.lengthDelimited 1 (option destinationHeader destination)])])]) :=
    Wraps.intro isCommon rfl
  refine ⟨headers, _, rfl, Wraps.intro isHeaders rfl, ?_, by simp [headers]⟩
  intro header member
  rw [List.mem_singleton.mp member]
  exact (by decide : destinationHeader ≠ "")

/-- Every await returns, and the actors give no tokens. -/
def answering (destination : String) : FleetWorld where
  begin := ⟨none, none, [.message (answerMessage destination)]⟩
  actor _ := .returns none
  tag := none
  complete := ⟨none, none, none, [.eof]⟩

theorem answered_answering (destination : String) :
    Answered destination (answering destination).begin :=
  ⟨rfl, rfl, [], _, [], rfl, by simp, answers_answerMessage destination⟩

/-- A ready fleet sends the requests for an entry of the endpoints file to the
actor of its rank, for all entries, just if the addresses are distinct and EPP
gives every one of them back as it was. -/
theorem picks_reach_their_rank_iff
    {cls : ManagerClass} {rolloutConfig : RolloutConfig} {modelPath : String}
    {addresses : List String} {alive : String → Bool} {world : RouterWorld}
    {file : EndpointsFile} {client : Client}
    (ready : onServersReady cls rolloutConfig modelPath addresses alive world =
      .ok (file, client))
    (hasPath : given rolloutConfig.custom.eppEndpointsFile ≠ none)
    (destination : String → String → String)
    (named : ∀ host port, destination host port ≠ "") :
    (∀ (rank : Nat) (place : String × String),
        file.places[rank]? = some place →
        ∀ promptIds requestId kwargs (fleetWorld : FleetWorld),
          Answered (destination place.1 place.2) fleetWorld.begin →
          (client.generate promptIds requestId kwargs fleetWorld).1.map
            ActorCall.actor = some ⟨actorName cls rank⟩) ↔
      addresses.Nodup ∧
        ∀ addr ∈ addresses, ∀ host port,
          splitAddress addr = .ok (host, port) →
            destination host port = addr := by
  obtain ⟨handles, listed⟩ := onServersReady_eq_ok ready
  have places := listed hasPath
  have holds := get?_handlesFrom_eq_some_iff handles
  constructor
  · intro reached
    have last : ∀ (rank : Nat) addr host port,
        addresses[rank]? = some addr →
        splitAddress addr = .ok (host, port) →
        LastAt addresses rank (destination host port) := by
      intro rank addr host port isAddr split
      obtain ⟨place, isPlace, splitPlace⟩ := places.exists_place isAddr
      rw [split, Except.ok.injEq] at splitPlace
      subst splitPlace
      have goes := reached rank _ isPlace [] "" [] (answering _)
        (answered_answering _)
      rw [called_of_answered (answered_answering _) (named host port)] at goes
      obtain ⟨other, lastOther, same⟩ := (holds _ _).mp goes
      rw [actorName_injective cls (congrArg ActorHandle.name same)]
      exact lastOther
    have matching : ∀ (rank : Nat) addr host port,
        addresses[rank]? = some addr →
        splitAddress addr = .ok (host, port) →
        destination host port = addr := by
      intro rank addr host port isAddr split
      have there := (last rank addr host port isAddr split).1
      rw [isAddr, Option.some.injEq] at there
      exact there.symm
    refine ⟨(nodup_iff_lastAt addresses).mpr fun rank addr isAddr => ?_,
      fun addr member host port split => ?_⟩
    · obtain ⟨⟨host, port⟩, _, split⟩ := places.exists_place isAddr
      have isLast := last rank addr host port isAddr split
      rwa [matching rank addr host port isAddr split] at isLast
    · obtain ⟨rank, isAddr⟩ := List.mem_iff_getElem?.mp member
      exact matching rank addr host port isAddr split
  · rintro ⟨nodup, matching⟩ rank ⟨host, port⟩ isPlace promptIds requestId
      kwargs fleetWorld answered
    obtain ⟨addr, isAddr, split⟩ := places.exists_address isPlace
    have same := matching addr (List.mem_of_getElem? isAddr) host port split
    rw [called_of_answered answered (named host port), same]
    exact (holds _ _).mpr
      ⟨rank, (nodup_iff_lastAt addresses).mp nodup rank addr isAddr, rfl⟩

/-! ## Addresses with a port -/

/-- `net.JoinHostPort` -/
def joinHostPort (host port : String) : String :=
  if ':' ∈ host.toList then "[" ++ host ++ "]:" ++ port
  else host ++ ":" ++ port

theorem joinHostPort_ne_empty (host port : String) :
    joinHostPort host port ≠ "" := by
  intro empty
  have chars := congrArg String.toList empty
  unfold joinHostPort at chars
  split at chars <;> simp at chars

/-- The text that joining a host and a port gives, and nothing but a host and
a port. -/
inductive Spelled : List Char → Prop
  | plain {host port : List Char} (noColon : ':' ∉ host)
      (parts : HostPort (host ++ ':' :: port) host port)
      (bare : ¬ "://".toList <:+: host ++ ':' :: port) :
      Spelled (host ++ ':' :: port)
  | bracketed {host port : List Char} (colon : ':' ∈ host)
      (parts : HostPort ('[' :: (host ++ ']' :: ':' :: port)) host port)
      (bare : ¬ "://".toList <:+: '[' :: (host ++ ']' :: ':' :: port)) :
      Spelled ('[' :: (host ++ ']' :: ':' :: port))

theorem toList_joinHostPort (host port : String) :
    (joinHostPort host port).toList =
      if ':' ∈ host.toList then
        '[' :: (host.toList ++ ']' :: ':' :: port.toList)
      else
        host.toList ++ ':' :: port.toList := by
  unfold joinHostPort
  split <;> simp

/-- An address without a scheme has the parts of its form. -/
theorem toList_of_bare {addr host port : String}
    {hostChars portChars : List Char}
    (split : splitAddress addr = .ok (host, port))
    (bare : ¬ "://".toList <:+: addr.toList)
    (parts : HostPort addr.toList hostChars portChars) :
    host.toList = hostChars ∧ port.toList = portChars := by
  have same : splitAddress addr =
      .ok (String.ofList hostChars, String.ofList portChars) := by
    refine (splitAddress_of_strips (.bare bare) _ _).mpr ?_
    rwa [String.toList_ofList, String.toList_ofList]
  rw [split, Except.ok.injEq, Prod.mk.injEq] at same
  rw [same.1, same.2, String.toList_ofList, String.toList_ofList]
  exact ⟨rfl, rfl⟩

theorem joinHostPort_eq_iff {addr host port : String}
    (split : splitAddress addr = .ok (host, port)) :
    joinHostPort host port = addr ↔ Spelled addr.toList := by
  rw [← String.toList_inj, toList_joinHostPort]
  constructor
  · intro same
    obtain ⟨address, strips, parts⟩ :=
      (splitAddress_eq_ok_iff addr host port).mp split
    have lengths := congrArg List.length same
    generalize addr.toList = chars at *
    cases strips with
    | bare absent =>
        by_cases colon : ':' ∈ host.toList
        · rw [if_pos colon] at same
          subst same
          exact .bracketed colon parts absent
        · rw [if_neg colon] at same
          subst same
          exact .plain colon parts absent
    | @scheme before address _ =>
        -- a scheme makes the text longer than any that is joined
        have shorter : host.toList.length + port.toList.length + 1 ≤
            address.length := by
          cases parts with
          | bracketed =>
              simp only [List.length_cons, List.length_append]
              omega
          | plain =>
              simp only [List.length_cons, List.length_append]
              omega
        simp only [List.length_append] at lengths
        split at lengths <;> simp at lengths <;> omega
  · intro spelled
    generalize shape : addr.toList = chars at spelled
    cases spelled with
    | @plain hostChars portChars noColon parts bare =>
        obtain ⟨isHost, isPort⟩ :=
          toList_of_bare split (shape ▸ bare) (shape ▸ parts)
        rw [isHost, isPort, if_neg noColon]
    | @bracketed hostChars portChars colon parts bare =>
        obtain ⟨isHost, isPort⟩ :=
          toList_of_bare split (shape ▸ bare) (shape ▸ parts)
        rw [isHost, isPort, if_pos colon]

/-- Where EPP joins host and port, an address works just if it is spelled this
way; one with a scheme never does. -/
theorem joined_picks_reach_their_rank_iff
    {cls : ManagerClass} {rolloutConfig : RolloutConfig} {modelPath : String}
    {addresses : List String} {alive : String → Bool} {world : RouterWorld}
    {file : EndpointsFile} {client : Client}
    (ready : onServersReady cls rolloutConfig modelPath addresses alive world =
      .ok (file, client))
    (hasPath : given rolloutConfig.custom.eppEndpointsFile ≠ none) :
    (∀ (rank : Nat) (place : String × String),
        file.places[rank]? = some place →
        ∀ promptIds requestId kwargs (fleetWorld : FleetWorld),
          Answered (joinHostPort place.1 place.2) fleetWorld.begin →
          (client.generate promptIds requestId kwargs fleetWorld).1.map
            ActorCall.actor = some ⟨actorName cls rank⟩) ↔
      addresses.Nodup ∧ ∀ addr ∈ addresses, Spelled addr.toList := by
  rw [picks_reach_their_rank_iff ready hasPath joinHostPort
    joinHostPort_ne_empty]
  refine and_congr_right fun _ => forall₂_congr fun addr member => ?_
  have places := (onServersReady_eq_ok ready).2 hasPath
  obtain ⟨rank, isAddr⟩ := List.mem_iff_getElem?.mp member
  obtain ⟨⟨host, port⟩, _, split⟩ := places.exists_place isAddr
  rw [← joinHostPort_eq_iff split]
  constructor
  · intro matching
    exact matching host port split
  · intro joined otherHost otherPort otherSplit
    rw [split, Except.ok.injEq, Prod.mk.injEq] at otherSplit
    rw [← otherSplit.1, ← otherSplit.2]
    exact joined

/-! ## Two servers -/

/-- What a start finds where nothing is missing. -/
def startable (binary : String) : Host := ⟨binary, true, true, true⟩

def startsAll : RouterWorld where
  epp := startable "/usr/local/bin/epp"
  eppWait := .accepts
  envoy := startable "/usr/local/bin/envoy"
  envoyAccepts := true
  nodeIp := "10.0.0.9"

def vllmRollout : RolloutConfig where
  name := "vllm"
  custom :=
    { eppConfigFile := some "/etc/epp-config.yaml"
      eppEndpointsFile := some "/tmp/epp-endpoints.yaml" }
  disaggregation := ⟨none, none⟩

/-- Of a server with an IPv4 and one with an IPv6 address. -/
theorem picks_reach_their_rank_two :
    ∃ file client,
      onServersReady llmdRouterAgentLoopManager vllmRollout "model"
          ["10.0.0.1:8000", "[fd00::2]:8000"] (fun _ => true) startsAll =
        .ok (file, client) ∧
      ∀ promptIds requestId kwargs (fleetWorld : FleetWorld),
        Answered "[fd00::2]:8000" fleetWorld.begin →
        (client.generate promptIds requestId kwargs fleetWorld).1.map
          ActorCall.actor = some ⟨"vllm_server_1_0"⟩ := by
  have first : splitAddress "10.0.0.1:8000" = .ok ("10.0.0.1", "8000") := by
    decide +kernel
  have second : splitAddress "[fd00::2]:8000" = .ok ("fd00::2", "8000") := by
    decide +kernel
  have matching : ∀ addr ∈ ["10.0.0.1:8000", "[fd00::2]:8000"],
      ∀ host port, splitAddress addr = .ok (host, port) →
        joinHostPort host port = addr := by
    simp only [List.forall_mem_cons, first, second, Except.ok.injEq,
      Prod.mk.injEq]
    refine ⟨?_, ?_, nofun⟩
    · rintro host port ⟨rfl, rfl⟩
      decide +kernel
    · rintro host port ⟨rfl, rfl⟩
      decide +kernel
  have hasPath : given vllmRollout.custom.eppEndpointsFile ≠ none := by
    decide
  obtain ⟨file, client, ready⟩ : ∃ file client,
      onServersReady llmdRouterAgentLoopManager vllmRollout "model"
          ["10.0.0.1:8000", "[fd00::2]:8000"] (fun _ => true) startsAll =
        .ok (file, client) := ⟨_, _, rfl⟩
  have places := (onServersReady_eq_ok ready).2 hasPath
  obtain ⟨place, isPlace, split⟩ :=
    @Places.exists_place _ _ places 1 "[fd00::2]:8000" rfl
  rw [second, Except.ok.injEq] at split
  subst split
  have reached := (picks_reach_their_rank_iff ready hasPath joinHostPort
    joinHostPort_ne_empty).mpr ⟨by decide, matching⟩ 1 _ isPlace
  exact ⟨file, client, ready, reached⟩

end LlmDRl.Routing
