import LlmDRl.Launcher.RouterStack
import LlmDRl.Registration.Roles

/-!
# The router as an actor

`RayRouter.start` writes the endpoints file and drives the same `RouterStack`
as the launcher.  Its arguments come from the rollout config; only P/D mode
passes the roles on.
-/

namespace LlmDRl.Launcher

open LlmDRl.Library
open LlmDRl.Registration

/-! ## Arguments -/

/-- `rollout.custom`, `none` being a missing key. -/
structure Custom where
  eppConfigFile : Option String := none
  eppEndpointsFile : Option String := none
  eppGrpcPort : Option Int := none
  eppGrpcHealthPort : Option Int := none
  eppPoolName : Option String := none
  eppPoolNamespace : Option String := none
  eppReportCompletion : Bool := false
  envoyConfig : Option String := none
  envoyPort : Option Int := none

structure RolloutConfig where
  name : String
  custom : Custom
  disaggregation : Disaggregation

/-- The model config as a plain dict. -/
structure ModelConfig where
  path : Option String

/-- `model_label` -/
def ModelConfig.label (modelConfig : ModelConfig) : String :=
  modelConfig.path.getD "unknown"

/-- The arguments of `RayRouter.start`. -/
structure StartKwargs where
  serverAddresses : List String
  eppConfig : String
  endpointsFile : Option String
  modelConfig : Option ModelConfig
  engineType : String
  serverRoles : Option (List String)
  eppGrpcPort : Int
  eppHealthPort : Int
  eppPoolName : String
  eppPoolNamespace : String
  envoyConfig : Option String
  envoyPort : Int

inductive RouterError where
  /-- `RuntimeError` -/
  | keyRequired (key : String)
  /-- `ValueError` -/
  | address (error : AddressError)
  /-- `AttributeError` -/
  | noModelConfig
  | run (error : RunError)
  deriving DecidableEq, Repr

/-- `if value`, of a string that may be missing. -/
def given (value : Option String) : Option String :=
  value.filter fun text => text ≠ ""

/-- `start_kwargs_from_custom` -/
def startKwargsFromCustom (custom : Custom) (serverAddresses : List String)
    (modelConfig : Option ModelConfig) (engineType : String)
    (serverRoles : Option (List String)) (withEnvoy : Bool) :
    Except RouterError StartKwargs :=
  match given custom.eppConfigFile with
  | none => .error (.keyRequired "epp_config_file")
  | some eppConfig =>
      let kwargs : StartKwargs :=
        { serverAddresses := serverAddresses
          eppConfig := eppConfig
          endpointsFile := custom.eppEndpointsFile
          modelConfig := modelConfig
          engineType := engineType
          serverRoles := serverRoles
          eppGrpcPort := custom.eppGrpcPort.getD 9002
          eppHealthPort := custom.eppGrpcHealthPort.getD 9003
          eppPoolName := custom.eppPoolName.getD "file-discovery"
          eppPoolNamespace := custom.eppPoolNamespace.getD "default"
          envoyConfig := none
          envoyPort := 8081 }
      if withEnvoy then
        match given custom.envoyConfig with
        | none => .error (.keyRequired "envoy_config")
        | some envoyConfig =>
            .ok
              { kwargs with
                envoyConfig := some envoyConfig
                envoyPort := custom.envoyPort.getD 8081 }
      else
        .ok kwargs

def pdRolloutName : String := "vllm-llmd-pd"

/-- `start_kwargs`; anything but P/D mode drops the roles. -/
def startKwargs (rolloutConfig : RolloutConfig)
    (serverAddresses : List String) (modelConfig : Option ModelConfig)
    (engineType : String) (serverRoles : Option (List String))
    (withEnvoy : Bool) : Except RouterError StartKwargs :=
  let roles := if rolloutConfig.name ≠ pdRolloutName then none else serverRoles
  startKwargsFromCustom rolloutConfig.custom serverAddresses modelConfig
    engineType roles withEnvoy

/-! ## `RayRouter.start` -/

/-- The endpoints file, if one is written. -/
inductive EndpointsFile where
  | unwritten
  | rollout (entries : List Endpoint)
  | pd (entries : List PdEndpoint)

/-- The host and the port of every entry. -/
def EndpointsFile.places : EndpointsFile → List (String × String)
  | unwritten => []
  | rollout entries => entries.map fun entry => (entry.address, entry.port)
  | pd entries => entries.map fun entry => (entry.address, entry.port)

/-- The first lines of `start`. -/
def writeEndpoints (kwargs : StartKwargs) :
    Except RouterError EndpointsFile :=
  match given kwargs.endpointsFile with
  | none => .ok .unwritten
  | some path =>
      match kwargs.serverRoles.filter fun roles => roles ≠ [] with
      | some roles =>
          match kwargs.modelConfig with
          | none => .error .noModelConfig
          | some modelConfig =>
              match writePdEndpoints path kwargs.serverAddresses roles
                  modelConfig.label with
              | .error error => .error (.address error)
              | .ok none => .ok .unwritten
              | .ok (some entries) => .ok (.pd entries)
      | none =>
          match rolloutEntries (kwargs.modelConfig.map ModelConfig.label)
              kwargs.engineType 0 kwargs.serverAddresses with
          | .error error => .error (.address error)
          | .ok entries => .ok (.rollout entries)

/-- What the two starts find. -/
structure RouterWorld where
  epp : Host
  eppWait : Wait
  envoy : Host
  envoyAccepts : Bool
  nodeIp : String

/-- `start_epp` and, with a config, `start_envoy`: the port to talk to. -/
def startStack (kwargs : StartKwargs) (world : RouterWorld) :
    Except RunError Int :=
  match startError "EPP" kwargs.eppConfig world.epp with
  | some error => .error (.start error)
  | none =>
      match world.eppWait with
      | .timesOut => .error (.timedOut kwargs.eppHealthPort)
      | .badTimeout => .error .badTimeout
      | .accepts =>
          match given kwargs.envoyConfig with
          | none => .ok kwargs.eppGrpcPort
          | some envoyConfig =>
              match startError "Envoy" envoyConfig world.envoy with
              | some error => .error (.start error)
              | none =>
                  if world.envoyAccepts then .ok kwargs.envoyPort
                  else .error (.timedOut kwargs.envoyPort)

/-- `start`: the file it writes and the address it returns. -/
def RayRouter.start (kwargs : StartKwargs) (world : RouterWorld) :
    Except RouterError (EndpointsFile × String) :=
  match writeEndpoints kwargs with
  | .error error => .error error
  | .ok file =>
      match startStack kwargs world with
      | .error error => .error (.run error)
      | .ok port => .ok (file, s!"{world.nodeIp}:{port}")

/-! ## What is written -/

theorem startKwargsFromCustom_eq_ok
    {custom : Custom} {serverAddresses : List String}
    {modelConfig : Option ModelConfig} {engineType : String}
    {serverRoles : Option (List String)} {withEnvoy : Bool}
    {kwargs : StartKwargs}
    (built : startKwargsFromCustom custom serverAddresses modelConfig
      engineType serverRoles withEnvoy = .ok kwargs) :
    kwargs.serverAddresses = serverAddresses ∧
      kwargs.endpointsFile = custom.eppEndpointsFile ∧
      kwargs.serverRoles = serverRoles := by
  unfold startKwargsFromCustom at built
  split at built
  · cases built
  · dsimp only at built
    split at built
    · split at built
      · cases built
      · cases built
        exact ⟨rfl, rfl, rfl⟩
    · cases built
      exact ⟨rfl, rfl, rfl⟩

/-- A place of the file is an address taken apart. -/
def Places (addresses : List String) (places : List (String × String)) :
    Prop :=
  List.Forall₂ (fun addr place => splitAddress addr = .ok place) addresses
    places

theorem Places.exists_place {addresses : List String}
    {list : List (String × String)} (places : Places addresses list)
    {rank : Nat} {addr : String} (isAddr : addresses[rank]? = some addr) :
    ∃ place, list[rank]? = some place ∧ splitAddress addr = .ok place := by
  induction places generalizing rank with
  | nil => cases isAddr
  | @cons first place rest list split _ inductionHypothesis =>
      cases rank with
      | zero =>
          cases isAddr
          exact ⟨place, rfl, split⟩
      | succ rank => exact inductionHypothesis isAddr

theorem Places.exists_address {addresses : List String}
    {list : List (String × String)} (places : Places addresses list)
    {rank : Nat} {place : String × String}
    (isPlace : list[rank]? = some place) :
    ∃ addr, addresses[rank]? = some addr ∧ splitAddress addr = .ok place := by
  induction places generalizing rank with
  | nil => cases isPlace
  | @cons first head rest list split _ inductionHypothesis =>
      cases rank with
      | zero =>
          cases isPlace
          exact ⟨first, rfl, split⟩
      | succ rank => exact inductionHypothesis isPlace

theorem places_of_lists {entries : List Endpoint} {addresses : List String}
    (lists : Lists entries addresses) :
    Places addresses (EndpointsFile.rollout entries).places := by
  refine List.forall₂_map_right_iff.mpr (List.Forall₂.flip ?_)
  exact lists

theorem places_of_pdLists {label : String} {entries : List PdEndpoint}
    {pairs : List (String × String)} (lists : PdLists label entries pairs) :
    Places (pairs.map Prod.fst) (EndpointsFile.pd entries).places := by
  refine List.forall₂_map_right_iff.mpr ?_
  refine List.forall₂_map_left_iff.mpr (List.Forall₂.flip ?_)
  exact lists.imp fun _ _ listed => listed.1

/-- Whichever file is written, it lists the addresses in order. -/
theorem places_of_writeEndpoints
    {kwargs : StartKwargs} {file : EndpointsFile}
    (written : writeEndpoints kwargs = .ok file)
    (hasPath : given kwargs.endpointsFile ≠ none)
    (roled : ∀ roles, kwargs.serverRoles = some roles →
      kwargs.serverAddresses.length ≤ roles.length) :
    Places kwargs.serverAddresses file.places := by
  unfold writeEndpoints at written
  cases found : given kwargs.endpointsFile with
  | none => exact absurd found hasPath
  | some path =>
      have nonempty : path ≠ "" := by
        simpa using (Option.filter_eq_some_iff.mp found).2
      simp only [found] at written
      split at written
      · next roles given =>
          obtain ⟨listed, _⟩ := Option.filter_eq_some_iff.mp given
          split at written
          · cases written
          · next modelConfig _ =>
              simp only [writePdEndpoints, if_neg nonempty] at written
              cases built : pdEntries modelConfig.label .empty
                  (kwargs.serverAddresses.zip roles) with
              | error error =>
                  rw [built] at written
                  cases written
              | ok entries =>
                  rw [built] at written
                  cases written
                  have places := places_of_pdLists (pdLists_of_pdEntries built)
                  rwa [List.map_fst_zip (roled roles listed)] at places
      · split at written
        · cases written
        · next entries built =>
            cases written
            exact places_of_lists (lists_of_rolloutEntries built)

end LlmDRl.Launcher
