import LlmDRl.Pool.Membership

/-!
# The rollout controller

The HTTP handlers of `server.go` on top of the engine pool.  Any number of
requests are served at once; each is cut into the steps at which others can
come between: taking and leaving the pool's lock, a call that an engine
answers while the lock is held, writing the server's own version under its
own lock.

The engines are part of the system: `Engine.versions` are the weight versions
an engine has held, and `asleep` says whether the last fan-out of `Sleep` and
`WakeUp` that succeeded was a `Sleep`.  The controller reads neither.
-/

namespace LlmDRl.Rollout

open LlmDRl.Library
open LlmDRl.Pool

/-! ## The state -/

inductive PoolPhase where
  | serving
  | sleeping
  | syncing
  | rolling
  deriving DecidableEq, Repr

/-- What the pool keeps of an engine besides its id and address, and the
versions it has held since it was registered, oldest first. -/
structure Engine where
  ready : Bool
  consecutiveFailures : Nat
  versions : List Int
  deriving DecidableEq, Repr

/-- A newly registered engine holds version 0 and is not ready. -/
def Engine.new : Engine := ⟨false, 0, [0]⟩

/-- The body of a health check's goroutine. -/
def Engine.checked (engine : Engine) (healthy : Bool) : Engine :=
  if healthy then
    { engine with consecutiveFailures := 0, ready := true }
  else
    let failures := engine.consecutiveFailures + 1
    { engine with
      consecutiveFailures := failures
      ready := if 3 ≤ failures then false else engine.ready }

/-- Where a request is, with its live variables. -/
inductive Handler where
  /-- `PickEngine` has returned. -/
  | picked (engineId : String) (engine : Nat)
  /-- The completion request is at the engine, since it held the version at
  this place of its history. -/
  | dispatched (engineId : String) (engine start : Nat)
  /-- `postCompletions` has returned; the engine held these versions
  meanwhile. -/
  | completed (engineId : String) (engine : Nat) (held : List Int)
  /-- The phase has been set to `Syncing`. -/
  | updateBegun (req : WeightUpdateRequest)
  /-- `UpdateWeights` has the lock: the calls that have returned, those that
  have not, and the version and the error it will leave. -/
  | updating (req : WeightUpdateRequest)
      (returned remaining : List CallRecord) (version : Int)
      (error : Option UpdateError)
  /-- `UpdateWeights` has returned. -/
  | updated (req : WeightUpdateRequest) (error : Option UpdateError)
  /-- The server's version has been written. -/
  | published (req : WeightUpdateRequest)
  /-- The phase has been set to `Sleeping`. -/
  | sleepBegun
  /-- `WakeUpAll` has succeeded. -/
  | awake
  | finished
  deriving DecidableEq

/-- The request is one for a completion, or is over. -/
def Handler.Generates : Handler → Prop
  | .picked .. | .dispatched .. | .completed .. | .finished => True
  | _ => False

/-- What a request for a completion was answered, and the versions its engine
held while it worked on it. -/
structure Response where
  engineId : String
  engine : Nat
  weightVersion : Int
  held : List Int
  deriving DecidableEq, Repr

structure Controller where
  pool : EnginePool
  phase : PoolPhase
  /-- The pool's lock is held by an `UpdateWeights`. -/
  locked : Bool
  /-- The engine an id in the pool stands for; a new registration makes a new
  engine. -/
  registered : String → Nat
  created : Nat
  engine : Nat → Engine
  weightVersion : Int
  requests : OrderedDict Nat Handler
  asleep : Bool
  responses : List Response

inductive ControlEvent where
  | addEngine (id address : String)
  | removeEngine (id : String)
  | healthCheck (engine : Nat) (healthy : Bool)
  | initWeightTransfer (worlds : ∀ engines, InitWorld engines)
  /-- `handleGenerate` picks an engine, or finds none ready. -/
  | pick (request : Nat) (choice : Option String)
  | dispatch (request : Nat)
  | complete (request : Nat) (succeeded : Bool)
  | label (request : Nat)
  /-- `handleUpdateWeights`, step by step. -/
  | beginUpdate (request : Nat) (req : WeightUpdateRequest)
  | lockPool (request : Nat) (worlds : ∀ engines, World engines)
  | callReturns (request : Nat)
  | unlockPool (request : Nat)
  | publish (request : Nat)
  | endUpdate (request : Nat)
  /-- `handleSleep` and `handleWakeUp`. -/
  | beginSleep (request : Nat)
  | sleepAll (request : Nat) (worlds : ∀ engines, Answers engines)
  | wakeUpAll (request : Nat) (worlds : ∀ engines, Answers engines)
  | endWake (request : Nat)

namespace Controller

/-! ## The steps -/

def init : Controller where
  pool := .new
  phase := .serving
  locked := false
  registered := fun _ => 0
  created := 0
  engine := fun _ => .new
  weightVersion := 0
  requests := .empty
  asleep := false
  responses := []

def withHandler (control : Controller) (request : Nat)
    (handler : Handler) : Controller :=
  { control with requests := control.requests.insert request handler }

/-- A call that has returned changes the version of the engine it updated. -/
def deliver (control : Controller) (record : CallRecord) :
    Nat → Engine :=
  match record.call, record.error with
  | .updateWeights req, none =>
      let updated := control.registered record.engine
      Function.update control.engine updated
        { control.engine updated with
          versions :=
            (control.engine updated).versions ++ [req.targetVersion] }
  | _, _ => control.engine

/-- The steps of the pool's other users. -/
def poolStep (control : Controller) : ControlEvent → Option Controller
  | .addEngine id address =>
      if control.locked then none
      else some
        { control with
          pool := control.pool.addEngine id address
          registered :=
            Function.update control.registered id control.created
          created := control.created + 1
          engine := Function.update control.engine control.created .new }
  | .removeEngine id =>
      if control.locked then none
      else some { control with pool := control.pool.removeEngine id }
  | .healthCheck engine healthy =>
      if control.locked ∨ control.created ≤ engine then none
      else some
        { control with
          engine := Function.update control.engine engine
            ((control.engine engine).checked healthy) }
  | .initWeightTransfer worlds =>
      if control.locked then none
      else some
        { control with
          pool := (control.pool.initWeightTransfer (worlds _)).pool }
  | _ => none

/-- `handleGenerate`, with direct dispatch. -/
def generateStep (control : Controller) : ControlEvent → Option Controller
  | .pick request choice =>
      if control.locked ∨ (control.requests.get? request).isSome then none
      else
        match choice with
        | some id =>
            let engine := control.registered id
            if id ∈ control.pool.engines.keys ∧
                (control.engine engine).ready then
              some (control.withHandler request (.picked id engine))
            else none
        | none =>
            if ∀ id ∈ control.pool.engines.keys,
                (control.engine (control.registered id)).ready = false then
              some (control.withHandler request .finished)
            else none
  | .dispatch request =>
      match control.requests.get? request with
      | some (.picked id engine) =>
          some (control.withHandler request
            (.dispatched id engine
              ((control.engine engine).versions.length - 1)))
      | _ => none
  | .complete request succeeded =>
      match control.requests.get? request with
      | some (.dispatched id engine start) =>
          if succeeded then
            some (control.withHandler request
              (.completed id engine
                ((control.engine engine).versions.drop start)))
          else
            some (control.withHandler request .finished)
      | _ => none
  | .label request =>
      match control.requests.get? request with
      | some (.completed id engine held) =>
          some
            { control.withHandler request .finished with
              responses :=
                ⟨id, engine, control.weightVersion, held⟩ ::
                  control.responses }
      | _ => none
  | _ => none

/-- `handleUpdateWeights`.  The deferred `SetPhase` runs on both exits. -/
def updateStep (control : Controller) : ControlEvent → Option Controller
  | .beginUpdate request req =>
      if control.locked ∨ (control.requests.get? request).isSome then none
      else some
        { control.withHandler request (.updateBegun req) with
          phase := .syncing }
  | .lockPool request worlds =>
      match control.requests.get? request with
      | some (.updateBegun req) =>
          if control.locked then none
          else
            let ran := control.pool.updateWeights (worlds _) req
            some
              { control.withHandler request
                  (.updating req [] ran.calls ran.pool.weightVersion
                    ran.error) with
                locked := true }
      | _ => none
  | .callReturns request =>
      match control.requests.get? request with
      | some (.updating req returned (record :: remaining) version error) =>
          some
            { control.withHandler request
                (.updating req (returned ++ [record]) remaining version
                  error) with
              engine := control.deliver record }
      | _ => none
  | .unlockPool request =>
      match control.requests.get? request with
      | some (.updating req _ [] version error) =>
          some
            { control.withHandler request (.updated req error) with
              locked := false
              pool := { control.pool with weightVersion := version } }
      | _ => none
  | .publish request =>
      match control.requests.get? request with
      | some (.updated req none) =>
          some
            { control.withHandler request (.published req) with
              weightVersion := req.targetVersion }
      | _ => none
  | .endUpdate request =>
      match control.requests.get? request with
      | some (.published _) | some (.updated _ (some _)) =>
          if control.locked then none
          else some
            { control.withHandler request .finished with
              phase := .serving }
      | _ => none
  | _ => none

/-- `handleSleep` and `handleWakeUp`. -/
def sleepStep (control : Controller) : ControlEvent → Option Controller
  | .beginSleep request =>
      if control.locked ∨ (control.requests.get? request).isSome then none
      else some
        { control.withHandler request .sleepBegun with
          phase := .sleeping }
  | .sleepAll request worlds =>
      match control.requests.get? request with
      | some .sleepBegun =>
          if control.locked then none
          else some
            { control.withHandler request .finished with
              asleep :=
                if (worlds control.pool.engines.keys).errors = [] then true
                else control.asleep }
      | _ => none
  | .wakeUpAll request worlds =>
      if control.locked ∨ (control.requests.get? request).isSome then none
      else if (worlds control.pool.engines.keys).errors = [] then
        some
          { control.withHandler request .awake with asleep := false }
      else
        some (control.withHandler request .finished)
  | .endWake request =>
      match control.requests.get? request with
      | some .awake =>
          if control.locked then none
          else some
            { control.withHandler request .finished with
              phase := .serving }
      | _ => none
  | _ => none

def step (control : Controller) (event : ControlEvent) :
    Option Controller :=
  match event with
  | .addEngine .. | .removeEngine .. | .healthCheck ..
  | .initWeightTransfer .. => control.poolStep event
  | .pick .. | .dispatch .. | .complete .. | .label .. =>
      control.generateStep event
  | .beginUpdate .. | .lockPool .. | .callReturns .. | .unlockPool ..
  | .publish .. | .endUpdate .. => control.updateStep event
  | .beginSleep .. | .sleepAll .. | .wakeUpAll .. | .endWake .. =>
      control.sleepStep event

/-! ## Everything a step can be -/

@[simp]
theorem requests_withHandler
    (control : Controller) (request : Nat) (handler : Handler) :
    (control.withHandler request handler).requests =
      control.requests.insert request handler := rfl

@[simp]
theorem pool_withHandler
    (control : Controller) (request : Nat) (handler : Handler) :
    (control.withHandler request handler).pool = control.pool := rfl

@[simp]
theorem weightVersion_withHandler
    (control : Controller) (request : Nat) (handler : Handler) :
    (control.withHandler request handler).weightVersion =
      control.weightVersion := rfl

@[simp]
theorem phase_withHandler
    (control : Controller) (request : Nat) (handler : Handler) :
    (control.withHandler request handler).phase = control.phase := rfl

@[simp]
theorem asleep_withHandler
    (control : Controller) (request : Nat) (handler : Handler) :
    (control.withHandler request handler).asleep = control.asleep := rfl

inductive PoolStepped (control : Controller) :
    ControlEvent → Controller → Prop
  | added (id address : String) (unlocked : control.locked = false) :
      PoolStepped control (.addEngine id address)
        { control with
          pool := control.pool.addEngine id address
          registered :=
            Function.update control.registered id control.created
          created := control.created + 1
          engine := Function.update control.engine control.created .new }
  | removed (id : String) (unlocked : control.locked = false) :
      PoolStepped control (.removeEngine id)
        { control with pool := control.pool.removeEngine id }
  | checked (engine : Nat) (healthy : Bool)
      (known : engine < control.created)
      (unlocked : control.locked = false) :
      PoolStepped control (.healthCheck engine healthy)
        { control with
          engine := Function.update control.engine engine
            ((control.engine engine).checked healthy) }
  | initialised (worlds : ∀ engines, InitWorld engines)
      (unlocked : control.locked = false) :
      PoolStepped control (.initWeightTransfer worlds)
        { control with
          pool := (control.pool.initWeightTransfer (worlds _)).pool }

inductive GenerateStepped (control : Controller) :
    ControlEvent → Controller → Prop
  | picked (request : Nat) (id : String)
      (unlocked : control.locked = false)
      (fresh : control.requests.get? request = none)
      (member : id ∈ control.pool.engines.keys)
      (ready : (control.engine (control.registered id)).ready = true) :
      GenerateStepped control (.pick request (some id))
        (control.withHandler request (.picked id (control.registered id)))
  | noneReady (request : Nat)
      (fresh : control.requests.get? request = none) :
      GenerateStepped control (.pick request none)
        (control.withHandler request .finished)
  | dispatched (request : Nat) (id : String) (engine : Nat)
      (picked : control.requests.get? request = some (.picked id engine)) :
      GenerateStepped control (.dispatch request)
        (control.withHandler request
          (.dispatched id engine
            ((control.engine engine).versions.length - 1)))
  | completed (request : Nat) (id : String) (engine start : Nat)
      (dispatched : control.requests.get? request =
        some (.dispatched id engine start)) :
      GenerateStepped control (.complete request true)
        (control.withHandler request
          (.completed id engine
            ((control.engine engine).versions.drop start)))
  | failed (request : Nat) (id : String) (engine start : Nat)
      (dispatched : control.requests.get? request =
        some (.dispatched id engine start)) :
      GenerateStepped control (.complete request false)
        (control.withHandler request .finished)
  | labelled (request : Nat) (id : String) (engine : Nat)
      (held : List Int)
      (completed : control.requests.get? request =
        some (.completed id engine held)) :
      GenerateStepped control (.label request)
        { control.withHandler request .finished with
          responses :=
            ⟨id, engine, control.weightVersion, held⟩ ::
              control.responses }

inductive UpdateStepped (control : Controller) :
    ControlEvent → Controller → Prop
  | begun (request : Nat) (req : WeightUpdateRequest)
      (unlocked : control.locked = false)
      (fresh : control.requests.get? request = none) :
      UpdateStepped control (.beginUpdate request req)
        { control.withHandler request (.updateBegun req) with
          phase := .syncing }
  | lockedPool (request : Nat) (worlds : ∀ engines, World engines)
      (req : WeightUpdateRequest) (unlocked : control.locked = false)
      (begun : control.requests.get? request = some (.updateBegun req)) :
      UpdateStepped control (.lockPool request worlds)
        { control.withHandler request
            (.updating req []
              (control.pool.updateWeights (worlds _) req).calls
              (control.pool.updateWeights (worlds _) req).pool.weightVersion
              (control.pool.updateWeights (worlds _) req).error) with
          locked := true }
  | returned (request : Nat) (req : WeightUpdateRequest)
      (before : List CallRecord) (record : CallRecord)
      (remaining : List CallRecord) (version : Int)
      (error : Option UpdateError)
      (updating : control.requests.get? request =
        some (.updating req before (record :: remaining) version error)) :
      UpdateStepped control (.callReturns request)
        { control.withHandler request
            (.updating req (before ++ [record]) remaining version
              error) with
          engine := control.deliver record }
  | unlockedPool (request : Nat) (req : WeightUpdateRequest)
      (returned : List CallRecord) (version : Int)
      (error : Option UpdateError)
      (updating : control.requests.get? request =
        some (.updating req returned [] version error)) :
      UpdateStepped control (.unlockPool request)
        { control.withHandler request (.updated req error) with
          locked := false
          pool := { control.pool with weightVersion := version } }
  | published (request : Nat) (req : WeightUpdateRequest)
      (updated : control.requests.get? request =
        some (.updated req none)) :
      UpdateStepped control (.publish request)
        { control.withHandler request (.published req) with
          weightVersion := req.targetVersion }
  | ended (request : Nat) (handler : Handler)
      (found : control.requests.get? request = some handler)
      (exits : (∃ req, handler = .published req) ∨
        ∃ req error, handler = .updated req (some error))
      (unlocked : control.locked = false) :
      UpdateStepped control (.endUpdate request)
        { control.withHandler request .finished with phase := .serving }

inductive SleepStepped (control : Controller) :
    ControlEvent → Controller → Prop
  | begun (request : Nat)
      (fresh : control.requests.get? request = none) :
      SleepStepped control (.beginSleep request)
        { control.withHandler request .sleepBegun with
          phase := .sleeping }
  | slept (request : Nat) (worlds : ∀ engines, Answers engines)
      (begun : control.requests.get? request = some .sleepBegun) :
      SleepStepped control (.sleepAll request worlds)
        { control.withHandler request .finished with
          asleep :=
            if (worlds control.pool.engines.keys).errors = [] then true
            else control.asleep }
  | woke (request : Nat) (worlds : ∀ engines, Answers engines)
      (fresh : control.requests.get? request = none)
      (succeeded : (worlds control.pool.engines.keys).errors = []) :
      SleepStepped control (.wakeUpAll request worlds)
        { control.withHandler request .awake with asleep := false }
  | wakeFailed (request : Nat) (worlds : ∀ engines, Answers engines)
      (fresh : control.requests.get? request = none)
      (failed : (worlds control.pool.engines.keys).errors ≠ []) :
      SleepStepped control (.wakeUpAll request worlds)
        (control.withHandler request .finished)
  | ended (request : Nat)
      (awake : control.requests.get? request = some .awake) :
      SleepStepped control (.endWake request)
        { control.withHandler request .finished with phase := .serving }

/-- Everything a step of the controller can be. -/
inductive Stepped (control : Controller) :
    ControlEvent → Controller → Prop
  | pool {event : ControlEvent} {next : Controller}
      (stepped : PoolStepped control event next) :
      Stepped control event next
  | generate {event : ControlEvent} {next : Controller}
      (stepped : GenerateStepped control event next) :
      Stepped control event next
  | update {event : ControlEvent} {next : Controller}
      (stepped : UpdateStepped control event next) :
      Stepped control event next
  | sleep {event : ControlEvent} {next : Controller}
      (stepped : SleepStepped control event next) :
      Stepped control event next

section Inversion

variable {control next : Controller}

theorem not_locked_or
    {condition : Prop} {locked : Bool}
    (free : ¬ (locked = true ∨ condition)) :
    locked = false ∧ ¬ condition := by
  obtain ⟨unlocked, other⟩ := not_or.mp free
  exact ⟨by simpa using unlocked, other⟩

theorem fresh_of_not_isSome
    {request : Nat}
    (absent : ¬ (control.requests.get? request).isSome = true) :
    control.requests.get? request = none := by
  simpa using absent

theorem poolStepped_of_poolStep
    {event : ControlEvent}
    (stepped : control.poolStep event = some next) :
    PoolStepped control event next := by
  cases event <;> simp only [poolStep, reduceCtorEq] at stepped
  case addEngine id address =>
      split at stepped
      · cases stepped
      · next free =>
          cases stepped
          exact .added id address (by simpa using free)
  case removeEngine id =>
      split at stepped
      · cases stepped
      · next free =>
          cases stepped
          exact .removed id (by simpa using free)
  case healthCheck engine healthy =>
      split at stepped
      · cases stepped
      · next free =>
          obtain ⟨unlocked, unknown⟩ := not_locked_or free
          cases stepped
          exact .checked engine healthy (Nat.lt_of_not_le unknown) unlocked
  case initWeightTransfer worlds =>
      split at stepped
      · cases stepped
      · next free =>
          cases stepped
          exact .initialised worlds (by simpa using free)

theorem generateStepped_of_generateStep
    {event : ControlEvent}
    (stepped : control.generateStep event = some next) :
    GenerateStepped control event next := by
  cases event <;> simp only [generateStep, reduceCtorEq] at stepped
  case pick request choice =>
      split at stepped
      · cases stepped
      · next free =>
          obtain ⟨unlocked, absent⟩ := not_locked_or free
          have fresh := fresh_of_not_isSome absent
          split at stepped
          · next id =>
              split at stepped
              · next guards =>
                  cases stepped
                  exact .picked request id unlocked fresh guards.1 guards.2
              · cases stepped
          · split at stepped
            · cases stepped
              exact .noneReady request fresh
            · cases stepped
  case dispatch request =>
      split at stepped
      · next id engine picked =>
          cases stepped
          exact .dispatched request id engine picked
      · cases stepped
  case complete request succeeded =>
      split at stepped
      · next id engine start dispatched =>
          cases succeeded with
          | true =>
              cases stepped
              exact .completed request id engine start dispatched
          | false =>
              cases stepped
              exact .failed request id engine start dispatched
      · cases stepped
  case label request =>
      split at stepped
      · next id engine held completed =>
          cases stepped
          exact .labelled request id engine held completed
      · cases stepped

theorem updateStepped_of_updateStep
    {event : ControlEvent}
    (stepped : control.updateStep event = some next) :
    UpdateStepped control event next := by
  cases event <;> simp only [updateStep, reduceCtorEq] at stepped
  case beginUpdate request req =>
      split at stepped
      · cases stepped
      · next free =>
          obtain ⟨unlocked, absent⟩ := not_locked_or free
          cases stepped
          exact .begun request req unlocked (fresh_of_not_isSome absent)
  case lockPool request worlds =>
      split at stepped
      · next req begun =>
          split at stepped
          · cases stepped
          · next free =>
              cases stepped
              exact .lockedPool request worlds req (by simpa using free)
                begun
      · cases stepped
  case callReturns request =>
      split at stepped
      · next req before record remaining version error updating =>
          cases stepped
          exact .returned request req before record remaining version error
            updating
      · cases stepped
  case unlockPool request =>
      split at stepped
      · next req returned version error updating =>
          cases stepped
          exact .unlockedPool request req returned version error updating
      · cases stepped
  case publish request =>
      split at stepped
      · next req updated =>
          cases stepped
          exact .published request req updated
      · cases stepped
  case endUpdate request =>
      split at stepped
      · next req found =>
          split at stepped
          · cases stepped
          · next free =>
              cases stepped
              exact .ended request _ found (.inl ⟨req, rfl⟩)
                (by simpa using free)
      · next req error found =>
          split at stepped
          · cases stepped
          · next free =>
              cases stepped
              exact .ended request _ found (.inr ⟨req, error, rfl⟩)
                (by simpa using free)
      · cases stepped

theorem sleepStepped_of_sleepStep
    {event : ControlEvent}
    (stepped : control.sleepStep event = some next) :
    SleepStepped control event next := by
  cases event <;> simp only [sleepStep, reduceCtorEq] at stepped
  case beginSleep request =>
      split at stepped
      · cases stepped
      · next free =>
          cases stepped
          exact .begun request (fresh_of_not_isSome (not_locked_or free).2)
  case sleepAll request worlds =>
      split at stepped
      · next begun =>
          split at stepped
          · cases stepped
          · cases stepped
            exact .slept request worlds begun
      · cases stepped
  case wakeUpAll request worlds =>
      split at stepped
      · cases stepped
      · next free =>
          have fresh := fresh_of_not_isSome (not_locked_or free).2
          split at stepped
          · next succeeded =>
              cases stepped
              exact .woke request worlds fresh succeeded
          · next failed =>
              cases stepped
              exact .wakeFailed request worlds fresh failed
  case endWake request =>
      split at stepped
      · next awake =>
          split at stepped
          · cases stepped
          · cases stepped
            exact .ended request awake
      · cases stepped

theorem stepped_of_step
    {event : ControlEvent} (stepped : control.step event = some next) :
    Stepped control event next := by
  cases event with
  | addEngine | removeEngine | healthCheck | initWeightTransfer =>
      exact .pool (poolStepped_of_poolStep stepped)
  | pick | dispatch | complete | label =>
      exact .generate (generateStepped_of_generateStep stepped)
  | beginUpdate | lockPool | callReturns | unlockPool | publish
  | endUpdate =>
      exact .update (updateStepped_of_updateStep stepped)
  | beginSleep | sleepAll | wakeUpAll | endWake =>
      exact .sleep (sleepStepped_of_sleepStep stepped)

/-- A step of the pool's other users touches no request, and neither the
versions nor the phase. -/
theorem PoolStepped.frame
    {event : ControlEvent} (stepped : PoolStepped control event next) :
    next.requests = control.requests ∧
      next.weightVersion = control.weightVersion ∧
      next.pool.weightVersion = control.pool.weightVersion ∧
      next.phase = control.phase ∧
      next.asleep = control.asleep := by
  cases stepped with
  | added | removed | checked =>
      exact ⟨rfl, rfl, rfl, rfl, rfl⟩
  | initialised worlds unlocked =>
      refine ⟨rfl, rfl, ?_, rfl, rfl⟩
      change (control.pool.initWeightTransfer _).pool.weightVersion = _
      rw [EnginePool.initWeightTransfer_pool]
      split <;> rfl

/-- Nor does a step of a request for a completion, which stays one. -/
theorem GenerateStepped.frame
    {event : ControlEvent}
    (stepped : GenerateStepped control event next) :
    ∃ request handler,
      next.requests = control.requests.insert request handler ∧
        (∀ old, control.requests.get? request = some old →
          old.Generates) ∧
        handler.Generates ∧
        next.weightVersion = control.weightVersion ∧
        next.pool = control.pool ∧
        next.phase = control.phase ∧
        next.asleep = control.asleep := by
  cases stepped <;>
    refine ⟨_, _, rfl, ?_, trivial, rfl, rfl, rfl, rfl⟩ <;>
    intro old found <;>
    simp_all [Handler.Generates]

end Inversion

end Controller

end LlmDRl.Rollout
