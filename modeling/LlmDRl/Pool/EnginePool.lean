import LlmDRl.Library.OrderedDict

/-!
# The engine pool

`EnginePool.UpdateWeights` of the rollout controller.  It holds the pool's
lock for its whole duration, so it is one function of the pool, of the request
and of what the world answers: the outcome of every engine call, and the order
in which the goroutines of each fan-out finish.
-/

namespace LlmDRl.Pool

open LlmDRl.Library

/-- `engines` maps an engine's id to its address. -/
structure EnginePool where
  engines : OrderedDict String String
  weightVersion : Int
  transferInited : Bool

structure WeightUpdateRequest where
  targetVersion : Int
  pauseMode : String
  resetKVCache : Bool
  deriving DecidableEq, Repr

/-- A method of an engine's client, with its arguments. -/
inductive EngineCall where
  | pause (mode : String)
  | updateWeights (req : WeightUpdateRequest)
  | resetPrefixCache
  | resume
  deriving DecidableEq, Repr

/-- What a call meets and returns: whether its context is still live when it
is issued, and its error, `nil` being `none`. -/
structure Answer where
  live : Bool
  error : Option String
  deriving DecidableEq, Repr

/-- What the world answers during one operation on the engines of a pool.  A
`Resume` issued with a live context succeeds. -/
structure World (engines : List String) where
  order : EngineCall → List String
  answer : EngineCall → String → Answer
  complete : ∀ call, (order call).Perm engines
  resumes : ∀ engine, (answer .resume engine).live = true →
    (answer .resume engine).error = none

/-- A call that has been made, with its error. -/
structure CallRecord where
  call : EngineCall
  engine : String
  error : Option String
  deriving DecidableEq, Repr

/-- The errors `UpdateWeights` returns. -/
inductive UpdateError where
  | notInitialized
  | pauseEngines (errs : List String)
  | updateWeights (errs : List String)
  | resetPrefixCache (errs : List String)
  | resumeEngines (errs : List String)
  deriving DecidableEq, Repr

/-- `%v` of a slice. -/
def showSlice (errs : List String) : String :=
  "[" ++ " ".intercalate errs ++ "]"

def UpdateError.message : UpdateError → String
  | notInitialized =>
      "weight transfer not initialized; call InitWeightTransfer first"
  | pauseEngines errs => "pause engines: " ++ showSlice errs
  | updateWeights errs => "update weights: " ++ showSlice errs
  | resetPrefixCache errs => "reset prefix cache: " ++ showSlice errs
  | resumeEngines errs => "resume engines: " ++ showSlice errs

/-- What an operation leaves: the pool, its error and the calls it made, in
the order they finished. -/
structure Ran where
  pool : EnginePool
  error : Option UpdateError
  calls : List CallRecord

/-- `fanOut` of one call over all engines: every one is called, whatever the
others answer. -/
def fanOut {engines : List String} (world : World engines)
    (call : EngineCall) : List CallRecord :=
  (world.order call).map fun engine =>
    ⟨call, engine, (world.answer call engine).error⟩

/-- The errors `fanOut` collects. -/
def errors (records : List CallRecord) : List String :=
  records.filterMap CallRecord.error

/-- `req.PauseMode`, or `PauseModeKeep` when it is empty. -/
def WeightUpdateRequest.effectivePauseMode
    (req : WeightUpdateRequest) : String :=
  if req.pauseMode = "" then "keep" else req.pauseMode

namespace EnginePool

def updateWeights (pool : EnginePool) (world : World pool.engines.keys)
    (req : WeightUpdateRequest) : Ran :=
  if pool.transferInited = false then
    ⟨pool, some .notInitialized, []⟩
  else
    let paused := fanOut world (.pause req.effectivePauseMode)
    if errors paused ≠ [] then
      ⟨pool, some (.pauseEngines (errors paused)), paused⟩
    else
      let updated := fanOut world (.updateWeights req)
      if errors updated ≠ [] then
        let rolledBack := fanOut world .resume
        ⟨pool, some (.updateWeights (errors updated)),
          paused ++ updated ++ rolledBack⟩
      else
        let reset :=
          if req.resetKVCache then fanOut world .resetPrefixCache else []
        if errors reset ≠ [] then
          ⟨pool, some (.resetPrefixCache (errors reset)),
            paused ++ updated ++ reset⟩
        else
          let resumed := fanOut world .resume
          if errors resumed ≠ [] then
            ⟨pool, some (.resumeEngines (errors resumed)),
              paused ++ updated ++ reset ++ resumed⟩
          else
            ⟨{ pool with weightVersion := req.targetVersion }, none,
              paused ++ updated ++ reset ++ resumed⟩

end EnginePool

end LlmDRl.Pool
