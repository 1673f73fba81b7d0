import LlmDRl.Pool.EnginePool

/-!
# Engines left paused by a weight update

Which engines an update pauses and resumes, for every pattern of failures.
Two exits of `UpdateWeights` do not resume what was paused: a `Pause` that
failed on some engine, and a cache reset that failed.  The other two issue one
`Resume` for every engine, with the context of the request.
-/

namespace LlmDRl.Pool

open LlmDRl.Library
open scoped List

/-! ## Fan-outs -/

section FanOut

variable {engines : List String} {world : World engines}

/-- The call succeeds on every engine. -/
def World.Succeeds (world : World engines) (call : EngineCall) : Prop :=
  ∀ engine ∈ engines, (world.answer call engine).error = none

/-- The call fails on every engine. -/
def World.Fails (world : World engines) (call : EngineCall) : Prop :=
  ∀ engine ∈ engines, (world.answer call engine).error ≠ none

instance (world : World engines) (call : EngineCall) :
    Decidable (world.Succeeds call) :=
  inferInstanceAs (Decidable (∀ _ ∈ _, _))

instance (world : World engines) (call : EngineCall) :
    Decidable (world.Fails call) :=
  inferInstanceAs (Decidable (∀ _ ∈ _, _))

/-- A fan-out reaches every engine once. -/
theorem mem_fanOut_iff (call : EngineCall) (record : CallRecord) :
    record ∈ fanOut world call ↔
      record.engine ∈ engines ∧ record.call = call ∧
        record.error = (world.answer call record.engine).error := by
  simp only [fanOut, List.mem_map, (world.complete call).mem_iff]
  constructor
  · intro raised
    obtain ⟨engine, member, rfl⟩ := raised
    exact ⟨member, rfl, rfl⟩
  · intro held
    obtain ⟨member, rfl, errorEq⟩ := held
    refine ⟨record.engine, member, ?_⟩
    rw [← errorEq]

theorem errors_fanOut_eq_nil_iff (call : EngineCall) :
    errors (fanOut world call) = [] ↔ world.Succeeds call := by
  simp only [errors, List.filterMap_eq_nil_iff]
  constructor
  · intro noError engine member
    exact noError ⟨call, engine, (world.answer call engine).error⟩
      ((mem_fanOut_iff call _).mpr ⟨member, rfl, rfl⟩)
  · intro succeeds record member
    obtain ⟨inEngines, _, errorEq⟩ := (mem_fanOut_iff call _).mp member
    rw [errorEq]
    exact succeeds record.engine inEngines

end FanOut

/-! ## Paused and resumed -/

/-- The record of a call that succeeded. -/
def succeeded (call : EngineCall) (engine : String) : CallRecord :=
  ⟨call, engine, none⟩

/-- Every engine whose `Pause` succeeded is successfully resumed after it. -/
def ResumesPaused (calls : List CallRecord) : Prop :=
  ∀ mode engine, succeeded (.pause mode) engine ∈ calls →
    [succeeded (.pause mode) engine, succeeded .resume engine] <+ calls

/-- No exit of `UpdateWeights` leaves a paused engine behind: nothing is
paused, or every engine is, a requested cache reset does not fail, and the
`Resume`s succeed. -/
def EnginePool.LeavesNonePaused (pool : EnginePool)
    (world : World pool.engines.keys) (req : WeightUpdateRequest) : Prop :=
  pool.transferInited = false ∨
    world.Fails (.pause req.effectivePauseMode) ∨
    (world.Succeeds (.pause req.effectivePauseMode) ∧
      (world.Succeeds (.updateWeights req) → req.resetKVCache = true →
        world.Succeeds .resetPrefixCache) ∧
      world.Succeeds .resume)

section Calls

variable {engines : List String} {world : World engines}

/-- A call that succeeds on an engine is among those of its fan-out. -/
theorem succeeded_mem_fanOut
    {call : EngineCall} {engine : String} (member : engine ∈ engines)
    (noError : (world.answer call engine).error = none) :
    succeeded call engine ∈ fanOut world call :=
  (mem_fanOut_iff _ _).mpr ⟨member, rfl, noError.symm⟩

/-- The calls go to the engines of the pool, and resume none of them. -/
def BeforeResume (engines : List String) (calls : List CallRecord) : Prop :=
  ∀ record ∈ calls, record.engine ∈ engines ∧ record.call ≠ .resume

theorem beforeResume_fanOut
    (world : World engines) {call : EngineCall}
    (notResume : call ≠ .resume) :
    BeforeResume engines (fanOut world call) := by
  intro record member
  obtain ⟨inEngines, callEq, _⟩ := (mem_fanOut_iff call _).mp member
  exact ⟨inEngines, by rw [callEq]; exact notResume⟩

theorem BeforeResume.append
    {first second : List CallRecord}
    (firstBefore : BeforeResume engines first)
    (secondBefore : BeforeResume engines second) :
    BeforeResume engines (first ++ second) := by
  intro record member
  rcases List.mem_append.mp member with found | found
  · exact firstBefore record found
  · exact secondBefore record found

/-- Calls that resume nothing must not have paused anything. -/
theorem BeforeResume.not_paused
    {calls : List CallRecord} (before : BeforeResume engines calls)
    (resumes : ResumesPaused calls) (mode engine : String) :
    succeeded (.pause mode) engine ∉ calls := by
  intro paused
  have resumed : succeeded .resume engine ∈ calls :=
    (resumes mode engine paused).subset (by simp)
  exact (before _ resumed).2 rfl

/-- A `Resume` of every engine, if it succeeds, resumes whatever was paused
before. -/
theorem BeforeResume.resumesPaused
    {calls : List CallRecord} (before : BeforeResume engines calls)
    (succeeds : world.Succeeds .resume) :
    ResumesPaused (calls ++ fanOut world .resume) := by
  intro mode engine paused
  have pausedBefore : succeeded (.pause mode) engine ∈ calls := by
    rcases List.mem_append.mp paused with found | found
    · exact found
    · have impossible := ((mem_fanOut_iff _ _).mp found).2.1
      cases impossible
  have resumed : succeeded .resume engine ∈ fanOut world .resume := by
    have inEngines := (before _ pausedBefore).1
    exact succeeded_mem_fanOut inEngines (succeeds engine inEngines)
  exact (List.singleton_sublist.mpr pausedBefore).append
    (List.singleton_sublist.mpr resumed)

/-- If every engine was paused, every `Resume` has to succeed. -/
theorem BeforeResume.succeeds_resume
    {calls : List CallRecord} {mode : String}
    (before : BeforeResume engines calls)
    (paused : ∀ engine ∈ engines,
      succeeded (.pause mode) engine ∈ calls)
    (resumes : ResumesPaused (calls ++ fanOut world .resume)) :
    world.Succeeds .resume := by
  intro engine member
  have inCalls := List.mem_append_left (fanOut world .resume)
    (paused engine member)
  have resumed := (resumes mode engine inCalls).subset
    (List.mem_cons_of_mem _ (List.mem_singleton_self _))
  rcases List.mem_append.mp resumed with found | found
  · exact absurd rfl (before _ found).2
  · exact ((mem_fanOut_iff _ _).mp found).2.2.symm

end Calls

/-! ## The exits -/

namespace EnginePool

/-- The exits of `UpdateWeights`, with the calls made before each. -/
inductive Exit (pool : EnginePool) (world : World pool.engines.keys)
    (req : WeightUpdateRequest) : List CallRecord → Prop
  | notInitialized (uninitialized : pool.transferInited = false) :
      Exit pool world req []
  | pauseFailed
      (initialized : pool.transferInited = true)
      (failed : ¬ world.Succeeds (.pause req.effectivePauseMode)) :
      Exit pool world req (fanOut world (.pause req.effectivePauseMode))
  | resetFailed (between : List CallRecord)
      (initialized : pool.transferInited = true)
      (paused : world.Succeeds (.pause req.effectivePauseMode))
      (updated : world.Succeeds (.updateWeights req))
      (requested : req.resetKVCache = true)
      (failed : ¬ world.Succeeds .resetPrefixCache)
      (before : BeforeResume pool.engines.keys between) :
      Exit pool world req
        (fanOut world (.pause req.effectivePauseMode) ++ between)
  | resumed (between : List CallRecord)
      (initialized : pool.transferInited = true)
      (paused : world.Succeeds (.pause req.effectivePauseMode))
      (reset : world.Succeeds (.updateWeights req) →
        req.resetKVCache = true → world.Succeeds .resetPrefixCache)
      (before : BeforeResume pool.engines.keys between) :
      Exit pool world req
        (fanOut world (.pause req.effectivePauseMode) ++ between ++
          fanOut world .resume)

theorem exit_of_updateWeights
    (pool : EnginePool) (world : World pool.engines.keys)
    (req : WeightUpdateRequest) :
    pool.Exit world req (pool.updateWeights world req).calls := by
  have updates :=
    beforeResume_fanOut world
      (show EngineCall.updateWeights req ≠ .resume by simp)
  have resets :=
    beforeResume_fanOut world
      (show EngineCall.resetPrefixCache ≠ .resume by simp)
  unfold updateWeights
  dsimp only
  split
  · next uninitialized =>
      exact .notInitialized uninitialized
  · next notUninitialized =>
      have initialized : pool.transferInited = true := by
        simpa using notUninitialized
      split
      · next pauseErrors =>
          rw [ne_eq, errors_fanOut_eq_nil_iff] at pauseErrors
          exact .pauseFailed initialized pauseErrors
      · next noPauseErrors =>
          have paused := (errors_fanOut_eq_nil_iff _).mp
            (not_not.mp noPauseErrors)
          split
          · next updateErrors =>
              rw [ne_eq, errors_fanOut_eq_nil_iff] at updateErrors
              exact .resumed _ initialized paused
                (fun updated => absurd updated updateErrors) updates
          · next noUpdateErrors =>
              have updated := (errors_fanOut_eq_nil_iff _).mp
                (not_not.mp noUpdateErrors)
              by_cases requested : req.resetKVCache = true
              · simp only [requested, if_true]
                have both := updates.append resets
                split
                · next resetErrors =>
                    rw [ne_eq, errors_fanOut_eq_nil_iff] at resetErrors
                    rw [List.append_assoc]
                    exact .resetFailed _ initialized paused updated
                      requested resetErrors both
                · next noResetErrors =>
                    have reset := (errors_fanOut_eq_nil_iff _).mp
                      (not_not.mp noResetErrors)
                    have exit : pool.Exit world req _ :=
                      .resumed _ initialized paused (fun _ _ => reset)
                        both
                    rw [← List.append_assoc] at exit
                    split <;> exact exit
              · have exit : pool.Exit world req _ :=
                  .resumed _ initialized paused
                    (fun _ asked => absurd asked requested) updates
                simp only [requested, Bool.false_eq_true, if_false, errors,
                  List.filterMap_nil, ne_eq, not_true_eq_false,
                  List.append_nil]
                split <;> exact exit

/-! ## The calls of an update -/

/-- An update makes no other calls than these. -/
theorem mem_calls_updateWeights
    {pool : EnginePool} {world : World pool.engines.keys}
    {req : WeightUpdateRequest} {record : CallRecord}
    (member : record ∈ (pool.updateWeights world req).calls) :
    record ∈ fanOut world (.pause req.effectivePauseMode) ∨
      record ∈ fanOut world (.updateWeights req) ∨
      record ∈ fanOut world .resetPrefixCache ∨
      record ∈ fanOut world .resume := by
  have ofReset :
      record ∈ (if req.resetKVCache = true then
        fanOut world .resetPrefixCache else []) →
      record ∈ fanOut world .resetPrefixCache := by
    intro found
    split at found
    · exact found
    · cases found
  rw [updateWeights] at member
  generalize
    (if req.resetKVCache = true then fanOut world .resetPrefixCache
      else []) = reset at member ofReset
  split at member
  · cases member
  · dsimp only at member
    split at member
    · exact .inl member
    · split at member
      · simp only [List.mem_append] at member
        tauto
      · split at member
        · simp only [List.mem_append] at member
          tauto
        · split at member <;>
          · simp only [List.mem_append] at member
            tauto

/-- They go to the engines of the pool, and update them to the version asked
for. -/
theorem updates_of_mem_calls
    {pool : EnginePool} {world : World pool.engines.keys}
    {req : WeightUpdateRequest} {record : CallRecord}
    (member : record ∈ (pool.updateWeights world req).calls) :
    record.engine ∈ pool.engines.keys ∧
      ∀ other, record.call = .updateWeights other → other = req := by
  rcases mem_calls_updateWeights member with found | found | found | found
  all_goals
    obtain ⟨inEngines, callEq, _⟩ := (mem_fanOut_iff _ _).mp found
    refine ⟨inEngines, ?_⟩
    intro other updates
    rw [callEq] at updates
    cases updates
  rfl

/-- An update that returns no error has updated every engine. -/
theorem succeeded_mem_calls_of_no_error
    {pool : EnginePool} {world : World pool.engines.keys}
    {req : WeightUpdateRequest}
    (succeeds : (pool.updateWeights world req).error = none)
    {engine : String} (member : engine ∈ pool.engines.keys) :
    succeeded (.updateWeights req) engine ∈
      (pool.updateWeights world req).calls := by
  rw [updateWeights] at succeeds ⊢
  generalize
    (if req.resetKVCache = true then fanOut world .resetPrefixCache
      else []) = reset at succeeds ⊢
  split at succeeds
  · cases succeeds
  · next initialized =>
      rw [if_neg initialized]
      dsimp only at succeeds ⊢
      split at succeeds
      · cases succeeds
      · next paused =>
          rw [if_neg paused]
          split at succeeds
          · cases succeeds
          · next updated =>
              rw [if_neg updated]
              have noErrors := (errors_fanOut_eq_nil_iff _).mp
                (not_not.mp updated)
              have called :
                  succeeded (.updateWeights req) engine ∈
                    fanOut world (.updateWeights req) :=
                succeeded_mem_fanOut member (noErrors engine member)
              split at succeeds
              · cases succeeds
              · next cleared =>
                  rw [if_neg cleared]
                  split at succeeds
                  · cases succeeds
                  · next resumed =>
                      rw [if_neg resumed]
                      simp only [List.mem_append]
                      exact .inl (.inl (.inr called))

/-! ## When nothing stays paused -/

variable {pool : EnginePool} {world : World pool.engines.keys}
  {req : WeightUpdateRequest}

/-- After a `Pause` that failed somewhere, only its failing everywhere leaves
nothing paused. -/
theorem resumesPaused_pauseFailed_iff
    (initialized : pool.transferInited = true)
    (failed : ¬ world.Succeeds (.pause req.effectivePauseMode)) :
    ResumesPaused (fanOut world (.pause req.effectivePauseMode)) ↔
      pool.LeavesNonePaused world req := by
  have before := beforeResume_fanOut world
    (show EngineCall.pause req.effectivePauseMode ≠ .resume by simp)
  constructor
  · intro resumes
    refine .inr (.inl ?_)
    intro engine member noError
    exact before.not_paused resumes _ engine
      (succeeded_mem_fanOut member noError)
  · intro outcome
    rcases outcome with uninitialized | fails | ⟨succeeds, _⟩
    · cases uninitialized.symm.trans initialized
    · intro mode engine paused
      obtain ⟨member, callEq, noError⟩ := (mem_fanOut_iff _ _).mp paused
      exact absurd noError.symm (fails engine member)
    · exact absurd succeeds failed

/-- After a failed cache reset every engine stays paused. -/
theorem resumesPaused_resetFailed_iff
    {between : List CallRecord}
    (initialized : pool.transferInited = true)
    (paused : world.Succeeds (.pause req.effectivePauseMode))
    (updated : world.Succeeds (.updateWeights req))
    (requested : req.resetKVCache = true)
    (failed : ¬ world.Succeeds .resetPrefixCache)
    (before : BeforeResume pool.engines.keys between) :
    ResumesPaused
        (fanOut world (.pause req.effectivePauseMode) ++ between) ↔
      pool.LeavesNonePaused world req := by
  have pauses := beforeResume_fanOut world
    (show EngineCall.pause req.effectivePauseMode ≠ .resume by simp)
  constructor
  · intro resumes
    refine absurd ?_ failed
    intro engine member
    exact absurd
      (List.mem_append_left between
        (succeeded_mem_fanOut member (paused engine member)))
      ((pauses.append before).not_paused resumes _ engine)
  · intro outcome
    rcases outcome with uninitialized | fails | ⟨_, reset, _⟩
    · cases uninitialized.symm.trans initialized
    · refine absurd ?_ failed
      intro engine member
      exact absurd (paused engine member) (fails engine member)
    · exact absurd (reset updated requested) failed

/-- After the `Resume`s, nothing stays paused if they succeeded. -/
theorem resumesPaused_resumed_iff
    {between : List CallRecord}
    (initialized : pool.transferInited = true)
    (paused : world.Succeeds (.pause req.effectivePauseMode))
    (reset : world.Succeeds (.updateWeights req) →
      req.resetKVCache = true → world.Succeeds .resetPrefixCache)
    (before : BeforeResume pool.engines.keys between) :
    ResumesPaused
        (fanOut world (.pause req.effectivePauseMode) ++ between ++
          fanOut world .resume) ↔
      pool.LeavesNonePaused world req := by
  have pauses := beforeResume_fanOut world
    (show EngineCall.pause req.effectivePauseMode ≠ .resume by simp)
  have both := pauses.append before
  constructor
  · intro resumes
    refine .inr (.inr ⟨paused, reset, ?_⟩)
    have allPaused : ∀ engine ∈ pool.engines.keys,
        succeeded (.pause req.effectivePauseMode) engine ∈
          fanOut world (.pause req.effectivePauseMode) ++ between := by
      intro engine member
      exact List.mem_append_left between
        (succeeded_mem_fanOut member (paused engine member))
    exact both.succeeds_resume allPaused resumes
  · intro outcome
    rcases outcome with uninitialized | fails | ⟨_, _, succeeds⟩
    · cases uninitialized.symm.trans initialized
    · apply both.resumesPaused
      intro engine member
      exact absurd (paused engine member) (fails engine member)
    · exact both.resumesPaused succeeds

/-- When `UpdateWeights` returns, every engine it paused has been resumed
exactly when it was not initialised, or every `Pause` failed, or every `Pause`
succeeded, no requested cache reset failed and every `Resume` succeeded. -/
theorem updateWeights_resumesPaused_iff
    (pool : EnginePool) (world : World pool.engines.keys)
    (req : WeightUpdateRequest) :
    ResumesPaused (pool.updateWeights world req).calls ↔
      pool.LeavesNonePaused world req := by
  have exit := exit_of_updateWeights pool world req
  generalize (pool.updateWeights world req).calls = calls at exit ⊢
  cases exit with
  | notInitialized uninitialized =>
      constructor
      · exact fun _ => .inl uninitialized
      · intro _ mode engine impossible
        cases impossible
  | pauseFailed initialized failed =>
      exact resumesPaused_pauseFailed_iff initialized failed
  | resetFailed between initialized paused updated requested failed
      before =>
      exact resumesPaused_resetFailed_iff initialized paused updated
        requested failed before
  | resumed between initialized paused reset before =>
      exact resumesPaused_resumed_iff initialized paused reset before

end EnginePool

/-! ## Engines that stay paused -/

/-- Two engines whose transfer group is initialised. -/
def twoEngines : EnginePool where
  engines := (OrderedDict.empty.insert "a" "10.0.0.1").insert "b" "10.0.0.2"
  weightVersion := 0
  transferInited := true

/-- A world in which the given calls fail, and in which the context is live
until the `Resume`s or throughout. -/
def failing (fails : EngineCall → String → Bool) (liveAtResume : Bool) :
    World twoEngines.engines.keys where
  order := fun _ => ["a", "b"]
  answer := fun call engine =>
    if call = .resume then
      ⟨liveAtResume, if liveAtResume then none else some "canceled"⟩
    else
      ⟨true, if fails call engine then some "engine error" else none⟩
  complete := fun _ => List.Perm.refl _
  resumes := by
    intro engine live
    simp only [if_true] at live ⊢
    rw [live]
    rfl

def update : WeightUpdateRequest := ⟨42, "keep", true⟩

/-- A `Pause` that fails on one engine leaves the other paused; a failed cache
reset leaves both paused; and so does a context cancelled before the
`Resume`s. -/
theorem engines_left_paused :
    ¬ ResumesPaused
      (twoEngines.updateWeights
        (failing (fun call engine =>
          call = .pause "keep" ∧ engine = "b") true) update).calls ∧
    ¬ ResumesPaused
      (twoEngines.updateWeights
        (failing (fun call _ => call = .resetPrefixCache) true)
          update).calls ∧
    ¬ ResumesPaused
      (twoEngines.updateWeights (failing (fun _ _ => false) false)
        update).calls := by
  refine ⟨?_, ?_, ?_⟩ <;>
  · intro resumes
    have resumed := resumes "keep" "a" (by decide +kernel)
    revert resumed
    decide +kernel

end LlmDRl.Pool
