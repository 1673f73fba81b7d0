import LlmDRl.Rollout.Labels

/-!
# Updates while no request is in flight

A way of running the controller under which every label is right: the engines
are registered before the first update, an update changes all of them or none,
and it is made while no request is in flight.  Then the engines of the pool
hold the server's version whenever no update is in progress.
-/

namespace LlmDRl.Rollout

open LlmDRl.Library
open LlmDRl.Pool

namespace Controller

variable {control next : Controller}

/-! ## The regime -/

/-- The request is for a completion and has not been answered. -/
def InFlight (handler : Handler) : Prop := handler.target ≠ none

instance : DecidablePred InFlight := by
  intro handler
  exact inferInstanceAs (Decidable (_ ≠ _))

/-- Engines are registered before the first update; an update begins when no
other one is in progress and no request is in flight, and no engine is picked
meanwhile; and if an update fails, it has not changed any engine. -/
def UpdatesAtRest (control : Controller) : ControlEvent → Prop
  | .addEngine _ _ => control.weightVersion = 0 ∧ control.NoUpdate
  | .beginUpdate _ _ =>
      control.requests.AllValues fun handler =>
        ¬ handler.Updates ∧ ¬ InFlight handler
  | .pick _ _ => control.NoUpdate
  | .lockPool request worlds =>
      match control.requests.get? request with
      | some (.updateBegun req) =>
          (control.pool.updateWeights (worlds _) req).error = none ∨
            ∀ record ∈ (control.pool.updateWeights (worlds _) req).calls,
              delivered record = none
      | _ => True
  | _ => True

/-- Decide what is asked of an update that locks the pool. -/
def decidableLocked (control : Controller)
    (worlds : ∀ engines, World engines) : (found : Option Handler) →
    Decidable (match found with
      | some (.updateBegun req) =>
          (control.pool.updateWeights (worlds _) req).error = none ∨
            ∀ record ∈ (control.pool.updateWeights (worlds _) req).calls,
              delivered record = none
      | _ => True)
  | some (.updateBegun _) => inferInstanceAs (Decidable (_ ∨ _))
  | none | some (.picked ..) | some (.dispatched ..)
  | some (.completed ..) | some (.updating ..) | some (.updated ..)
  | some (.published _) | some .sleepBegun | some .awake
  | some .finished => instDecidableTrue

instance (control : Controller) (event : ControlEvent) :
    Decidable (control.UpdatesAtRest event) := by
  apply ControlEvent.casesOn
    (motive := fun event => Decidable (control.UpdatesAtRest event)) event
  case addEngine =>
    intro id address
    exact inferInstanceAs (Decidable (_ ∧ _))
  case beginUpdate =>
    intro request req
    exact inferInstanceAs (Decidable (OrderedDict.AllValues _ _))
  case pick =>
    intro request choice
    exact inferInstanceAs (Decidable control.NoUpdate)
  case lockPool =>
    intro request worlds
    exact control.decidableLocked worlds (control.requests.get? request)
  all_goals
    intros
    exact instDecidableTrue

/-- The version an engine of the pool holds, by the progress of the update. -/
def expectedVersion (control : Controller) (id : String) :
    Handler → Int
  | .updating req returned _ _ _ =>
      if succeeded (.updateWeights req) id ∈ returned then
        req.targetVersion
      else control.weightVersion
  | .updated req none => req.targetVersion
  | _ => control.weightVersion

def Holds (control : Controller) (engine : Nat) (version : Int) : Prop :=
  (control.engine engine).versions.getLast? = some version

/-- The engines of the pool hold the server's version, or the one that the
update in progress has left them so far. -/
structure InStep (control : Controller) : Prop where
  alone : control.requests.AtMostOne Handler.Updates
  atRest : ∀ request handler other otherHandler,
    control.requests.get? request = some handler → handler.Updates →
      control.requests.get? other = some otherHandler →
        ¬ InFlight otherHandler
  picked : ∀ request id engine,
    control.requests.get? request = some (.picked id engine) →
      control.Holds engine control.weightVersion
  members : control.NoUpdate → ∀ id ∈ control.pool.engines.keys,
    control.Holds (control.registered id) control.weightVersion
  updated : ∀ request handler,
    control.requests.get? request = some handler → handler.Updates →
      ∀ id ∈ control.pool.engines.keys,
        control.Holds (control.registered id)
          (control.expectedVersion id handler)
  whole : ∀ request req returned remaining version error,
    control.requests.get? request =
        some (.updating req returned remaining version error) →
      error = none ∨
        ∀ record ∈ returned ++ remaining, delivered record = none

theorem expectedVersion_of_not_updates
    {id : String} {handler : Handler} (without : ¬ handler.Updates) :
    control.expectedVersion id handler = control.weightVersion := by
  cases handler <;> first | rfl | exact absurd trivial without

theorem expectedVersion_congr
    {id : String} {handler : Handler}
    (server : next.weightVersion = control.weightVersion) :
    next.expectedVersion id handler = control.expectedVersion id handler := by
  cases handler with
  | updated req error =>
      cases error with
      | none =>
          rfl
      | some error =>
          exact server
  | updating req returned remaining version error =>
      simp only [expectedVersion, server]
  | _ =>
      exact server

/-- A step of the pool's other users.  What an engine of the pool holds is
unchanged, or it is new and holds the server's version. -/
theorem InStep.of_requests
    (inStep : control.InStep)
    (requests : next.requests = control.requests)
    (server : next.weightVersion = control.weightVersion)
    (picked : ∀ request id engine,
      control.requests.get? request = some (.picked id engine) →
        (next.engine engine).versions = (control.engine engine).versions)
    (members : ∀ id ∈ next.pool.engines.keys,
      (id ∈ control.pool.engines.keys ∧
          (next.engine (next.registered id)).versions =
            (control.engine (control.registered id)).versions) ∨
        (control.NoUpdate ∧
          next.Holds (next.registered id) control.weightVersion)) :
    next.InStep where
  alone := by
    rw [requests]
    exact inStep.alone
  atRest := by
    rw [requests]
    exact inStep.atRest
  picked := by
    intro request id engine found
    rw [requests] at found
    rw [Holds, server, picked request id engine found]
    exact inStep.picked request id engine found
  members := by
    intro quiet id member
    rw [NoUpdate, requests] at quiet
    rw [server]
    rcases members id member with ⟨before, same⟩ | ⟨_, new⟩
    · rw [Holds, same]
      exact inStep.members quiet id before
    · exact new
  updated := by
    intro request handler found updates id member
    rw [requests] at found
    rw [expectedVersion_congr server]
    rcases members id member with ⟨before, same⟩ | ⟨quiet, _⟩
    · rw [Holds, same]
      exact inStep.updated request handler found updates id before
    · exact absurd updates (quiet request handler found)
  whole := by
    rw [requests]
    exact inStep.whole

/-- A step of a request that is not an update. -/
theorem InStep.of_handler
    (inStep : control.InStep) (request : Nat) (handler : Handler)
    (requests : next.requests = control.requests.insert request handler)
    (before : ∀ old, control.requests.get? request = some old →
      ¬ old.Updates)
    (without : ¬ handler.Updates)
    (rest : InFlight handler → control.NoUpdate)
    (picked : ∀ id engine, handler = .picked id engine →
      control.Holds engine control.weightVersion)
    (server : next.weightVersion = control.weightVersion)
    (engine : next.engine = control.engine)
    (registered : next.registered = control.registered)
    (pool : next.pool = control.pool) :
    next.InStep := by
  have same : ∀ engine version,
      next.Holds engine version ↔ control.Holds engine version := by
    intro number version
    rw [Holds, Holds, engine]
  have wasThere : ∀ other found,
      next.requests.get? other = some found → found.Updates →
        control.requests.get? other = some found := by
    intro other found present updates
    rw [requests] at present
    rcases OrderedDict.get?_of_get?_insert present with ⟨_, rfl⟩ | old
    · exact absurd updates without
    · exact old
  constructor
  · rw [requests]
    exact inStep.alone.insert request handler
      fun updates => absurd updates without
  · intro other found third thirdFound present updates thirdPresent
    have old := wasThere other found present updates
    rw [requests] at thirdPresent
    rcases OrderedDict.get?_of_get?_insert thirdPresent with
      ⟨_, rfl⟩ | thirdOld
    · intro inFlight
      exact rest inFlight other found old updates
    · exact inStep.atRest other found third thirdFound old updates thirdOld
  · intro other id number present
    rw [same, server]
    rw [requests] at present
    rcases OrderedDict.get?_of_get?_insert present with ⟨_, isNew⟩ | old
    · exact picked id number isNew.symm
    · exact inStep.picked other id number old
  · intro quiet id member
    rw [same, server, registered]
    rw [pool] at member
    refine inStep.members ?_ id member
    intro other found old updates
    have different : other ≠ request := by
      intro otherEq
      subst otherEq
      exact before found old updates
    refine quiet other found ?_ updates
    rw [requests, OrderedDict.get?_insert_of_ne _ _ different]
    exact old
  · intro other found present updates id member
    have old := wasThere other found present updates
    rw [pool] at member
    rw [same, registered, expectedVersion_congr server]
    exact inStep.updated other found old updates id member
  · intro other req returned remaining version error present
    exact inStep.whole other req returned remaining version error
      (wasThere other _ present trivial)

/-- A step of the only update, while no request is in flight. -/
theorem inStep_of_update
    (request : Nat) (handler : Handler)
    (requests : next.requests = control.requests.insert request handler)
    (only : ∀ other old, control.requests.get? other = some old →
      old.Updates → other = request)
    (rest : ∀ other old, control.requests.get? other = some old →
      ¬ InFlight old)
    (notInFlight : ¬ InFlight handler)
    (members : ∀ id ∈ next.pool.engines.keys,
      next.Holds (next.registered id) (next.expectedVersion id handler))
    (whole : ∀ req returned remaining version error,
      handler = .updating req returned remaining version error →
        error = none ∨
          ∀ record ∈ returned ++ remaining, delivered record = none) :
    next.InStep := by
  have updating : ∀ other found,
      next.requests.get? other = some found → found.Updates →
        other = request ∧ found = handler := by
    intro other found present updates
    rw [requests, OrderedDict.get?_insert] at present
    split at present
    · next otherEq =>
        exact ⟨otherEq, (Option.some.inj present).symm⟩
    · next different =>
        exact absurd (only other found present updates) different
  have none : ∀ other found,
      next.requests.get? other = some found → ¬ InFlight found := by
    intro other found present
    rw [requests] at present
    rcases OrderedDict.get?_of_get?_insert present with ⟨_, rfl⟩ | old
    · exact notInFlight
    · exact rest other found old
  constructor
  · intro first firstHandler second secondHandler firstFound firstUpdates
      secondFound secondUpdates
    exact (updating first firstHandler firstFound firstUpdates).1.trans
      (updating second secondHandler secondFound secondUpdates).1.symm
  · intro _ _ other found _ _ present
    exact none other found present
  · intro other id engine present
    exact absurd (fun same => by cases same) (none other _ present)
  · intro quiet id member
    have without : ¬ handler.Updates := by
      refine quiet request handler ?_
      rw [requests]
      exact OrderedDict.get?_insert_self _ _ _
    have held := members id member
    rw [expectedVersion_of_not_updates without] at held
    exact held
  · intro other found present updates id member
    rw [(updating other found present updates).2]
    exact members id member
  · intro other req returned remaining version error present
    exact whole req returned remaining version error
      (updating other _ present trivial).2.symm

/-- A call of an update adds the version asked for to the engine it updates,
and only to that one. -/
theorem InStep.returned
    (inStep : control.InStep) (numbered : control.Numbered)
    (guarded : control.Guarded) {request : Nat}
    {req : WeightUpdateRequest} {before : List CallRecord}
    {record : CallRecord} {remaining : List CallRecord} {version : Int}
    {error : Option UpdateError}
    (updating : control.requests.get? request =
      some (.updating req before (record :: remaining) version error))
    (engine : next.engine = control.deliver record)
    (registered : next.registered = control.registered)
    (server : next.weightVersion = control.weightVersion)
    (id : String) (member : id ∈ control.pool.engines.keys) :
    next.Holds (next.registered id)
      (next.expectedVersion id
        (.updating req (before ++ [record]) remaining version error)) := by
  obtain ⟨world, calls, _⟩ :=
    guarded.running request req before _ version error updating
  have held := inStep.updated request _ updating trivial id member
  have called :
      record ∈ (control.pool.updateWeights world req).calls := by
    rw [← calls]
    simp
  obtain ⟨recordMember, asked⟩ :=
    EnginePool.updates_of_mem_calls called
  rw [expectedVersion_congr server, Holds, engine, registered,
    versions_deliver]
  simp only [expectedVersion, List.mem_append, List.mem_singleton] at held ⊢
  by_cases isThis : control.registered id = control.registered record.engine
  · have idEq : id = record.engine :=
      numbered.distinct id member record.engine recordMember isThis
    rw [if_pos isThis]
    obtain ⟨call, callEngine, callError⟩ := record
    obtain rfl : id = callEngine := idEq
    by_cases updates : call = .updateWeights req ∧ callError = none
    · obtain ⟨rfl, rfl⟩ := updates
      rw [if_pos (.inr rfl)]
      simp [delivered]
    · have unchanged : delivered ⟨call, id, callError⟩ = none := by
        cases call with
        | updateWeights other =>
            cases callError with
            | none =>
                exact absurd ⟨by rw [asked other rfl], rfl⟩ updates
            | some error =>
                rfl
        | _ =>
            rfl
      have notThis :
          succeeded (.updateWeights req) id ≠ ⟨call, id, callError⟩ := by
        intro same
        cases same
        exact updates ⟨rfl, rfl⟩
      simp only [notThis, or_false, unchanged, Option.toList_none,
        List.append_nil]
      exact held
  · have notThis : succeeded (.updateWeights req) id ≠ record := by
      intro same
      subst same
      exact isThis rfl
    rw [if_neg isThis]
    simp only [notThis, or_false]
    exact held

/-- When the lock is released, the calls have left every engine at the
version asked for, or none of them. -/
theorem InStep.unlocked
    (inStep : control.InStep) (guarded : control.Guarded) {request : Nat}
    {req : WeightUpdateRequest} {returned : List CallRecord}
    {version : Int} {error : Option UpdateError}
    (updating : control.requests.get? request =
      some (.updating req returned [] version error))
    (id : String) (member : id ∈ control.pool.engines.keys) :
    control.expectedVersion id (.updating req returned [] version error) =
      control.expectedVersion id (.updated req error) := by
  obtain ⟨world, calls, _, errorEq⟩ :=
    guarded.running request req returned [] version error updating
  rw [List.append_nil] at calls
  cases error with
  | none =>
      have called :=
        EnginePool.succeeded_mem_calls_of_no_error errorEq.symm member
      rw [← calls] at called
      exact if_pos called
  | some error =>
      rcases inStep.whole request req returned [] version _ updating with
        noError | unchanged
      · cases noError
      · refine if_neg ?_
        intro called
        cases unchanged _ (List.mem_append_left [] called)

/-- A step of the pool's other users. -/
theorem InStep.of_poolStepped
    {event : ControlEvent} (inStep : control.InStep)
    (numbered : control.Numbered) (atRest : control.UpdatesAtRest event)
    (poolStepped : PoolStepped control event next) :
    next.InStep := by
  cases poolStepped with
  | added id address unlocked =>
      obtain ⟨zero, quiet⟩ := atRest
      refine inStep.of_requests rfl rfl ?_ ?_
      · intro request found engine picked
        have known := numbered.targets request _ engine picked rfl
        dsimp only
        rw [Function.update_of_ne (by omega)]
      · intro other member
        rcases (OrderedDict.mem_keys_insert_iff _ _ _ _).mp member with
          rfl | before
        · refine .inr ⟨quiet, ?_⟩
          dsimp only [Holds]
          rw [Function.update_self, Function.update_self, zero]
          rfl
        · by_cases same : other = id
          · refine .inr ⟨quiet, ?_⟩
            dsimp only [Holds]
            rw [same, Function.update_self, Function.update_self, zero]
            rfl
          · refine .inl ⟨before, ?_⟩
            have known := numbered.members other before
            dsimp only
            rw [Function.update_of_ne same,
              Function.update_of_ne (by omega)]
  | removed id unlocked =>
      exact inStep.of_requests rfl rfl (fun _ _ _ _ => rfl)
        fun other member =>
          .inl ⟨OrderedDict.mem_keys_of_mem_keys_erase member, rfl⟩
  | checked engine healthy known unlocked =>
      have same : ∀ other,
          (Function.update control.engine engine
            ((control.engine engine).checked healthy) other).versions =
          (control.engine other).versions := by
        intro other
        rw [Function.update_apply]
        split
        · next otherEq =>
            rw [otherEq, Engine.checked]
            split <;> rfl
        · rfl
      exact inStep.of_requests rfl rfl (fun _ _ other _ => same other)
        fun other member => .inl ⟨member, same _⟩
  | initialised worlds unlocked =>
      refine inStep.of_requests rfl rfl (fun _ _ _ _ => rfl) ?_
      intro other member
      rw [EnginePool.engines_initWeightTransfer] at member
      exact .inl ⟨member, rfl⟩

/-- A step of a request for a completion. -/
theorem InStep.of_generateStepped
    {event : ControlEvent} (inStep : control.InStep)
    (atRest : control.UpdatesAtRest event)
    (generateStepped : GenerateStepped control event next) :
    next.InStep := by
  have quiet : ∀ {request : Nat} {handler : Handler},
      control.requests.get? request = some handler → InFlight handler →
        control.NoUpdate := by
    intro request handler found inFlight other old present updates
    exact inStep.atRest other old request handler present updates found
      inFlight
  have without : ∀ {request : Nat} {handler : Handler},
      control.requests.get? request = some handler →
        handler.Generates → ∀ old,
          control.requests.get? request = some old →
            ¬ old.Updates := by
    intro request handler found generates old present
    rw [found] at present
    cases present
    exact generates.not_updates
  cases generateStepped with
  | picked request id unlocked fresh member ready =>
      refine inStep.of_handler request _ rfl ?_
        (fun updates => updates) (fun _ => atRest) ?_ rfl rfl rfl rfl
      · intro old found
        rw [fresh] at found
        cases found
      · intro other engine isNew
        cases isNew
        exact inStep.members atRest id member
  | noneReady request fresh =>
      refine inStep.of_handler request .finished rfl ?_
        (fun updates => updates)
        (fun inFlight => absurd rfl inFlight)
        (fun _ _ same => by cases same) rfl rfl rfl rfl
      intro old found
      rw [fresh] at found
      cases found
  | dispatched request id engine picked =>
      exact inStep.of_handler request _ rfl (without picked trivial)
        (fun updates => updates)
        (fun _ => quiet picked fun same => by cases same)
        (fun _ _ same => by cases same) rfl rfl rfl rfl
  | completed request id engine start dispatched =>
      exact inStep.of_handler request _ rfl (without dispatched trivial)
        (fun updates => updates)
        (fun _ => quiet dispatched fun same => by cases same)
        (fun _ _ same => by cases same) rfl rfl rfl rfl
  | failed request id engine start dispatched =>
      exact inStep.of_handler request .finished rfl
        (without dispatched trivial) (fun updates => updates)
        (fun inFlight => absurd rfl inFlight)
        (fun _ _ same => by cases same) rfl rfl rfl rfl
  | labelled request id engine held completed =>
      exact inStep.of_handler request .finished rfl
        (without completed trivial) (fun updates => updates)
        (fun inFlight => absurd rfl inFlight)
        (fun _ _ same => by cases same) rfl rfl rfl rfl

theorem InStep.of_sleepStepped
    {event : ControlEvent} (inStep : control.InStep)
    (sleepStepped : SleepStepped control event next) :
    next.InStep := by
  cases sleepStepped <;>
    refine inStep.of_handler _ _ rfl ?_ (fun updates => updates)
      (fun inFlight => absurd rfl inFlight)
      (fun _ _ same => by cases same) rfl rfl rfl rfl <;>
    intro old found updates <;>
    simp_all [Handler.Updates]

/-- A step of an update. -/
theorem InStep.of_updateStepped
    {event : ControlEvent} (inStep : control.InStep)
    (numbered : control.Numbered) (guarded : control.Guarded)
    (atRest : control.UpdatesAtRest event)
    (updateStepped : UpdateStepped control event next) :
    next.InStep := by
  have only : ∀ {request : Nat} {handler : Handler},
      control.requests.get? request = some handler → handler.Updates →
        ∀ other old, control.requests.get? other = some old →
          old.Updates → other = request := by
    intro request handler found updates other old present oldUpdates
    exact inStep.alone other old request handler present oldUpdates
      found updates
  have rest : ∀ {request : Nat} {handler : Handler},
      control.requests.get? request = some handler → handler.Updates →
        ∀ other old, control.requests.get? other = some old →
          ¬ InFlight old := by
    intro request handler found updates other old present
    exact inStep.atRest request handler other old found updates present
  cases updateStepped with
  | begun request req unlocked fresh =>
      have quiet : control.NoUpdate :=
        fun other old present => (atRest other old present).1
      refine inStep_of_update request (.updateBegun req) rfl ?_
        (fun other old present => (atRest other old present).2)
        (fun inFlight => absurd rfl inFlight)
        (inStep.members quiet)
        (fun _ _ _ _ _ same => by cases same)
      intro other old present updates
      exact absurd updates (quiet other old present)
  | lockedPool request worlds req unlocked begun =>
      rw [UpdatesAtRest, begun] at atRest
      refine inStep_of_update request _ rfl (only begun trivial)
        (rest begun trivial) (fun inFlight => absurd rfl inFlight)
        (inStep.updated request _ begun trivial) ?_
      intro otherReq returned remaining version error same
      cases same
      exact atRest
  | returned request req before record remaining version error
      updating =>
      refine inStep_of_update request _ rfl (only updating trivial)
        (rest updating trivial) (fun inFlight => absurd rfl inFlight)
        (inStep.returned numbered guarded updating rfl rfl rfl) ?_
      intro otherReq returned otherRemaining otherVersion otherError same
      cases same
      rw [List.append_assoc]
      exact inStep.whole request req before _ version error updating
  | unlockedPool request req returned version error updating =>
      refine inStep_of_update request _ rfl (only updating trivial)
        (rest updating trivial) (fun inFlight => absurd rfl inFlight) ?_
        (fun _ _ _ _ _ same => by cases same)
      intro id member
      have held := inStep.updated request _ updating trivial id member
      rw [inStep.unlocked guarded updating id member] at held
      exact held
  | published request req updated =>
      exact inStep_of_update request _ rfl (only updated trivial)
        (rest updated trivial) (fun inFlight => absurd rfl inFlight)
        (inStep.updated request _ updated trivial)
        (fun _ _ _ _ _ same => by cases same)
  | ended request handler found exits unlocked =>
      have updates : handler.Updates := by
        rcases exits with ⟨req, rfl⟩ | ⟨req, error, rfl⟩ <;> trivial
      refine inStep_of_update request .finished rfl (only found updates)
        (rest found updates) (fun inFlight => absurd rfl inFlight) ?_
        (fun _ _ _ _ _ same => by cases same)
      have held := inStep.updated request _ found updates
      rcases exits with ⟨req, rfl⟩ | ⟨req, error, rfl⟩
      · exact held
      · exact held

theorem InStep.step
    {event : ControlEvent} (inStep : control.InStep)
    (numbered : control.Numbered) (guarded : control.Guarded)
    (atRest : control.UpdatesAtRest event)
    (stepped : control.step event = some next) :
    next.InStep := by
  cases stepped_of_step stepped with
  | pool poolStepped =>
      exact inStep.of_poolStepped numbered atRest poolStepped
  | generate generateStepped =>
      exact inStep.of_generateStepped atRest generateStepped
  | sleep sleepStepped =>
      exact inStep.of_sleepStepped sleepStepped
  | update updateStepped =>
      exact inStep.of_updateStepped numbered guarded atRest updateStepped

theorem InStep.keepsLabels
    {event : ControlEvent} (inStep : control.InStep) :
    control.KeepsLabels event := by
  cases event with
  | dispatch request =>
      rw [KeepsLabels]
      split
      · next id engine picked =>
          exact inStep.picked request id engine picked
      · trivial
  | publish request =>
      rw [KeepsLabels]
      split
      · next req updated =>
          intro other handler found
          have rest :=
            inStep.atRest request _ other handler updated trivial found
          cases handler with
          | dispatched | completed =>
              exact absurd (fun same => by cases same) rest
          | _ =>
              trivial
      · trivial
  | _ =>
      trivial

theorem inStep_init : init.InStep := by
  constructor
  · intro first firstHandler second secondHandler found
    cases found
  · intro request handler other otherHandler found
    cases found
  · intro request id engine found
    cases found
  · intro quiet id member
    cases member
  · intro request handler found
    cases found
  · intro request req returned remaining version error found
    cases found

/-! ## Whole runs -/

/-- As long as every step keeps the labels, and in particular if updates are
all or nothing and made while no request is in flight, every response carries
a version that its engine held while it worked on the request.  Otherwise some
continuation of the run mislabels one. -/
theorem responses_carry_versions_of_their_engines
    (events : List ControlEvent) (final : Controller)
    (ran : run step init events = some final) :
    (StatesMeet step LabelsSettle init events ↔
        StepsMeet step KeepsLabels init events) ∧
      (StepsMeet step KeepsLabels init events →
        StatesMeet step LabelsHeld init events) ∧
      (¬ final.LabelsSettle →
        ∃ more later, run step final more = some later ∧
          ¬ later.LabelsHeld) ∧
      (StepsMeet step UpdatesAtRest init events →
        StatesMeet step LabelsHeld init events) := by
  have numbered : ∀ (control : Controller) (event : ControlEvent)
      (next : Controller), control.Numbered →
        control.step event = some next → next.Numbered :=
    fun _ _ _ kept stepped => kept.step stepped
  have settled :
      StatesMeet step LabelsSettle init events ↔
        StepsMeet step KeepsLabels init events :=
    statesMeet_iff_stepsMeet numbered
      (fun _ _ _ kept settles stepped =>
        labelsSettle_step_iff kept settles stepped)
      numbered_init
      ⟨OrderedDict.allValues_empty _, fun _ member => by cases member⟩ ran
  have held :
      StepsMeet step KeepsLabels init events →
        StatesMeet step LabelsHeld init events :=
    fun keeps => (settled.mpr keeps).mono fun _ settles => settles.2
  have preserved : ∀ (control : Controller) (event : ControlEvent)
      (next : Controller),
      control.InStep ∧ control.Numbered ∧ control.Guarded →
        control.UpdatesAtRest event → control.step event = some next →
          next.InStep ∧ next.Numbered ∧ next.Guarded := by
    intro control event next kept atRest stepped
    obtain ⟨inStep, isNumbered, guarded⟩ := kept
    exact ⟨inStep.step isNumbered guarded atRest stepped,
      isNumbered.step stepped, guarded.step stepped⟩
  refine ⟨settled, held, final.exists_mislabelled, ?_⟩
  intro atRest
  exact held
    (atRest.of_invariant preserved (fun _ _ kept _ => kept.1.keepsLabels)
      ⟨inStep_init, numbered_init, guarded_init⟩)

/-! ## Mislabelled responses -/

def generates (request : Nat) (id : String) : List ControlEvent :=
  [.pick request (some id), .dispatch request, .complete request true,
    .label request]

def generateUpdateGenerate : List ControlEvent :=
  oneEngine ++ .healthCheck 0 true :: generates 1 "a" ++
    .beginUpdate 2 (updateTo 1) :: updatesPool 2 ++
    [.publish 2, .endUpdate 2] ++ generates 3 "a"

theorem labels_held_generate_update_generate :
    ∃ final, run step init generateUpdateGenerate = some final ∧
      StatesMeet step LabelsHeld init generateUpdateGenerate := by
  obtain ⟨final, ran, _⟩ :=
    exists_final_of_map_eq
      (show (run step init generateUpdateGenerate).map (fun _ => true) =
        some true by decide +kernel)
  exact ⟨final, ran,
    (responses_carry_versions_of_their_engines _ final ran).2.2.2
      (by decide +kernel)⟩

/-- The update of one engine fails, and all other calls succeed. -/
def updateFailsOn (id : String) (engines : List String) : World engines where
  order _ := engines
  answer call engine :=
    ⟨true,
      if call = .updateWeights (updateTo 1) ∧ engine = id then
        some "transfer failed"
      else none⟩
  complete _ := .refl engines
  resumes _ _ := by simp

/-- An engine registered after an update. -/
def registeredLate : List ControlEvent :=
  oneEngine ++ .beginUpdate 1 (updateTo 1) :: updatesPool 1 ++
    [.publish 1, .endUpdate 1, .addEngine "b" "10.0.0.2:8000",
      .healthCheck 1 true] ++
    generates 2 "b"

/-- An update that fails on the second of two engines. -/
def updatedInPart : List ControlEvent :=
  [.addEngine "a" "10.0.0.1:8000", .addEngine "b" "10.0.0.2:8000",
    .initWeightTransfer allInit, .healthCheck 0 true,
    .beginUpdate 1 (updateTo 1), .lockPool 1 (updateFailsOn "b")] ++
    List.replicate 6 (.callReturns 1) ++
    [.unlockPool 1, .endUpdate 1] ++ generates 2 "a"

/-- A request between the two writes of an update. -/
def notYetPublished : List ControlEvent :=
  oneEngine ++ .healthCheck 0 true ::
    .beginUpdate 1 (updateTo 1) :: updatesPool 1 ++ generates 2 "a"

/-- The run sends one response, labelled with a version that its engine did
not hold. -/
def Mislabels (events : List ControlEvent) (response : Response) : Prop :=
  ∃ final, run step init events = some final ∧
    final.responses = [response] ∧ ¬ final.LabelsHeld

theorem mislabels_of_map_eq
    {events : List ControlEvent} {response : Response}
    (evaluated :
      (run step init events).map (fun final =>
        decide (final.responses = [response] ∧ ¬ final.LabelsHeld)) =
          some true) :
    Mislabels events response := by
  obtain ⟨final, ran, test⟩ := exists_final_of_map_eq evaluated
  exact ⟨final, ran, of_decide_eq_true test⟩

theorem responses_mislabelled :
    Mislabels registeredLate ⟨"b", 1, 1, [0]⟩ ∧
      Mislabels updatedInPart ⟨"a", 0, 0, [1]⟩ ∧
      Mislabels notYetPublished ⟨"a", 0, 0, [1]⟩ := by
  refine ⟨?_, ?_, ?_⟩
  · exact mislabels_of_map_eq (by decide +kernel)
  · exact mislabels_of_map_eq (by decide +kernel)
  · exact mislabels_of_map_eq (by decide +kernel)

end Controller

end LlmDRl.Rollout
