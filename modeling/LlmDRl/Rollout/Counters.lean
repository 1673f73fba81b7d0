import LlmDRl.Rollout.Controller

/-!
# The two weight versions

The controller keeps the version of the weights twice: the pool raises its own
at the end of `UpdateWeights`, under the pool's lock, and the handler writes
the server's after that, under the server's lock.  Between the two another
update can come.  The two numbers stay together exactly as long as the
handlers write in the order in which they updated the pool.
-/

namespace LlmDRl.Rollout

open LlmDRl.Library
open LlmDRl.Pool

/-- The request is a weight update that has not been answered. -/
def Handler.Updates : Handler → Prop
  | .updateBegun _ | .updating .. | .updated .. | .published _ => True
  | _ => False

/-- It has raised the pool's version and not yet written the server's. -/
def Handler.AwaitsPublish : Handler → Prop
  | .updated _ none => True
  | _ => False

instance : DecidablePred Handler.Updates := by
  intro handler
  unfold Handler.Updates
  split <;> infer_instance

instance : DecidablePred Handler.AwaitsPublish := by
  intro handler
  unfold Handler.AwaitsPublish
  split <;> infer_instance

theorem Handler.AwaitsPublish.updates
    {handler : Handler} (awaits : handler.AwaitsPublish) :
    handler.Updates := by
  cases handler with
  | updated req error =>
      trivial
  | _ =>
      cases awaits

theorem Handler.Generates.not_updates
    {handler : Handler} (generates : handler.Generates) :
    ¬ handler.Updates := by
  intro updates
  cases handler <;> first | exact updates | exact generates

namespace Controller

/-- No weight update is in progress. -/
def NoUpdate (control : Controller) : Prop :=
  control.requests.AllValues fun handler => ¬ handler.Updates

instance (control : Controller) : Decidable control.NoUpdate :=
  inferInstanceAs (Decidable (OrderedDict.AllValues _ _))

/-- The two versions agree, or some update has yet to write the server's. -/
def CountersSettle (control : Controller) : Prop :=
  control.weightVersion = control.pool.weightVersion ∨
    control.requests.SomeValue Handler.AwaitsPublish

/-- A handler writes the version the pool has, unless another one has yet to
write. -/
def PublishesInOrder (control : Controller) : ControlEvent → Prop
  | .publish request =>
      match control.requests.get? request with
      | some (.updated req none) =>
          control.pool.weightVersion = req.targetVersion ∨
            control.requests.SomeOther request Handler.AwaitsPublish
      | _ => True
  | _ => True

/-- An update begins only when no other one is in progress. -/
def UpdatesAlone (control : Controller) : ControlEvent → Prop
  | .beginUpdate _ _ => control.NoUpdate
  | _ => True

instance (control : Controller) (event : ControlEvent) :
    Decidable (control.PublishesInOrder event) := by
  unfold PublishesInOrder
  split
  · split <;> infer_instance
  · infer_instance

instance (control : Controller) (event : ControlEvent) :
    Decidable (control.UpdatesAlone event) := by
  apply ControlEvent.casesOn
    (motive := fun event => Decidable (control.UpdatesAlone event)) event <;>
  intros <;> first
    | exact instDecidableTrue
    | exact inferInstanceAs (Decidable control.NoUpdate)

end Controller

/-! ## What the lock guards -/

/-- The request holds the pool's lock. -/
def Handler.HoldsLock : Handler → Prop
  | .updating .. => True
  | _ => False

namespace Controller

/-- An update that holds the lock holds it alone, and is on its way through
the calls of one `UpdateWeights` of the pool as it is. -/
structure Guarded (control : Controller) : Prop where
  locked : ∀ request handler,
    control.requests.get? request = some handler →
      handler.HoldsLock → control.locked = true
  alone : control.requests.AtMostOne Handler.HoldsLock
  running : ∀ request req returned remaining version error,
    control.requests.get? request =
        some (.updating req returned remaining version error) →
      ∃ world : World control.pool.engines.keys,
        returned ++ remaining =
            (control.pool.updateWeights world req).calls ∧
          version =
            (control.pool.updateWeights world req).pool.weightVersion ∧
          error = (control.pool.updateWeights world req).error

variable {control next : Controller}

theorem guarded_of_none
    (none : control.requests.AllValues fun handler =>
      ¬ handler.HoldsLock) :
    control.Guarded where
  locked := by
    intro request handler found holds
    exact absurd holds (none request handler found)
  alone := OrderedDict.atMostOne_of_none none
  running := by
    intro request req returned remaining version error found
    exact absurd trivial (none request _ found)

theorem Guarded.none_of_unlocked
    (guarded : control.Guarded) (unlocked : control.locked = false) :
    control.requests.AllValues fun handler => ¬ handler.HoldsLock := by
  intro request handler found holds
  have locked := guarded.locked request handler found holds
  rw [unlocked] at locked
  cases locked

/-- What a request did before does not matter to the others. -/
theorem holder_of_insert
    {request other : Nat} {handler found : Handler}
    (requests : next.requests = control.requests.insert request handler)
    (without : ¬ handler.HoldsLock)
    (present : next.requests.get? other = some found)
    (holds : found.HoldsLock) :
    other ≠ request ∧ control.requests.get? other = some found := by
  rw [requests, OrderedDict.get?_insert] at present
  split at present
  · cases present
    exact absurd holds without
  · next different =>
      exact ⟨different, present⟩

/-- A step of a request that does not take the lock. -/
theorem Guarded.of_handler
    (guarded : control.Guarded) {request : Nat} {handler : Handler}
    (requests : next.requests = control.requests.insert request handler)
    (without : ¬ handler.HoldsLock)
    (pool : next.pool = control.pool)
    (locked : next.locked = control.locked) :
    next.Guarded where
  locked := by
    intro other found present holds
    obtain ⟨_, before⟩ := holder_of_insert requests without present holds
    rw [locked]
    exact guarded.locked other found before holds
  alone := by
    rw [requests]
    exact guarded.alone.insert request handler
      fun holds => absurd holds without
  running := by
    intro other req returned remaining version error present
    have before :=
      (holder_of_insert requests without present trivial).2
    rw [pool]
    exact guarded.running other req returned remaining version error before

/-- A step of the request that holds the lock, or takes it. -/
theorem Guarded.of_holder
    (guarded : control.Guarded) {request : Nat} {req : WeightUpdateRequest}
    {returned remaining : List CallRecord} {version : Int}
    {error : Option UpdateError}
    (requests : next.requests =
      control.requests.insert request
        (.updating req returned remaining version error))
    (others : ∀ other handler,
      control.requests.get? other = some handler → handler.HoldsLock →
        other = request)
    (locked : next.locked = true)
    (runs : ∃ world : World next.pool.engines.keys,
      returned ++ remaining = (next.pool.updateWeights world req).calls ∧
        version = (next.pool.updateWeights world req).pool.weightVersion ∧
        error = (next.pool.updateWeights world req).error) :
    next.Guarded where
  locked := fun _ _ _ _ => locked
  alone := by
    rw [requests]
    exact guarded.alone.insert request _ fun _ => others
  running := by
    intro other otherReq otherReturned otherRemaining otherVersion
      otherError present
    rw [requests, OrderedDict.get?_insert] at present
    split at present
    · cases present
      exact runs
    · next different =>
        exact absurd (others other _ present trivial) different

theorem Guarded.step
    {event : ControlEvent} (guarded : control.Guarded)
    (stepped : control.step event = some next) :
    next.Guarded := by
  cases stepped_of_step stepped with
  | pool poolStepped =>
      cases poolStepped with
      | added id address unlocked =>
          exact guarded_of_none (guarded.none_of_unlocked unlocked)
      | removed id unlocked =>
          exact guarded_of_none (guarded.none_of_unlocked unlocked)
      | checked engine healthy known unlocked =>
          exact guarded_of_none (guarded.none_of_unlocked unlocked)
      | initialised worlds unlocked =>
          exact guarded_of_none (guarded.none_of_unlocked unlocked)
  | generate generateStepped =>
      cases generateStepped <;>
        exact guarded.of_handler rfl (fun holds => holds) rfl rfl
  | update updateStepped =>
      cases updateStepped with
      | begun request req unlocked fresh =>
          exact guarded.of_handler rfl (fun holds => holds) rfl rfl
      | lockedPool request worlds req unlocked begun =>
          refine guarded.of_holder rfl ?_ rfl ⟨_, rfl, rfl, rfl⟩
          intro other handler found holds
          exact absurd holds
            (guarded.none_of_unlocked unlocked other handler found)
      | returned request req before record remaining version error
          updating =>
          refine guarded.of_holder rfl ?_ ?_ ?_
          · intro other handler found holds
            exact guarded.alone other handler request _ found holds
              updating trivial
          · exact guarded.locked request _ updating trivial
          · rw [List.append_assoc]
            exact guarded.running request req before _ version error
              updating
      | unlockedPool request req returned version error updating =>
          have without : ¬ (Handler.updated req error).HoldsLock :=
            fun holds => holds
          apply guarded_of_none
          intro other handler present holds
          obtain ⟨different, before⟩ :=
            holder_of_insert rfl without present holds
          exact different
            (guarded.alone other handler request _ before holds updating
              trivial)
      | published request req updated =>
          exact guarded.of_handler rfl (fun holds => holds) rfl rfl
      | ended request handler found exits unlocked =>
          exact guarded.of_handler rfl (fun holds => holds) rfl rfl
  | sleep sleepStepped =>
      cases sleepStepped <;>
        exact guarded.of_handler rfl (fun holds => holds) rfl rfl

theorem guarded_init : init.Guarded := by
  apply guarded_of_none
  intro request handler found
  cases found

/-- What an update that holds the lock will leave. -/
theorem Guarded.leaves
    (guarded : control.Guarded) {request : Nat}
    {req : WeightUpdateRequest} {returned remaining : List CallRecord}
    {version : Int} {error : Option UpdateError}
    (updating : control.requests.get? request =
      some (.updating req returned remaining version error)) :
    (error ≠ none ∧ version = control.pool.weightVersion) ∨
      (error = none ∧ version = req.targetVersion) := by
  obtain ⟨world, _, versionEq, errorEq⟩ :=
    guarded.running request req returned remaining version error updating
  rcases control.pool.updateWeights_outcome world req with
    ⟨fails, kept⟩ | ⟨succeeds, raised⟩
  · refine .inl ⟨errorEq ▸ fails, ?_⟩
    rw [versionEq, kept]
  · refine .inr ⟨errorEq.trans succeeds, ?_⟩
    rw [versionEq, raised]

/-! ## Each step settles the versions -/

/-- A step that leaves both versions alone, of a request that did not and
does not wait to write. -/
theorem CountersSettle.of_handler
    (settled : control.CountersSettle) (request : Nat) (handler : Handler)
    (requests : next.requests = control.requests.insert request handler)
    (before : ∀ old, control.requests.get? request = some old →
      ¬ old.AwaitsPublish)
    (server : next.weightVersion = control.weightVersion)
    (pool : next.pool.weightVersion = control.pool.weightVersion) :
    next.CountersSettle := by
  rcases settled with agree | waiting
  · exact .inl ((server.trans agree).trans pool.symm)
  · refine .inr ?_
    rw [requests, OrderedDict.someValue_insert_iff]
    exact .inr ((OrderedDict.someValue_iff_someOther before).mp waiting)

theorem SleepStepped.handler
    {event : ControlEvent}
    (stepped : SleepStepped control event next) :
    ∃ request handler,
      next.requests = control.requests.insert request handler ∧
        (∀ old, control.requests.get? request = some old →
          ¬ old.Updates) ∧
        ¬ handler.Updates ∧
        next.weightVersion = control.weightVersion ∧
        next.pool = control.pool := by
  cases stepped <;>
    refine ⟨_, _, rfl, ?_, fun updates => updates, rfl, rfl⟩ <;>
    intro old found updates <;>
    simp_all [Handler.Updates]

/-- The versions stay settled exactly when the step publishes in order. -/
theorem countersSettle_step_iff
    {event : ControlEvent} (guarded : control.Guarded)
    (settled : control.CountersSettle)
    (stepped : control.step event = some next) :
    next.CountersSettle ↔ control.PublishesInOrder event := by
  have without :
      ∀ {request : Nat} {handler : Handler},
        control.requests.get? request = some handler →
          ¬ handler.AwaitsPublish →
            ∀ old, control.requests.get? request = some old →
              ¬ old.AwaitsPublish := by
    intro request handler found notWaiting old present
    rw [found] at present
    cases present
    exact notWaiting
  cases stepped_of_step stepped with
  | pool poolStepped =>
      obtain ⟨requests, server, pool, _⟩ := poolStepped.frame
      refine iff_of_true ?_ (by cases poolStepped <;> trivial)
      rw [CountersSettle, requests, server, pool]
      exact settled
  | generate generateStepped =>
      obtain ⟨request, handler, requests, before, _, server, pool, _⟩ :=
        generateStepped.frame
      refine iff_of_true ?_ (by cases generateStepped <;> trivial)
      refine settled.of_handler request handler requests ?_ server
        (by rw [pool])
      intro old found awaits
      exact (before old found).not_updates awaits.updates
  | sleep sleepStepped =>
      obtain ⟨request, handler, requests, before, _, server, pool⟩ :=
        sleepStepped.handler
      refine iff_of_true ?_ (by cases sleepStepped <;> trivial)
      refine settled.of_handler request handler requests ?_ server
        (by rw [pool])
      intro old found awaits
      exact before old found awaits.updates
  | update updateStepped =>
      cases updateStepped with
      | begun request req unlocked fresh =>
          refine iff_of_true ?_ trivial
          refine settled.of_handler request (.updateBegun req) rfl ?_ rfl
            rfl
          intro old found
          rw [fresh] at found
          cases found
      | lockedPool request worlds req unlocked begun =>
          exact iff_of_true
            (settled.of_handler request _ rfl
              (without begun fun awaits => awaits) rfl rfl) trivial
      | returned request req before record remaining version error
          updating =>
          exact iff_of_true
            (settled.of_handler request _ rfl
              (without updating fun awaits => awaits) rfl rfl) trivial
      | unlockedPool request req returned version error updating =>
          refine iff_of_true ?_ trivial
          rcases guarded.leaves updating with
            ⟨fails, kept⟩ | ⟨succeeds, raised⟩
          · exact settled.of_handler request _ rfl
              (without updating fun awaits => awaits) rfl kept
          · refine .inr ((OrderedDict.someValue_insert_iff _ _ _ _).mpr
              (.inl ?_))
            rw [succeeds]
            trivial
      | published request req updated =>
          have others :=
            OrderedDict.someValue_insert_iff control.requests request
              (.published req) Handler.AwaitsPublish
          rw [CountersSettle, PublishesInOrder, updated]
          refine or_congr eq_comm (others.trans ?_)
          exact or_iff_right fun awaits => awaits
      | ended request handler found exits unlocked =>
          refine iff_of_true ?_ trivial
          refine settled.of_handler request .finished rfl
            (without found ?_) rfl rfl
          intro awaits
          rcases exits with ⟨req, rfl⟩ | ⟨req, error, rfl⟩
          · exact awaits
          · exact awaits

/-! ## One update at a time -/

/-- One update is in progress at most, and if it has yet to write the
server's version, it writes the pool's. -/
structure Serial (control : Controller) : Prop where
  alone : control.requests.AtMostOne Handler.Updates
  writes : ∀ request req,
    control.requests.get? request = some (.updated req none) →
      control.pool.weightVersion = req.targetVersion

/-- A step that leaves the pool's version alone, and no update waiting to
write. -/
theorem Serial.of_handler
    (serial : control.Serial) (request : Nat) (handler : Handler)
    (requests : next.requests = control.requests.insert request handler)
    (alone :
      (control.requests.insert request handler).AtMostOne Handler.Updates)
    (pool : next.pool.weightVersion = control.pool.weightVersion)
    (without : ∀ req, handler ≠ .updated req none) :
    next.Serial where
  alone := by
    rw [requests]
    exact alone
  writes := by
    intro other req present
    rw [requests, OrderedDict.get?_insert] at present
    rw [pool]
    split at present
    · cases present
      exact absurd rfl (without req)
    · exact serial.writes other req present

theorem Serial.step
    {event : ControlEvent} (guarded : control.Guarded)
    (serial : control.Serial) (alone : control.UpdatesAlone event)
    (stepped : control.step event = some next) :
    next.Serial := by
  cases stepped_of_step stepped with
  | pool poolStepped =>
      obtain ⟨requests, server, pool, _⟩ := poolStepped.frame
      constructor
      · rw [requests]
        exact serial.alone
      · rw [requests, pool]
        exact serial.writes
  | generate generateStepped =>
      obtain ⟨request, handler, requests, _, generates, _, pool, _⟩ :=
        generateStepped.frame
      have without := generates.not_updates
      refine serial.of_handler request handler requests
        (serial.alone.insert _ _ fun updates => absurd updates without)
        (by rw [pool]) ?_
      intro req same
      exact without (same ▸ trivial)
  | sleep sleepStepped =>
      obtain ⟨request, handler, requests, _, without, _, pool⟩ :=
        sleepStepped.handler
      refine serial.of_handler request handler requests
        (serial.alone.insert _ _ fun updates => absurd updates without)
        (by rw [pool]) ?_
      intro req same
      exact without (same ▸ trivial)
  | update updateStepped =>
      cases updateStepped with
      | begun request req unlocked fresh =>
          refine serial.of_handler request (.updateBegun req) rfl
            (serial.alone.insert _ _ ?_) rfl fun _ same => by cases same
          intro _ other old present updates
          exact absurd updates (alone other old present)
      | lockedPool request worlds req unlocked begun =>
          exact serial.of_handler request _ rfl
            (serial.alone.replace begun trivial _) rfl
            fun _ same => by cases same
      | returned request req before record remaining version error
          updating =>
          exact serial.of_handler request _ rfl
            (serial.alone.replace updating trivial _) rfl
            fun _ same => by cases same
      | unlockedPool request req returned version error updating =>
          refine ⟨serial.alone.replace updating trivial _, ?_⟩
          intro other otherReq present
          change (control.requests.insert request _).get? other = _
            at present
          rw [OrderedDict.get?_insert] at present
          split at present
          · cases present
            rcases guarded.leaves updating with
              ⟨fails, _⟩ | ⟨_, raised⟩
            · exact absurd rfl fails
            · exact raised
          · next different =>
              exact absurd
                (serial.alone other _ request _ present trivial updating
                  trivial) different
      | published request req updated =>
          exact serial.of_handler request _ rfl
            (serial.alone.replace updated trivial _) rfl
            fun _ same => by cases same
      | ended request handler found exits unlocked =>
          exact serial.of_handler request .finished rfl
            (serial.alone.insert _ _ fun updates => absurd updates id) rfl
            fun _ same => by cases same

theorem Serial.publishesInOrder
    {event : ControlEvent} (serial : control.Serial) :
    control.PublishesInOrder event := by
  cases event with
  | publish request =>
      rw [PublishesInOrder]
      split
      · next req updated =>
          exact .inl (serial.writes request req updated)
      · trivial
  | _ =>
      trivial

/-! ## Whole runs -/

/-- If no update is in progress, the two versions agree. -/
def VersionsAgree (control : Controller) : Prop :=
  control.NoUpdate → control.weightVersion = control.pool.weightVersion

theorem CountersSettle.versionsAgree
    (settled : control.CountersSettle) : control.VersionsAgree := by
  intro quiet
  rcases settled with agree | ⟨request, handler, found, awaits⟩
  · exact agree
  · exact absurd awaits.updates (quiet request handler found)

theorem publishesInOrder_of_updatesAlone
    {events : List ControlEvent}
    (alone : StepsMeet step UpdatesAlone init events) :
    StepsMeet step PublishesInOrder init events := by
  have initially : init.Guarded ∧ init.Serial := by
    refine ⟨guarded_init, ?_, ?_⟩
    · intro first firstHandler second secondHandler found
      cases found
    · intro request req found
      cases found
  have preserved : ∀ (control : Controller) (event : ControlEvent)
      (next : Controller), control.Guarded ∧ control.Serial →
        control.UpdatesAlone event → control.step event = some next →
          next.Guarded ∧ next.Serial :=
    fun _ _ _ kept updatesAlone stepped =>
      ⟨kept.1.step stepped, kept.2.step kept.1 updatesAlone stepped⟩
  exact alone.of_invariant preserved
    (fun _ _ kept _ => kept.2.publishesInOrder) initially

/-- As long as the handlers write the server's version in the order in which
they raised the pool's, and in particular if updates come one at a time, the
two versions agree whenever no update is in progress. -/
theorem versions_agree_if_published_in_order
    (events : List ControlEvent) (final : Controller)
    (ran : run step init events = some final) :
    (StatesMeet step CountersSettle init events ↔
        StepsMeet step PublishesInOrder init events) ∧
      (StepsMeet step PublishesInOrder init events →
        StatesMeet step VersionsAgree init events) ∧
      (StepsMeet step UpdatesAlone init events →
        StatesMeet step VersionsAgree init events) := by
  have preserved : ∀ (control : Controller) (event : ControlEvent)
      (next : Controller), control.Guarded →
        control.step event = some next → next.Guarded :=
    fun _ _ _ guarded stepped => guarded.step stepped
  have settled :
      StatesMeet step CountersSettle init events ↔
        StepsMeet step PublishesInOrder init events :=
    statesMeet_iff_stepsMeet preserved
      (fun _ _ _ guarded settles stepped =>
        countersSettle_step_iff guarded settles stepped)
      guarded_init (.inl rfl) ran
  have agree :
      StepsMeet step PublishesInOrder init events →
        StatesMeet step VersionsAgree init events :=
    fun ordered =>
      (settled.mpr ordered).mono fun _ settles => settles.versionsAgree
  exact ⟨settled, agree,
    fun alone => agree (publishesInOrder_of_updatesAlone alone)⟩

/-! ## Two updates -/

/-- Every call on every engine succeeds. -/
def allAnswer (engines : List String) : Answers engines :=
  ⟨engines, fun _ => none, .refl engines⟩

def allInit (engines : List String) : InitWorld engines :=
  ⟨allAnswer engines, engines, .refl engines⟩

/-- One engine is registered and in the transfer group. -/
def oneEngine : List ControlEvent :=
  [.addEngine "a" "10.0.0.1:8000", .initWeightTransfer allInit]

def updateTo (version : Int) : WeightUpdateRequest := ⟨version, "", false⟩

/-- The `UpdateWeights` of a request on one engine: it is paused, updated and
resumed. -/
def updatesPool (request : Nat) : List ControlEvent :=
  [.lockPool request PoolHistory.allUpdate, .callReturns request,
    .callReturns request, .callReturns request, .unlockPool request]

def oneAfterTheOther : List ControlEvent :=
  oneEngine ++
    .beginUpdate 1 (updateTo 1) :: updatesPool 1 ++
    [.publish 1, .endUpdate 1] ++
    .beginUpdate 2 (updateTo 2) :: updatesPool 2 ++
    [.publish 2, .endUpdate 2]

theorem versions_agree_one_after_the_other :
    ∃ final, run step init oneAfterTheOther = some final ∧
      StatesMeet step VersionsAgree init oneAfterTheOther := by
  obtain ⟨final, ran, _⟩ :=
    exists_final_of_map_eq
      (show (run step init oneAfterTheOther).map (fun _ => true) = some true
        by decide +kernel)
  exact ⟨final, ran,
    (versions_agree_if_published_in_order _ final ran).2.2
      (by decide +kernel)⟩

/-- The second update overtakes the first one between its two writes. -/
def overtaken : List ControlEvent :=
  oneEngine ++
    .beginUpdate 1 (updateTo 1) :: updatesPool 1 ++
    .beginUpdate 2 (updateTo 2) :: updatesPool 2 ++
    [.publish 2, .endUpdate 2, .publish 1, .endUpdate 1]

theorem overtaken_update_publishes_the_old_version :
    ∃ final, run step init overtaken = some final ∧
      final.NoUpdate ∧ final.weightVersion = 1 ∧
      final.pool.weightVersion = 2 := by
  obtain ⟨final, ran, test⟩ :=
    exists_final_of_map_eq
      (show (run step init overtaken).map (fun final =>
        decide (final.NoUpdate ∧ final.weightVersion = 1 ∧
          final.pool.weightVersion = 2)) = some true
        by decide +kernel)
  exact ⟨final, ran, of_decide_eq_true test⟩

end Controller

end LlmDRl.Rollout
