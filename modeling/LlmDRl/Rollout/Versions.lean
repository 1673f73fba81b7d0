import LlmDRl.Rollout.Counters
import LlmDRl.Rollout.Labels

/-!
# Where the versions come from

The controller makes up no version of its own: what the pool, the server, the
engines and the responses carry is 0 or has come with an update.  If the
updates come one at a time, each to a version as high as any there is, no
engine and no sequence of responses goes back.
-/

namespace LlmDRl.Rollout

open LlmDRl.Library
open LlmDRl.Pool

/-- The request that a handler of updates works on. -/
def Handler.updateRequest? : Handler → Option WeightUpdateRequest
  | .updateBegun req | .updating req _ _ _ _ | .updated req _
  | .published req => some req
  | _ => none

theorem Handler.updates_iff (handler : Handler) :
    handler.Updates ↔ ∃ req, handler.updateRequest? = some req := by
  cases handler <;> simp [Handler.Updates, Handler.updateRequest?]

/-- The server's version has been written for the handler. -/
def Handler.isPublished : Handler → Bool
  | .published _ => true
  | _ => false

/-- The event begins an update or ends one. -/
def ControlEvent.boundsUpdate : ControlEvent → Bool
  | .beginUpdate .. | .endUpdate _ => true
  | _ => false

namespace Controller

/-- Every version that the handler has seen, or will leave behind. -/
def Carries (p : Int → Prop) : Handler → Prop
  | .completed _ _ held => ∀ version ∈ held, p version
  | .updateBegun req | .updated req _ | .published req =>
      p req.targetVersion
  | .updating req _ remaining version _ =>
      p req.targetVersion ∧ p version ∧
        ∀ record ∈ remaining, ∀ target, delivered record = some target →
          p target
  | _ => True

/-- Every version there is, or is to come from the requests in progress. -/
structure AllVersions (p : Int → Prop) (control : Controller) : Prop where
  pool : p control.pool.weightVersion
  server : p control.weightVersion
  engines : ∀ engine, ∀ version ∈ (control.engine engine).versions,
    p version
  responses : ∀ response ∈ control.responses,
    p response.weightVersion ∧ ∀ version ∈ response.held, p version
  handlers : control.requests.AllValues (Carries p)

variable {p : Int → Prop} {control next : Controller}

theorem Carries.mono {q : Int → Prop} (weaker : ∀ version, p version → q version)
    {handler : Handler} (carries : Carries p handler) :
    Carries q handler := by
  cases handler with
  | completed id engine held =>
      exact fun version member => weaker version (carries version member)
  | updateBegun req | updated req error | published req =>
      exact weaker _ carries
  | updating req returned remaining version error =>
      obtain ⟨target, left, delivers⟩ := carries
      exact ⟨weaker _ target, weaker _ left, fun record member target found =>
        weaker target (delivers record member target found)⟩
  | _ => trivial

theorem AllVersions.mono {q : Int → Prop}
    (weaker : ∀ version, p version → q version)
    (all : control.AllVersions p) : control.AllVersions q where
  pool := weaker _ all.pool
  server := weaker _ all.server
  engines := fun engine version member =>
    weaker version (all.engines engine version member)
  responses := by
    intro response member
    obtain ⟨label, held⟩ := all.responses response member
    exact ⟨weaker _ label, fun version isHeld =>
      weaker version (held version isHeld)⟩
  handlers := fun request handler found =>
    (all.handlers request handler found).mono weaker

/-- An update's calls deliver the version it is to. -/
theorem target_of_delivered
    {record : CallRecord} {req : WeightUpdateRequest} {version : Int}
    (own : ∀ other, record.call = .updateWeights other → other = req)
    (found : delivered record = some version) :
    version = req.targetVersion := by
  unfold delivered at found
  split at found
  · next other updates _ =>
      cases found
      rw [own other updates]
  · cases found

theorem allVersions_init (zero : p 0) : init.AllVersions p where
  pool := zero
  server := zero
  engines := by
    intro engine version member
    rw [List.mem_singleton.mp member]
    exact zero
  responses := fun _ member => absurd member List.not_mem_nil
  handlers := by
    intro request handler found
    cases found

/-- A step of one request that leaves the rest alone. -/
theorem AllVersions.of_handler
    (all : control.AllVersions p) {request : Nat} {handler : Handler}
    (requests : next.requests = control.requests.insert request handler)
    (carries : Carries p handler)
    (pool : next.pool.weightVersion = control.pool.weightVersion)
    (server : next.weightVersion = control.weightVersion)
    (engines : next.engine = control.engine)
    (responses : next.responses = control.responses) :
    next.AllVersions p where
  pool := pool ▸ all.pool
  server := server ▸ all.server
  engines := engines ▸ all.engines
  responses := responses ▸ all.responses
  handlers := requests ▸ all.handlers.insert request carries

theorem AllVersions.of_poolStepped
    (zero : p 0) (all : control.AllVersions p) {event : ControlEvent}
    (stepped : PoolStepped control event next) : next.AllVersions p := by
  have kept : next.pool.weightVersion = control.pool.weightVersion :=
    stepped.frame.2.2.1
  cases stepped with
  | added id address unlocked =>
      refine ⟨all.pool, all.server, ?_, all.responses, all.handlers⟩
      intro engine version member
      dsimp only at member
      rw [Function.update_apply] at member
      split at member
      · rw [List.mem_singleton.mp member]
        exact zero
      · exact all.engines engine version member
  | removed id unlocked =>
      exact ⟨all.pool, all.server, all.engines, all.responses, all.handlers⟩
  | checked engine healthy known unlocked =>
      refine ⟨all.pool, all.server, ?_, all.responses, all.handlers⟩
      intro other version member
      dsimp only at member
      rw [Function.update_apply] at member
      split at member
      · refine all.engines engine version ?_
        unfold Engine.checked at member
        split at member <;> exact member
      · exact all.engines other version member
  | initialised worlds unlocked =>
      exact ⟨kept ▸ all.pool, all.server, all.engines, all.responses,
        all.handlers⟩

theorem AllVersions.of_generateStepped
    (all : control.AllVersions p) {event : ControlEvent}
    (stepped : GenerateStepped control event next) :
    next.AllVersions p := by
  cases stepped with
  | picked | noneReady | dispatched | failed =>
      exact all.of_handler rfl trivial rfl rfl rfl rfl
  | completed request id engine start dispatched =>
      refine all.of_handler rfl ?_ rfl rfl rfl rfl
      exact fun version member =>
        all.engines engine version (List.mem_of_mem_drop member)
  | labelled request id engine held completed =>
      refine ⟨all.pool, all.server, all.engines, ?_,
        all.handlers.insert request trivial⟩
      intro response member
      rcases List.mem_cons.mp member with rfl | older
      · exact ⟨all.server, all.handlers request _ completed⟩
      · exact all.responses response older

theorem AllVersions.of_updateStepped
    (all : control.AllVersions p) {event : ControlEvent}
    (begins : ∀ request req, event = .beginUpdate request req →
      p req.targetVersion)
    (stepped : UpdateStepped control event next) : next.AllVersions p := by
  cases stepped with
  | begun request req unlocked fresh =>
      exact all.of_handler rfl (begins request req rfl) rfl rfl rfl rfl
  | lockedPool request worlds req unlocked begun =>
      have target : p req.targetVersion := all.handlers request _ begun
      refine all.of_handler rfl ⟨target, ?_, ?_⟩ rfl rfl rfl rfl
      · rcases control.pool.updateWeights_outcome (worlds _) req with
          ⟨_, kept⟩ | ⟨_, raised⟩
        · rw [kept]
          exact all.pool
        · rw [raised]
          exact target
      · intro record member version found
        have own := (EnginePool.updates_of_mem_calls member).2
        rw [target_of_delivered own found]
        exact target
  | returned request req before record remaining version error updating =>
      obtain ⟨target, left, delivers⟩ := all.handlers request _ updating
      refine ⟨all.pool, all.server, ?_, all.responses,
        all.handlers.insert request ⟨target, left, ?_⟩⟩
      · intro engine held member
        dsimp only at member
        rw [versions_deliver] at member
        split at member
        · rcases List.mem_append.mp member with older | new
          · exact all.engines engine held older
          · exact delivers record (List.mem_cons_self ..) held
              (Option.mem_toList.mp new)
        · exact all.engines engine held member
      · exact fun other member =>
          delivers other (List.mem_cons_of_mem record member)
  | unlockedPool request req returned version error updating =>
      obtain ⟨target, left, _⟩ := all.handlers request _ updating
      exact ⟨left, all.server, all.engines, all.responses,
        all.handlers.insert request target⟩
  | published request req updated =>
      have target : p req.targetVersion := all.handlers request _ updated
      exact ⟨all.pool, target, all.engines, all.responses,
        all.handlers.insert request target⟩
  | ended request handler found exits unlocked =>
      exact all.of_handler rfl trivial rfl rfl rfl rfl

/-- The controller makes up no version. -/
theorem AllVersions.step
    (zero : p 0) (all : control.AllVersions p) {event : ControlEvent}
    (begins : ∀ request req, event = .beginUpdate request req →
      p req.targetVersion)
    (stepped : control.step event = some next) : next.AllVersions p := by
  cases stepped_of_step stepped with
  | pool poolStepped =>
      exact all.of_poolStepped zero poolStepped
  | generate generateStepped =>
      exact all.of_generateStepped generateStepped
  | update updateStepped =>
      exact all.of_updateStepped begins updateStepped
  | sleep sleepStepped =>
      cases sleepStepped <;>
        exact all.of_handler rfl trivial rfl rfl rfl rfl

/-! ## What a step does to the updates -/

/-- The pool's version and the server's. -/
def BothAt (control : Controller) (version : Int) : Prop :=
  control.pool.weightVersion = version ∧ control.weightVersion = version

/-- The two versions while an update stands there, which were `before` when it
began. -/
def Stands (control : Controller) (before : Int) : Handler → Prop
  | .updateBegun _ | .updating .. | .updated _ (some _) =>
      control.BothAt before
  | .updated req none =>
      control.pool.weightVersion = req.targetVersion ∧
        control.weightVersion = before
  | .published req => control.BothAt req.targetVersion
  | _ => True

theorem BothAt.of_same {version : Int} (both : control.BothAt version)
    (pool : next.pool.weightVersion = control.pool.weightVersion)
    (server : next.weightVersion = control.weightVersion) :
    next.BothAt version :=
  ⟨pool.trans both.1, server.trans both.2⟩

theorem Stands.of_same {before : Int} {handler : Handler}
    (stands : control.Stands before handler)
    (pool : next.pool.weightVersion = control.pool.weightVersion)
    (server : next.weightVersion = control.weightVersion) :
    next.Stands before handler := by
  unfold Stands BothAt at *
  rw [pool, server]
  exact stands

/-- Everything that a step can do to the updates in progress. -/
inductive UpdateEffect (control : Controller) :
    ControlEvent → Controller → Prop
  | aside {event : ControlEvent} {next : Controller}
      (between : event.boundsUpdate = false)
      (updates : ∀ request handler, handler.Updates →
        (next.requests.get? request = some handler ↔
          control.requests.get? request = some handler))
      (pool : next.pool.weightVersion = control.pool.weightVersion)
      (server : next.weightVersion = control.weightVersion) :
      UpdateEffect control event next
  | begins {request : Nat} {req : WeightUpdateRequest} {next : Controller}
      (fresh : control.requests.get? request = none)
      (requests : next.requests =
        control.requests.insert request (.updateBegun req))
      (pool : next.pool.weightVersion = control.pool.weightVersion)
      (server : next.weightVersion = control.weightVersion) :
      UpdateEffect control (.beginUpdate request req) next
  | advances {event : ControlEvent} {next : Controller} {request : Nat}
      {old handler : Handler} {req : WeightUpdateRequest}
      (between : event.boundsUpdate = false)
      (found : control.requests.get? request = some old)
      (works : old.updateRequest? = some req)
      (requests : next.requests = control.requests.insert request handler)
      (same : handler.updateRequest? = some req)
      (stands : ∀ before, control.Stands before old →
        next.Stands before handler) :
      UpdateEffect control event next
  | ends {request : Nat} {handler : Handler} {next : Controller}
      (found : control.requests.get? request = some handler)
      (exits : (∃ req, handler = .published req) ∨
        ∃ req error, handler = .updated req (some error))
      (requests : next.requests = control.requests.insert request .finished)
      (pool : next.pool.weightVersion = control.pool.weightVersion)
      (server : next.weightVersion = control.weightVersion) :
      UpdateEffect control (.endUpdate request) next

/-- A step of a request that neither was an update nor becomes one. -/
theorem updates_insert_iff
    {request : Nat} {handler : Handler}
    (before : ∀ old, control.requests.get? request = some old →
      ¬ old.Updates)
    (after : ¬ handler.Updates) (other : Nat) (found : Handler)
    (updates : found.Updates) :
    (control.requests.insert request handler).get? other = some found ↔
      control.requests.get? other = some found := by
  rw [OrderedDict.get?_insert]
  split
  · next same =>
      subst same
      constructor
      · intro new
        cases new
        exact absurd updates after
      · intro old
        exact absurd updates (before found old)
  · rfl

theorem updateEffect_of_step
    {event : ControlEvent} (guarded : control.Guarded)
    (stepped : control.step event = some next) :
    UpdateEffect control event next := by
  cases stepped_of_step stepped with
  | pool poolStepped =>
      obtain ⟨requests, server, pool, _⟩ := poolStepped.frame
      refine .aside (by cases poolStepped <;> rfl) ?_ pool server
      intro request handler _
      rw [requests]
  | generate generateStepped =>
      obtain ⟨request, handler, requests, before, generates, server, pool,
        _⟩ := generateStepped.frame
      refine .aside (by cases generateStepped <;> rfl) ?_ (by rw [pool])
        server
      rw [requests]
      exact updates_insert_iff
        (fun old found => (before old found).not_updates)
        generates.not_updates
  | sleep sleepStepped =>
      obtain ⟨request, handler, requests, before, without, server, pool⟩ :=
        sleepStepped.handler
      refine .aside (by cases sleepStepped <;> rfl) ?_ (by rw [pool]) server
      rw [requests]
      exact updates_insert_iff before without
  | update updateStepped =>
      cases updateStepped with
      | begun request req unlocked fresh =>
          exact .begins fresh rfl rfl rfl
      | lockedPool request worlds req unlocked begun =>
          exact .advances rfl begun rfl rfl rfl fun _ stands => stands
      | returned request req before record remaining version error
          updating =>
          exact .advances rfl updating rfl rfl rfl fun _ stands => stands
      | unlockedPool request req returned version error updating =>
          refine .advances rfl updating rfl rfl rfl ?_
          rintro before ⟨pool, server⟩
          rcases guarded.leaves updating with ⟨fails, kept⟩ | ⟨rfl, raised⟩
          · cases error with
            | none =>
                exact absurd rfl fails
            | some text =>
                exact ⟨kept.trans pool, server⟩
          · exact ⟨raised, server⟩
      | published request req updated =>
          exact .advances rfl updated rfl rfl rfl
            fun _ stands => ⟨stands.1, rfl⟩
      | ended request handler found exits unlocked =>
          exact .ends found exits rfl rfl rfl

/-- An update in progress has just begun, or was in progress before. -/
theorem UpdateEffect.updateRequest
    {event : ControlEvent} (effect : UpdateEffect control event next)
    {request : Nat} {handler : Handler} {req : WeightUpdateRequest}
    (found : next.requests.get? request = some handler)
    (works : handler.updateRequest? = some req) :
    event = .beginUpdate request req ∨
      ∃ old, control.requests.get? request = some old ∧
        old.updateRequest? = some req := by
  cases effect with
  | aside between updates pool server =>
      have present := (updates request handler
        (handler.updates_iff.mpr ⟨req, works⟩)).mp found
      exact .inr ⟨handler, present, works⟩
  | begins fresh requests pool server =>
      rw [requests] at found
      rcases OrderedDict.get?_of_get?_insert found with ⟨rfl, rfl⟩ | before
      · cases works
        exact .inl rfl
      · exact .inr ⟨handler, before, works⟩
  | advances between present worked requests same stands =>
      rw [requests] at found
      rcases OrderedDict.get?_of_get?_insert found with ⟨rfl, rfl⟩ | before
      · exact .inr ⟨_, present, worked.trans (same.symm.trans works)⟩
      · exact .inr ⟨handler, before, works⟩
  | ends present exits requests pool server =>
      rw [requests] at found
      rcases OrderedDict.get?_of_get?_insert found with ⟨rfl, rfl⟩ | before
      · cases works
      · exact .inr ⟨handler, before, works⟩

/-- Without an update in progress, the versions stay and none comes to be. -/
theorem UpdateEffect.quiet
    {event : ControlEvent} (effect : UpdateEffect control event next)
    (between : event.boundsUpdate = false) (quiet : control.NoUpdate) :
    next.NoUpdate ∧
      ∀ version, control.BothAt version → next.BothAt version := by
  cases effect with
  | aside _ updates pool server =>
      refine ⟨?_, fun version both => both.of_same pool server⟩
      intro request handler found works
      exact quiet request handler ((updates request handler works).mp found)
        works
  | begins => cases between
  | ends => cases between
  | advances _ found works =>
      exact absurd (Handler.updates_iff _ |>.mpr ⟨_, works⟩)
        (quiet _ _ found)

/-- The only update in progress goes on by itself. -/
theorem UpdateEffect.handled
    {event : ControlEvent} (effect : UpdateEffect control event next)
    (between : event.boundsUpdate = false) {number : Nat}
    {handler : Handler} {req : WeightUpdateRequest} {before : Int}
    (found : control.requests.get? number = some handler)
    (works : handler.updateRequest? = some req)
    (alone : ∀ other found, control.requests.get? other = some found →
      found.Updates → other = number)
    (stands : control.Stands before handler) :
    ∃ after, next.requests.get? number = some after ∧
      after.updateRequest? = some req ∧ next.Stands before after ∧
      ∀ other found, next.requests.get? other = some found →
        found.Updates → other = number := by
  cases effect with
  | aside _ updates pool server =>
      refine ⟨handler, ?_, works, stands.of_same pool server, ?_⟩
      · exact (updates number handler
          (handler.updates_iff.mpr ⟨req, works⟩)).mpr found
      · intro other present isPresent working
        exact alone other present
          ((updates other present working).mp isPresent) working
  | begins => cases between
  | ends => cases between
  | @advances _ _ request old new newReq _ oldFound oldWorks requests same
      moves =>
      have here : request = number :=
        alone request old oldFound (old.updates_iff.mpr ⟨newReq, oldWorks⟩)
      subst here
      rw [oldFound, Option.some.injEq] at found
      subst found
      refine ⟨new, ?_, same.trans (oldWorks.symm.trans works),
        moves before stands, ?_⟩
      · rw [requests, OrderedDict.get?_insert_self]
      · intro other present isPresent working
        rw [requests] at isPresent
        rcases OrderedDict.get?_of_get?_insert isPresent with
          ⟨rfl, _⟩ | earlier
        · rfl
        · exact alone other present earlier working

/-- It ends with both versions at the one that it was to, or both where they
were. -/
theorem UpdateEffect.ended
    {number request : Nat}
    (effect : UpdateEffect control (.endUpdate request) next)
    {handler : Handler} {req : WeightUpdateRequest} {before : Int}
    (found : control.requests.get? number = some handler)
    (works : handler.updateRequest? = some req)
    (alone : ∀ other found, control.requests.get? other = some found →
      found.Updates → other = number)
    (stands : control.Stands before handler) :
    request = number ∧ next.NoUpdate ∧
      next.BothAt
        (if handler.isPublished then req.targetVersion else before) := by
  cases effect with
  | aside between => cases between
  | advances between => cases between
  | @ends _ last _ lastFound exits requests pool server =>
      have updates : last.Updates := by
        rcases exits with ⟨_, rfl⟩ | ⟨_, _, rfl⟩ <;> trivial
      have here : request = number := alone request last lastFound updates
      subst here
      rw [lastFound, Option.some.injEq] at found
      subst found
      refine ⟨rfl, ?_, ?_⟩
      · intro other present isPresent working
        rw [requests] at isPresent
        rcases OrderedDict.get?_of_get?_insert isPresent with
          ⟨_, rfl⟩ | earlier
        · exact working
        · have same := alone other present earlier working
          subst same
          rw [OrderedDict.get?_insert_self] at isPresent
          cases isPresent
          exact working
      · rcases exits with ⟨published, rfl⟩ | ⟨failed, error, rfl⟩
        · cases works
          exact BothAt.of_same stands pool server
        · exact BothAt.of_same stands pool server

/-! ## Versions that only rise -/

/-- No engine and no response has gone back to a lower version, and the update
in progress is to the highest. -/
structure Climbing (control : Controller) : Prop where
  engines : ∀ engine, (control.engine engine).versions.Pairwise (· ≤ ·)
  responses : control.responses.Pairwise fun newer older =>
    older.weightVersion ≤ newer.weightVersion
  labels : ∀ response ∈ control.responses,
    response.weightVersion ≤ control.weightVersion
  highest : ∀ request handler req,
    control.requests.get? request = some handler →
      handler.updateRequest? = some req →
        0 ≤ req.targetVersion ∧
          control.AllVersions (· ≤ req.targetVersion)

/-- An update begins when no other is in progress, and to a version as high as
any. -/
def BeginsHighest (control : Controller) : ControlEvent → Prop
  | .beginUpdate _ req =>
      control.NoUpdate ∧ 0 ≤ req.targetVersion ∧
        control.AllVersions (· ≤ req.targetVersion)
  | _ => True

theorem climbing_init : init.Climbing where
  engines := fun engine => List.pairwise_singleton _ _
  responses := List.Pairwise.nil
  labels := fun _ member => absurd member List.not_mem_nil
  highest := by
    intro request handler req found
    cases found

theorem Climbing.highest_step
    {event : ControlEvent} (climbing : control.Climbing)
    (guarded : control.Guarded) (begins : control.BeginsHighest event)
    (stepped : control.step event = some next) (request : Nat)
    (handler : Handler) (req : WeightUpdateRequest)
    (found : next.requests.get? request = some handler)
    (works : handler.updateRequest? = some req) :
    0 ≤ req.targetVersion ∧ next.AllVersions (· ≤ req.targetVersion) := by
  have effect := updateEffect_of_step guarded stepped
  rcases effect.updateRequest found works with rfl | ⟨old, before, worked⟩
  · obtain ⟨_, positive, all⟩ := begins
    refine ⟨positive, all.step positive ?_ stepped⟩
    intro other otherReq same
    cases same
    exact le_refl _
  · obtain ⟨positive, all⟩ :=
      climbing.highest request old req before worked
    refine ⟨positive, all.step positive ?_ stepped⟩
    intro other otherReq same
    subst same
    exact absurd (old.updates_iff.mpr ⟨req, worked⟩)
      (begins.1 request old before)

/-- An update adds the version it is to, which no version is above. -/
theorem Climbing.engines_step
    {event : ControlEvent} (climbing : control.Climbing)
    (guarded : control.Guarded)
    (stepped : control.step event = some next) (engine : Nat) :
    (next.engine engine).versions.Pairwise (· ≤ ·) := by
  have kept := climbing.engines engine
  cases stepped_of_step stepped with
  | pool poolStepped =>
      cases poolStepped with
      | added id address unlocked =>
          dsimp only
          rw [Function.update_apply]
          split
          · exact List.pairwise_singleton _ _
          · exact kept
      | checked checked healthy known unlocked =>
          dsimp only
          rw [Function.update_apply]
          split
          · next same =>
              subst same
              rw [Engine.checked]
              split <;> exact kept
          · exact kept
      | removed | initialised =>
          exact kept
  | generate generateStepped =>
      cases generateStepped <;> exact kept
  | sleep sleepStepped =>
      cases sleepStepped <;> exact kept
  | update updateStepped =>
      cases updateStepped with
      | returned request req before record remaining version error
          updating =>
          obtain ⟨world, calls, _⟩ :=
            guarded.running request req before _ version error updating
          have member :
              record ∈ (control.pool.updateWeights world req).calls := by
            rw [← calls]
            exact List.mem_append_right before (List.mem_cons_self ..)
          have own := (EnginePool.updates_of_mem_calls member).2
          have top := (climbing.highest request _ req updating rfl).2.engines
          dsimp only
          rw [versions_deliver]
          split
          · refine List.pairwise_append.mpr ⟨kept, ?_, ?_⟩
            · cases delivered record <;> simp
            · intro older isOlder newer isNewer
              rw [target_of_delivered own (Option.mem_toList.mp isNewer)]
              exact top engine older isOlder
          · exact kept
      | _ =>
          exact kept

/-- A response is labelled with the server's version, which only rises. -/
theorem Climbing.labels_step
    {event : ControlEvent} (climbing : control.Climbing)
    (stepped : control.step event = some next) :
    (next.responses.Pairwise fun newer older =>
        older.weightVersion ≤ newer.weightVersion) ∧
      ∀ response ∈ next.responses,
        response.weightVersion ≤ next.weightVersion := by
  have kept := And.intro climbing.responses climbing.labels
  cases stepped_of_step stepped with
  | pool poolStepped =>
      cases poolStepped <;> exact kept
  | sleep sleepStepped =>
      cases sleepStepped <;> exact kept
  | generate generateStepped =>
      cases generateStepped with
      | labelled request id engine held completed =>
          refine ⟨List.pairwise_cons.mpr ⟨climbing.labels, kept.1⟩, ?_⟩
          intro response member
          rcases List.mem_cons.mp member with rfl | older
          · exact le_refl _
          · exact climbing.labels response older
      | _ =>
          exact kept
  | update updateStepped =>
      cases updateStepped with
      | published request req updated =>
          have top :=
            (climbing.highest request _ req updated rfl).2.responses
          exact ⟨kept.1, fun response member => (top response member).1⟩
      | _ =>
          exact kept

theorem Climbing.step
    {event : ControlEvent} (climbing : control.Climbing)
    (guarded : control.Guarded) (begins : control.BeginsHighest event)
    (stepped : control.step event = some next) : next.Climbing where
  engines := climbing.engines_step guarded stepped
  responses := (climbing.labels_step stepped).1
  labels := (climbing.labels_step stepped).2
  highest := climbing.highest_step guarded begins stepped

end Controller

end LlmDRl.Rollout
