import LlmDRl.Checkpoint.Rendezvous
import LlmDRl.Discovery.PodWatcher

/-!
# Pods, the pool and the trainer

The informer's handler calls back into the pool while requests of the trainer
go on.  The handler returns after its callbacks, and only then the informer
hands over the next event.  As long as the trainer does not renew it, a group of
trainer and engines lasts as long as the events say nothing new.
-/

namespace LlmDRl.Discovery

open LlmDRl.Library
open LlmDRl.Pool
open LlmDRl.Checkpoint

/-! ## The deployment -/

/-- `pending` are the callbacks that the handler has still to make, `reported`
the events that the informer has handed over. -/
structure Deployment where
  sync : Sync
  watcher : PodWatcher
  pending : List Callback
  reported : List Event

inductive DeploymentEvent where
  | informs (event : Event)
  | callsBack
  /-- A step of the trainer, of its requests or of the controller. -/
  | syncs (event : SyncEvent)

/-- How a callback arrives at the pool. -/
def Callback.event : Callback → SyncEvent
  | .onReady id address => .addEngine id address
  | .onGone id => .removeEngine id

/-- Engines are only added and removed by the watcher. -/
def changesEngines : SyncEvent → Bool
  | .addEngine _ _ | .removeEngine _ => true
  | _ => false

def DeploymentEvent.renews : DeploymentEvent → Bool
  | .syncs event => event.renews
  | _ => false

namespace Deployment

def init (port : Int) : Deployment := ⟨.init, ⟨port, .empty⟩, [], []⟩

def pool (deployment : Deployment) : EnginePool :=
  deployment.sync.history.pool

def step (deployment : Deployment) : DeploymentEvent → Option Deployment
  | .informs event =>
      if deployment.pending = [] then
        let handled := deployment.watcher.handle event
        some
          { deployment with
            watcher := handled.1
            pending := handled.2
            reported := deployment.reported ++ [event] }
      else
        none
  | .callsBack =>
      match deployment.pending with
      | [] => none
      | callback :: rest =>
          (deployment.sync.step callback.event).map fun sync =>
            { deployment with sync := sync, pending := rest }
  | .syncs event =>
      if changesEngines event then
        none
      else
        (deployment.sync.step event).map fun sync =>
          { deployment with sync := sync }

def Orderly (deployment : Deployment) : DeploymentEvent → Prop
  | .syncs event => deployment.sync.Orderly event
  | _ => True

end Deployment

/-! ## What is reported -/

/-- Where a pod is, after what has been reported of it. -/
def reportedAddress (port : Int) (events : List Event) (id : String) :
    Option String :=
  (lastReported events id).bind (readyAddress port)

/-- Whatever has been reported since, no pod was ever said to be elsewhere. -/
def SameSince (port : Int) (past now : List Event) : Prop :=
  ∀ seen, past <+: seen → seen <+: now → ∀ id,
    reportedAddress port seen id = reportedAddress port past id

theorem sameSince_refl (port : Int) (past : List Event) :
    SameSince port past past := by
  intro seen least most id
  rw [least.eq_of_length_le most.length_le]

theorem sameSince_append_iff {port : Int} {past now : List Event}
    (later : past <+: now) (event : Event) :
    SameSince port past (now ++ [event]) ↔
      SameSince port past now ∧
        ∀ id, reportedAddress port (now ++ [event]) id =
          reportedAddress port now id := by
  have laterStill : past <+: now ++ [event] :=
    later.trans (List.prefix_append ..)
  constructor
  · intro same
    have before : SameSince port past now := by
      intro seen least most
      exact same seen least (most.trans (List.prefix_append ..))
    refine ⟨before, ?_⟩
    intro id
    rw [same _ laterStill (List.prefix_refl _),
      before _ later (List.prefix_refl _)]
  · rintro ⟨before, same⟩ seen least most id
    rcases List.prefix_concat_iff.mp most with rfl | short
    · rw [same, before _ later (List.prefix_refl _)]
    · exact before seen least short id

theorem reportedAddress_append (port : Int) (events : List Event)
    (event : Event) (id : String) :
    reportedAddress port (events ++ [event]) id =
      if event.subject = some id then
        event.reports.bind (readyAddress port)
      else
        reportedAddress port events id := by
  rw [reportedAddress, lastReported_append]
  split
  · rfl
  · rfl

/-- The watcher has nothing to say exactly if nothing new is reported. -/
theorem callbacks_eq_nil_iff {port : Int} {watcher : PodWatcher}
    {events : List Event} (samePort : watcher.port = port)
    (registered : ∀ id,
      watcher.registered.get? id = reportedAddress port events id)
    (event : Event) :
    (watcher.handle event).2 = [] ↔
      ∀ id, reportedAddress port (events ++ [event]) id =
        reportedAddress port events id := by
  rw [(handled watcher event).callbacks, samePort]
  simp only [reportedAddress_append]
  cases subject : event.subject with
  | none => simp
  | some uid =>
      simp only [transition_eq_nil_iff, Option.some.injEq, registered uid]
      constructor
      · intro same id
        split
        · next mine =>
            rw [← mine, same]
        · rfl
      · intro same
        have mine := same uid
        rw [if_pos rfl] at mine
        exact mine.symm

/-! ## What a step leaves alone -/

/-- The callbacks that are still to come see only the engines. -/
theorem engines_foldl_congr {pool other : EnginePool}
    (same : pool.engines = other.engines) (callbacks : List Callback) :
    (callbacks.foldl applyCallback pool).engines =
      (callbacks.foldl applyCallback other).engines := by
  induction callbacks generalizing pool other with
  | nil => exact same
  | cons callback rest inductionHypothesis =>
      apply inductionHypothesis
      cases callback with
      | onReady id address =>
          exact congrArg (fun dict => dict.insert id address) same
      | onGone id => exact congrArg (fun dict => dict.erase id) same

theorem engines_of_initialised {before after : PoolHistory}
    {worlds : ∀ engines, InitWorld engines}
    (ran : before.step (.initWeightTransfer worlds) = some after) :
    after.pool.engines = before.pool.engines := by
  cases ran
  exact EnginePool.engines_initWeightTransfer _

theorem engines_of_step {sync next : Sync} {event : SyncEvent}
    (keeps : changesEngines event = false)
    (stepped : sync.step event = some next) :
    next.history.pool.engines = sync.history.pool.engines := by
  cases Sync.stepped_of_step stepped with
  | added | removed => cases keeps
  | counted | lost | failed | returned | gaveUp | finalized => rfl
  | initialised worlds history listens ran =>
      exact engines_of_initialised ran
  | initialisedLate worldSize worlds history orphan ran =>
      exact engines_of_initialised ran
  | updated worlds req history resting ran =>
      cases ran
      exact (sync.history.pool.updateWeights_pool _ req).1

/-- A trainer that keeps its group does nothing to the flag. -/
theorem flag_of_step {sync next : Sync} {event : SyncEvent}
    (settled : sync.Settled) (keeps : changesEngines event = false)
    (same : event.renews = false) (stepped : sync.step event = some next) :
    next.history.pool.transferInited = sync.history.pool.transferInited := by
  cases settled.poolStepped same stepped with
  | added | removed => cases keeps
  | updated worlds req history ran =>
      cases ran
      exact (sync.history.pool.updateWeights_pool _ req).2

theorem unset_of_callback {sync next : Sync} {callback : Callback}
    (stepped : sync.step callback.event = some next) :
    next.history.pool.transferInited = false ∧
      next.history.pool = applyCallback sync.history.pool callback := by
  cases callback with
  | onReady id address =>
      cases stepped
      exact ⟨rfl, rfl⟩
  | onGone id =>
      cases stepped
      exact ⟨rfl, rfl⟩

theorem renews_event (callback : Callback) :
    callback.event.renews = false := by
  cases callback with
  | onReady | onGone => rfl

/-! ## Whole runs -/

namespace Deployment

/-- The pool holds what has been reported, up to the pending callbacks. -/
structure Sound (port : Int) (deployment : Deployment) : Prop where
  sync : deployment.sync.Sound
  samePort : deployment.watcher.port = port
  registered : ∀ id, deployment.watcher.registered.get? id =
    reportedAddress port deployment.reported id
  engines : ∀ id,
    (deployment.pending.foldl applyCallback deployment.pool).engines.get? id =
      deployment.watcher.registered.get? id

theorem sound_init (port : Int) : (init port).Sound port where
  sync := Sync.sound_init
  samePort := rfl
  registered _ := rfl
  engines _ := rfl

variable {port : Int} {deployment next : Deployment}

/-! The three kinds of steps. -/

theorem of_informs {event : Event}
    (stepped : deployment.step (.informs event) = some next) :
    deployment.pending = [] ∧
      next =
        { deployment with
          watcher := (deployment.watcher.handle event).1
          pending := (deployment.watcher.handle event).2
          reported := deployment.reported ++ [event] } := by
  rw [Deployment.step] at stepped
  split at stepped
  · next settled => exact ⟨settled, (Option.some.inj stepped).symm⟩
  · cases stepped

theorem of_callsBack (stepped : deployment.step .callsBack = some next) :
    ∃ callback rest sync, deployment.pending = callback :: rest ∧
      deployment.sync.step callback.event = some sync ∧
        next = { deployment with sync := sync, pending := rest } := by
  rw [Deployment.step] at stepped
  split at stepped
  · cases stepped
  · next callback rest pending =>
      obtain ⟨sync, called, same⟩ := Option.map_eq_some_iff.mp stepped
      exact ⟨callback, rest, sync, pending, called, same.symm⟩

theorem of_syncs {event : SyncEvent}
    (stepped : deployment.step (.syncs event) = some next) :
    changesEngines event = false ∧
      ∃ sync, deployment.sync.step event = some sync ∧
        next = { deployment with sync := sync } := by
  rw [Deployment.step] at stepped
  split at stepped
  · cases stepped
  · next keeps =>
      obtain ⟨sync, called, same⟩ := Option.map_eq_some_iff.mp stepped
      exact ⟨Bool.eq_false_of_not_eq_true keeps, sync, called, same.symm⟩

theorem Sound.informs (sound : deployment.Sound port) {event : Event}
    (stepped : deployment.step (.informs event) = some next) :
    next.Sound port := by
  obtain ⟨settled, rfl⟩ := of_informs stepped
  have result := handled deployment.watcher event
  have engines := sound.engines
  simp only [settled, List.foldl_nil] at engines
  have addresses : ∀ id,
      (deployment.watcher.handle event).1.registered.get? id =
        if event.subject = some id then
          event.reports.bind (readyAddress port)
        else deployment.watcher.registered.get? id := by
    intro id
    rw [result.registered, sound.samePort]
  refine ⟨sound.sync, result.port.trans sound.samePort, ?_, ?_⟩
  · intro id
    change (deployment.watcher.handle event).1.registered.get? id = _
    rw [addresses, reportedAddress_append, sound.registered]
  · intro id
    change ((deployment.watcher.handle event).2.foldl applyCallback
        deployment.pool).engines.get? id =
      (deployment.watcher.handle event).1.registered.get? id
    rw [result.callbacks, addresses, sound.samePort]
    cases subject : event.subject with
    | none => exact engines id
    | some uid =>
        dsimp only
        rw [engines_foldl_transition (engines uid), ← engines id]
        simp only [Option.some.injEq, eq_comm]

theorem Sound.callsBack (sound : deployment.Sound port)
    (stepped : deployment.step .callsBack = some next) :
    next.Sound port := by
  obtain ⟨callback, rest, sync, pending, called, rfl⟩ := of_callsBack stepped
  have kept : sync.Sound := by
    refine sound.sync.step ?_ called
    cases callback <;> exact ⟨trivial, trivial⟩
  have applied := (unset_of_callback called).2
  refine ⟨kept, sound.samePort, sound.registered, ?_⟩
  intro id
  have engines := sound.engines id
  rw [pending, List.foldl_cons] at engines
  rw [← engines, pool, pool, applied]

theorem Sound.syncs (sound : deployment.Sound port) {event : SyncEvent}
    (orderly : deployment.sync.Orderly event)
    (stepped : deployment.step (.syncs event) = some next) :
    next.Sound port := by
  obtain ⟨keeps, sync, called, rfl⟩ := of_syncs stepped
  have same := engines_of_step keeps called
  refine ⟨sound.sync.step orderly called, sound.samePort,
    sound.registered, ?_⟩
  intro id
  rw [← sound.engines id, pool, pool, engines_foldl_congr same]

theorem Sound.step (sound : deployment.Sound port) {event : DeploymentEvent}
    (orderly : deployment.Orderly event)
    (stepped : deployment.step event = some next) : next.Sound port := by
  cases event with
  | informs event => exact sound.informs stepped
  | callsBack => exact sound.callsBack stepped
  | syncs event => exact sound.syncs orderly stepped

/-! ## How long a group lasts -/

/-- What has become of the group of a trainer that matched what was reported in
`past`. -/
structure Since (port : Int) (past : List Event)
    (trainer : CheckpointEngine) (deployment : Deployment) : Prop where
  later : past <+: deployment.reported
  settled : deployment.sync.Settled
  trainer : deployment.sync.trainer = trainer
  outcome :
    SameSince port past deployment.reported ∧ deployment.pending = [] ∧
        deployment.pool.transferInited = true ∨
      ¬ SameSince port past deployment.reported ∧
        (deployment.pending ≠ [] ∨ deployment.pool.transferInited = false)

variable {past : List Event} {trainer : CheckpointEngine}

theorem Since.informs (since : deployment.Since port past trainer)
    (sound : deployment.Sound port) {event : Event}
    (stepped : deployment.step (.informs event) = some next) :
    next.Since port past trainer := by
  obtain ⟨idle, rfl⟩ := of_informs stepped
  have grown := @sameSince_append_iff port _ _ since.later event
  refine ⟨since.later.trans (List.prefix_append ..), since.settled,
    since.trainer, ?_⟩
  rcases since.outcome with ⟨same, -, set⟩ | ⟨changed, busy | unset⟩
  · have silent :=
      callbacks_eq_nil_iff sound.samePort sound.registered event
    by_cases news : (deployment.watcher.handle event).2 = []
    · exact .inl ⟨grown.mpr ⟨same, silent.mp news⟩, news, set⟩
    · refine .inr ⟨?_, .inl news⟩
      intro still
      exact news (silent.mpr (grown.mp still).2)
  · exact absurd idle busy
  · exact .inr ⟨fun still => changed (grown.mp still).1, .inr unset⟩

theorem Since.callsBack (since : deployment.Since port past trainer)
    (stepped : deployment.step .callsBack = some next) :
    next.Since port past trainer := by
  obtain ⟨callback, rest, sync, pending, called, rfl⟩ := of_callsBack stepped
  have poolStepped :=
    since.settled.poolStepped (renews_event callback) called
  refine ⟨since.later, poolStepped.settled since.settled,
    poolStepped.rest.1.trans since.trainer, ?_⟩
  rcases since.outcome with ⟨-, idle, -⟩ | ⟨changed, -⟩
  · rw [idle] at pending
    cases pending
  · exact .inr ⟨changed, .inr (unset_of_callback called).1⟩

theorem Since.syncs (since : deployment.Since port past trainer)
    {event : SyncEvent} (same : event.renews = false)
    (stepped : deployment.step (.syncs event) = some next) :
    next.Since port past trainer := by
  obtain ⟨keeps, sync, called, rfl⟩ := of_syncs stepped
  have poolStepped := since.settled.poolStepped same called
  have flag := flag_of_step since.settled keeps same called
  refine ⟨since.later, poolStepped.settled since.settled,
    poolStepped.rest.1.trans since.trainer, ?_⟩
  rw [pool, flag]
  exact since.outcome

theorem Since.step (since : deployment.Since port past trainer)
    (sound : deployment.Sound port) {event : DeploymentEvent}
    (same : event.renews = false)
    (stepped : deployment.step event = some next) :
    next.Since port past trainer := by
  cases event with
  | informs event => exact since.informs sound stepped
  | callsBack => exact since.callsBack stepped
  | syncs event => exact since.syncs same stepped

/-- A trainer that keeps its group does not start another rendezvous. -/
theorem orderly_of_settled (settled : deployment.sync.Settled)
    {event : DeploymentEvent} (same : event.renews = false)
    (stepped : deployment.step event = some next) :
    deployment.Orderly event := by
  cases event with
  | informs | callsBack => trivial
  | syncs event =>
      obtain ⟨-, sync, called, -⟩ := of_syncs stepped
      cases settled.poolStepped same called with
      | added | removed | updated => exact ⟨trivial, trivial⟩

/-- A group that has been left stays left. -/
theorem outdated_of_step (left : deployment.sync.Outdated)
    {event : DeploymentEvent} (same : event.renews = false)
    (stepped : deployment.step event = some next) : next.sync.Outdated := by
  cases event with
  | informs event =>
      obtain ⟨-, rfl⟩ := of_informs stepped
      exact left
  | callsBack =>
      obtain ⟨callback, _, sync, -, called, rfl⟩ := of_callsBack stepped
      exact (left.step (renews_event callback) called).1
  | syncs event =>
      obtain ⟨-, sync, called, rfl⟩ := of_syncs stepped
      exact (left.step same called).1

variable {ready later : Deployment} {events more : List DeploymentEvent}

theorem sound_of_run (ran : run step (init port) events = some ready)
    (orderly : StepsMeet step Orderly (init port) events) :
    ready.Sound port :=
  run_invariant_of_stepsMeet
    (fun _ _ _ sound orderly stepped => sound.step orderly stepped)
    (sound_init port) orderly ran

/-- A group that matches what the informer has reported lasts exactly until it
reports something else, and then no update calls an engine any more, as long as
the trainer does not renew it; up to then an update that does so finds all
reported pods in the trainer's group. -/
theorem group_lasts_iff (ran : run step (init port) events = some ready)
    (orderly : StepsMeet step Orderly (init port) events) {group : Group}
    (formed : ready.pool.transferInited = true)
    (holds : ready.sync.trainer.pynccl = some group)
    (resting : ready.sync.trainer.stage = .idle) (idle : ready.pending = [])
    (keep : ∀ event ∈ more, event.renews = false)
    (continued : run step ready more = some later)
    (drained : later.pending = []) :
    (later.pool.transferInited = true ↔
        SameSince port ready.reported later.reported) ∧
      (later.pool.transferInited = true →
        (∀ id, later.pool.engines.get? id =
            reportedAddress port ready.reported id) ∧
          GroupJoined later.pool.engines.keys later.sync.history.log ∧
          later.sync.trainer.pynccl = some group ∧
          (later.pool.engines.keys ≠ [] →
            group = ⟨later.sync.reached,
              later.pool.engines.keys.length + 1⟩)) ∧
      (¬ SameSince port ready.reported later.reported →
        ∀ rest last, (∀ event ∈ rest, event.renews = false) →
          run step later rest = some last →
            ∀ (worlds : ∀ engines, World engines) req,
              (last.pool.updateWeights (worlds _) req).calls = []) := by
  have sound := sound_of_run ran orderly
  have initialized : ready.sync.trainer.initialized = true := by
    apply sound.sync.owned
    rw [holds]
    exact nofun
  have start : ready.Sound port ∧
      ready.Since port ready.reported ready.sync.trainer :=
    ⟨sound, List.prefix_refl _, ⟨resting, initialized, sound.sync.alone⟩, rfl,
      .inl ⟨sameSince_refl port ready.reported, idle, formed⟩⟩
  have kept : ∀ (before : Deployment) (event : DeploymentEvent)
      (after : Deployment),
      before.Sound port ∧
          before.Since port ready.reported ready.sync.trainer →
        event.renews = false → before.step event = some after →
          after.Sound port ∧
            after.Since port ready.reported ready.sync.trainer := by
    rintro before event after ⟨sound, since⟩ same stepped
    have orderly := orderly_of_settled since.settled same stepped
    exact ⟨sound.step orderly stepped, since.step sound same stepped⟩
  obtain ⟨laterSound, since⟩ :=
    run_invariant_of_stepsMeet kept start
      (stepsMeet_of_forall (fun event member _ => keep event member) ready)
      continued
  have lasts : later.pool.transferInited = true ↔
      SameSince port ready.reported later.reported := by
    rcases since.outcome with ⟨same, -, set⟩ | ⟨changed, busy | unset⟩
    · exact iff_of_true set same
    · exact absurd drained busy
    · refine iff_of_false ?_ changed
      rw [unset]
      exact Bool.false_ne_true
  refine ⟨lasts, ?_, ?_⟩
  · intro set
    have pynccl : later.sync.trainer.pynccl = some group := by
      rw [since.trainer, holds]
    refine ⟨?_, laterSound.sync.honest set, pynccl, fun nonempty => ?_⟩
    · intro id
      have engines := laterSound.engines id
      rw [drained, List.foldl_nil] at engines
      rw [engines, laterSound.registered]
      exact lasts.mp set _ since.later (List.prefix_refl _) id
    · have matched := laterSound.sync.matched set nonempty
      rw [Sync.matched_of_waiting (.inl since.settled.resting), pynccl]
        at matched
      exact Option.some.inj (matched.resolve_left nofun)
  · intro changed rest last same afterwards worlds req
    rcases since.outcome with ⟨still, -⟩ | ⟨-, busy | unset⟩
    · exact absurd still changed
    · exact absurd drained busy
    · have left : last.sync.Outdated :=
        run_invariant_of_stepsMeet
          (fun _ _ _ left same stepped => outdated_of_step left same stepped)
          ⟨since.settled, unset⟩
          (stepsMeet_of_forall (fun event member _ => same event member)
            later) afterwards
      exact EnginePool.updateWeights_calls_of_not_inited _ req left.unset

/-! ## One pod -/

def podOf (conditions : List PodCondition) : Pod :=
  ⟨"a", "10.0.0.1", conditions⟩

def formingOfOne : List DeploymentEvent :=
  [.informs (.added (.pod (podOf [⟨"Ready", "True"⟩]))), .callsBack] ++
    (Sync.rendezvous .managerInit).map .syncs

theorem orderly_formingOfOne :
    StepsMeet step Orderly (init 8000) formingOfOne := by
  refine ⟨trivial, fun _ stepped => ?_⟩
  cases stepped
  refine ⟨trivial, fun _ stepped => ?_⟩
  cases stepped
  refine ⟨⟨trivial, trivial⟩, fun _ stepped => ?_⟩
  cases stepped
  refine ⟨⟨?_, fun failed => ?_⟩, fun _ stepped => ?_⟩
  · exact Sync.joinsTogether_joinAll (by decide)
  · exact absurd (List.filterMap_eq_nil_iff.mpr fun _ _ => rfl) failed
  · cases stepped
    exact ⟨⟨trivial, trivial⟩, fun next _ => trivial⟩

def otherCondition : List DeploymentEvent :=
  [.informs (.updated .other
    (.pod (podOf [⟨"PodScheduled", "True"⟩, ⟨"Ready", "True"⟩])))]

def deletion : List DeploymentEvent :=
  [.informs (.deleted (.pod (podOf []))), .callsBack]

/-- Another condition of the pod changes nothing, its deletion ends it. -/
theorem group_lasts_of_one :
    ∃ ready, run step (init 8000) formingOfOne = some ready ∧
      (∃ later, run step ready otherCondition = some later ∧
        SameSince 8000 ready.reported later.reported ∧
        later.sync.trainer.pynccl = some ⟨1, 2⟩) ∧
      ∃ later, run step ready deletion = some later ∧
        ∀ rest last, (∀ event ∈ rest, event.renews = false) →
          run step later rest = some last →
            ∀ (worlds : ∀ engines, World engines) req,
              (last.pool.updateWeights (worlds _) req).calls = [] := by
  refine ⟨_, rfl, ⟨_, rfl, ?_⟩, ⟨_, rfl, ?_⟩⟩
  · have lasts := @group_lasts_iff 8000 _ _ formingOfOne otherCondition rfl
      orderly_formingOfOne ⟨1, 2⟩ rfl rfl rfl rfl (by decide) rfl rfl
    exact ⟨lasts.1.mp rfl, (lasts.2.1 rfl).2.2.1⟩
  · have lasts := @group_lasts_iff 8000 _ _ formingOfOne deletion rfl
      orderly_formingOfOne ⟨1, 2⟩ rfl rfl rfl rfl (by decide) rfl rfl
    refine lasts.2.2 ?_
    intro same
    exact Bool.false_ne_true (lasts.1.mpr same)

end Deployment

end LlmDRl.Discovery
