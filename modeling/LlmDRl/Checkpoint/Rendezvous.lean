import LlmDRl.Pool.Membership

/-!
# The rendezvous of trainer and engines

`init_nccl_group` counts the engines, listens as rank 0 of a group one larger
and has the controller send the engines there.  `InitWeightTransfer` numbers
those that are in the pool by then.  `LlmdCheckpointEngineManager.init` always
calls it, `sync_weights` only while the trainer is not initialised, as at the
beginning and after `finalize`.
-/

namespace LlmDRl.Checkpoint

open LlmDRl.Library
open LlmDRl.Pool

/-! ## The trainer -/

/-- Where `init_nccl_group` stands, if it is running. -/
inductive Stage where
  | idle
  /-- The NCCL thread listens, the request is on its way. -/
  | listening
  /-- The controller has answered. -/
  | answered (failed : Bool)
  deriving DecidableEq, Repr

/-- A group of the trainer, with the number of the call that has made it. -/
structure Group where
  call : Nat
  worldSize : Nat
  deriving DecidableEq, Repr

/-- `pynccl` is the group of the communicator, `calls` the number of calls of
`init_nccl_group`. -/
structure CheckpointEngine where
  initialized : Bool
  worldSize : Nat
  pynccl : Option Group
  calls : Nat
  stage : Stage
  deriving DecidableEq, Repr

/-- The group that `init_nccl_group` is making. -/
def CheckpointEngine.group (trainer : CheckpointEngine) : Group :=
  ⟨trainer.calls, trainer.worldSize⟩

/-- What has become of the NCCL thread when `join` returns. -/
inductive NcclThread where
  | created
  /-- It has not come to an end in time. -/
  | waits
  | raised
  deriving DecidableEq, Repr

/-- The end of `init_nccl_group`, from the controller's answer on. -/
def CheckpointEngine.ends (trainer : CheckpointEngine)
    (thread : NcclThread) : Option CheckpointEngine :=
  match trainer.stage with
  | .answered failed =>
      if failed ∨ thread = .raised then
        some { trainer with stage := .idle }
      else
        some
          { trainer with
            stage := .idle
            initialized := true
            pynccl :=
              if thread = .created then some trainer.group else none }
  | _ => none

/-- The trainer and the pool with its history; `orphaned` are the groups of the
requests under way that nobody waits for, and `reached` is the call whose
request came last to the pool. -/
structure Sync where
  trainer : CheckpointEngine
  orphaned : List Group
  history : PoolHistory
  reached : Nat

/-- Who calls `init_nccl_group`. -/
inductive Caller where
  | managerInit
  | syncWeights
  deriving DecidableEq, Repr

inductive SyncEvent where
  | addEngine (id address : String)
  | removeEngine (id : String)
  /-- `get_pool_status` -/
  | counts (caller : Caller)
  /-- The request of `init_weight_transfer` does not get to the pool. -/
  | lost
  | initialises (worlds : ∀ engines, InitWorld engines)
  | returns (thread : NcclThread)
  /-- The trainer does not wait any longer. -/
  | givesUp
  | initialisesLate (group : Group) (worlds : ∀ engines, InitWorld engines)
  | finalizes
  /-- `update_weights` -/
  | updates (worlds : ∀ engines, World engines) (req : WeightUpdateRequest)

/-- The trainer lets go of its group, or makes another one without having
done so. -/
def SyncEvent.renews : SyncEvent → Bool
  | .counts .managerInit | .finalizes => true
  | _ => false

namespace Sync

def init : Sync := ⟨⟨false, 0, none, 0, .idle⟩, [], .init, 0⟩

def engines (sync : Sync) : List String := sync.history.pool.engines.keys

def onPool (sync : Sync) (event : PoolEvent) : Option Sync :=
  (sync.history.step event).map fun history =>
    { sync with history := history }

def step (sync : Sync) : SyncEvent → Option Sync
  | .addEngine id address => sync.onPool (.addEngine id address)
  | .removeEngine id => sync.onPool (.removeEngine id)
  | .counts caller =>
      if sync.trainer.stage = .idle ∧
          (caller = .syncWeights → sync.trainer.initialized = false) then
        some
          { sync with
            trainer :=
              { sync.trainer with
                worldSize := 1 + sync.engines.length
                calls := sync.trainer.calls + 1
                stage := .listening } }
      else
        none
  | .lost =>
      if sync.trainer.stage = .listening then
        some { sync with trainer := { sync.trainer with stage := .idle } }
      else
        none
  | .initialises worlds =>
      -- a world size that is no `int32` is refused
      if sync.trainer.stage = .listening ∧
          sync.trainer.worldSize < 2 ^ 31 then
        let failed : Bool := (worlds sync.engines).errors ≠ []
        (sync.onPool (.initWeightTransfer worlds)).map fun next =>
          { next with
            trainer := { next.trainer with stage := .answered failed }
            reached := next.trainer.calls }
      else
        none
  | .returns thread =>
      (sync.trainer.ends thread).map fun trainer =>
        { sync with trainer := trainer }
  | .givesUp =>
      if sync.trainer.stage = .listening then
        some
          { sync with
            trainer := { sync.trainer with stage := .idle }
            orphaned := sync.trainer.group :: sync.orphaned }
      else
        none
  | .initialisesLate group worlds =>
      if group ∈ sync.orphaned ∧ group.worldSize < 2 ^ 31 then
        (sync.onPool (.initWeightTransfer worlds)).map fun next =>
          { next with
            orphaned := next.orphaned.erase group
            reached := group.call }
      else
        none
  | .finalizes =>
      if sync.trainer.stage = .idle then
        some
          { sync with
            trainer :=
              { sync.trainer with pynccl := none, initialized := false } }
      else
        none
  | .updates worlds req =>
      if sync.trainer.stage = .idle then
        sync.onPool (.updateWeights worlds req)
      else
        none

end Sync

/-- No engine is told that it has joined a group before there is an engine for
every rank of it but the trainer's; and its own rank is one of them. -/
def JoinsTogether {engines : List String} (world : InitWorld engines)
    (worldSize : Nat) : Prop :=
  ∀ job ∈ assignRanks world.iteration 1, world.error job.1 = none →
    (1 ≤ job.2.toInt ∧ job.2.toInt < worldSize) ∧
      ∀ rank : Int, 1 ≤ rank → rank < worldSize →
        ∃ other ∈ assignRanks world.iteration 1, other.2.toInt = rank

/-- Collective initialisation blocks until all ranks have connected, and the
trainer waits for it. -/
def Sync.Collective (sync : Sync) : SyncEvent → Prop
  | .initialises worlds =>
      JoinsTogether (worlds sync.engines) sync.trainer.worldSize
  | .givesUp => False
  | _ => True

/-- An initialisation that fails on an engine finds no group in the pool, and
one that fails on the trainer's side leaves no older group there. -/
def Sync.FailsAfresh (sync : Sync) : SyncEvent → Prop
  | .initialises worlds =>
      (worlds sync.engines).errors ≠ [] →
        sync.history.pool.transferInited = false
  | .returns .raised =>
      sync.trainer.stage = .answered false → sync.trainer.pynccl = none
  | _ => True

def Sync.Orderly (sync : Sync) (event : SyncEvent) : Prop :=
  sync.Collective event ∧ sync.FailsAfresh event

/-! ## One rendezvous -/

section Rendezvous

variable {engines : List String} {world : InitWorld engines} {worldSize : Nat}

theorem joined_of_no_errors (succeed : world.errors = [])
    {job : String × Int32} (member : job ∈ assignRanks world.iteration 1) :
    world.error job.1 = none := by
  have inIteration : job.1 ∈ world.iteration := by
    rw [← map_fst_assignRanks world.iteration 1]
    exact List.mem_map_of_mem member
  have inOrder : job.1 ∈ world.order :=
    world.complete.mem_iff.mpr (world.iterates.mem_iff.mp inIteration)
  exact List.filterMap_eq_nil_iff.mp succeed job.1 inOrder

/-- No engine joins with a number beyond what an `int32` holds. -/
theorem length_lt_of_joinsTogether (joins : JoinsTogether world worldSize)
    (succeed : world.errors = []) : engines.length < 2 ^ 31 := by
  rw [← world.iterates.length_eq]
  by_contra large
  have index : 2 ^ 31 - 1 < world.iteration.length := by omega
  have member : (1 : Int32) + Int32.ofNat (2 ^ 31 - 1) ∈
      (assignRanks world.iteration 1).map Prod.snd := by
    rw [map_snd_assignRanks]
    exact List.mem_map_of_mem (List.mem_range.mpr index)
  obtain ⟨job, inJobs, isRank⟩ := List.mem_map.mp member
  have positive := (joins job inJobs (joined_of_no_errors succeed inJobs)).1.1
  rw [isRank] at positive
  exact absurd positive (by decide)

/-- All engines can only join a group that was made for their number. -/
theorem worldSize_of_joinsTogether (joins : JoinsTogether world worldSize)
    (succeed : world.errors = []) (nonempty : engines ≠ []) :
    worldSize = engines.length + 1 := by
  have small := length_lt_of_joinsTogether joins succeed
  rw [← world.iterates.length_eq] at small ⊢
  have positive : 0 < world.iteration.length := by
    rw [world.iterates.length_eq]
    exact List.length_pos_iff.mpr nonempty
  obtain ⟨_, covers⟩ := (ranksCover_iff world.iteration).mpr small
  rw [List.length_map, ← List.length_map Prod.fst, map_fst_assignRanks]
    at covers
  have numbered : ∀ rank : Int,
      1 ≤ rank ∧ rank ≤ (world.iteration.length : Int) →
        ∃ job ∈ assignRanks world.iteration 1, job.2.toInt = rank := by
    intro rank bounds
    obtain ⟨number, inRanks, same⟩ :=
      List.mem_map.mp ((covers rank).mpr bounds)
    obtain ⟨job, inJobs, rfl⟩ := List.mem_map.mp inRanks
    exact ⟨job, inJobs, same⟩
  obtain ⟨last, inJobs, isLast⟩ :=
    numbered world.iteration.length (by omega)
  obtain ⟨⟨_, below⟩, complete⟩ :=
    joins last inJobs (joined_of_no_errors succeed inJobs)
  rw [isLast] at below
  obtain ⟨other, inOthers, isOther⟩ :=
    complete (worldSize - 1) (by omega) (by omega)
  have bounds := (covers (worldSize - 1)).mp (by
    rw [← isOther]
    exact List.mem_map_of_mem (List.mem_map_of_mem inOthers))
  omega

end Rendezvous

namespace Sync

/-! ## What a step can be -/

inductive Stepped (sync : Sync) : SyncEvent → Sync → Prop
  | added (id address : String) (history : PoolHistory)
      (ran : sync.history.step (.addEngine id address) = some history) :
      Stepped sync (.addEngine id address) { sync with history := history }
  | removed (id : String) (history : PoolHistory)
      (ran : sync.history.step (.removeEngine id) = some history) :
      Stepped sync (.removeEngine id) { sync with history := history }
  | counted (caller : Caller) (resting : sync.trainer.stage = .idle)
      (needed : caller = .syncWeights → sync.trainer.initialized = false) :
      Stepped sync (.counts caller)
        { sync with
          trainer :=
            { sync.trainer with
              worldSize := 1 + sync.engines.length
              calls := sync.trainer.calls + 1
              stage := .listening } }
  | lost (listens : sync.trainer.stage = .listening) :
      Stepped sync .lost
        { sync with trainer := { sync.trainer with stage := .idle } }
  | initialised (worlds : ∀ engines, InitWorld engines)
      (history : PoolHistory) (listens : sync.trainer.stage = .listening)
      (ran : sync.history.step (.initWeightTransfer worlds) =
        some history) :
      Stepped sync (.initialises worlds)
        { sync with
          trainer :=
            { sync.trainer with
              stage :=
                .answered (decide ((worlds sync.engines).errors ≠ [])) }
          history := history
          reached := sync.trainer.calls }
  | failed (thread : NcclThread) (refused : Bool)
      (answered : sync.trainer.stage = .answered refused)
      (raises : refused = true ∨ thread = .raised) :
      Stepped sync (.returns thread)
        { sync with trainer := { sync.trainer with stage := .idle } }
  | returned (thread : NcclThread)
      (answered : sync.trainer.stage = .answered false)
      (pynccl : Option Group)
      (made : pynccl = none ∨ pynccl = some sync.trainer.group) :
      Stepped sync (.returns thread)
        { sync with
          trainer :=
            { sync.trainer with
              stage := .idle
              initialized := true
              pynccl := pynccl } }
  | gaveUp (listens : sync.trainer.stage = .listening) :
      Stepped sync .givesUp
        { sync with
          trainer := { sync.trainer with stage := .idle }
          orphaned := sync.trainer.group :: sync.orphaned }
  | initialisedLate (group : Group)
      (worlds : ∀ engines, InitWorld engines) (history : PoolHistory)
      (orphan : group ∈ sync.orphaned)
      (ran : sync.history.step (.initWeightTransfer worlds) =
        some history) :
      Stepped sync (.initialisesLate group worlds)
        { sync with
          orphaned := sync.orphaned.erase group
          history := history
          reached := group.call }
  | finalized (resting : sync.trainer.stage = .idle) :
      Stepped sync .finalizes
        { sync with
          trainer :=
            { sync.trainer with pynccl := none, initialized := false } }
  | updated (worlds : ∀ engines, World engines) (req : WeightUpdateRequest)
      (history : PoolHistory) (resting : sync.trainer.stage = .idle)
      (ran : sync.history.step (.updateWeights worlds req) =
        some history) :
      Stepped sync (.updates worlds req) { sync with history := history }

theorem onPool_eq_some {sync next : Sync} {event : PoolEvent} :
    sync.onPool event = some next ↔
      ∃ history, sync.history.step event = some history ∧
        next = ⟨sync.trainer, sync.orphaned, history, sync.reached⟩ := by
  rw [onPool, Option.map_eq_some_iff]
  exact exists_congr fun history => and_congr_right fun _ => eq_comm

theorem stepped_of_step {sync next : Sync} {event : SyncEvent}
    (stepped : sync.step event = some next) : sync.Stepped event next := by
  cases event with
  | addEngine id address =>
      obtain ⟨history, ran, rfl⟩ := onPool_eq_some.mp stepped
      exact .added id address history ran
  | removeEngine id =>
      obtain ⟨history, ran, rfl⟩ := onPool_eq_some.mp stepped
      exact .removed id history ran
  | counts caller =>
      rw [step] at stepped
      split at stepped
      · next free =>
          cases stepped
          exact .counted caller free.1 free.2
      · cases stepped
  | lost =>
      rw [step] at stepped
      split at stepped
      · next listens =>
          cases stepped
          exact .lost listens
      · cases stepped
  | initialises worlds =>
      rw [step] at stepped
      split at stepped
      · next ready =>
          obtain ⟨during, called, rfl⟩ := Option.map_eq_some_iff.mp stepped
          obtain ⟨history, ran, rfl⟩ := onPool_eq_some.mp called
          exact .initialised worlds history ready.1 ran
      · cases stepped
  | returns thread =>
      obtain ⟨trainer, ended, rfl⟩ := Option.map_eq_some_iff.mp stepped
      unfold CheckpointEngine.ends at ended
      split at ended
      · next failed answered =>
          split at ended
          · next raises =>
              cases ended
              exact .failed thread failed answered raises
          · next succeeds =>
              cases ended
              obtain ⟨accepted, -⟩ := not_or.mp succeeds
              rw [Bool.not_eq_true] at accepted
              subst accepted
              refine .returned thread answered _ ?_
              split
              · exact .inr rfl
              · exact .inl rfl
      · cases ended
  | givesUp =>
      rw [step] at stepped
      split at stepped
      · next listens =>
          cases stepped
          exact .gaveUp listens
      · cases stepped
  | initialisesLate group worlds =>
      rw [step] at stepped
      split at stepped
      · next waits =>
          obtain ⟨during, called, rfl⟩ := Option.map_eq_some_iff.mp stepped
          obtain ⟨history, ran, rfl⟩ := onPool_eq_some.mp called
          exact .initialisedLate group worlds history waits.1 ran
      · cases stepped
  | finalizes =>
      rw [step] at stepped
      split at stepped
      · next resting =>
          cases stepped
          exact .finalized resting
      · cases stepped
  | updates worlds req =>
      rw [step] at stepped
      split at stepped
      · next resting =>
          obtain ⟨history, ran, rfl⟩ := onPool_eq_some.mp stepped
          exact .updated worlds req history resting ran
      · cases stepped

/-! ## Whole runs -/

/-- The group in which the last request has numbered the engines. -/
def joined (sync : Sync) : Group :=
  ⟨sync.reached, sync.engines.length + 1⟩

/-- What the trainer has of the engines' group, or is making of it. -/
def Matched (sync : Sync) : Prop :=
  match sync.trainer.stage with
  | .answered true => False
  | .answered false => sync.trainer.group = sync.joined
  | _ => sync.trainer.pynccl = none ∨ sync.trainer.pynccl = some sync.joined

/-- What holds of trainer and pool in every interleaving. -/
structure Sound (sync : Sync) : Prop where
  alone : sync.orphaned = []
  honest : sync.history.FlagHonest
  matched : sync.history.pool.transferInited = true → sync.engines ≠ [] →
    sync.Matched
  owned : sync.trainer.pynccl ≠ none → sync.trainer.initialized = true

theorem sound_init : init.Sound where
  alone := rfl
  honest := PoolHistory.flagHonest_init
  matched := nofun
  owned := fun group => absurd rfl group

/-- Without the flag there is little to say. -/
theorem sound_of_unset {sync : Sync} (alone : sync.orphaned = [])
    (unset : sync.history.pool.transferInited = false)
    (owned : sync.trainer.pynccl ≠ none → sync.trainer.initialized = true) :
    sync.Sound := by
  have never : ¬ sync.history.pool.transferInited = true := by
    rw [unset]
    exact Bool.false_ne_true
  exact
    { alone := alone
      honest := fun set => absurd set never
      matched := fun set => absurd set never
      owned := owned }

/-- Between two calls of `init_nccl_group`, and until the controller has
answered, the trainer has the engines' group or none. -/
theorem matched_of_waiting {sync : Sync}
    (waiting : sync.trainer.stage = .idle ∨
      sync.trainer.stage = .listening) :
    sync.Matched ↔
      sync.trainer.pynccl = none ∨
        sync.trainer.pynccl = some sync.joined := by
  rw [Matched]
  rcases waiting with idle | listens
  · rw [idle]
  · rw [listens]

theorem Sound.initialises {sync : Sync}
    {worlds : ∀ engines, InitWorld engines} {history : PoolHistory}
    (sound : sync.Sound)
    (joins : JoinsTogether (worlds sync.engines) sync.trainer.worldSize)
    (afresh : (worlds sync.engines).errors ≠ [] →
      sync.history.pool.transferInited = false)
    (ran : sync.history.step (.initWeightTransfer worlds) = some history) :
    Sound
      { sync with
        trainer :=
          { sync.trainer with
            stage := .answered (decide ((worlds sync.engines).errors ≠ [])) }
        history := history
        reached := sync.trainer.calls } := by
  have same : history.pool.engines.keys = sync.engines := by
    cases ran
    exact congrArg _ (EnginePool.engines_initWeightTransfer _)
  by_cases succeed : (worlds sync.engines).errors = []
  · have forms : sync.history.FormsGroup (.initWeightTransfer worlds) := by
      have none : (worlds sync.history.pool.engines.keys).errors = [] :=
        succeed
      rw [PoolHistory.FormsGroup, if_pos none]
      exact length_lt_of_joinsTogether joins succeed
    refine
      { alone := sound.alone
        honest := (PoolHistory.flagHonest_step_iff sound.honest ran).mpr forms
        matched := fun _ nonempty => ?_
        owned := sound.owned }
    have sizes : sync.trainer.worldSize =
        history.pool.engines.keys.length + 1 := by
      rw [same]
      exact worldSize_of_joinsTogether joins succeed (same ▸ nonempty)
    have accepted : decide ((worlds sync.engines).errors ≠ []) = false := by
      simp [succeed]
    simp only [Matched, accepted]
    exact congrArg (Group.mk sync.trainer.calls) sizes
  · have unset : history.pool.transferInited = false := by
      cases ran
      rw [EnginePool.initWeightTransfer_pool]
      exact (congrArg _ (if_neg succeed)).trans (afresh succeed)
    exact sound_of_unset sound.alone unset sound.owned

theorem Sound.updates {sync : Sync} {worlds : ∀ engines, World engines}
    {req : WeightUpdateRequest} {history : PoolHistory}
    (sound : sync.Sound)
    (ran : sync.history.step (.updateWeights worlds req) = some history) :
    Sound { sync with history := history } := by
  have kept : history.pool.engines = sync.history.pool.engines ∧
      history.pool.transferInited = sync.history.pool.transferInited := by
    cases ran
    exact sync.history.pool.updateWeights_pool _ req
  exact
    { alone := sound.alone
      honest := (PoolHistory.flagHonest_step_iff sound.honest ran).mpr trivial
      matched := by
        rw [Matched, joined, engines, kept.1, kept.2]
        exact sound.matched
      owned := sound.owned }

theorem Sound.step {sync next : Sync} {event : SyncEvent}
    (sound : sync.Sound) (orderly : sync.Orderly event)
    (stepped : sync.step event = some next) : next.Sound := by
  obtain ⟨collective, afresh⟩ := orderly
  cases stepped_of_step stepped with
  | added id address history ran =>
      cases ran
      exact sound_of_unset sound.alone rfl sound.owned
  | removed id history ran =>
      cases ran
      exact sound_of_unset sound.alone rfl sound.owned
  | counted caller resting needed =>
      refine ⟨sound.alone, sound.honest, fun set nonempty => ?_, sound.owned⟩
      have matched := sound.matched set nonempty
      rw [matched_of_waiting (.inl resting)] at matched
      exact (matched_of_waiting (.inr rfl)).mpr matched
  | lost listens =>
      refine ⟨sound.alone, sound.honest, fun set nonempty => ?_, sound.owned⟩
      have matched := sound.matched set nonempty
      rw [matched_of_waiting (.inr listens)] at matched
      exact (matched_of_waiting (.inl rfl)).mpr matched
  | initialised worlds history listens ran =>
      exact sound.initialises collective afresh ran
  | failed thread refused answered raises =>
      refine ⟨sound.alone, sound.honest, fun set nonempty => ?_, sound.owned⟩
      have matched := sound.matched set nonempty
      rw [Matched, answered] at matched
      cases refused with
      | true => exact matched.elim
      | false =>
          obtain rfl := raises.resolve_left Bool.false_ne_true
          exact (matched_of_waiting (.inl rfl)).mpr (.inl (afresh answered))
  | returned thread answered pynccl made =>
      refine ⟨sound.alone, sound.honest, fun set nonempty => ?_, fun _ => rfl⟩
      have matched := sound.matched set nonempty
      rw [Matched, answered] at matched
      refine (matched_of_waiting (.inl rfl)).mpr ?_
      rcases made with rfl | rfl
      · exact .inl rfl
      · exact .inr (congrArg some matched)
  | gaveUp => exact collective.elim
  | initialisedLate group worlds history orphan =>
      rw [sound.alone] at orphan
      cases orphan
  | finalized resting =>
      refine ⟨sound.alone, sound.honest, fun _ _ => ?_,
        fun group => absurd rfl group⟩
      refine (matched_of_waiting ?_).mpr (.inl rfl)
      exact .inl resting
  | updated worlds req history resting ran => exact sound.updates ran

/-! ## A group that has been left -/

/-- The trainer is initialised, and nothing of it is under way. -/
structure Settled (sync : Sync) : Prop where
  resting : sync.trainer.stage = .idle
  initialized : sync.trainer.initialized = true
  alone : sync.orphaned = []

/-- Everything a step can be while the trainer does not renew its group. -/
inductive PoolStepped (sync : Sync) : SyncEvent → Sync → Prop
  | added (id address : String) (history : PoolHistory)
      (ran : sync.history.step (.addEngine id address) = some history) :
      PoolStepped sync (.addEngine id address)
        { sync with history := history }
  | removed (id : String) (history : PoolHistory)
      (ran : sync.history.step (.removeEngine id) = some history) :
      PoolStepped sync (.removeEngine id) { sync with history := history }
  | updated (worlds : ∀ engines, World engines) (req : WeightUpdateRequest)
      (history : PoolHistory)
      (ran : sync.history.step (.updateWeights worlds req) =
        some history) :
      PoolStepped sync (.updates worlds req) { sync with history := history }

variable {sync next : Sync} {event : SyncEvent}

theorem Settled.poolStepped (settled : sync.Settled)
    (keeps : event.renews = false) (stepped : sync.step event = some next) :
    sync.PoolStepped event next := by
  obtain ⟨resting, initialized, alone⟩ := settled
  have notListening : sync.trainer.stage ≠ .listening := by
    rw [resting]
    exact nofun
  have notAnswered : ∀ failed, sync.trainer.stage ≠ .answered failed := by
    rw [resting]
    exact nofun
  cases stepped_of_step stepped with
  | added id address history ran => exact .added id address history ran
  | removed id history ran => exact .removed id history ran
  | counted caller _ needed =>
      cases caller with
      | managerInit => cases keeps
      | syncWeights =>
          rw [needed rfl] at initialized
          cases initialized
  | lost listens => exact absurd listens notListening
  | initialised worlds history listens => exact absurd listens notListening
  | failed thread refused answered =>
      exact absurd answered (notAnswered refused)
  | returned thread answered => exact absurd answered (notAnswered false)
  | gaveUp listens => exact absurd listens notListening
  | initialisedLate group worlds history orphan =>
      rw [alone] at orphan
      cases orphan
  | finalized => cases keeps
  | updated worlds req history _ ran =>
      exact .updated worlds req history ran

/-- Only the pool changes. -/
theorem PoolStepped.rest (stepped : sync.PoolStepped event next) :
    next.trainer = sync.trainer ∧ next.orphaned = sync.orphaned ∧
      next.reached = sync.reached := by
  cases stepped with
  | added | removed | updated => exact ⟨rfl, rfl, rfl⟩

theorem PoolStepped.settled (stepped : sync.PoolStepped event next)
    (settled : sync.Settled) : next.Settled := by
  obtain ⟨trainer, orphaned, -⟩ := stepped.rest
  refine ⟨?_, ?_, orphaned.trans settled.alone⟩
  · rw [trainer]
    exact settled.resting
  · rw [trainer]
    exact settled.initialized

/-- The trainer is initialised, but the pool has changed since. -/
structure Outdated (sync : Sync) : Prop extends sync.Settled where
  unset : sync.history.pool.transferInited = false

/-- From then on nothing is transferred. -/
theorem Outdated.step (outdated : sync.Outdated)
    (keeps : event.renews = false) (stepped : sync.step event = some next) :
    next.Outdated ∧
      next.history.pool.weightVersion =
        sync.history.pool.weightVersion := by
  have poolStepped := outdated.poolStepped keeps stepped
  have settled := poolStepped.settled outdated.toSettled
  cases poolStepped with
  | added id address history ran =>
      cases ran
      exact ⟨⟨settled, rfl⟩, rfl⟩
  | removed id history ran =>
      cases ran
      exact ⟨⟨settled, rfl⟩, rfl⟩
  | updated worlds req history ran =>
      have refused : history.pool = sync.history.pool := by
        cases ran
        rw [EnginePool.updateWeights, if_pos outdated.unset]
      rw [refused]
      exact ⟨⟨settled, refused ▸ outdated.unset⟩, rfl⟩

theorem Outdated.run {later : Sync} {events : List SyncEvent}
    (outdated : sync.Outdated)
    (keep : ∀ event ∈ events, event.renews = false)
    (ran : run Sync.step sync events = some later) :
    later.Outdated ∧
      later.history.pool.weightVersion =
        sync.history.pool.weightVersion := by
  have preserved : ∀ (before : Sync) (event : SyncEvent) (after : Sync),
      before.Outdated ∧
          before.history.pool.weightVersion =
            sync.history.pool.weightVersion →
        event.renews = false → before.step event = some after →
          after.Outdated ∧
            after.history.pool.weightVersion =
              sync.history.pool.weightVersion := by
    intro before event after kept keeps stepped
    obtain ⟨still, same⟩ := kept.1.step keeps stepped
    exact ⟨still, same.trans kept.2⟩
  exact run_invariant_of_stepsMeet preserved ⟨outdated, rfl⟩
    (stepsMeet_of_forall (fun event member _ => keep event member) sync) ran

/-- An update that calls an engine finds all engines of the pool numbered in
one group, which is the trainer's if it has one; and once the pool is not the
one of that group any more, no update succeeds until the trainer renews it. -/
theorem transfers_reach_the_group {events : List SyncEvent} {final : Sync}
    (ran : run step init events = some final)
    (orderly : StepsMeet step Orderly init events)
    (resting : final.trainer.stage = .idle) :
    (∀ (worlds : ∀ engines, World engines) req,
        (final.history.pool.updateWeights (worlds _) req).calls ≠ [] →
          GroupJoined final.engines final.history.log ∧
            (final.trainer.pynccl = none ∨
              final.trainer.pynccl =
                some ⟨final.reached, final.engines.length + 1⟩)) ∧
      (final.trainer.initialized = true →
        final.history.pool.transferInited = false →
        ∀ more later, (∀ event ∈ more, event.renews = false) →
          run step final more = some later →
            later.history.pool.transferInited = false ∧
              later.history.pool.weightVersion =
                final.history.pool.weightVersion) := by
  have sound : final.Sound :=
    run_invariant_of_stepsMeet
      (fun _ _ _ kept met stepped => kept.step met stepped) sound_init
      orderly ran
  constructor
  · intro worlds req calls
    have set : final.history.pool.transferInited = true := by
      by_contra unset
      rw [Bool.not_eq_true] at unset
      exact calls
        (EnginePool.updateWeights_calls_of_not_inited _ req unset)
    obtain ⟨record, member⟩ := List.exists_mem_of_ne_nil _ calls
    have called := (EnginePool.updates_of_mem_calls member).1
    have matched := sound.matched set (List.ne_nil_of_mem called)
    exact ⟨sound.honest set, (matched_of_waiting (.inl resting)).mp matched⟩
  · intro initialized unset more later keep continued
    obtain ⟨outdated, same⟩ :=
      Outdated.run ⟨⟨resting, initialized, sound.alone⟩, unset⟩ keep
        continued
    exact ⟨outdated.unset, same⟩

/-! ## A second engine -/

/-- Every engine joins. -/
def joinAll (engines : List String) : InitWorld engines where
  order := engines
  error _ := none
  complete := .refl engines
  iteration := engines
  iterates := .refl engines

theorem joinsTogether_joinAll {engines : List String}
    (small : engines.length < 2 ^ 31) :
    JoinsTogether (joinAll engines) (1 + engines.length) := by
  obtain ⟨_, covers⟩ := (ranksCover_iff engines).mpr small
  rw [List.length_map, ← List.length_map Prod.fst, map_fst_assignRanks]
    at covers
  intro job member _
  have bounds := (covers job.2.toInt).mp
    (List.mem_map_of_mem (List.mem_map_of_mem member))
  refine ⟨⟨bounds.1, ?_⟩, fun rank atLeast below => ?_⟩
  · omega
  · obtain ⟨number, inRanks, same⟩ :=
      List.mem_map.mp ((covers rank).mpr ⟨atLeast, by omega⟩)
    obtain ⟨other, inOthers, rfl⟩ := List.mem_map.mp inRanks
    exact ⟨other, inOthers, same⟩

/-- `init_nccl_group` makes a group with the engines that are there. -/
def rendezvous (caller : Caller) : List SyncEvent :=
  [.counts caller, .initialises joinAll, .returns .created]

/-- A rendezvous at which all engines join is in order. -/
theorem orderly_rendezvous (caller : Caller) {sync : Sync}
    (small : sync.engines.length < 2 ^ 31) :
    StepsMeet step Orderly sync (rendezvous caller) := by
  refine ⟨⟨trivial, trivial⟩, fun listening counted => ?_⟩
  cases stepped_of_step counted
  refine ⟨⟨joinsTogether_joinAll small, fun failed => ?_⟩,
    fun answered initialised => ?_⟩
  · exact absurd (List.filterMap_eq_nil_iff.mpr fun _ _ => rfl) failed
  · exact ⟨⟨trivial, trivial⟩, fun _ _ => trivial⟩

def rendezvousOfTwo : List SyncEvent :=
  [.addEngine "a" "10.0.0.1"] ++ rendezvous .managerInit ++
    [.addEngine "b" "10.0.0.2"]

theorem orderly_rendezvousOfTwo :
    StepsMeet step Orderly init rendezvousOfTwo := by
  refine .append (.append ⟨⟨trivial, trivial⟩, fun _ _ => trivial⟩ ?_) ?_
  · intro sync reached
    cases reached
    exact orderly_rendezvous .managerInit (by decide)
  · exact fun _ _ => ⟨⟨trivial, trivial⟩, fun _ _ => trivial⟩

/-- After the second engine has been added no update reaches an engine until
the trainer has been finalised; then both are reached. -/
theorem transfers_reach_the_group_of_two :
    (∃ final, run step init rendezvousOfTwo = some final ∧
      ∀ more later, (∀ event ∈ more, event.renews = false) →
        run step final more = some later →
          later.history.pool.weightVersion = 0) ∧
    ∃ final,
      run step init (rendezvousOfTwo ++
          ([.finalizes] ++ rendezvous .syncWeights)) = some final ∧
        (final.history.pool.updateWeights (PoolHistory.allUpdate _)
            update).error = none ∧
        (final.trainer.pynccl = none ∨
          final.trainer.pynccl = some ⟨2, 3⟩) := by
  constructor
  · refine ⟨_, rfl, fun more later keep continued => ?_⟩
    exact ((transfers_reach_the_group rfl orderly_rendezvousOfTwo rfl).2 rfl
      rfl more later keep continued).2
  · have orderly : StepsMeet step Orderly init (rendezvousOfTwo ++
        ([.finalizes] ++ rendezvous .syncWeights)) := by
      refine orderly_rendezvousOfTwo.append fun sync reached => ?_
      cases reached
      refine .append ⟨⟨trivial, trivial⟩, fun _ _ => trivial⟩ ?_
      intro sync reached
      cases reached
      exact orderly_rendezvous .syncWeights (by decide)
    refine ⟨_, rfl, rfl, ?_⟩
    have reached := (transfers_reach_the_group rfl orderly rfl).1
      PoolHistory.allUpdate update
    exact (reached (List.cons_ne_nil _ _)).2

end Sync

end LlmDRl.Checkpoint
