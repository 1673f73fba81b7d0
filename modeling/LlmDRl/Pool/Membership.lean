import Mathlib.Data.List.Range
import LlmDRl.Library.History
import LlmDRl.Library.Runs
import LlmDRl.Pool.UpdateWeights

/-!
# The members of the transfer group

`AddEngine`, `RemoveEngine` and `InitWeightTransfer` of the engine pool, and
what `transferInited` says about them.  Adding and removing an engine reset
the flag and a successful initialisation sets it, but a failed one leaves it
as it was: after an earlier success it goes on saying that the group matches
the pool.
-/

namespace LlmDRl.Pool

open LlmDRl.Library

/-! ## The operations -/

/-- What the world answers to one call on every engine: the order in which
the goroutines finish, and the error of each. -/
structure Answers (engines : List String) where
  order : List String
  error : String → Option String
  complete : order.Perm engines

/-- The errors `fanOut` collects. -/
def Answers.errors {engines : List String} (answers : Answers engines) :
    List String :=
  answers.order.filterMap answers.error

/-- `InitWeightTransfer` also numbers the engines, in the order in which the
map is iterated. -/
structure InitWorld (engines : List String) extends Answers engines where
  iteration : List String
  iterates : iteration.Perm engines

/-- The loop that builds the jobs.  `rank` is an `int32`. -/
def assignRanks : List String → Int32 → List (String × Int32)
  | [], _ => []
  | engine :: rest, rank => (engine, rank) :: assignRanks rest (rank + 1)

/-- An engine's `InitWeightTransfer` call, with its error. -/
structure InitRecord where
  engine : String
  rank : Int32
  error : Option String
  deriving DecidableEq

/-- The error `InitWeightTransfer` returns. -/
structure InitError where
  errs : List String
  deriving DecidableEq

def InitError.message (error : InitError) : String :=
  s!"init weight transfer: {error.errs.length} engine(s) failed: " ++
    showSlice error.errs

/-- What `InitWeightTransfer` leaves: the pool, its error and the calls it
made. -/
structure InitRan where
  pool : EnginePool
  error : Option InitError
  calls : List InitRecord

namespace EnginePool

/-- `NewEnginePool`. -/
def new : EnginePool := ⟨.empty, 0, false⟩

def addEngine (pool : EnginePool) (id address : String) : EnginePool :=
  { pool with
    engines := pool.engines.insert id address
    transferInited := false }

def removeEngine (pool : EnginePool) (id : String) : EnginePool :=
  { pool with
    engines := pool.engines.erase id
    transferInited := false }

def initWeightTransfer (pool : EnginePool)
    (world : InitWorld pool.engines.keys) : InitRan :=
  let jobs := assignRanks world.iteration 1
  let calls := jobs.map fun job => ⟨job.1, job.2, world.error job.1⟩
  if world.errors ≠ [] then
    ⟨pool, some ⟨world.errors⟩, calls⟩
  else
    ⟨{ pool with transferInited := true }, none, calls⟩

end EnginePool

/-! ## Histories of a pool -/

/-- An operation that has run.  An update is noted with the engines of the
pool it ran on. -/
inductive PoolNotice where
  | added (id address : String)
  | removed (id : String)
  | initialised (calls : List InitRecord)
  | updated (engines : List String) (calls : List CallRecord)

/-- The world's answers may depend on the engines that are there. -/
inductive PoolEvent where
  | addEngine (id address : String)
  | removeEngine (id : String)
  | initWeightTransfer (worlds : ∀ engines, InitWorld engines)
  | updateWeights (worlds : ∀ engines, World engines)
      (req : WeightUpdateRequest)

/-- A pool and the operations it has seen, newest first. -/
structure PoolHistory where
  pool : EnginePool
  log : List PoolNotice

namespace PoolHistory

def init : PoolHistory := ⟨.new, []⟩

def step (history : PoolHistory) : PoolEvent → Option PoolHistory
  | .addEngine id address =>
      some ⟨history.pool.addEngine id address,
        .added id address :: history.log⟩
  | .removeEngine id =>
      some ⟨history.pool.removeEngine id, .removed id :: history.log⟩
  | .initWeightTransfer worlds =>
      let ran := history.pool.initWeightTransfer (worlds _)
      some ⟨ran.pool, .initialised ran.calls :: history.log⟩
  | .updateWeights worlds req =>
      let ran := history.pool.updateWeights (worlds _) req
      some ⟨ran.pool,
        .updated history.pool.engines.keys ran.calls :: history.log⟩

end PoolHistory

/-- The ranks are `1..n`, each once. -/
def RanksCover (ranks : List Int32) : Prop :=
  (ranks.map Int32.toInt).Nodup ∧
    ∀ rank, rank ∈ ranks.map Int32.toInt ↔
      1 ≤ rank ∧ rank ≤ (ranks.length : Int)

/-- The latest attempt to initialise the group succeeded on every engine and
numbered them `1..n`, and the engines are still the same. -/
def GroupJoined (engines : List String) : List PoolNotice → Prop
  | .initialised calls :: _ =>
      (∀ record ∈ calls, record.error = none) ∧
        (calls.map InitRecord.engine).Perm engines ∧
        RanksCover (calls.map InitRecord.rank)
  | .updated _ _ :: past => GroupJoined engines past
  | _ => False

/-- A flag that is set says that the group matches the pool. -/
def PoolHistory.FlagHonest (history : PoolHistory) : Prop :=
  history.pool.transferInited = true →
    GroupJoined history.pool.engines.keys history.log

/-- An initialisation does not fail while the flag is set, and one that
succeeds has fewer than `2 ^ 31` engines to number. -/
def PoolHistory.FormsGroup (history : PoolHistory) : PoolEvent → Prop
  | .initWeightTransfer worlds =>
      if (worlds history.pool.engines.keys).errors = [] then
        history.pool.engines.keys.length < 2 ^ 31
      else
        history.pool.transferInited = false
  | _ => True

instance (history : PoolHistory) (event : PoolEvent) :
    Decidable (history.FormsGroup event) := by
  cases event <;> simp only [PoolHistory.FormsGroup] <;> infer_instance

/-! ## Ranks -/

theorem map_fst_assignRanks (engines : List String) (rank : Int32) :
    (assignRanks engines rank).map Prod.fst = engines := by
  induction engines generalizing rank with
  | nil =>
      rfl
  | cons engine rest inductionHypothesis =>
      rw [assignRanks, List.map_cons, inductionHypothesis]

theorem map_snd_assignRanks (engines : List String) (rank : Int32) :
    (assignRanks engines rank).map Prod.snd =
      (List.range engines.length).map fun i => rank + Int32.ofNat i := by
  induction engines generalizing rank with
  | nil =>
      rfl
  | cons engine rest inductionHypothesis =>
      have shift : ∀ i : Nat,
          rank + 1 + Int32.ofNat i = rank + Int32.ofNat (i + 1) := by
        intro i
        rw [Int32.ofNat_add, Int32.add_assoc, Int32.add_comm 1]
        rfl
      rw [assignRanks, List.map_cons, inductionHypothesis,
        List.length_cons, List.range_succ_eq_map, List.map_cons,
        List.map_map]
      simp only [shift, Function.comp_def]
      congr 1
      exact (Int32.add_zero rank).symm

theorem toInt_rank {i : Nat} (small : i < 2 ^ 31 - 1) :
    (1 + Int32.ofNat i).toInt = (i : Int) + 1 := by
  rw [Int32.toInt_add, Int32.toInt_ofNat_of_lt (by omega)]
  change (1 + (i : Int)).bmod (2 ^ 32) = (i : Int) + 1
  rw [Int.bmod_eq_of_le] <;> omega

/-- The ranks are `1..n` as long as an `int32` holds them. -/
theorem ranksCover_iff (engines : List String) :
    RanksCover ((assignRanks engines 1).map Prod.snd) ↔
      engines.length < 2 ^ 31 := by
  rw [map_snd_assignRanks]
  constructor
  · intro covers
    by_contra large
    have wrapped : ((1 : Int32) + Int32.ofNat (2 ^ 31 - 1)).toInt = -2 ^ 31 := by
      decide
    have member :
        (-2 ^ 31 : Int) ∈
          ((List.range engines.length).map fun i =>
            (1 : Int32) + Int32.ofNat i).map Int32.toInt := by
      rw [← wrapped]
      refine List.mem_map_of_mem (List.mem_map_of_mem ?_)
      exact List.mem_range.mpr (by omega)
    have positive := ((covers.2 _).mp member).1
    omega
  · intro small
    have ranks :
        ((List.range engines.length).map fun i =>
            (1 : Int32) + Int32.ofNat i).map Int32.toInt =
          (List.range engines.length).map fun i : Nat => (i : Int) + 1 := by
      rw [List.map_map]
      refine List.map_congr_left ?_
      intro i member
      exact toInt_rank (by have := List.mem_range.mp member; omega)
    constructor
    · rw [ranks]
      refine List.Nodup.map ?_ List.nodup_range
      intro first second same
      simpa using same
    · intro rank
      rw [ranks, List.length_map, List.length_range]
      simp only [List.mem_map, List.mem_range]
      constructor
      · intro found
        obtain ⟨i, bound, rfl⟩ := found
        omega
      · intro bounds
        exact ⟨(rank - 1).toNat, by omega, by omega⟩

/-! ## The operations on the flag -/

namespace EnginePool

/-- An update leaves the pool as it was and returns an error, or raises its
version to the one asked for. -/
theorem updateWeights_outcome
    (pool : EnginePool) (world : World pool.engines.keys)
    (req : WeightUpdateRequest) :
    ((pool.updateWeights world req).error ≠ none ∧
        (pool.updateWeights world req).pool = pool) ∨
      ((pool.updateWeights world req).error = none ∧
        (pool.updateWeights world req).pool =
          { pool with weightVersion := req.targetVersion }) := by
  rw [updateWeights]
  generalize
    (if req.resetKVCache = true then fanOut world .resetPrefixCache
      else []) = reset
  split
  · exact .inl ⟨Option.some_ne_none _, rfl⟩
  · dsimp only
    split
    · exact .inl ⟨Option.some_ne_none _, rfl⟩
    · split
      · exact .inl ⟨Option.some_ne_none _, rfl⟩
      · split
        · exact .inl ⟨Option.some_ne_none _, rfl⟩
        · split
          · exact .inl ⟨Option.some_ne_none _, rfl⟩
          · exact .inr ⟨rfl, rfl⟩

/-- An update changes neither the engines nor the flag. -/
theorem updateWeights_pool
    (pool : EnginePool) (world : World pool.engines.keys)
    (req : WeightUpdateRequest) :
    (pool.updateWeights world req).pool.engines = pool.engines ∧
      (pool.updateWeights world req).pool.transferInited =
        pool.transferInited := by
  rcases pool.updateWeights_outcome world req with
    ⟨_, same⟩ | ⟨_, raised⟩
  · rw [same]
    exact ⟨rfl, rfl⟩
  · rw [raised]
    exact ⟨rfl, rfl⟩

/-- Without the flag an update calls no engine. -/
theorem updateWeights_calls_of_not_inited
    {pool : EnginePool} (world : World pool.engines.keys)
    (req : WeightUpdateRequest)
    (uninitialized : pool.transferInited = false) :
    (pool.updateWeights world req).calls = [] := by
  rw [updateWeights, if_pos uninitialized]

variable {pool : EnginePool} (world : InitWorld pool.engines.keys)

/-- Both outcomes of an initialisation make the same calls. -/
theorem initWeightTransfer_calls :
    (pool.initWeightTransfer world).calls =
      (assignRanks world.iteration 1).map fun job =>
        ⟨job.1, job.2, world.error job.1⟩ := by
  rw [initWeightTransfer]
  split <;> rfl

theorem initWeightTransfer_pool :
    (pool.initWeightTransfer world).pool =
      if world.errors = [] then { pool with transferInited := true }
      else pool := by
  rw [initWeightTransfer]
  by_cases none : world.errors = []
  · rw [if_neg (not_not.mpr none), if_pos none]
  · rw [if_pos none, if_neg none]

theorem engines_initWeightTransfer :
    (pool.initWeightTransfer world).pool.engines = pool.engines := by
  rw [initWeightTransfer_pool]
  split <;> rfl

/-- Every engine is called, so no error means that all of them succeeded. -/
theorem calls_succeed_iff :
    (∀ record ∈ (pool.initWeightTransfer world).calls,
        record.error = none) ↔
      world.errors = [] := by
  have numbered : ∀ engine,
      engine ∈ world.order ↔
        ∃ job ∈ assignRanks world.iteration 1, job.1 = engine := by
    intro engine
    rw [world.complete.mem_iff, ← world.iterates.mem_iff]
    conv_lhs => rw [← map_fst_assignRanks world.iteration 1]
    exact List.mem_map
  rw [initWeightTransfer_calls, Answers.errors, List.filterMap_eq_nil_iff]
  simp only [List.forall_mem_map, numbered]
  constructor
  · intro succeed engine found
    obtain ⟨job, member, rfl⟩ := found
    exact succeed job member
  · intro noError job member
    exact noError job.1 ⟨job, member, rfl⟩

/-- An attempt joins the engines of the pool to the group if it succeeds and
does not run out of ranks. -/
theorem groupJoined_initWeightTransfer_iff (past : List PoolNotice) :
    GroupJoined pool.engines.keys
        (.initialised (pool.initWeightTransfer world).calls :: past) ↔
      world.errors = [] ∧ pool.engines.keys.length < 2 ^ 31 := by
  have engines :
      ((pool.initWeightTransfer world).calls.map
        InitRecord.engine).Perm pool.engines.keys := by
    rw [initWeightTransfer_calls, List.map_map]
    have names :
        (assignRanks world.iteration 1).map Prod.fst = world.iteration :=
      map_fst_assignRanks world.iteration 1
    exact (List.Perm.of_eq names).trans world.iterates
  have ranks :
      (pool.initWeightTransfer world).calls.map InitRecord.rank =
        (assignRanks world.iteration 1).map Prod.snd := by
    rw [initWeightTransfer_calls, List.map_map]
    rfl
  have sameLength :
      world.iteration.length = pool.engines.keys.length :=
    world.iterates.length_eq
  rw [GroupJoined, calls_succeed_iff, ranks, ranksCover_iff, sameLength]
  constructor
  · intro joined
    exact ⟨joined.1, joined.2.2⟩
  · intro formed
    exact ⟨formed.1, engines, formed.2⟩

end EnginePool

/-! ## Whole histories -/

namespace PoolHistory

/-- The flag stays honest exactly when the operation forms the group it
says. -/
theorem flagHonest_step_iff
    {history next : PoolHistory} {event : PoolEvent}
    (honest : history.FlagHonest)
    (stepped : history.step event = some next) :
    next.FlagHonest ↔ history.FormsGroup event := by
  cases event with
  | addEngine id address =>
      cases stepped
      exact iff_of_true (fun set => by cases set) trivial
  | removeEngine id =>
      cases stepped
      exact iff_of_true (fun set => by cases set) trivial
  | initWeightTransfer worlds =>
      cases stepped
      have joined :=
        EnginePool.groupJoined_initWeightTransfer_iff
          (worlds history.pool.engines.keys) history.log
      rw [FlagHonest, EnginePool.engines_initWeightTransfer, joined,
        EnginePool.initWeightTransfer_pool]
      by_cases none : (worlds history.pool.engines.keys).errors = []
      · simp [FormsGroup, none]
      · simp [FormsGroup, none]
  | updateWeights worlds req =>
      cases stepped
      have pool :=
        history.pool.updateWeights_pool (worlds history.pool.engines.keys)
          req
      refine iff_of_true ?_ trivial
      rw [FlagHonest, pool.1, pool.2]
      exact honest

/-- An update calls no engine that the latest attempt did not join to the
group of the engines of the pool. -/
def CollectivesJoined : PoolNotice → List PoolNotice → Prop
  | .updated engines calls, past => calls ≠ [] → GroupJoined engines past
  | _, _ => True

theorem collectivesJoined_step
    {history next : PoolHistory} {event : PoolEvent}
    (kept : history.FlagHonest ∧
      EachWithPast CollectivesJoined history.log)
    (forms : history.FormsGroup event)
    (stepped : history.step event = some next) :
    next.FlagHonest ∧ EachWithPast CollectivesJoined next.log := by
  obtain ⟨honest, joined⟩ := kept
  refine ⟨(flagHonest_step_iff honest stepped).mpr forms, ?_⟩
  cases event with
  | addEngine id address =>
      cases stepped
      exact ⟨trivial, joined⟩
  | removeEngine id =>
      cases stepped
      exact ⟨trivial, joined⟩
  | initWeightTransfer worlds =>
      cases stepped
      exact ⟨trivial, joined⟩
  | updateWeights worlds req =>
      cases stepped
      refine ⟨?_, joined⟩
      intro called
      apply honest
      by_contra unset
      have uninitialized : history.pool.transferInited = false := by
        simpa using unset
      exact called
        (EnginePool.updateWeights_calls_of_not_inited _ req uninitialized)

theorem flagHonest_init : init.FlagHonest := by
  intro set
  cases set

/-- In a run the flag is honest in every state exactly when no attempt to
initialise the group fails while the flag is set, or has `2 ^ 31` engines to
number; and then no update calls an engine that is not in the group. -/
theorem transferInited_matches_group_iff
    (events : List PoolEvent) (final : PoolHistory)
    (ran : run step init events = some final) :
    (StatesMeet step FlagHonest init events ↔
      StepsMeet step FormsGroup init events) ∧
    (StepsMeet step FormsGroup init events →
      ∀ newer engines calls past,
        final.log = newer ++ .updated engines calls :: past →
          calls ≠ [] → GroupJoined engines past) := by
  constructor
  · have preserved : ∀ (history : PoolHistory) (event : PoolEvent)
        (next : PoolHistory), True → history.step event = some next →
          True :=
      fun _ _ _ kept _ => kept
    exact statesMeet_iff_stepsMeet preserved
      (fun _ _ _ _ honest stepped => flagHonest_step_iff honest stepped)
      trivial flagHonest_init ran
  · intro forms newer engines calls past split called
    have preserved : ∀ (history : PoolHistory) (event : PoolEvent)
        (next : PoolHistory),
        history.FlagHonest ∧
            EachWithPast CollectivesJoined history.log →
          history.FormsGroup event → history.step event = some next →
            next.FlagHonest ∧ EachWithPast CollectivesJoined next.log :=
      fun _ _ _ kept met stepped => collectivesJoined_step kept met stepped
    have reached :=
      run_invariant_of_stepsMeet preserved ⟨flagHonest_init, trivial⟩
        forms ran
    exact (eachWithPast_iff _ _).mp reached.2 newer _ past split called

/-! ## Initialising twice -/

/-- An attempt to initialise the group. -/
def joining (error : String → Option String) : PoolEvent :=
  .initWeightTransfer fun engines =>
    { order := engines
      error := error
      complete := .refl engines
      iteration := engines
      iterates := .refl engines }

/-- Every call of an update succeeds. -/
def allUpdate (engines : List String) : World engines where
  order _ := engines
  answer _ _ := ⟨true, none⟩
  complete _ := .refl engines
  resumes _ _ := rfl

def updating (req : WeightUpdateRequest) : PoolEvent :=
  .updateWeights allUpdate req

def twoJoin : List PoolEvent :=
  [.addEngine "a" "10.0.0.1", .addEngine "b" "10.0.0.2",
    joining fun _ => none]

theorem transferInited_matches_group_iff_joined :
    ∃ final,
      run step init (twoJoin ++ [updating update]) = some final ∧
        StatesMeet step FlagHonest init (twoJoin ++ [updating update]) := by
  obtain ⟨final, ran, _⟩ :=
    exists_final_of_map_eq
      (show (run step init (twoJoin ++ [updating update])).map
        (fun _ => true) = some true by decide +kernel)
  exact ⟨final, ran,
    (transferInited_matches_group_iff _ final ran).1.mpr
      (by decide +kernel)⟩

/-- An attempt that fails on one engine after one that succeeded leaves the
flag set, and the next update still calls both engines. -/
theorem failed_attempt_keeps_the_flag :
    ∃ final calls past,
      run step init
          (twoJoin ++
            [joining fun engine =>
                if engine = "b" then some "rendezvous timed out" else none,
              updating update]) = some final ∧
        final.pool.transferInited = true ∧
        final.log = .updated ["a", "b"] calls :: past ∧
        succeeded (.updateWeights update) "b" ∈ calls ∧
        ¬ GroupJoined ["a", "b"] past ∧
        ¬ final.FlagHonest := by
  refine ⟨_, _, _, rfl, rfl, rfl, by decide +kernel, ?_, ?_⟩
  · intro joined
    have noError := joined.1 ⟨"b", 2, some "rendezvous timed out"⟩
      (by decide +kernel)
    cases noError
  · intro honest
    have joined : GroupJoined ["a", "b"] _ := honest rfl
    have noError := joined.1 ⟨"b", 2, some "rendezvous timed out"⟩
      (by decide +kernel)
    cases noError

end PoolHistory

end LlmDRl.Pool
