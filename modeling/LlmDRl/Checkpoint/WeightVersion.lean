import LlmDRl.Library.Runs

/-!
# The weight version of the trainer

`sync_weights` of the checkpoint engine and `update_weights_from_generator` of
its manager, on an initialised engine.  Both raise the version first, start the
broadcast in a thread, wait for the controller and then for the thread; a thread
that outlasts its `join` runs on.

A run is cut where something outside can happen: the weights are there or the
generator raises, the request comes back, a broadcast ends, a `join` does.
-/

namespace LlmDRl.Checkpoint

open LlmDRl.Library

structure Param where
  name : String
  dtype : String
  shape : List Nat

structure Metadata where
  names : List String
  dtypes : List String
  shapes : List (List Nat)

/-- What `update_weights_from_model` extracts. -/
def metadataOf (model : List Param) : Metadata where
  names := model.map Param.name
  dtypes := model.map fun param => param.dtype.replace "torch." ""
  shapes := model.map Param.shape

inductive Call where
  | syncWeights (model : List Param)
  | updateWeightsFromGenerator (metadata : Metadata)

def Call.metadata : Call → Metadata
  | syncWeights model => metadataOf model
  | updateWeightsFromGenerator metadata => metadata

/-- The body of `POST /v1/weights/update`. -/
structure UpdateRequest where
  targetVersion : Nat
  metadata : Metadata
  pauseMode : String := "keep"
  resetKvCache : Bool := true

/-- What a thread has come to. -/
inductive Broadcast where
  | running
  | finished
  | raised (error : String)
  deriving DecidableEq, Repr

def Broadcast.ended : Option String → Broadcast
  | none => finished
  | some error => raised error

/-- The exceptions that leave a call, by what raised them. -/
inductive CallError where
  | weights (text : String)
  | request (text : String)
  /-- `RuntimeError` -/
  | broadcast (text : String)
  deriving DecidableEq, Repr

def CallError.message : CallError → String
  | weights text => text
  | request text => text
  | broadcast text => s!"NCCL broadcast failed: {text}"

inductive Result where
  | returned (version : Nat)
  | raised (error : CallError)
  deriving DecidableEq, Repr

/-- What a call came to, and how its broadcast stood then. -/
structure Outcome where
  result : Result
  broadcast : Option Broadcast
  deriving DecidableEq, Repr

/-- Where a call stands, with its local version and its thread. -/
inductive Phase where
  | idle
  | materializing (call : Call) (version : Nat)
  | requesting (call : Call) (version : Nat) (thread : Nat)
  | joining (call : Call) (version : Nat) (thread : Nat)

structure Trainer where
  weightVersion : Nat := 0
  phase : Phase := .idle
  /-- The threads started so far. -/
  broadcasts : List Broadcast := []
  /-- History: the last target version that the controller acknowledged. -/
  acknowledged : Nat := 0
  /-- History: what the calls came to. -/
  outcomes : List Outcome := []

inductive Event where
  | calls (call : Call)
  | materializes
  | weightsRaise (text : String)
  | acknowledges
  | requestRaises (text : String)
  | ends (thread : Nat) (error : Option String)
  | joins
  | joinTimesOut

/-- The weights are there, the controller acknowledges, and the broadcast ends
in time, if only by raising. -/
def Event.isSound : Event → Bool
  | weightsRaise _ | requestRaises _ | joinTimesOut => false
  | calls _ | materializes | acknowledges | ends _ _ | joins => true

namespace Trainer

def init : Trainer := {}

/-- `sync_weights` reads the attribute where the manager has a variable. -/
def version (trainer : Trainer) : Call → Nat → Nat
  | .syncWeights _, _ => trainer.weightVersion
  | .updateWeightsFromGenerator _, version => version

def request (trainer : Trainer) (call : Call) (version : Nat) :
    UpdateRequest where
  targetVersion := trainer.version call version
  metadata := call.metadata

def startBroadcast (trainer : Trainer) (call : Call) (version : Nat) :
    Trainer :=
  { trainer with
    phase := .requesting call version trainer.broadcasts.length
    broadcasts := trainer.broadcasts ++ [.running] }

/-- `weight_version` is raised before anything is done. -/
def begin (trainer : Trainer) (call : Call) : Trainer :=
  let version := trainer.weightVersion + 1
  let trainer := { trainer with weightVersion := version }
  match call with
  | .syncWeights _ => trainer.startBroadcast call version
  | .updateWeightsFromGenerator _ =>
      { trainer with phase := .materializing call version }

/-- The call returns or raises. -/
def finish (trainer : Trainer) (result : Result)
    (broadcast : Option Broadcast) : Trainer :=
  { trainer with
    phase := .idle
    outcomes := trainer.outcomes ++ [⟨result, broadcast⟩] }

/-- What follows the `join`: an error is raised if there is one by now. -/
def conclude (trainer : Trainer) (call : Call) (version thread : Nat) :
    Trainer :=
  match trainer.broadcasts[thread]? with
  | some (.raised text) =>
      trainer.finish (.raised (.broadcast text)) (some (.raised text))
  | broadcast =>
      trainer.finish (.returned (trainer.version call version)) broadcast

def step (trainer : Trainer) (event : Event) : Option Trainer :=
  match event, trainer.phase with
  | .calls call, .idle => some (trainer.begin call)
  | .materializes, .materializing call version =>
      some (trainer.startBroadcast call version)
  | .weightsRaise text, .materializing _ _ =>
      some (trainer.finish (.raised (.weights text)) none)
  | .acknowledges, .requesting call version thread =>
      some
        { trainer with
          phase := .joining call version thread
          acknowledged := (trainer.request call version).targetVersion }
  | .requestRaises text, .requesting _ _ thread =>
      some
        (trainer.finish (.raised (.request text)) trainer.broadcasts[thread]?)
  | .ends thread error, _ =>
      if trainer.broadcasts[thread]? = some .running then
        some
          { trainer with
            broadcasts := trainer.broadcasts.set thread (.ended error) }
      else
        none
  | .joins, .joining call version thread =>
      if trainer.broadcasts[thread]? = some .running then none
      else some (trainer.conclude call version thread)
  | .joinTimesOut, .joining call version thread =>
      if trainer.broadcasts[thread]? = some .running then
        some (trainer.conclude call version thread)
      else
        none
  | _, _ => none

/-- Between calls the version is the one last acknowledged, and no call has
returned one before its broadcast was finished. -/
def Follows (trainer : Trainer) : Prop :=
  (trainer.phase = .idle → trainer.weightVersion = trainer.acknowledged) ∧
  ∀ outcome ∈ trainer.outcomes, ∀ version,
    outcome.result = .returned version →
      outcome.broadcast = some .finished

/-- What is known where a call stands. -/
def Sound (trainer : Trainer) : Prop :=
  match trainer.phase with
  | .idle => trainer.acknowledged ≤ trainer.weightVersion
  | .materializing _ version =>
      version = trainer.weightVersion ∧
        trainer.acknowledged < trainer.weightVersion
  | .requesting _ version thread =>
      version = trainer.weightVersion ∧
        trainer.acknowledged < trainer.weightVersion ∧
          thread < trainer.broadcasts.length
  | .joining _ version thread =>
      version = trainer.weightVersion ∧
        trainer.acknowledged = trainer.weightVersion ∧
          thread < trainer.broadcasts.length

/-! ## One step -/

variable {trainer next : Trainer}

/-- All that a step can do. -/
inductive Steps (trainer : Trainer) : Event → Trainer → Prop where
  | calls (call : Call) (idle : trainer.phase = .idle) :
      Steps trainer (.calls call) (trainer.begin call)
  | materializes {call : Call} {version : Nat}
      (phase : trainer.phase = .materializing call version) :
      Steps trainer .materializes (trainer.startBroadcast call version)
  | weightsRaise {call : Call} {version : Nat} (text : String)
      (phase : trainer.phase = .materializing call version) :
      Steps trainer (.weightsRaise text)
        (trainer.finish (.raised (.weights text)) none)
  | acknowledges {call : Call} {version thread : Nat}
      (phase : trainer.phase = .requesting call version thread) :
      Steps trainer .acknowledges
        { trainer with
          phase := .joining call version thread
          acknowledged := trainer.version call version }
  | requestRaises {call : Call} {version thread : Nat} (text : String)
      (phase : trainer.phase = .requesting call version thread) :
      Steps trainer (.requestRaises text)
        (trainer.finish (.raised (.request text)) trainer.broadcasts[thread]?)
  | ends (thread : Nat) (error : Option String) :
      Steps trainer (.ends thread error)
        { trainer with
          broadcasts := trainer.broadcasts.set thread (.ended error) }
  | joins {call : Call} {version thread : Nat}
      (phase : trainer.phase = .joining call version thread)
      (ended : trainer.broadcasts[thread]? ≠ some .running) :
      Steps trainer .joins (trainer.conclude call version thread)
  | joinTimesOut {call : Call} {version thread : Nat}
      (phase : trainer.phase = .joining call version thread)
      (runs : trainer.broadcasts[thread]? = some .running) :
      Steps trainer .joinTimesOut (trainer.conclude call version thread)

theorem steps_of_step {event : Event}
    (stepped : trainer.step event = some next) :
    Steps trainer event next := by
  unfold step at stepped
  split at stepped
  · next call idle =>
      cases stepped
      exact .calls call idle
  · next call version phase =>
      cases stepped
      exact .materializes phase
  · next text call version phase =>
      cases stepped
      exact .weightsRaise text phase
  · next call version thread phase =>
      cases stepped
      exact .acknowledges phase
  · next text call version thread phase =>
      cases stepped
      exact .requestRaises text phase
  · next _ thread error =>
      split at stepped
      · cases stepped
        exact .ends thread error
      · cases stepped
  · next call version thread phase =>
      split at stepped
      · cases stepped
      · next ended =>
          cases stepped
          exact .joins phase ended
  · next call version thread phase =>
      split at stepped
      · next runs =>
          cases stepped
          exact .joinTimesOut phase runs
      · cases stepped
  · cases stepped

theorem Sound.step {event : Event} (sound : trainer.Sound)
    (stepped : trainer.step event = some next) : next.Sound := by
  unfold Sound at sound
  cases steps_of_step stepped with
  | calls call idle =>
      simp only [idle] at sound
      have raised : trainer.acknowledged < trainer.weightVersion + 1 :=
        Nat.lt_succ_of_le sound
      cases call with
      | syncWeights model =>
          have started : trainer.broadcasts.length <
              (trainer.broadcasts ++ [Broadcast.running]).length := by simp
          exact And.intro rfl ⟨raised, started⟩
      | updateWeightsFromGenerator metadata => exact And.intro rfl raised
  | materializes phase =>
      simp only [phase] at sound
      simp only [startBroadcast, Sound, List.length_append,
        List.length_singleton]
      omega
  | weightsRaise text phase | requestRaises text phase =>
      simp only [phase] at sound
      simp only [finish, Sound]
      omega
  | @acknowledges call version thread phase =>
      simp only [phase] at sound
      have same : trainer.version call version = trainer.weightVersion := by
        cases call with
        | syncWeights model => rfl
        | updateWeightsFromGenerator metadata => exact sound.1
      simp only [Sound]
      exact ⟨sound.1, same, sound.2.2⟩
  | ends thread error =>
      simp only [Sound, List.length_set]
      exact sound
  | @joins call version thread phase ended
  | @joinTimesOut call version thread phase ended =>
      simp only [phase] at sound
      have between : trainer.acknowledged ≤ trainer.weightVersion :=
        le_of_eq sound.2.1
      unfold conclude
      split <;> exact between

theorem follows_of_not_idle (follows : trainer.Follows)
    (busy : next.phase ≠ .idle)
    (outcomes : next.outcomes = trainer.outcomes) : next.Follows := by
  refine ⟨fun idle => absurd idle busy, ?_⟩
  rw [outcomes]
  exact follows.2

theorem follows_finish (follows : trainer.Follows) (result : Result)
    (broadcast : Option Broadcast) :
    (trainer.finish result broadcast).Follows ↔
      trainer.weightVersion = trainer.acknowledged ∧
        ∀ version, result = .returned version →
          broadcast = some .finished := by
  constructor
  · intro finished
    exact ⟨finished.1 rfl, finished.2 ⟨result, broadcast⟩
      (List.mem_append_right _ (List.mem_singleton_self _))⟩
  · rintro ⟨same, honest⟩
    refine ⟨fun _ => same, ?_⟩
    intro outcome member
    rcases List.mem_append.mp member with old | new
    · exact follows.2 outcome old
    · rw [List.mem_singleton.mp new]
      exact honest

/-- After a `join` all is well unless the broadcast is still running. -/
theorem follows_conclude (follows : trainer.Follows) (call : Call)
    (version : Nat) {thread : Nat}
    (acknowledged : trainer.acknowledged = trainer.weightVersion)
    (started : thread < trainer.broadcasts.length) :
    (trainer.conclude call version thread).Follows ↔
      trainer.broadcasts[thread]? ≠ some .running := by
  unfold conclude
  rw [List.getElem?_eq_getElem started]
  cases trainer.broadcasts[thread] with
  | raised text =>
      refine iff_of_true ?_ (by simp)
      refine (follows_finish follows _ _).mpr ⟨acknowledged.symm, ?_⟩
      intro returned same
      cases same
  | running =>
      refine iff_of_false ?_ (fun different => different rfl)
      intro finished
      have honest := ((follows_finish follows _ _).mp finished).2 _ rfl
      cases honest
  | finished =>
      refine iff_of_true ?_ (by simp)
      exact (follows_finish follows _ _).mpr
        ⟨acknowledged.symm, fun _ _ => rfl⟩

theorem Follows.step_iff {event : Event} (sound : trainer.Sound)
    (follows : trainer.Follows)
    (stepped : trainer.step event = some next) :
    next.Follows ↔ event.isSound := by
  unfold Sound at sound
  cases steps_of_step stepped with
  | calls call idle =>
      refine iff_of_true ?_ rfl
      cases call with
      | syncWeights model =>
          exact follows_of_not_idle follows (by simp [begin, startBroadcast])
            rfl
      | updateWeightsFromGenerator metadata =>
          exact follows_of_not_idle follows (by simp [begin]) rfl
  | materializes phase =>
      refine iff_of_true ?_ rfl
      exact follows_of_not_idle follows (by simp [startBroadcast]) rfl
  | weightsRaise text phase | requestRaises text phase =>
      simp only [phase] at sound
      refine iff_of_false ?_ Bool.false_ne_true
      intro finished
      have same := ((follows_finish follows _ _).mp finished).1
      omega
  | acknowledges phase =>
      refine iff_of_true ?_ rfl
      exact follows_of_not_idle follows (by simp) rfl
  | ends thread error => exact iff_of_true follows rfl
  | @joins call version thread phase ended =>
      simp only [phase] at sound
      refine iff_of_true ?_ rfl
      exact (follows_conclude follows call version sound.2.1 sound.2.2).mpr
        ended
  | @joinTimesOut call version thread phase runs =>
      simp only [phase] at sound
      refine iff_of_false ?_ Bool.false_ne_true
      intro concluded
      exact (follows_conclude follows call version sound.2.1 sound.2.2).mp
        concluded runs

/-! ## Every run -/

theorem sound_init : init.Sound := le_refl _

theorem follows_init : init.Follows :=
  ⟨fun _ => rfl, fun _ member => absurd member List.not_mem_nil⟩

/-- The version follows the acknowledged updates through a run, and only
finished broadcasts return one, if and only if in no call the weights or the
request raise and no `join` times out. -/
theorem run_follows_iff {final : Trainer} {events : List Event}
    (ran : run step init events = some final) :
    StatesMeet step Follows init events ↔
      ∀ event ∈ events, event.isSound := by
  rw [statesMeet_iff_stepsMeet
    (fun _ _ _ sound stepped => Sound.step sound stepped)
    (fun _ _ _ sound follows stepped =>
      Follows.step_iff sound follows stepped)
    sound_init follows_init ran]
  exact stepsMeet_iff_forall ran

/-- A broadcast that finishes, and one that raises, both in time. -/
def twoCalls : List Event :=
  [.calls (.syncWeights []), .ends 0 none, .acknowledges, .joins,
    .calls (.updateWeightsFromGenerator ⟨[], [], []⟩), .materializes,
    .acknowledges, .ends 1 (some "unhandled system error"), .joins]

theorem twoCalls_follows :
    ∃ final, run step init twoCalls = some final ∧
      StatesMeet step Follows init twoCalls := by
  have ran : ∃ final, run step init twoCalls = some final := ⟨_, rfl⟩
  obtain ⟨final, ran⟩ := ran
  exact ⟨final, ran, (run_follows_iff ran).mpr (by decide)⟩

/-- The controller refuses and the version has been raised; the `join` times
out and the version is returned. -/
theorem refused_and_outlasted :
    (∃ final,
      run step init [.calls (.syncWeights []), .requestRaises "503"] =
          some final ∧
        final.outcomes =
          [⟨.raised (.request "503"), some .running⟩] ∧
        final.weightVersion = 1 ∧ final.acknowledged = 0 ∧
        ¬ final.Follows) ∧
    ∃ final,
      run step init [.calls (.syncWeights []), .acknowledges, .joinTimesOut] =
          some final ∧
        final.outcomes = [⟨.returned 1, some .running⟩] ∧
        ¬ final.Follows := by
  refine ⟨⟨_, rfl, rfl, rfl, rfl, ?_⟩, ⟨_, rfl, rfl, ?_⟩⟩
  · intro follows
    have same := follows.1 rfl
    cases same
  · intro follows
    have honest := follows.2 _ (List.mem_singleton_self _) 1 rfl
    cases honest

end Trainer

end LlmDRl.Checkpoint
