import LlmDRl.Library.Runs

/-!
# The router launcher

`_run` of `cli.py` with the `RouterStack` it drives: EPP is started and waited
for, then Envoy if it has a config; a watcher polls both until a signal or a
death stops them.  Only the last part of `_run` reaches `stop`.

A run is cut where something outside can happen: a child exits, a signal is
delivered, the watcher wakes up.
-/

namespace LlmDRl.Launcher

open LlmDRl.Library

inductive Program where
  | epp
  | envoy
  deriving DecidableEq, Repr

/-- How a child came to exit. -/
inductive Ending where
  | alone
  | terminated
  | killed
  deriving DecidableEq, Repr

/-- A child is `exited` until it has been waited for. -/
inductive Child where
  | running
  | exited
  | reaped (ending : Ending)
  deriving DecidableEq, Repr

/-- `poll()`, and whether it returned an exit code. -/
def Child.poll : Child → Child × Bool
  | running => (running, false)
  | exited => (reaped .alone, true)
  | reaped ending => (reaped ending, true)

/-- One round of the loop of `stop`: a child that is still running gets a
`SIGTERM`, and a `SIGKILL` if it does not obey in time. -/
def Child.stop (obeys : Bool) (child : Child) : Child :=
  match child.poll with
  | (child, true) => child
  | (_, false) => if obeys then reaped .terminated else reaped .killed

/-- The child has exited and has been waited for. -/
def Child.isReaped : Child → Bool
  | reaped _ => true
  | running | exited => false

/-- The child has still to be waited for. -/
def Child.isOpen (child : Child) : Bool := !child.isReaped

/-- The child exited without being told to. -/
def Child.diedAlone (child : Child) : Bool :=
  child = exited ∨ child = reaped .alone

structure Args where
  eppConfig : String
  envoyConfig : Option String := none
  grpcHealthPort : Int := 9003
  envoyPort : Int := 8081

/-- `if args.envoy_config` -/
def Args.envoyConfig? (args : Args) : Option String :=
  args.envoyConfig.filter fun config => config ≠ ""

/-- What a start finds: the binary its environment names, which files exist,
and whether the log can be opened and the process spawned. -/
structure Host where
  binary : String
  binaryIsFile : Bool
  configIsFile : Bool
  spawns : Bool

inductive StartError where
  /-- `ValueError` -/
  | configRequired (title : String)
  /-- `RuntimeError` -/
  | binaryNotFound (title path : String)
  /-- `RuntimeError` -/
  | configNotFound (title path : String)
  /-- `OSError` -/
  | os
  deriving DecidableEq, Repr

/-- What precedes the child in `start_epp` and `start_envoy`. -/
def startError (title config : String) (host : Host) : Option StartError :=
  if config = "" then some (.configRequired title)
  else if ¬ host.binaryIsFile then
    some (.binaryNotFound title host.binary)
  else if ¬ host.configIsFile then some (.configNotFound title config)
  else if ¬ host.spawns then some .os
  else none

/-- How `wait_port` comes out; the timeout of EPP is read from the environment
and need not be a number. -/
inductive Wait where
  | accepts
  | timesOut
  | badTimeout
  deriving DecidableEq, Repr

inductive RunError where
  | start (error : StartError)
  /-- `RuntimeError`, and the port of `127.0.0.1` -/
  | timedOut (port : Int)
  /-- `ValueError` -/
  | badTimeout
  deriving DecidableEq, Repr

/-- The text of the exception, given `repr` of a string, the timeout as it is
printed and the texts that Python chooses. -/
def RunError.message (repr : String → String) (timeout os float : String) :
    RunError → String
  | start (.configRequired title) => s!"{title} config file is required"
  | start (.binaryNotFound title path) =>
      s!"{title} binary not found at {repr path}"
  | start (.configNotFound title path) =>
      s!"{title} config not found: {repr path}"
  | start .os => os
  | timedOut port =>
      s!"Timed out after {timeout}s waiting for 127.0.0.1:{port}"
  | badTimeout => float

inductive Result where
  | returned (code : Int)
  | raised (error : RunError)
  deriving DecidableEq, Repr

/-- Where `_run` stands; `stop` takes Envoy first. -/
inductive Phase where
  | startingEpp
  | waitingEpp
  | startingEnvoy
  | waitingEnvoy
  | watching
  | stoppingEnvoy
  | stoppingEpp
  | done (result : Result)
  deriving DecidableEq, Repr

structure Launch where
  phase : Phase
  epp : Option Child
  envoy : Option Child
  /-- The event `stopping`. -/
  stopping : Bool
  /-- What the watcher found. -/
  died : List Program
  /-- History: a child had exited on its own when `stop` was called. -/
  lost : Bool

inductive Event where
  | starts (host : Host)
  | waits (outcome : Wait)
  | dies (program : Program)
  | signal
  | polls
  | resumes
  | stops (obeys : Bool)

namespace Launch

def init : Launch := ⟨.startingEpp, none, none, false, [], false⟩

def child (launch : Launch) : Program → Option Child
  | .epp => launch.epp
  | .envoy => launch.envoy

def setChild (launch : Launch) (program : Program) (child : Child) :
    Launch :=
  match program with
  | .epp => { launch with epp := some child }
  | .envoy => { launch with envoy := some child }

def finish (launch : Launch) (result : Result) : Launch :=
  { launch with phase := .done result }

/-- A child exited on its own. -/
def someDied (launch : Launch) : Bool :=
  launch.epp.any Child.diedAlone || launch.envoy.any Child.diedAlone

/-- One pass of `_watch` over the children. -/
def watch : List Program → Launch → Launch
  | [], launch => launch
  | program :: rest, launch =>
      match launch.child program with
      | none => watch rest launch
      | some child =>
          match child.poll with
          | (child, true) =>
              { launch.setChild program child with
                died := launch.died ++ [program]
                stopping := true }
          | (_, false) => watch rest launch

variable (args : Args)

/-- Up to `Popen`, of EPP or of Envoy. -/
def start (launch : Launch) (host : Host) : Option Launch :=
  match launch.phase with
  | .startingEpp =>
      match startError "EPP" args.eppConfig host with
      | some error => some (launch.finish (.raised (.start error)))
      | none =>
          some { launch with phase := .waitingEpp, epp := some .running }
  | .startingEnvoy =>
      match startError "Envoy" (args.envoyConfig?.getD "") host with
      | some error => some (launch.finish (.raised (.start error)))
      | none =>
          some
            { launch with phase := .waitingEnvoy, envoy := some .running }
  | _ => none

/-- `wait_port`, which does not look at the child. -/
def wait (launch : Launch) (outcome : Wait) : Option Launch :=
  match launch.phase with
  | .waitingEpp =>
      match outcome with
      | .accepts =>
          match args.envoyConfig? with
          | some _ => some { launch with phase := .startingEnvoy }
          | none => some { launch with phase := .watching }
      | .timesOut =>
          some (launch.finish (.raised (.timedOut args.grpcHealthPort)))
      | .badTimeout => some (launch.finish (.raised .badTimeout))
  | .waitingEnvoy =>
      match outcome with
      | .accepts => some { launch with phase := .watching }
      | .timesOut =>
          some (launch.finish (.raised (.timedOut args.envoyPort)))
      | .badTimeout => none
  | _ => none

/-- A child exits on its own, while `_run` is under way. -/
def die (launch : Launch) (program : Program) : Option Launch :=
  match launch.phase, launch.child program with
  | .done _, _ => none
  | _, some .running => some (launch.setChild program .exited)
  | _, _ => none

/-- The watcher wakes up, unless it has returned. -/
def poll (launch : Launch) : Option Launch :=
  if launch.phase = .watching ∧ launch.died = [] then
    some (watch [.epp, .envoy] launch)
  else
    none

/-- `_run` wakes up, cancels the watcher and calls `stop`. -/
def resume (launch : Launch) : Option Launch :=
  if launch.phase = .watching ∧ launch.stopping then
    some
      { launch with phase := .stoppingEnvoy, lost := launch.someDied }
  else
    none

/-- One round of the loop of `stop`, and the `return` after the last. -/
def stopNext (launch : Launch) (obeys : Bool) : Option Launch :=
  match launch.phase with
  | .stoppingEnvoy =>
      some
        { launch with
          phase := .stoppingEpp
          envoy := launch.envoy.map (Child.stop obeys) }
  | .stoppingEpp =>
      some
        { launch with
          phase := .done (.returned (if launch.died = [] then 0 else 1))
          epp := launch.epp.map (Child.stop obeys) }
  | _ => none

/-- The handlers stay installed until the end. -/
def handle (launch : Launch) : Option Launch :=
  match launch.phase with
  | .watching | .stoppingEnvoy | .stoppingEpp =>
      some { launch with stopping := true }
  | _ => none

def step (launch : Launch) : Event → Option Launch
  | .starts host => launch.start args host
  | .waits outcome => launch.wait args outcome
  | .dies program => launch.die program
  | .signal => launch.handle
  | .polls => launch.poll
  | .resumes => launch.resume
  | .stops obeys => launch.stopNext obeys

/-- Every child that was started has exited and been waited for. -/
def allReaped (launch : Launch) : Bool :=
  launch.epp.all Child.isReaped && launch.envoy.all Child.isReaped

/-- Once EPP is running nothing fails until the handlers are installed, and
`_run` does not wake up before the watcher has noticed a death. -/
def Careful (launch : Launch) : Event → Prop
  | .starts host =>
      launch.epp ≠ none →
        startError "Envoy" (args.envoyConfig?.getD "") host = none
  | .waits outcome => outcome = .accepts
  | .resumes => launch.someDied → launch.died ≠ []
  | _ => True

instance (launch : Launch) (event : Event) :
    Decidable (launch.Careful args event) := by
  unfold Careful
  split <;> infer_instance

/-- An error after EPP was started leaves it behind; and once `stop` has been
called without a death noticed, the return code will not tell of any. -/
def Failed (launch : Launch) : Prop :=
  match launch.phase with
  | .stoppingEnvoy | .stoppingEpp | .done (.returned _) =>
      launch.lost ∧ launch.died = []
  | .done (.raised _) => launch.epp ≠ none
  | _ => False

/-- What is known of the children where `_run` stands. -/
def Sound (launch : Launch) : Prop :=
  match launch.phase with
  | .startingEpp => launch.epp = none ∧ launch.envoy = none
  | .waitingEpp | .startingEnvoy =>
      launch.epp.any Child.isOpen ∧ launch.envoy = none
  | .waitingEnvoy => launch.epp.any Child.isOpen
  | .watching | .stoppingEnvoy => True
  | .stoppingEpp => launch.envoy.all Child.isReaped
  | .done (.raised _) =>
      (launch.epp = none ∧ launch.envoy = none) ∨
        launch.epp.any Child.isOpen
  | .done (.returned code) =>
      launch.allReaped ∧ code = if launch.died = [] then 0 else 1

/-! ## One step -/

section Steps

variable {args : Args} {launch next : Launch}

theorem isReaped_stop (obeys : Bool) (child : Child) :
    (child.stop obeys).isReaped := by
  cases child with
  | running =>
      cases obeys <;> rfl
  | exited =>
      rfl
  | reaped ending =>
      rfl

theorem all_isReaped_map_stop (obeys : Bool) (child : Option Child) :
    (child.map (Child.stop obeys)).all Child.isReaped := by
  cases child with
  | none =>
      rfl
  | some child =>
      exact isReaped_stop obeys child

theorem phase_watch (programs : List Program) (launch : Launch) :
    (watch programs launch).phase = launch.phase := by
  induction programs with
  | nil =>
      rfl
  | cons program rest inductionHypothesis =>
      rw [watch]
      split
      · exact inductionHypothesis
      · split
        · cases program <;> rfl
        · exact inductionHypothesis

/-- A child that exits on its own was running and is not reaped yet. -/
theorem die_cases
    {program : Program} (stepped : launch.die program = some next) :
    launch.child program = some .running ∧
      next = launch.setChild program .exited ∧
        ∀ result, launch.phase ≠ .done result := by
  unfold die at stepped
  split at stepped
  · cases stepped
  · next running notDone =>
      cases stepped
      exact ⟨running, rfl, notDone⟩
  · cases stepped

theorem Sound.start
    {host : Host} (sound : launch.Sound)
    (stepped : launch.start args host = some next) :
    next.Sound ∧
      (next.Failed ↔
        launch.Failed ∨ ¬ launch.Careful args (.starts host)) := by
  unfold Launch.start at stepped
  unfold Sound at sound
  split at stepped
  · next phase =>
      simp only [phase] at sound
      split at stepped
      · cases stepped
        simp [Sound, Failed, Careful, finish, phase, sound.1, sound.2]
      · cases stepped
        simp [Sound, Failed, Careful, phase, sound.1, sound.2,
          Child.isOpen, Child.isReaped]
  · next phase =>
      simp only [phase] at sound
      have started : launch.epp ≠ none := by
        intro absent
        rw [absent] at sound
        cases sound.1
      split at stepped
      · next found =>
          cases stepped
          simp [Sound, Failed, Careful, finish, phase, sound.1, found,
            started]
      · next found =>
          cases stepped
          simp [Sound, Failed, Careful, phase, sound.1, found]
  · cases stepped

theorem Sound.wait
    {outcome : Wait} (sound : launch.Sound)
    (stepped : launch.wait args outcome = some next) :
    next.Sound ∧
      (next.Failed ↔
        launch.Failed ∨ ¬ launch.Careful args (.waits outcome)) := by
  unfold Launch.wait at stepped
  unfold Sound at sound
  split at stepped
  · next phase =>
      simp only [phase] at sound
      have started : launch.epp ≠ none := by
        intro absent
        rw [absent] at sound
        cases sound.1
      cases outcome with
      | accepts =>
          dsimp only at stepped
          split at stepped
          · cases stepped
            simp [Sound, Failed, Careful, phase, sound.1, sound.2]
          · cases stepped
            simp [Sound, Failed, Careful, phase]
      | timesOut =>
          cases stepped
          simp [Sound, Failed, Careful, finish, phase, sound.1, started]
      | badTimeout =>
          cases stepped
          simp [Sound, Failed, Careful, finish, phase, sound.1, started]
  · next phase =>
      simp only [phase] at sound
      have started : launch.epp ≠ none := by
        intro absent
        rw [absent] at sound
        cases sound
      cases outcome with
      | accepts =>
          cases stepped
          simp [Sound, Failed, Careful, phase]
      | timesOut =>
          cases stepped
          simp [Sound, Failed, Careful, finish, phase, sound, started]
      | badTimeout =>
          cases stepped
  · cases stepped

theorem Sound.die
    {program : Program} (sound : launch.Sound)
    (stepped : launch.die program = some next) :
    next.Sound ∧ (next.Failed ↔ launch.Failed) := by
  obtain ⟨running, rfl, notDone⟩ := die_cases stepped
  unfold Sound at sound
  cases program with
  | epp =>
      change launch.epp = some .running at running
      cases phase : launch.phase with
      | done result =>
          exact absurd phase (notDone result)
      | startingEpp =>
          simp only [phase, running] at sound
          cases sound.1
      | waitingEpp =>
          simp only [phase] at sound
          simp [Sound, Failed, setChild, phase, sound.2, Child.isOpen,
            Child.isReaped]
      | startingEnvoy =>
          simp only [phase] at sound
          simp [Sound, Failed, setChild, phase, sound.2, Child.isOpen,
            Child.isReaped]
      | waitingEnvoy =>
          simp [Sound, Failed, setChild, phase, Child.isOpen,
            Child.isReaped]
      | watching =>
          simp [Sound, Failed, setChild, phase]
      | stoppingEnvoy =>
          simp [Sound, Failed, setChild, phase]
      | stoppingEpp =>
          simp only [phase] at sound
          simp [Sound, Failed, setChild, phase, sound]
  | envoy =>
      change launch.envoy = some .running at running
      cases phase : launch.phase with
      | done result =>
          exact absurd phase (notDone result)
      | startingEpp =>
          simp only [phase, running] at sound
          cases sound.2
      | waitingEpp =>
          simp only [phase, running] at sound
          cases sound.2
      | startingEnvoy =>
          simp only [phase, running] at sound
          cases sound.2
      | waitingEnvoy =>
          simp only [phase] at sound
          simp [Sound, Failed, setChild, phase, sound]
      | watching =>
          simp [Sound, Failed, setChild, phase]
      | stoppingEnvoy =>
          simp [Sound, Failed, setChild, phase]
      | stoppingEpp =>
          simp only [phase, running] at sound
          cases sound

theorem Sound.of_poll
    (stepped : launch.poll = some next) :
    next.Sound ∧ (next.Failed ↔ launch.Failed) := by
  unfold Launch.poll at stepped
  split at stepped
  · next enabled =>
      cases stepped
      have phase := enabled.1
      have after : (watch [.epp, .envoy] launch).phase = .watching := by
        rw [phase_watch, phase]
      simp [Sound, Failed, phase, after]
  · cases stepped

theorem Sound.of_resume (stepped : launch.resume = some next) :
    next.Sound ∧
      (next.Failed ↔
        launch.Failed ∨ ¬ launch.Careful args .resumes) := by
  unfold Launch.resume at stepped
  split at stepped
  · next enabled =>
      cases stepped
      have phase := enabled.1
      simp [Sound, Failed, Careful, phase]
  · cases stepped

theorem Sound.stopNext
    {obeys : Bool} (sound : launch.Sound)
    (stepped : launch.stopNext obeys = some next) :
    next.Sound ∧ (next.Failed ↔ launch.Failed) := by
  unfold Launch.stopNext at stepped
  unfold Sound at sound
  split at stepped
  · next phase =>
      cases stepped
      have reaped := all_isReaped_map_stop obeys launch.envoy
      simp [Sound, Failed, phase, reaped]
  · next phase =>
      cases stepped
      simp only [phase] at sound
      have reaped := all_isReaped_map_stop obeys launch.epp
      simp [Sound, Failed, phase, allReaped, reaped, sound]
  · cases stepped

theorem Sound.handle
    (sound : launch.Sound) (stepped : launch.handle = some next) :
    next.Sound ∧ (next.Failed ↔ launch.Failed) := by
  unfold Launch.handle at stepped
  split at stepped
  · next phase =>
      cases stepped
      simp [Sound, Failed, phase]
  · next phase =>
      cases stepped
      simp [Sound, Failed, phase]
  · next phase =>
      cases stepped
      unfold Sound at sound
      simp only [phase] at sound
      simp [Sound, Failed, phase, sound]
  · cases stepped

/-- A launch fails in exactly the steps that are not careful. -/
theorem Sound.step
    {event : Event} (sound : launch.Sound)
    (stepped : launch.step args event = some next) :
    next.Sound ∧
      (next.Failed ↔ launch.Failed ∨ ¬ launch.Careful args event) := by
  cases event with
  | starts host =>
      exact sound.start stepped
  | waits outcome =>
      exact sound.wait stepped
  | dies program =>
      obtain ⟨soundNext, failed⟩ := sound.die stepped
      simp [soundNext, failed, Careful]
  | signal =>
      obtain ⟨soundNext, failed⟩ := sound.handle stepped
      simp [soundNext, failed, Careful]
  | polls =>
      obtain ⟨soundNext, failed⟩ := Sound.of_poll stepped
      simp [soundNext, failed, Careful]
  | resumes =>
      exact Sound.of_resume stepped
  | stops obeys =>
      obtain ⟨soundNext, failed⟩ := sound.stopNext stepped
      simp [soundNext, failed, Careful]

end Steps

/-! ## Whole runs -/

theorem sound_init : init.Sound := ⟨rfl, rfl⟩

/-- When `_run` has ended, it has failed if it leaves a child behind or hides
a death. -/
theorem Sound.failed_iff
    {launch : Launch} {result : Result} (sound : launch.Sound)
    (ended : launch.phase = .done result) :
    launch.Failed ↔
      ¬ (launch.allReaped ∧
        ∀ code, result = .returned code → launch.lost → code ≠ 0) := by
  unfold Sound at sound
  unfold Failed
  cases result with
  | raised error =>
      simp only [ended] at sound ⊢
      have vacuous : ∀ code, Result.raised error = .returned code →
          launch.lost → code ≠ 0 := by
        intro code same
        cases same
      rw [and_iff_left vacuous]
      rcases sound with ⟨noEpp, noEnvoy⟩ | waiting
      · simp [allReaped, noEpp, noEnvoy]
      · cases child : launch.epp with
        | none =>
            rw [child] at waiting
            cases waiting
        | some epp =>
            have openChild : epp.isReaped = false := by
              simpa [child, Child.isOpen] using waiting
            simp [allReaped, child, openChild]
  | returned code =>
      simp only [ended] at sound ⊢
      obtain ⟨reaped, rfl⟩ := sound
      simp [reaped]

/-- `_run` ends with every child waited for, and with an exit code that tells
of a child that died on its own, exactly when each step of the run is
careful. -/
theorem run_never_orphans_iff
    (args : Args) (events : List Event) (final : Launch) (result : Result)
    (ran : run (step args) init events = some final)
    (ended : final.phase = .done result) :
    (final.allReaped ∧
        ∀ code, result = .returned code → final.lost → code ≠ 0) ↔
      StepsMeet (step args) (Careful args) init events := by
  have sound : final.Sound := run_invariant
    (fun _ _ _ sound stepped => (Sound.step sound stepped).1) sound_init ran
  have failed := flag_iff_someStep
    (fun _ _ _ sound stepped => (Sound.step sound stepped).1)
    (fun _ _ _ sound stepped => (Sound.step sound stepped).2) sound_init ran
  have notInitially : ¬ init.Failed := not_false
  rw [or_iff_right notInitially] at failed
  rw [stepsMeet_iff_not_someStep ran, ← failed, sound.failed_iff ended,
    not_not]

/-- EPP and Envoy, both with a config. -/
def bothPrograms : Args where
  eppConfig := "/etc/epp.yaml"
  envoyConfig := some "/etc/envoy.yaml"

/-- Everything a start looks for is there. -/
def ready : Host := ⟨"/usr/local/bin/epp", true, true, true⟩

/-- The launch up to the handlers. -/
def up : List Event :=
  [.starts ready, .waits .accepts, .starts ready, .waits .accepts]

/-- Envoy dies, the watcher notices, and EPP has to be killed. -/
def noticedDeath : List Event :=
  up ++ [.polls, .dies .envoy, .polls, .resumes, .stops true, .stops false]

theorem noticed_death_is_told :
    ∃ final, run (step bothPrograms) init noticedDeath = some final ∧
      final.phase = .done (.returned 1) ∧
      final.allReaped ∧
        ∀ code, Result.returned 1 = .returned code → final.lost →
          code ≠ 0 := by
  refine ⟨_, rfl, rfl, ?_⟩
  exact (run_never_orphans_iff bothPrograms noticedDeath _ (.returned 1) rfl
    rfl).mpr (by decide)

/-- EPP survives when it is not ready in time, and when Envoy can not be
started; and a death just before a signal is not told. -/
theorem children_left_behind :
    (run (step bothPrograms) init [.starts ready, .waits .timesOut]).map
        (fun final => (final.phase, final.epp)) =
      some (.done (.raised (.timedOut 9003)), some .running) ∧
    (run (step bothPrograms) init
        [.starts ready, .waits .accepts,
          .starts { ready with configIsFile := false }]).map
        (fun final => (final.phase, final.epp)) =
      some
        (.done (.raised (.start (.configNotFound "Envoy"
          "/etc/envoy.yaml"))), some .running) ∧
    (run (step bothPrograms) init
        (up ++ [.polls, .dies .epp, .signal, .resumes, .stops true,
          .stops true])).map
        (fun final => (final.phase, final.lost)) =
      some (.done (.returned 0), true) := by
  decide

end Launch

end LlmDRl.Launcher
