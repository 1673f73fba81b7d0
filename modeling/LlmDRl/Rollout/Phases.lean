import LlmDRl.Rollout.Counters

/-!
# The phase of the pool

The handlers of sleep, wake-up and weight updates set the pool's phase: sleep
before its fan-out, wake-up after it, and an update on both ends.  Whether the
engines sleep is decided by the fan-outs, under the pool's lock, and the phase
is set outside of it.  A sleep that fails has already announced itself, and an
update ends in `Serving` whatever the engines do.
-/

namespace LlmDRl.Rollout

open LlmDRl.Library
open LlmDRl.Pool

/-- The request sets the phase and has not been answered. -/
def Handler.SetsPhase : Handler → Prop
  | .updateBegun _ | .updating .. | .updated .. | .published _
  | .sleepBegun | .awake => True
  | _ => False

instance : DecidablePred Handler.SetsPhase := by
  intro handler
  apply Handler.casesOn
    (motive := fun handler => Decidable handler.SetsPhase) handler <;>
  intros <;> first
    | exact instDecidableTrue
    | exact instDecidableFalse

theorem Handler.Generates.not_setsPhase
    {handler : Handler} (generates : handler.Generates) :
    ¬ handler.SetsPhase := by
  intro sets
  cases handler <;> first | exact sets | exact generates

namespace Controller

/-- The phase says whether the engines sleep. -/
def PhaseTrue (control : Controller) : Prop :=
  control.phase = .sleeping ↔ control.asleep = true

/-- If no handler that sets the phase is in progress, it is true. -/
def PhaseHonest (control : Controller) : Prop :=
  (control.requests.AllValues fun handler => ¬ handler.SetsPhase) →
    control.PhaseTrue

/-- The phase is true, or some handler has yet to set it or to be over. -/
def PhaseSettles (control : Controller) : Prop :=
  control.PhaseTrue ∨ control.requests.SomeValue Handler.SetsPhase

/-- A handler that ends leaves the phase true, or is not the last one. -/
def EndsTrue (control : Controller) : ControlEvent → Prop
  | .sleepAll request worlds =>
      (if (worlds control.pool.engines.keys).errors = [] then
          control.phase = .sleeping
        else control.PhaseTrue) ∨
        control.requests.SomeOther request Handler.SetsPhase
  | .endUpdate request | .endWake request =>
      control.asleep = false ∨
        control.requests.SomeOther request Handler.SetsPhase
  | _ => True

/-- A handler that sets the phase begins when no other one is in progress. -/
def PhasesAlone (control : Controller) : ControlEvent → Prop
  | .beginUpdate _ _ | .beginSleep _ | .wakeUpAll _ _ =>
      control.requests.AllValues fun handler => ¬ handler.SetsPhase
  | _ => True

/-- No `SleepAll` fails, unless the engines sleep already, and no update ends
while they sleep. -/
def SleepsSucceed (control : Controller) : ControlEvent → Prop
  | .sleepAll _ worlds =>
      (worlds control.pool.engines.keys).errors = [] ∨
        control.asleep = true
  | .endUpdate _ => control.asleep = false
  | _ => True

instance (control : Controller) : Decidable control.PhaseTrue :=
  inferInstanceAs (Decidable (_ ↔ _))

instance (control : Controller) (event : ControlEvent) :
    Decidable (control.EndsTrue event) := by
  unfold EndsTrue
  split <;> infer_instance

instance (control : Controller) (event : ControlEvent) :
    Decidable (control.PhasesAlone event) := by
  apply ControlEvent.casesOn
    (motive := fun event => Decidable (control.PhasesAlone event)) event <;>
  intros <;> first
    | exact instDecidableTrue
    | exact inferInstanceAs (Decidable (OrderedDict.AllValues _ _))

instance (control : Controller) (event : ControlEvent) :
    Decidable (control.SleepsSucceed event) := by
  unfold SleepsSucceed
  split <;> infer_instance

/-! ## Each step settles the phase -/

variable {control next : Controller}

/-- A step of a request that does not set the phase. -/
theorem PhaseSettles.of_handler
    (settles : control.PhaseSettles) (request : Nat) (handler : Handler)
    (requests : next.requests = control.requests.insert request handler)
    (before : ∀ old, control.requests.get? request = some old →
      ¬ old.SetsPhase)
    (phase : next.phase = control.phase)
    (asleep : next.asleep = control.asleep) :
    next.PhaseSettles := by
  rcases settles with true | setting
  · refine .inl ?_
    rw [PhaseTrue, phase, asleep]
    exact true
  · refine .inr ?_
    rw [requests, OrderedDict.someValue_insert_iff]
    exact .inr ((OrderedDict.someValue_iff_someOther before).mp setting)

/-- A handler that goes on may leave the phase as it likes. -/
theorem phaseSettles_of_handler
    (request : Nat) {handler : Handler}
    (requests : next.requests = control.requests.insert request handler)
    (sets : handler.SetsPhase) :
    next.PhaseSettles := by
  refine .inr ?_
  rw [requests, OrderedDict.someValue_insert_iff]
  exact .inl sets

/-- A handler that ends. -/
theorem phaseSettles_iff_of_finished
    {request : Nat}
    (requests : next.requests =
      control.requests.insert request .finished) :
    next.PhaseSettles ↔
      next.PhaseTrue ∨
        control.requests.SomeOther request Handler.SetsPhase := by
  rw [PhaseSettles, requests, OrderedDict.someValue_insert_iff]
  exact or_congr_right (or_iff_right fun sets => sets)

/-- The phase stays settled exactly when a handler that ends leaves it
true. -/
theorem phaseSettles_step_iff
    {event : ControlEvent} (settles : control.PhaseSettles)
    (stepped : control.step event = some next) :
    next.PhaseSettles ↔ control.EndsTrue event := by
  cases stepped_of_step stepped with
  | pool poolStepped =>
      obtain ⟨requests, _, _, phase, asleep⟩ := poolStepped.frame
      refine iff_of_true ?_ (by cases poolStepped <;> trivial)
      rw [PhaseSettles, PhaseTrue, requests, phase, asleep]
      exact settles
  | generate generateStepped =>
      obtain ⟨request, handler, requests, before, _, _, _, phase, asleep⟩ :=
        generateStepped.frame
      refine iff_of_true ?_ (by cases generateStepped <;> trivial)
      refine settles.of_handler request handler requests ?_ phase asleep
      intro old found
      exact (before old found).not_setsPhase
  | update updateStepped =>
      cases updateStepped with
      | begun request req unlocked fresh =>
          exact iff_of_true (phaseSettles_of_handler request rfl trivial)
            trivial
      | lockedPool request worlds req unlocked begun =>
          exact iff_of_true (phaseSettles_of_handler request rfl trivial)
            trivial
      | returned request req before record remaining version error
          updating =>
          exact iff_of_true (phaseSettles_of_handler request rfl trivial)
            trivial
      | unlockedPool request req returned version error updating =>
          exact iff_of_true (phaseSettles_of_handler request rfl trivial)
            trivial
      | published request req updated =>
          exact iff_of_true (phaseSettles_of_handler request rfl trivial)
            trivial
      | ended request handler found exits unlocked =>
          rw [phaseSettles_iff_of_finished rfl, EndsTrue]
          refine or_congr_left ?_
          simp [PhaseTrue]
  | sleep sleepStepped =>
      cases sleepStepped with
      | begun request fresh =>
          exact iff_of_true (phaseSettles_of_handler request rfl trivial)
            trivial
      | slept request worlds begun =>
          rw [phaseSettles_iff_of_finished rfl, EndsTrue]
          refine or_congr_left ?_
          split
          · next succeeded =>
              simp [PhaseTrue]
          · next failed =>
              simp [PhaseTrue]
      | woke request worlds fresh succeeded =>
          exact iff_of_true (phaseSettles_of_handler request rfl trivial)
            trivial
      | wakeFailed request worlds fresh failed =>
          refine iff_of_true ?_ trivial
          refine settles.of_handler request .finished rfl ?_ rfl rfl
          intro old found
          rw [fresh] at found
          cases found
      | ended request awake =>
          rw [phaseSettles_iff_of_finished rfl, EndsTrue]
          refine or_congr_left ?_
          simp [PhaseTrue]

theorem PhaseSettles.phaseHonest
    (settles : control.PhaseSettles) : control.PhaseHonest := by
  intro quiet
  rcases settles with true | ⟨request, handler, found, sets⟩
  · exact true
  · exact absurd sets (quiet request handler found)

/-! ## One handler at a time -/

/-- One handler that sets the phase is in progress at most.  A sleep finds
the phase it has set, and a wake-up the engines it has woken. -/
structure OneSetsPhase (control : Controller) : Prop where
  alone : control.requests.AtMostOne Handler.SetsPhase
  sleeping : ∀ request, control.requests.get? request = some .sleepBegun →
    control.phase = .sleeping
  woken : ∀ request, control.requests.get? request = some .awake →
    control.asleep = false

/-- A step after which no sleep or wake-up is in progress but those that
were. -/
theorem OneSetsPhase.of_handler
    (one : control.OneSetsPhase) (request : Nat) (handler : Handler)
    (requests : next.requests = control.requests.insert request handler)
    (alone : handler.SetsPhase → ∀ other old,
      control.requests.get? other = some old → old.SetsPhase →
        other = request)
    (sleeping : handler ≠ .sleepBegun) (woken : handler ≠ .awake)
    (phase : next.phase = control.phase)
    (asleep : next.asleep = control.asleep) :
    next.OneSetsPhase where
  alone := by
    rw [requests]
    exact one.alone.insert request handler alone
  sleeping := by
    intro other present
    rw [requests, OrderedDict.get?_insert] at present
    rw [phase]
    split at present
    · exact absurd (Option.some.inj present) sleeping
    · exact one.sleeping other present
  woken := by
    intro other present
    rw [requests, OrderedDict.get?_insert] at present
    rw [asleep]
    split at present
    · exact absurd (Option.some.inj present) woken
    · exact one.woken other present

/-- A step of the only handler that sets the phase, one that begins it or one
that ends it. -/
theorem oneSetsPhase_of_only
    (request : Nat) (handler : Handler)
    (requests : next.requests = control.requests.insert request handler)
    (only : ∀ other old, control.requests.get? other = some old →
      old.SetsPhase → other = request)
    (sleeping : handler = .sleepBegun → next.phase = .sleeping)
    (woken : handler = .awake → next.asleep = false) :
    next.OneSetsPhase := by
  have same : ∀ other present,
      next.requests.get? other = some present → present.SetsPhase →
        other = request ∧ present = handler := by
    intro other present found sets
    rw [requests, OrderedDict.get?_insert] at found
    split at found
    · next otherEq =>
        exact ⟨otherEq, (Option.some.inj found).symm⟩
    · next different =>
        exact absurd (only other present found sets) different
  constructor
  · intro first firstHandler second secondHandler firstFound firstSets
      secondFound secondSets
    exact (same first firstHandler firstFound firstSets).1.trans
      (same second secondHandler secondFound secondSets).1.symm
  · intro other found
    exact sleeping (same other _ found trivial).2.symm
  · intro other found
    exact woken (same other _ found trivial).2.symm

theorem OneSetsPhase.only
    (one : control.OneSetsPhase) {request : Nat} {handler : Handler}
    (found : control.requests.get? request = some handler)
    (sets : handler.SetsPhase) :
    ∀ other old, control.requests.get? other = some old →
      old.SetsPhase → other = request :=
  fun other old present oldSets =>
    one.alone other old request handler present oldSets found sets

theorem OneSetsPhase.step
    {event : ControlEvent} (one : control.OneSetsPhase)
    (alone : control.PhasesAlone event)
    (stepped : control.step event = some next) :
    next.OneSetsPhase := by
  cases stepped_of_step stepped with
  | pool poolStepped =>
      obtain ⟨requests, _, _, phase, asleep⟩ := poolStepped.frame
      refine ⟨?_, ?_, ?_⟩
      · rw [requests]
        exact one.alone
      · rw [requests, phase]
        exact one.sleeping
      · rw [requests, asleep]
        exact one.woken
  | generate generateStepped =>
      obtain ⟨request, handler, requests, _, generates, _, _, phase,
        asleep⟩ := generateStepped.frame
      refine one.of_handler request handler requests
        (fun sets => absurd sets generates.not_setsPhase) ?_ ?_ phase asleep
      · intro same
        exact generates.not_setsPhase (same ▸ trivial)
      · intro same
        exact generates.not_setsPhase (same ▸ trivial)
  | update updateStepped =>
      cases updateStepped with
      | begun request req unlocked fresh =>
          refine oneSetsPhase_of_only request (.updateBegun req) rfl ?_
            (fun same => by cases same) (fun same => by cases same)
          intro other old present sets
          exact absurd sets (alone other old present)
      | lockedPool request worlds req unlocked begun =>
          exact oneSetsPhase_of_only request _ rfl (one.only begun trivial)
            (fun same => by cases same) (fun same => by cases same)
      | returned request req before record remaining version error
          updating =>
          exact oneSetsPhase_of_only request _ rfl
            (one.only updating trivial) (fun same => by cases same)
            (fun same => by cases same)
      | unlockedPool request req returned version error updating =>
          exact oneSetsPhase_of_only request _ rfl
            (one.only updating trivial) (fun same => by cases same)
            (fun same => by cases same)
      | published request req updated =>
          exact oneSetsPhase_of_only request _ rfl
            (one.only updated trivial) (fun same => by cases same)
            (fun same => by cases same)
      | ended request handler found exits unlocked =>
          have sets : handler.SetsPhase := by
            rcases exits with ⟨req, rfl⟩ | ⟨req, error, rfl⟩ <;> trivial
          exact oneSetsPhase_of_only request .finished rfl
            (one.only found sets) (fun same => by cases same)
            (fun same => by cases same)
  | sleep sleepStepped =>
      cases sleepStepped with
      | begun request fresh =>
          refine oneSetsPhase_of_only request .sleepBegun rfl ?_
            (fun _ => rfl) (fun same => by cases same)
          intro other old present sets
          exact absurd sets (alone other old present)
      | slept request worlds begun =>
          exact oneSetsPhase_of_only request .finished rfl
            (one.only begun trivial) (fun same => by cases same)
            (fun same => by cases same)
      | woke request worlds fresh succeeded =>
          refine oneSetsPhase_of_only request .awake rfl ?_
            (fun same => by cases same) (fun _ => rfl)
          intro other old present sets
          exact absurd sets (alone other old present)
      | wakeFailed request worlds fresh failed =>
          exact one.of_handler request .finished rfl
            (fun sets => absurd sets id) (fun same => by cases same)
            (fun same => by cases same) rfl rfl
      | ended request awake =>
          exact oneSetsPhase_of_only request .finished rfl
            (one.only awake trivial) (fun same => by cases same)
            (fun same => by cases same)

theorem oneSetsPhase_init : init.OneSetsPhase := by
  refine ⟨?_, ?_, ?_⟩
  · intro first firstHandler second secondHandler found
    cases found
  · intro request found
    cases found
  · intro request found
    cases found

/-- Alone, a handler leaves the phase true exactly if a sleep succeeds, or
changes nothing, and an update finds the engines awake. -/
theorem OneSetsPhase.endsTrue_iff
    {event : ControlEvent} (one : control.OneSetsPhase)
    (stepped : control.step event = some next) :
    control.EndsTrue event ↔ control.SleepsSucceed event := by
  have noOther : ∀ {request : Nat} {handler : Handler},
      control.requests.get? request = some handler → handler.SetsPhase →
        ¬ control.requests.SomeOther request Handler.SetsPhase := by
    intro request handler found sets someOther
    obtain ⟨other, old, different, present, oldSets⟩ := someOther
    exact different (one.only found sets other old present oldSets)
  cases stepped_of_step stepped with
  | pool poolStepped =>
      cases poolStepped <;> exact Iff.rfl
  | generate generateStepped =>
      cases generateStepped <;> exact Iff.rfl
  | update updateStepped =>
      cases updateStepped with
      | ended request handler found exits unlocked =>
          have sets : handler.SetsPhase := by
            rcases exits with ⟨req, rfl⟩ | ⟨req, error, rfl⟩ <;> trivial
          exact or_iff_left (noOther found sets)
      | _ =>
          exact Iff.rfl
  | sleep sleepStepped =>
      cases sleepStepped with
      | slept request worlds begun =>
          have sleeping := one.sleeping request begun
          refine (or_iff_left (noOther begun trivial)).trans ?_
          rw [SleepsSucceed]
          split
          · next succeeded =>
              exact iff_of_true sleeping (.inl succeeded)
          · next failed =>
              rw [PhaseTrue, or_iff_right failed]
              exact iff_true_left sleeping
      | ended request awake =>
          exact iff_of_true (.inl (one.woken request awake)) trivial
      | _ =>
          exact Iff.rfl

/-! ## Whole runs -/

/-- As long as every handler that ends leaves the phase true, or is not the
last one, the phase is true whenever no such handler is in progress.  For
handlers that come one at a time this means that no sleep fails on engines that
are awake, and no update is made on engines that sleep. -/
theorem phase_honest_if_handlers_end_true
    (events : List ControlEvent) (final : Controller)
    (ran : run step init events = some final) :
    (StatesMeet step PhaseSettles init events ↔
        StepsMeet step EndsTrue init events) ∧
      (StepsMeet step EndsTrue init events →
        StatesMeet step PhaseHonest init events) ∧
      (StepsMeet step PhasesAlone init events →
        (StepsMeet step EndsTrue init events ↔
          StepsMeet step SleepsSucceed init events)) := by
  have unrestricted : ∀ (control : Controller) (event : ControlEvent)
      (next : Controller), True → control.step event = some next → True :=
    fun _ _ _ kept _ => kept
  have settled :
      StatesMeet step PhaseSettles init events ↔
        StepsMeet step EndsTrue init events :=
    statesMeet_iff_stepsMeet unrestricted
      (fun _ _ _ _ settles stepped => phaseSettles_step_iff settles stepped)
      trivial (.inl (by decide)) ran
  have preserved : ∀ (control : Controller) (event : ControlEvent)
      (next : Controller), control.OneSetsPhase →
        control.PhasesAlone event → control.step event = some next →
          next.OneSetsPhase :=
    fun _ _ _ one alone stepped => one.step alone stepped
  refine ⟨settled, ?_, ?_⟩
  · intro ends
    exact (settled.mpr ends).mono fun _ settles => settles.phaseHonest
  · intro alone
    exact alone.congr_of_invariant preserved
      (fun _ _ _ one stepped => one.endsTrue_iff stepped)
      oneSetsPhase_init ran

/-! ## Asleep and awake -/

/-- Every call on every engine fails. -/
def noneAnswer (engines : List String) : Answers engines :=
  ⟨engines, fun _ => some "connection refused", .refl engines⟩

def sleepWakeUpdate : List ControlEvent :=
  oneEngine ++
    [.beginSleep 1, .sleepAll 1 allAnswer, .wakeUpAll 2 allAnswer,
      .endWake 2] ++
    .beginUpdate 3 (updateTo 1) :: updatesPool 3 ++
    [.publish 3, .endUpdate 3]

theorem phase_honest_through_sleep_wake_update :
    ∃ final, run step init sleepWakeUpdate = some final ∧
      StatesMeet step PhaseHonest init sleepWakeUpdate := by
  obtain ⟨final, ran, _⟩ :=
    exists_final_of_map_eq
      (show (run step init sleepWakeUpdate).map (fun _ => true) = some true
        by decide +kernel)
  obtain ⟨_, honest, alone⟩ :=
    phase_honest_if_handlers_end_true _ final ran
  exact ⟨final, ran,
    honest ((alone (by decide +kernel)).mpr (by decide +kernel))⟩

/-- A sleep that fails on every engine leaves the phase `Sleeping`; an update
of engines that sleep leaves it `Serving`. -/
theorem failed_sleep_and_update_asleep_leave_the_phase_false :
    (∃ final,
      run step init (oneEngine ++ [.beginSleep 1, .sleepAll 1 noneAnswer]) =
          some final ∧
        final.phase = .sleeping ∧ final.asleep = false ∧
        ¬ final.PhaseHonest) ∧
    ∃ final,
      run step init
          (oneEngine ++ [.beginSleep 1, .sleepAll 1 allAnswer] ++
            .beginUpdate 2 (updateTo 1) :: updatesPool 2 ++
            [.publish 2, .endUpdate 2]) = some final ∧
        final.phase = .serving ∧ final.asleep = true ∧
        ¬ final.PhaseHonest := by
  have dishonest : ∀ control : Controller,
      control.requests.AllValues (fun handler => ¬ handler.SetsPhase) ∧
          ¬ control.PhaseTrue → ¬ control.PhaseHonest :=
    fun control held honest => held.2 (honest held.1)
  constructor
  · obtain ⟨final, ran, test⟩ :=
      exists_final_of_map_eq
        (show (run step init
          (oneEngine ++ [.beginSleep 1, .sleepAll 1 noneAnswer])).map
            (fun final => decide
              ((final.phase = .sleeping ∧ final.asleep = false) ∧
                final.requests.AllValues
                  (fun handler => ¬ handler.SetsPhase) ∧
                ¬ final.PhaseTrue)) = some true
          by decide +kernel)
    obtain ⟨⟨phase, asleep⟩, held⟩ := of_decide_eq_true test
    exact ⟨final, ran, phase, asleep, dishonest final held⟩
  · obtain ⟨final, ran, test⟩ :=
      exists_final_of_map_eq
        (show (run step init
          (oneEngine ++ [.beginSleep 1, .sleepAll 1 allAnswer] ++
            .beginUpdate 2 (updateTo 1) :: updatesPool 2 ++
            [.publish 2, .endUpdate 2])).map
            (fun final => decide
              ((final.phase = .serving ∧ final.asleep = true) ∧
                final.requests.AllValues
                  (fun handler => ¬ handler.SetsPhase) ∧
                ¬ final.PhaseTrue)) = some true
          by decide +kernel)
    obtain ⟨⟨phase, asleep⟩, held⟩ := of_decide_eq_true test
    exact ⟨final, ran, phase, asleep, dishonest final held⟩

end Controller

end LlmDRl.Rollout
