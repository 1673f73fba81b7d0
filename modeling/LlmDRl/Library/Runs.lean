import Mathlib.Algebra.Order.Field.Rat
import Mathlib.Tactic.Linarith

/-!
# Runs of a partial step function

A system is given by `step : State → Event → Option State`; an event that is
not enabled gives `none`.  `run` executes a list of events from the front.

Three rules are stated once and used by every component: an invariant that
every step keeps holds after every run; an invariant that is kept by the steps
meeting a condition holds after every run whose steps all meet it; and a
quantity that every step raises by a known non-negative gain stays where it
was exactly when no step of the run had a gain.
-/

namespace LlmDRl.Library

universe u v

variable {State : Type u} {Event : Type v}

/-- Execute events from the front; `none` if one of them is not enabled. -/
def run (step : State → Event → Option State) :
    State → List Event → Option State
  | state, [] => some state
  | state, event :: rest =>
      (step state event).bind fun next => run step next rest

/-- Every step of the run meets `condition` in the state before it. -/
def StepsMeet (step : State → Event → Option State)
    (condition : State → Event → Prop) :
    State → List Event → Prop
  | _, [] => True
  | state, event :: rest =>
      condition state event ∧
        ∀ next, step state event = some next →
          StepsMeet step condition next rest

/-- Every state the run passes through, its first one included, meets
`condition`. -/
def StatesMeet (step : State → Event → Option State)
    (condition : State → Prop) :
    State → List Event → Prop
  | state, [] => condition state
  | state, event :: rest =>
      condition state ∧
        ∀ next, step state event = some next →
          StatesMeet step condition next rest

/-- Some step of the run meets `condition` in the state before it. -/
def SomeStep (step : State → Event → Option State)
    (condition : State → Event → Prop) :
    State → List Event → Prop
  | _, [] => False
  | state, event :: rest =>
      condition state event ∨
        ∃ next, step state event = some next ∧
          SomeStep step condition next rest

/-- What the steps of a run emit, in order. -/
def emitted {Output : Type*} (step : State → Event → Option State)
    (emit : State → Event → List Output) :
    State → List Event → List Output
  | _, [] => []
  | state, event :: rest =>
      emit state event ++
        match step state event with
        | some next => emitted step emit next rest
        | none => []

section Rules

variable {step : State → Event → Option State}

theorem run_cons_eq_some
    {state final : State} {event : Event} {rest : List Event} :
    run step state (event :: rest) = some final ↔
      ∃ next, step state event = some next ∧
        run step next rest = some final := by
  simp only [run, Option.bind_eq_some_iff]

theorem run_append
    {start middle : State} {before : List Event}
    (ran : run step start before = some middle) (after : List Event) :
    run step start (before ++ after) = run step middle after := by
  induction before generalizing start with
  | nil =>
      cases ran
      rfl
  | cons event rest inductionHypothesis =>
      obtain ⟨next, stepped, continued⟩ := run_cons_eq_some.mp ran
      simp only [List.cons_append, run, stepped, Option.bind_some]
      exact inductionHypothesis continued

theorem exists_middle_of_run_append
    {start final : State} {before after : List Event}
    (ran : run step start (before ++ after) = some final) :
    ∃ middle, run step start before = some middle ∧
      run step middle after = some final := by
  induction before generalizing start with
  | nil =>
      exact ⟨start, rfl, ran⟩
  | cons event rest inductionHypothesis =>
      obtain ⟨next, stepped, continued⟩ := run_cons_eq_some.mp ran
      obtain ⟨middle, reached, onward⟩ := inductionHypothesis continued
      exact ⟨middle, run_cons_eq_some.mpr ⟨next, stepped, reached⟩, onward⟩

/-- A step function that is enabled at every event runs to the end. -/
theorem exists_final_of_total
    (total : ∀ state event, ∃ next, step state event = some next)
    (start : State) (events : List Event) :
    ∃ final, run step start events = some final := by
  induction events generalizing start with
  | nil =>
      exact ⟨start, rfl⟩
  | cons event rest inductionHypothesis =>
      obtain ⟨next, stepped⟩ := total start event
      obtain ⟨final, ran⟩ := inductionHypothesis next
      exact ⟨final, run_cons_eq_some.mpr ⟨next, stepped, ran⟩⟩

theorem SomeStep.exists_mem
    {condition : State → Event → Prop} {start : State}
    {events : List Event}
    (someStep : SomeStep step condition start events) :
    ∃ state, ∃ event ∈ events, condition state event := by
  induction events generalizing start with
  | nil =>
      cases someStep
  | cons event rest inductionHypothesis =>
      rcases someStep with here | ⟨next, _, later⟩
      · exact ⟨start, event, List.mem_cons_self .., here⟩
      · obtain ⟨state, other, member, holds⟩ := inductionHypothesis later
        exact ⟨state, other, List.mem_cons_of_mem event member, holds⟩

theorem emitted_append
    {Output : Type*} {emit : State → Event → List Output}
    {start middle : State} {before : List Event}
    (ran : run step start before = some middle) (after : List Event) :
    emitted step emit start (before ++ after) =
      emitted step emit start before ++ emitted step emit middle after := by
  induction before generalizing start with
  | nil =>
      cases ran
      rfl
  | cons event rest inductionHypothesis =>
      obtain ⟨next, stepped, continued⟩ := run_cons_eq_some.mp ran
      simp only [List.cons_append, emitted, stepped, List.append_assoc]
      rw [inductionHypothesis continued]

/-- An invariant kept by every step holds after every run. -/
theorem run_invariant
    {Inv : State → Prop}
    (preserved : ∀ state event next,
      Inv state → step state event = some next → Inv next)
    {start final : State} {events : List Event}
    (initially : Inv start)
    (ran : run step start events = some final) :
    Inv final := by
  induction events generalizing start with
  | nil =>
      cases ran
      exact initially
  | cons event rest inductionHypothesis =>
      obtain ⟨next, stepped, continued⟩ := run_cons_eq_some.mp ran
      exact inductionHypothesis
        (preserved start event next initially stepped) continued

/-- An invariant kept by every step that meets `condition` holds after every
run whose steps all meet it. -/
theorem run_invariant_of_stepsMeet
    {Inv : State → Prop} {condition : State → Event → Prop}
    (preserved : ∀ state event next,
      Inv state → condition state event →
        step state event = some next → Inv next)
    {start final : State} {events : List Event}
    (initially : Inv start)
    (meets : StepsMeet step condition start events)
    (ran : run step start events = some final) :
    Inv final := by
  induction events generalizing start with
  | nil =>
      cases ran
      exact initially
  | cons event rest inductionHypothesis =>
      obtain ⟨next, stepped, continued⟩ := run_cons_eq_some.mp ran
      exact inductionHypothesis
        (preserved start event next initially meets.1 stepped)
        (meets.2 next stepped) continued

/-- With a decidable condition a run can be checked by evaluation. -/
instance decidableStepsMeet
    {condition : State → Event → Prop}
    [∀ state event, Decidable (condition state event)] :
    ∀ (state : State) (events : List Event),
      Decidable (StepsMeet step condition state events)
  | _, [] => isTrue trivial
  | state, event :: rest =>
      match stepped : step state event with
      | none =>
          decidable_of_iff (condition state event) (by
            simp [StepsMeet, stepped])
      | some next =>
          have : Decidable (StepsMeet step condition next rest) :=
            decidableStepsMeet next rest
          decidable_of_iff
            (condition state event ∧
              StepsMeet step condition next rest) (by
            simp [StepsMeet, stepped])

/-- Evaluate a run and a test of the state it reaches. -/
theorem exists_final_of_map_eq
    {start : State} {events : List Event} {test : State → Bool}
    (evaluated : (run step start events).map test = some true) :
    ∃ final, run step start events = some final ∧ test final :=
  Option.map_eq_some_iff.mp evaluated

theorem StepsMeet.mono
    {strong weak : State → Event → Prop}
    (weaker : ∀ state event, strong state event → weak state event)
    {start : State} {events : List Event}
    (meets : StepsMeet step strong start events) :
    StepsMeet step weak start events := by
  induction events generalizing start with
  | nil =>
      trivial
  | cons event rest inductionHypothesis =>
      exact ⟨weaker start event meets.1, fun next stepped =>
        inductionHypothesis (meets.2 next stepped)⟩

theorem StepsMeet.append
    {condition : State → Event → Prop} {start : State}
    {events more : List Event}
    (first : StepsMeet step condition start events)
    (second : ∀ middle, run step start events = some middle →
      StepsMeet step condition middle more) :
    StepsMeet step condition start (events ++ more) := by
  induction events generalizing start with
  | nil =>
      exact second start rfl
  | cons event rest inductionHypothesis =>
      refine ⟨first.1, fun next stepped => ?_⟩
      refine inductionHypothesis (first.2 next stepped) ?_
      intro middle reached
      exact second middle ((run_cons_eq_some ..).mpr ⟨next, stepped, reached⟩)

/-- A condition on the events alone. -/
theorem stepsMeet_of_forall
    {condition : State → Event → Prop} {events : List Event}
    (meets : ∀ event ∈ events, ∀ state, condition state event)
    (start : State) : StepsMeet step condition start events := by
  induction events generalizing start with
  | nil =>
      trivial
  | cons event rest inductionHypothesis =>
      refine ⟨meets event (List.mem_cons_self ..) start, ?_⟩
      intro next _
      exact inductionHypothesis
        (fun later member => meets later (List.mem_cons_of_mem event member))
        next

/-- A condition on the events alone is met along a run when it is met by each
of them. -/
theorem stepsMeet_iff_forall
    {condition : Event → Prop} {start final : State} {events : List Event}
    (ran : run step start events = some final) :
    StepsMeet step (fun _ event => condition event) start events ↔
      ∀ event ∈ events, condition event := by
  induction events generalizing start with
  | nil =>
      simp [StepsMeet]
  | cons event rest inductionHypothesis =>
      obtain ⟨next, stepped, continued⟩ := run_cons_eq_some.mp ran
      simp only [StepsMeet, stepped, Option.some.injEq, forall_eq',
        List.forall_mem_cons, inductionHypothesis continued]

theorem StepsMeet.last
    {condition : State → Event → Prop}
    {start final : State} {events : List Event} {event : Event}
    (meets : StepsMeet step condition start (events ++ [event]))
    (ran : run step start events = some final) :
    condition final event := by
  induction events generalizing start with
  | nil =>
      cases ran
      exact meets.1
  | cons first rest inductionHypothesis =>
      obtain ⟨next, stepped, continued⟩ := run_cons_eq_some.mp ran
      exact inductionHypothesis (meets.2 next stepped) continued

/-- Every step of a run meets a condition when it does so wherever the run is
cut. -/
theorem stepsMeet_iff_of_split
    {condition : State → Event → Prop}
    {start final : State} {events : List Event}
    (ran : run step start events = some final) :
    StepsMeet step condition start events ↔
      ∀ before event after, events = before ++ event :: after →
        ∀ state, run step start before = some state →
          condition state event := by
  constructor
  · rintro meets before event after rfl state reached
    induction before generalizing start with
    | nil =>
        cases reached
        exact meets.1
    | cons first rest inductionHypothesis =>
        obtain ⟨next, stepped, continued⟩ := run_cons_eq_some.mp reached
        obtain ⟨_, steppedToo, ranOn⟩ := run_cons_eq_some.mp ran
        cases stepped.symm.trans steppedToo
        exact inductionHypothesis ranOn (meets.2 next stepped) continued
  · intro cut
    induction events generalizing start with
    | nil =>
        trivial
    | cons event rest inductionHypothesis =>
        obtain ⟨next, stepped, ranOn⟩ := run_cons_eq_some.mp ran
        refine ⟨cut [] event rest rfl start rfl, ?_⟩
        intro other steppedOther
        cases stepped.symm.trans steppedOther
        refine inductionHypothesis ranOn ?_
        rintro before later after rfl state reached
        exact cut (event :: before) later after rfl state
          (run_cons_eq_some.mpr ⟨next, stepped, reached⟩)

/-- Every step of a run meets a condition exactly when no step violates it. -/
theorem stepsMeet_iff_not_someStep
    {condition : State → Event → Prop}
    {start final : State} {events : List Event}
    (ran : run step start events = some final) :
    StepsMeet step condition start events ↔
      ¬ SomeStep step (fun state event => ¬ condition state event) start
        events := by
  induction events generalizing start with
  | nil =>
      exact iff_of_true trivial not_false
  | cons event rest inductionHypothesis =>
      obtain ⟨next, stepped, continued⟩ := run_cons_eq_some.mp ran
      simp only [StepsMeet, SomeStep, stepped, Option.some.injEq,
        forall_eq', exists_eq_left', not_or, not_not,
        inductionHypothesis continued]

/-- A flag that some steps raise and no step lowers is up after a run exactly
when it was up before or one of its steps raised it. -/
theorem flag_iff_someStep
    {Inv flag : State → Prop} {raises : State → Event → Prop}
    (preserved : ∀ state event next,
      Inv state → step state event = some next → Inv next)
    (raised : ∀ state event next,
      Inv state → step state event = some next →
        (flag next ↔ flag state ∨ raises state event))
    {start final : State} {events : List Event} (initially : Inv start)
    (ran : run step start events = some final) :
    flag final ↔ flag start ∨ SomeStep step raises start events := by
  induction events generalizing start with
  | nil =>
      cases ran
      exact (or_iff_left not_false).symm
  | cons event rest inductionHypothesis =>
      obtain ⟨next, stepped, continued⟩ := run_cons_eq_some.mp ran
      have onward :
          (∃ other, step start event = some other ∧
            SomeStep step raises other rest) ↔
              SomeStep step raises next rest := by
        simp only [stepped, Option.some.injEq, exists_eq_left']
      rw [inductionHypothesis (preserved start event next initially stepped)
          continued,
        raised start event next initially stepped, or_assoc, SomeStep,
        onward]

/-- A condition on steps follows from another one along an invariant that the
steps meeting the latter keep. -/
theorem StepsMeet.of_invariant
    {Inv : State → Prop} {condition conclusion : State → Event → Prop}
    (preserved : ∀ state event next,
      Inv state → condition state event →
        step state event = some next → Inv next)
    (concluded : ∀ state event,
      Inv state → condition state event → conclusion state event)
    {start : State} {events : List Event}
    (initially : Inv start)
    (meets : StepsMeet step condition start events) :
    StepsMeet step conclusion start events := by
  induction events generalizing start with
  | nil =>
      trivial
  | cons event rest inductionHypothesis =>
      refine ⟨concluded start event initially meets.1, ?_⟩
      intro next stepped
      exact inductionHypothesis
        (preserved start event next initially meets.1 stepped)
        (meets.2 next stepped)

/-- Two conditions that agree along an invariant kept by the steps meeting
the second one are met by the same runs. -/
theorem stepsMeet_congr_of_invariant
    {Inv : State → Prop} {first second : State → Event → Prop}
    (preserved : ∀ state event next,
      Inv state → second state event →
        step state event = some next → Inv next)
    (agree : ∀ state event,
      Inv state → (first state event ↔ second state event))
    {start : State} {events : List Event} (initially : Inv start) :
    StepsMeet step first start events ↔
      StepsMeet step second start events := by
  induction events generalizing start with
  | nil =>
      exact Iff.rfl
  | cons event rest inductionHypothesis =>
      constructor
      · intro met
        obtain ⟨here, later⟩ := met
        have met := (agree start event initially).mp here
        exact ⟨met, fun next stepped =>
          (inductionHypothesis
            (preserved start event next initially met stepped)).mp
              (later next stepped)⟩
      · intro met
        obtain ⟨here, later⟩ := met
        exact ⟨(agree start event initially).mpr here,
          fun next stepped =>
            (inductionHypothesis
              (preserved start event next initially here stepped)).mpr
                (later next stepped)⟩

/-- Two conditions that agree on the steps from states with an invariant are
met by the same runs, among those whose steps keep the invariant. -/
theorem StepsMeet.congr_of_invariant
    {Inv : State → Prop} {kept first second : State → Event → Prop}
    (preserved : ∀ state event next,
      Inv state → kept state event →
        step state event = some next → Inv next)
    (agree : ∀ state event next,
      Inv state → step state event = some next →
        (first state event ↔ second state event))
    {start final : State} {events : List Event} (initially : Inv start)
    (keeps : StepsMeet step kept start events)
    (ran : run step start events = some final) :
    StepsMeet step first start events ↔
      StepsMeet step second start events := by
  induction events generalizing start with
  | nil =>
      exact Iff.rfl
  | cons event rest inductionHypothesis =>
      obtain ⟨next, stepped, continued⟩ := run_cons_eq_some.mp ran
      have later :=
        inductionHypothesis
          (preserved start event next initially keeps.1 stepped)
          (keeps.2 next stepped) continued
      refine and_congr (agree start event next initially stepped) ?_
      refine forall_congr' fun other => imp_congr_right ?_
      intro steppedOther
      obtain rfl : next = other :=
        Option.some.inj (stepped.symm.trans steppedOther)
      exact later

/-- Meeting a family of conditions is meeting each of them. -/
theorem stepsMeet_forall_iff
    {ι : Type*} {condition : ι → State → Event → Prop}
    {start : State} {events : List Event} :
    (∀ index, StepsMeet step (condition index) start events) ↔
      StepsMeet step (fun state event => ∀ index, condition index state event)
        start events := by
  constructor
  · intro meets
    induction events generalizing start with
    | nil =>
        trivial
    | cons event rest inductionHypothesis =>
        exact ⟨fun index => (meets index).1, fun next stepped =>
          inductionHypothesis fun index => (meets index).2 next stepped⟩
  · intro meets index
    exact meets.mono fun _ _ all => all index

theorem StatesMeet.first
    {condition : State → Prop} {start : State} {events : List Event}
    (meets : StatesMeet step condition start events) :
    condition start := by
  cases events with
  | nil =>
      exact meets
  | cons event rest =>
      exact meets.1

theorem StatesMeet.mono
    {strong weak : State → Prop}
    (weaker : ∀ state, strong state → weak state)
    {start : State} {events : List Event}
    (meets : StatesMeet step strong start events) :
    StatesMeet step weak start events := by
  induction events generalizing start with
  | nil =>
      exact weaker start meets
  | cons event rest inductionHypothesis =>
      exact ⟨weaker start meets.1, fun next stepped =>
        inductionHypothesis (meets.2 next stepped)⟩

/-- If a step from a good state leads to a good one exactly when it meets
`condition`, a run from a good state passes through good states only exactly
when its steps all meet it. -/
theorem statesMeet_iff_stepsMeet
    {Inv good : State → Prop} {condition : State → Event → Prop}
    (preserved : ∀ state event next,
      Inv state → step state event = some next → Inv next)
    (agree : ∀ state event next,
      Inv state → good state → step state event = some next →
        (good next ↔ condition state event))
    {start final : State} {events : List Event}
    (initially : Inv start) (startsGood : good start)
    (ran : run step start events = some final) :
    StatesMeet step good start events ↔
      StepsMeet step condition start events := by
  induction events generalizing start with
  | nil =>
      exact iff_of_true startsGood trivial
  | cons event rest inductionHypothesis =>
      obtain ⟨next, stepped, continued⟩ := run_cons_eq_some.mp ran
      have kept := preserved start event next initially stepped
      have rule := agree start event next initially startsGood stepped
      have only : ∀ other, step start event = some other → other = next :=
        fun other found => Option.some.inj (found.symm.trans stepped)
      constructor
      · intro meets
        have later := meets.2 next stepped
        have nextGood : good next := later.first
        refine ⟨rule.mp nextGood, ?_⟩
        intro other found
        rw [only other found]
        exact (inductionHypothesis kept nextGood continued).mp later
      · intro meets
        have nextGood : good next := rule.mpr meets.1
        refine ⟨startsGood, ?_⟩
        intro other found
        rw [only other found]
        exact (inductionHypothesis kept nextGood continued).mpr
          (meets.2 next stepped)

/-- A quantity with a non-negative gain at every step never falls. -/
theorem run_measure_mono
    {Inv : State → Prop} {measure : State → ℚ}
    {gain : State → Event → ℚ}
    (preserved : ∀ state event next,
      Inv state → step state event = some next → Inv next)
    (gained : ∀ state event next,
      Inv state → step state event = some next →
        measure next = measure state + gain state event)
    (nonneg : ∀ state event, 0 ≤ gain state event)
    {start final : State} {events : List Event}
    (initially : Inv start)
    (ran : run step start events = some final) :
    measure start ≤ measure final := by
  induction events generalizing start with
  | nil =>
      cases ran
      exact le_refl _
  | cons event rest inductionHypothesis =>
      obtain ⟨next, stepped, continued⟩ := run_cons_eq_some.mp ran
      have later := inductionHypothesis
        (preserved start event next initially stepped) continued
      have here := gained start event next initially stepped
      have gainNonneg := nonneg start event
      linarith

/-- The quantity stays where it was exactly when no step had a gain. -/
theorem run_measure_eq_iff
    {Inv : State → Prop} {measure : State → ℚ}
    {gain : State → Event → ℚ}
    (preserved : ∀ state event next,
      Inv state → step state event = some next → Inv next)
    (gained : ∀ state event next,
      Inv state → step state event = some next →
        measure next = measure state + gain state event)
    (nonneg : ∀ state event, 0 ≤ gain state event)
    {start final : State} {events : List Event}
    (initially : Inv start)
    (ran : run step start events = some final) :
    measure final = measure start ↔
      StepsMeet step (fun state event => gain state event = 0)
        start events := by
  induction events generalizing start with
  | nil =>
      cases ran
      simp [StepsMeet]
  | cons event rest inductionHypothesis =>
      obtain ⟨next, stepped, continued⟩ := run_cons_eq_some.mp ran
      have kept := preserved start event next initially stepped
      have here := gained start event next initially stepped
      have later :=
        run_measure_mono preserved gained nonneg kept continued
      have gainNonneg := nonneg start event
      have rule := inductionHypothesis kept continued
      constructor
      · intro unchanged
        have noGain : gain start event = 0 := by linarith
        refine ⟨noGain, ?_⟩
        intro other steppedOther
        obtain rfl : next = other :=
          Option.some.inj (stepped.symm.trans steppedOther)
        exact rule.mp (by linarith)
      · intro met
        obtain ⟨noGain, restMeets⟩ := met
        have restEq := rule.mpr (restMeets next stepped)
        linarith

end Rules

end LlmDRl.Library
