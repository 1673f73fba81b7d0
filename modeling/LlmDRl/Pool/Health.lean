import LlmDRl.Library.OrderedDict
import LlmDRl.Library.Runs

/-!
# Readiness and the history of health checks

`runHealthChecks` takes the registered engines under the read lock and checks
each of them in a goroutine of its own.  A goroutine holds a pointer to the
`engineState` it was given, and applies its result to that object under the
lock, whatever `AddEngine` and `RemoveEngine` have done to the map meanwhile.

Here every `engineState` ever created keeps its place in a list, and its
index stands for the pointer.  Registrations of one id are thereby different
objects.  Rounds may overlap, and goroutines finish in any order.
-/

namespace LlmDRl.Pool

open LlmDRl.Library

/-! ## Histories of results -/

/-- The checks that have failed since the latest success, in a history that
has its newest result first. -/
def trailingFailures (results : List Bool) : Nat :=
  (results.takeWhile fun succeeded => !succeeded).length

/-- Some check has succeeded, and fewer than three have failed since the
latest one that did. -/
def ReadyBy (results : List Bool) : Prop :=
  true ∈ results ∧ trailingFailures results < 3

instance (results : List Bool) : Decidable (ReadyBy results) :=
  inferInstanceAs (Decidable (_ ∧ _))

/-- How often a history has gone from ready to not ready. -/
def falls : List Bool → Nat
  | [] => 0
  | result :: earlier =>
      falls earlier +
        if ReadyBy earlier ∧ ¬ ReadyBy (result :: earlier) then 1 else 0

@[simp]
theorem trailingFailures_nil : trailingFailures [] = 0 := rfl

@[simp]
theorem trailingFailures_success (earlier : List Bool) :
    trailingFailures (true :: earlier) = 0 := rfl

@[simp]
theorem trailingFailures_failure (earlier : List Bool) :
    trailingFailures (false :: earlier) = trailingFailures earlier + 1 := rfl

theorem not_readyBy_nil : ¬ ReadyBy [] := by
  simp [ReadyBy]

theorem readyBy_success (earlier : List Bool) :
    ReadyBy (true :: earlier) := by
  simp [ReadyBy]

theorem readyBy_failure_iff (earlier : List Bool) :
    ReadyBy (false :: earlier) ↔
      ReadyBy earlier ∧ trailingFailures earlier + 1 < 3 := by
  simp only [ReadyBy, List.mem_cons, Bool.true_eq_false, false_or,
    trailingFailures_failure]
  constructor
  · intro held
    exact ⟨⟨held.1, (Nat.lt_succ_self _).trans held.2⟩, held.2⟩
  · intro held
    exact ⟨held.1.1, held.2⟩

theorem falls_success (earlier : List Bool) :
    falls (true :: earlier) = falls earlier := by
  have stays : ¬ (ReadyBy earlier ∧ ¬ ReadyBy (true :: earlier)) := by
    intro fell
    exact fell.2 (readyBy_success earlier)
  rw [falls, if_neg stays, add_zero]

/-- A history without a success has never been ready. -/
theorem falls_of_no_success
    {results : List Bool} (never : true ∉ results) : falls results = 0 := by
  induction results with
  | nil =>
      rfl
  | cons result earlier inductionHypothesis =>
      have earlierNever : true ∉ earlier := fun member =>
        never (List.mem_cons_of_mem _ member)
      have stays :
          ¬ (ReadyBy earlier ∧ ¬ ReadyBy (result :: earlier)) := by
        intro fell
        exact earlierNever fell.1.1
      rw [falls, if_neg stays, inductionHypothesis earlierNever]

/-! ## The pool's engines -/

structure EngineState where
  id : String
  address : String
  ready : Bool
  consecutiveFailures : Nat
  deriving DecidableEq, Repr

/-- A call of `onEngineUnhealthy`.  `registration` is the engine state it is
made for. -/
structure UnhealthyCall where
  registration : Nat
  id : String
  failures : Nat
  error : String
  deriving DecidableEq, Repr

/-- The error the callback is given. -/
def UnhealthyCall.message (call : UnhealthyCall) : String :=
  s!"engine {call.id}: {call.failures} consecutive health check failures: " ++
    call.error

/-- `states` are the engine states ever created, oldest first.  `engines`
maps an id to its state, and `running` are the states the goroutines hold.
`results` is a history variable: the checks that have ended, newest first,
each with its state and whether it succeeded. -/
structure EngineTable where
  states : List EngineState
  engines : OrderedDict String Nat
  running : List Nat
  unhealthyCalls : List UnhealthyCall
  results : List (Nat × Bool)

inductive HealthEvent where
  | addEngine (id address : String)
  | removeEngine (id : String)
  /-- A round of `runHealthChecks` takes its snapshot and starts. -/
  | runHealthChecks
  /-- The goroutine at this position has its answer, `nil` being `none`. -/
  | checked (position : Nat) (err : Option String)
  deriving DecidableEq, Repr

/-- What a goroutine does under the lock, with the calls it makes. -/
def EngineState.applyCheck (onEngineUnhealthy : Bool) (registration : Nat)
    (state : EngineState) : Option String → EngineState × List UnhealthyCall
  | some error =>
      let failures := state.consecutiveFailures + 1
      if 3 ≤ failures ∧ state.ready = true then
        ({ state with consecutiveFailures := failures, ready := false },
          if onEngineUnhealthy then
            [⟨registration, state.id, failures, error⟩]
          else
            [])
      else
        ({ state with consecutiveFailures := failures }, [])
  | none => ({ state with consecutiveFailures := 0, ready := true }, [])

namespace EngineTable

def init : EngineTable where
  states := []
  engines := .empty
  running := []
  unhealthyCalls := []
  results := []

def addEngine (table : EngineTable) (id address : String) : EngineTable :=
  { table with
    states := table.states ++ [⟨id, address, false, 0⟩]
    engines := table.engines.insert id table.states.length }

def removeEngine (table : EngineTable) (id : String) : EngineTable :=
  { table with engines := table.engines.erase id }

/-- The goroutine at `position` has applied its answer to the state it
holds. -/
def afterCheck (onEngineUnhealthy : Bool) (table : EngineTable)
    (position registration : Nat) (state : EngineState)
    (err : Option String) : EngineTable :=
  let applied := state.applyCheck onEngineUnhealthy registration err
  { table with
    states := table.states.set registration applied.1
    running := table.running.eraseIdx position
    unhealthyCalls := table.unhealthyCalls ++ applied.2
    results := (registration, err.isNone) :: table.results }

/-- `onEngineUnhealthy` is whether the callback is set. -/
def step (onEngineUnhealthy : Bool) (table : EngineTable) :
    HealthEvent → Option EngineTable
  | .addEngine id address => some (table.addEngine id address)
  | .removeEngine id => some (table.removeEngine id)
  | .runHealthChecks =>
      some
        { table with
          running := table.running ++ table.engines.entries.map Prod.snd }
  | .checked position err =>
      match table.running[position]? with
      | none => none
      | some registration =>
          match table.states[registration]? with
          | none => none
          | some state =>
              some
                (table.afterCheck onEngineUnhealthy position registration
                  state err)

/-- The results of one registration, newest first. -/
def resultsOf (table : EngineTable) (registration : Nat) : List Bool :=
  (table.results.filter fun entry => entry.1 = registration).map Prod.snd

/-- The calls of `onEngineUnhealthy` for one registration. -/
def callsOf (table : EngineTable) (registration : Nat) :
    List UnhealthyCall :=
  table.unhealthyCalls.filter fun call => call.registration = registration

/-- The engine state exists and is ready. -/
def ReadyAt (table : EngineTable) (registration : Nat) : Prop :=
  table.states[registration]?.map EngineState.ready = some true

instance (table : EngineTable) (registration : Nat) :
    Decidable (table.ReadyAt registration) :=
  inferInstanceAs (Decidable (_ = _))

end EngineTable

/-! ## One engine state -/

section Described

variable {onEngineUnhealthy : Bool} {registration : Nat}

/-- The state is what its results say, and so are the calls made for it. -/
structure Described (onEngineUnhealthy : Bool) (results : List Bool)
    (state : EngineState) (calls : List UnhealthyCall) : Prop where
  ready : state.ready = true ↔ ReadyBy results
  failures : state.consecutiveFailures = trailingFailures results
  callCount :
    calls.length = if onEngineUnhealthy then falls results else 0
  named : ∀ call ∈ calls, call.id = state.id ∧ call.failures = 3

theorem described_new (id address : String) :
    Described onEngineUnhealthy [] ⟨id, address, false, 0⟩ [] where
  ready := by
    simp [not_readyBy_nil]
  failures := rfl
  callCount := by
    simp [falls]
  named := by
    simp

variable {results : List Bool} {state : EngineState}
variable {calls : List UnhealthyCall}

theorem Described.success
    (described : Described onEngineUnhealthy results state calls) :
    Described onEngineUnhealthy (true :: results)
      (state.applyCheck onEngineUnhealthy registration none).1
      (calls ++
        (state.applyCheck onEngineUnhealthy registration none).2) where
  ready := ⟨fun _ => readyBy_success results, fun _ => rfl⟩
  failures := rfl
  callCount := by
    rw [falls_success, ← described.callCount]
    simp [EngineState.applyCheck]
  named := by
    intro call member
    have earlier : call ∈ calls := by
      simpa [EngineState.applyCheck] using member
    exact described.named call earlier

/-- A failure that does not reach the threshold, or finds the engine not
ready, is counted and nothing more. -/
theorem Described.failure_counted
    (described : Described onEngineUnhealthy results state calls)
    (counted : ¬ (3 ≤ state.consecutiveFailures + 1 ∧ state.ready = true)) :
    Described onEngineUnhealthy (false :: results)
      { state with
        consecutiveFailures := state.consecutiveFailures + 1 }
      calls := by
  have readyIff := described.ready
  have failuresEq := described.failures
  have stays : ¬ (ReadyBy results ∧ ¬ ReadyBy (false :: results)) := by
    rw [readyBy_failure_iff, ← readyIff]
    intro fell
    apply counted
    refine ⟨?_, fell.1⟩
    by_contra low
    exact fell.2 ⟨fell.1, by omega⟩
  refine ⟨?_, ?_, ?_, described.named⟩
  · rw [readyBy_failure_iff, ← readyIff]
    constructor
    · intro ready
      refine ⟨ready, ?_⟩
      by_contra reached
      exact counted ⟨by omega, ready⟩
    · intro both
      exact both.1
  · rw [trailingFailures_failure, failuresEq]
  · rw [falls, if_neg stays, add_zero]
    exact described.callCount

/-- A ready engine has failed at most twice, so the failure that ends its
readiness is the third. -/
theorem Described.failure_fell
    (described : Described onEngineUnhealthy results state calls)
    (reached : 3 ≤ state.consecutiveFailures + 1)
    (ready : state.ready = true) (error : String) :
    Described onEngineUnhealthy (false :: results)
      { state with
        consecutiveFailures := state.consecutiveFailures + 1, ready := false }
      (calls ++
        if onEngineUnhealthy then
          [⟨registration, state.id, state.consecutiveFailures + 1, error⟩]
        else
          []) := by
  have readyBy := described.ready.mp ready
  have failuresEq := described.failures
  have third : state.consecutiveFailures + 1 = 3 := by
    have few := readyBy.2
    omega
  have notReady : ¬ ReadyBy (false :: results) := by
    rw [readyBy_failure_iff]
    intro both
    omega
  refine ⟨?_, ?_, ?_, ?_⟩
  · simp [notReady]
  · rw [trailingFailures_failure, failuresEq]
  · have fellOnce : falls (false :: results) = falls results + 1 := by
      rw [falls, if_pos ⟨readyBy, notReady⟩]
    rw [fellOnce, List.length_append, described.callCount]
    cases onEngineUnhealthy with
    | true =>
        rfl
    | false =>
        rfl
  · intro call member
    rcases List.mem_append.mp member with earlier | added
    · exact described.named call earlier
    · cases onEngineUnhealthy with
      | true =>
          cases List.mem_singleton.mp added
          exact ⟨rfl, third⟩
      | false =>
          cases added

theorem Described.applyCheck
    (described : Described onEngineUnhealthy results state calls)
    (err : Option String) :
    Described onEngineUnhealthy (err.isNone :: results)
      (state.applyCheck onEngineUnhealthy registration err).1
      (calls ++
        (state.applyCheck onEngineUnhealthy registration err).2) := by
  cases err with
  | none =>
      exact described.success
  | some error =>
      simp only [EngineState.applyCheck, Option.isNone_some]
      split
      · next fell =>
          exact described.failure_fell fell.1 fell.2 error
      · next counted =>
          rw [List.append_nil]
          exact described.failure_counted counted

end Described

/-! ## All engine states -/

namespace EngineTable

structure Consistent (onEngineUnhealthy : Bool)
    (table : EngineTable) : Prop where
  engines : ∀ id registration,
    table.engines.get? id = some registration →
      registration < table.states.length
  running : ∀ registration ∈ table.running,
    registration < table.states.length
  results : ∀ entry ∈ table.results, entry.1 < table.states.length
  calls : ∀ call ∈ table.unhealthyCalls,
    call.registration < table.states.length
  described : ∀ registration state,
    table.states[registration]? = some state →
      Described onEngineUnhealthy (table.resultsOf registration) state
        (table.callsOf registration)

theorem consistent_init (onEngineUnhealthy : Bool) :
    init.Consistent onEngineUnhealthy where
  engines := by
    intro id registration found
    cases found
  running := by
    simp [init]
  results := by
    simp [init]
  calls := by
    simp [init]
  described := by
    simp [init]

variable {onEngineUnhealthy : Bool} {table next : EngineTable}

theorem resultsOf_eq_nil
    (consistent : table.Consistent onEngineUnhealthy) {registration : Nat}
    (unknown : table.states.length ≤ registration) :
    table.resultsOf registration = [] := by
  rw [resultsOf, List.map_eq_nil_iff, List.filter_eq_nil_iff]
  intro entry member same
  have known := consistent.results entry member
  rw [of_decide_eq_true same] at known
  omega

theorem callsOf_eq_nil
    (consistent : table.Consistent onEngineUnhealthy) {registration : Nat}
    (unknown : table.states.length ≤ registration) :
    table.callsOf registration = [] := by
  rw [callsOf, List.filter_eq_nil_iff]
  intro call member same
  have known := consistent.calls call member
  rw [of_decide_eq_true same] at known
  omega

/-- What the end of a check does, once the goroutine and its engine state are
looked up. -/
theorem step_checked_eq_some_iff
    {position : Nat} {err : Option String} :
    table.step onEngineUnhealthy (.checked position err) = some next ↔
      ∃ registration state,
        table.running[position]? = some registration ∧
          table.states[registration]? = some state ∧
          next =
            table.afterCheck onEngineUnhealthy position registration state
              err := by
  constructor
  · intro stepped
    simp only [step] at stepped
    split at stepped
    · cases stepped
    · next registration holds =>
        split at stepped
        · cases stepped
        · next state found =>
            cases stepped
            exact ⟨registration, state, holds, found, rfl⟩
  · intro held
    obtain ⟨registration, state, holds, found, rfl⟩ := held
    simp only [step, holds, found]

/-- Every call of a check is for the state it was started on. -/
theorem registration_of_mem_applyCheck
    {registration : Nat} {state : EngineState} {err : Option String}
    {call : UnhealthyCall}
    (member :
      call ∈ (state.applyCheck onEngineUnhealthy registration err).2) :
    call.registration = registration := by
  cases err with
  | none =>
      cases member
  | some error =>
      simp only [EngineState.applyCheck] at member
      split at member
      · split at member
        · cases List.mem_singleton.mp member
          rfl
        · cases member
      · cases member

section AfterCheck

variable {position registration : Nat} {state : EngineState}
variable {err : Option String}

theorem resultsOf_afterCheck_self :
    (table.afterCheck onEngineUnhealthy position registration state
      err).resultsOf registration =
        err.isNone :: table.resultsOf registration := by
  simp [resultsOf, afterCheck]

theorem resultsOf_afterCheck_of_ne
    {other : Nat} (different : other ≠ registration) :
    (table.afterCheck onEngineUnhealthy position registration state
      err).resultsOf other = table.resultsOf other := by
  simp [resultsOf, afterCheck, Ne.symm different]

theorem callsOf_afterCheck_self :
    (table.afterCheck onEngineUnhealthy position registration state
      err).callsOf registration =
        table.callsOf registration ++
          (state.applyCheck onEngineUnhealthy registration err).2 := by
  have all :
      (state.applyCheck onEngineUnhealthy registration err).2.filter
          (fun call => call.registration = registration) =
        (state.applyCheck onEngineUnhealthy registration err).2 := by
    rw [List.filter_eq_self]
    intro call member
    exact decide_eq_true (registration_of_mem_applyCheck member)
  rw [callsOf, afterCheck, List.filter_append, all, callsOf]

theorem callsOf_afterCheck_of_ne
    {other : Nat} (different : other ≠ registration) :
    (table.afterCheck onEngineUnhealthy position registration state
      err).callsOf other = table.callsOf other := by
  have none :
      (state.applyCheck onEngineUnhealthy registration err).2.filter
          (fun call => call.registration = other) = [] := by
    rw [List.filter_eq_nil_iff]
    intro call member same
    apply different
    rw [← of_decide_eq_true same, registration_of_mem_applyCheck member]
  rw [callsOf, afterCheck, List.filter_append, none, List.append_nil,
    callsOf]

/-- A check leaves every other registration as it was. -/
theorem states_afterCheck_of_ne
    {other : Nat} (different : other ≠ registration) :
    (table.afterCheck onEngineUnhealthy position registration state
      err).states[other]? = table.states[other]? :=
  List.getElem?_set_ne (Ne.symm different)

theorem Consistent.afterCheck
    (consistent : table.Consistent onEngineUnhealthy)
    (holds : table.running[position]? = some registration)
    (found : table.states[registration]? = some state)
    (err : Option String) :
    (table.afterCheck onEngineUnhealthy position registration state
      err).Consistent onEngineUnhealthy := by
  have known : registration < table.states.length :=
    consistent.running registration (List.mem_of_getElem? holds)
  have sameLength :
      (table.afterCheck onEngineUnhealthy position registration state
        err).states.length = table.states.length :=
    List.length_set
  refine ⟨?_, ?_, ?_, ?_, ?_⟩
  · intro id current mapped
    rw [sameLength]
    exact consistent.engines id current mapped
  · intro other member
    rw [sameLength]
    exact consistent.running other (List.mem_of_mem_eraseIdx member)
  · intro entry member
    rw [sameLength]
    rcases List.mem_cons.mp member with rfl | earlier
    · exact known
    · exact consistent.results entry earlier
  · intro call member
    rw [sameLength]
    rcases List.mem_append.mp member with earlier | added
    · exact consistent.calls call earlier
    · rw [registration_of_mem_applyCheck added]
      exact known
  · intro other otherState otherFound
    by_cases same : other = registration
    · subst other
      have applied : otherState =
          (state.applyCheck onEngineUnhealthy registration err).1 := by
        have set : (table.states.set registration
            (state.applyCheck onEngineUnhealthy registration
              err).1)[registration]? = some otherState := otherFound
        rw [List.getElem?_set_self known] at set
        exact (Option.some.inj set).symm
      rw [resultsOf_afterCheck_self, callsOf_afterCheck_self, applied]
      exact (consistent.described registration state found).applyCheck err
    · rw [states_afterCheck_of_ne same] at otherFound
      rw [resultsOf_afterCheck_of_ne same, callsOf_afterCheck_of_ne same]
      exact consistent.described other otherState otherFound

end AfterCheck

theorem Consistent.addEngine
    (consistent : table.Consistent onEngineUnhealthy)
    (id address : String) :
    (table.addEngine id address).Consistent onEngineUnhealthy := by
  have longer :
      (table.addEngine id address).states.length =
        table.states.length + 1 :=
    List.length_append
  refine ⟨?_, ?_, ?_, ?_, ?_⟩
  · intro other registration mapped
    rw [EngineTable.addEngine, OrderedDict.get?_insert] at mapped
    split at mapped
    · cases mapped
      omega
    · have known := consistent.engines other registration mapped
      omega
  · intro registration member
    have known := consistent.running registration member
    omega
  · intro entry member
    have known := consistent.results entry member
    omega
  · intro call member
    have known := consistent.calls call member
    omega
  · intro registration state found
    rw [EngineTable.addEngine, List.getElem?_append] at found
    split at found
    · exact consistent.described registration state found
    · next beyond =>
        -- the new registration has no history of its own
        have unknown := not_lt.mp beyond
        have created : state = ⟨id, address, false, 0⟩ := by
          have member := List.mem_of_getElem? found
          exact List.mem_singleton.mp member
        have noResults := resultsOf_eq_nil consistent unknown
        have noCalls := callsOf_eq_nil consistent unknown
        rw [created]
        change Described onEngineUnhealthy (table.resultsOf registration) _
          (table.callsOf registration)
        rw [noResults, noCalls]
        exact described_new id address

theorem Consistent.removeEngine
    (consistent : table.Consistent onEngineUnhealthy) (id : String) :
    (table.removeEngine id).Consistent onEngineUnhealthy := by
  refine ⟨?_, consistent.running, consistent.results, consistent.calls,
    consistent.described⟩
  intro other registration mapped
  rw [EngineTable.removeEngine, OrderedDict.get?_erase] at mapped
  split at mapped
  · cases mapped
  · exact consistent.engines other registration mapped

theorem Consistent.step
    {event : HealthEvent} (consistent : table.Consistent onEngineUnhealthy)
    (stepped : table.step onEngineUnhealthy event = some next) :
    next.Consistent onEngineUnhealthy := by
  cases event with
  | addEngine id address =>
      cases stepped
      exact consistent.addEngine id address
  | removeEngine id =>
      cases stepped
      exact consistent.removeEngine id
  | runHealthChecks =>
      cases stepped
      refine ⟨consistent.engines, ?_, consistent.results, consistent.calls,
        consistent.described⟩
      intro registration member
      rcases List.mem_append.mp member with earlier | started
      · exact consistent.running registration earlier
      · obtain ⟨entry, listed, rfl⟩ := List.mem_map.mp started
        exact consistent.engines entry.1 entry.2
          ((table.engines.get?_eq_some_iff entry.1 entry.2).mpr listed)
  | checked position err =>
      obtain ⟨registration, state, holds, found, rfl⟩ :=
        step_checked_eq_some_iff.mp stepped
      exact consistent.afterCheck holds found err

theorem consistent_of_run
    {events : List HealthEvent}
    (ran : run (step onEngineUnhealthy) init events = some table) :
    table.Consistent onEngineUnhealthy :=
  run_invariant (fun _ _ _ consistent stepped => consistent.step stepped)
    (consistent_init onEngineUnhealthy) ran

/-- What one step does to readiness and to the callback: a registration that
turns not ready is reported once, if the callback is set, and no other is; a
check reaches only the registration it was started on; and a new registration
is one that no check in flight was started on. -/
structure StepFaithful (onEngineUnhealthy : Bool) (table : EngineTable)
    (event : HealthEvent) (next : EngineTable) : Prop where
  reported : ∀ registration,
    (next.callsOf registration).length =
      (table.callsOf registration).length +
        if onEngineUnhealthy = true ∧ table.ReadyAt registration ∧
            ¬ next.ReadyAt registration then
          1
        else
          0
  own : ∀ position err registration,
    event = .checked position err →
      table.running[position]? = some registration →
        ∀ other, other ≠ registration →
          next.states[other]? = table.states[other]?
  fresh : ∀ id address,
    event = .addEngine id address →
      ∃ registration,
        next.engines.get? id = some registration ∧
          next.states[registration]? = some ⟨id, address, false, 0⟩ ∧
          registration ∉ next.running ∧
          next.resultsOf registration = []

/-- Readiness and calls of every registration, against its checks. -/
structure FollowsHistory (onEngineUnhealthy : Bool)
    (table : EngineTable) : Prop where
  ready : ∀ registration state,
    table.states[registration]? = some state →
      (state.ready = true ↔ ReadyBy (table.resultsOf registration))
  callCount : ∀ registration state,
    table.states[registration]? = some state →
      (table.callsOf registration).length =
        if onEngineUnhealthy then
          falls (table.resultsOf registration)
        else
          0
  named : ∀ registration state,
    table.states[registration]? = some state →
      ∀ call ∈ table.callsOf registration,
        call.id = state.id ∧ call.failures = 3
  neverReady : ∀ registration,
    true ∉ table.resultsOf registration → table.callsOf registration = []

theorem Consistent.followsHistory
    (consistent : table.Consistent onEngineUnhealthy) :
    table.FollowsHistory onEngineUnhealthy where
  ready registration state found :=
    (consistent.described registration state found).ready
  callCount registration state found :=
    (consistent.described registration state found).callCount
  named registration state found :=
    (consistent.described registration state found).named
  neverReady := by
    intro registration never
    cases found : table.states[registration]? with
    | none =>
        exact callsOf_eq_nil consistent (List.getElem?_eq_none_iff.mp found)
    | some state =>
        have count :=
          (consistent.described registration state found).callCount
        rw [falls_of_no_success never, ite_self] at count
        exact List.length_eq_zero_iff.mp count

/-- A check calls the callback exactly when it ends the readiness of its
engine. -/
theorem length_applyCheck
    (registration : Nat) (state : EngineState) (err : Option String) :
    (state.applyCheck onEngineUnhealthy registration err).2.length =
      if onEngineUnhealthy = true ∧ state.ready = true ∧
          ¬ (state.applyCheck onEngineUnhealthy registration err).1.ready =
            true then
        1
      else
        0 := by
  cases err with
  | none =>
      simp [EngineState.applyCheck]
  | some error =>
      simp only [EngineState.applyCheck]
      split
      · next fell =>
          cases onEngineUnhealthy with
          | true =>
              simp [fell.2]
          | false =>
              simp
      · next counted =>
          simp

theorem reported_of_stays
    {registration : Nat}
    (calls : next.callsOf registration = table.callsOf registration)
    (stays : table.ReadyAt registration → next.ReadyAt registration) :
    (next.callsOf registration).length =
      (table.callsOf registration).length +
        if onEngineUnhealthy = true ∧ table.ReadyAt registration ∧
            ¬ next.ReadyAt registration then
          1
        else
          0 := by
  have noFall : ¬ (onEngineUnhealthy = true ∧ table.ReadyAt registration ∧
      ¬ next.ReadyAt registration) := by
    intro fell
    exact fell.2.2 (stays fell.2.1)
  rw [if_neg noFall, calls, add_zero]

theorem readyAt_iff
    {registration : Nat} {state : EngineState}
    (found : table.states[registration]? = some state) :
    table.ReadyAt registration ↔ state.ready = true := by
  simp [ReadyAt, found]

theorem reported_afterCheck
    {position registration : Nat} {state : EngineState}
    (consistent : table.Consistent onEngineUnhealthy)
    (holds : table.running[position]? = some registration)
    (found : table.states[registration]? = some state)
    (err : Option String) (other : Nat) :
    ((table.afterCheck onEngineUnhealthy position registration state
      err).callsOf other).length =
      (table.callsOf other).length +
        if onEngineUnhealthy = true ∧ table.ReadyAt other ∧
            ¬ (table.afterCheck onEngineUnhealthy position registration
              state err).ReadyAt other then
          1
        else
          0 := by
  by_cases same : other = registration
  · subst other
    have known : registration < table.states.length :=
      consistent.running registration (List.mem_of_getElem? holds)
    have foundAfter :
        (table.afterCheck onEngineUnhealthy position registration state
          err).states[registration]? =
            some
              (state.applyCheck onEngineUnhealthy registration err).1 :=
      List.getElem?_set_self known
    rw [callsOf_afterCheck_self, List.length_append, length_applyCheck]
    simp only [readyAt_iff found, readyAt_iff foundAfter]
  · apply reported_of_stays (callsOf_afterCheck_of_ne same)
    intro ready
    rw [ReadyAt, states_afterCheck_of_ne same]
    exact ready

theorem Consistent.stepFaithful
    {event : HealthEvent} (consistent : table.Consistent onEngineUnhealthy)
    (stepped : table.step onEngineUnhealthy event = some next) :
    StepFaithful onEngineUnhealthy table event next := by
  cases event with
  | addEngine id address =>
      cases stepped
      refine ⟨?_, ?_, ?_⟩
      · intro registration
        refine reported_of_stays ?_ ?_
        · rfl
        · intro ready
          obtain ⟨state, found, isReady⟩ := Option.map_eq_some_iff.mp ready
          have known := (List.getElem?_eq_some_iff.mp found).1
          refine Option.map_eq_some_iff.mpr ⟨state, ?_, isReady⟩
          rw [EngineTable.addEngine, List.getElem?_append_left known]
          exact found
      · intro position err registration isCheck
        cases isCheck
      · intro newId newAddress isAdd
        cases isAdd
        refine ⟨table.states.length, ?_, ?_, ?_, ?_⟩
        · exact OrderedDict.get?_insert_self _ _ _
        · exact List.getElem?_concat_length
        · intro member
          have known := consistent.running _ member
          omega
        · exact resultsOf_eq_nil consistent le_rfl
  | removeEngine id =>
      cases stepped
      refine ⟨fun _ => reported_of_stays rfl fun ready => ready, ?_, ?_⟩
      · intro position err registration isCheck
        cases isCheck
      · intro newId newAddress isAdd
        cases isAdd
  | runHealthChecks =>
      cases stepped
      refine ⟨fun _ => reported_of_stays rfl fun ready => ready, ?_, ?_⟩
      · intro position err registration isCheck
        cases isCheck
      · intro newId newAddress isAdd
        cases isAdd
  | checked position err =>
      obtain ⟨registration, state, holds, found, rfl⟩ :=
        step_checked_eq_some_iff.mp stepped
      refine ⟨reported_afterCheck consistent holds found err, ?_, ?_⟩
      · intro samePosition sameErr holder isCheck holderHolds other different
        cases isCheck
        cases holds.symm.trans holderHolds
        exact states_afterCheck_of_ne different
      · intro newId newAddress isAdd
        cases isAdd

/-- A goroutine that has its answer can apply it, whatever has become of the
id its engine was registered under. -/
theorem Consistent.exists_checked
    (consistent : table.Consistent onEngineUnhealthy) {position : Nat}
    (running : position < table.running.length) (err : Option String) :
    ∃ next,
      table.step onEngineUnhealthy (.checked position err) = some next := by
  have known := consistent.running _ (List.getElem_mem running)
  exact ⟨_, step_checked_eq_some_iff.mpr
    ⟨table.running[position], table.states[table.running[position]],
      List.getElem?_eq_getElem running, List.getElem?_eq_getElem known, rfl⟩⟩

/-- In every order of checks and changes of membership, a registration is
ready exactly when its history of results says so, and the callback is called
once for each change from ready to not ready. -/
theorem readiness_follows_history
    (onEngineUnhealthy : Bool) (events : List HealthEvent)
    (table : EngineTable)
    (ran : run (step onEngineUnhealthy) init events = some table) :
    table.FollowsHistory onEngineUnhealthy ∧
      (∀ event next,
        table.step onEngineUnhealthy event = some next →
          StepFaithful onEngineUnhealthy table event next) ∧
      ∀ position err, position < table.running.length →
        ∃ next,
          table.step onEngineUnhealthy (.checked position err) =
            some next := by
  have consistent := consistent_of_run ran
  refine ⟨consistent.followsHistory, ?_, ?_⟩
  · intro event next stepped
    exact consistent.stepFaithful stepped
  · intro position err running
    exact consistent.exists_checked running err

/-- An engine becomes ready and fails twice.  Its next check is still running
when the same id is registered again. -/
def replacedUnderCheck : List HealthEvent :=
  [.addEngine "engine-0" "http://a", .runHealthChecks, .checked 0 none,
    .runHealthChecks, .checked 0 (some "timeout"), .runHealthChecks,
    .checked 0 (some "timeout"), .runHealthChecks,
    .addEngine "engine-0" "http://b", .runHealthChecks, .checked 1 none,
    .checked 0 (some "timeout")]

/-- The late failure is the third of the old registration, and is reported
for it.  The new one stays ready. -/
theorem late_check_of_replaced_engine :
    ∃ table,
      run (step true) init replacedUnderCheck = some table ∧
        table.FollowsHistory true ∧
        table.engines.get? "engine-0" = some 1 ∧
        table.ReadyAt 1 ∧
        ¬ table.ReadyAt 0 ∧
        table.unhealthyCalls = [⟨0, "engine-0", 3, "timeout"⟩] := by
  obtain ⟨table, ran, reached⟩ :=
    exists_final_of_map_eq
      (show (run (step true) init replacedUnderCheck).map
        (fun table => decide (table.engines.get? "engine-0" = some 1 ∧
          table.ReadyAt 1 ∧ ¬ table.ReadyAt 0 ∧
          table.unhealthyCalls = [⟨0, "engine-0", 3, "timeout"⟩])) =
            some true by decide +kernel)
  exact ⟨table, ran, (readiness_follows_history true _ table ran).1,
    of_decide_eq_true reached⟩

end EngineTable

end LlmDRl.Pool
