import Mathlib.Data.List.Induction
import LlmDRl.Pool.Membership

/-!
# Watching pods

`PodWatcher` of `pod_watcher.go`, wired to the engine pool: `OnReady` is
`AddEngine`, `OnGone` is `RemoveEngine`.  The informer delivers one event
after the other, with the objects it happens to have.

What it is for is said by `lastReported` alone: the pool holds, under their
ids, the pods that were last reported ready with an address.
-/

namespace LlmDRl.Discovery

open LlmDRl.Library
open LlmDRl.Pool

/-! ## The watcher -/

/-- A condition of a pod's status. -/
structure PodCondition where
  type : String
  status : String
  deriving DecidableEq, Repr

/-- What the watcher reads of a pod. -/
structure Pod where
  uid : String
  podIP : String
  conditions : List PodCondition
  deriving DecidableEq, Repr

/-- The loop of `isPodReady`: the first `Ready` condition decides. -/
def readyCondition : List PodCondition → Bool
  | [] => false
  | cond :: rest =>
      if cond.type = "Ready" then cond.status = "True"
      else readyCondition rest

def isPodReady (pod : Pod) : Bool := readyCondition pod.conditions

/-- A call of one of the `EngineCallbacks`. -/
inductive Callback where
  | onReady (id address : String)
  | onGone (id : String)
  deriving DecidableEq, Repr

def Callback.id : Callback → String
  | .onReady id _ => id
  | .onGone id => id

/-- An object the informer hands to a handler: a pod, the tombstone of a
deletion it missed, or something else. -/
inductive Object where
  | pod (pod : Pod)
  | tombstone (last : Option Pod)
  | other
  deriving DecidableEq, Repr

inductive Event where
  | added (obj : Object)
  | updated (oldObj newObj : Object)
  | deleted (obj : Object)
  deriving DecidableEq, Repr

structure PodWatcher where
  port : Int
  registered : OrderedDict String String

namespace PodWatcher

/-- `fmt.Sprintf("http://%s:%d", pod.Status.PodIP, pw.port)` -/
def address (port : Int) (pod : Pod) : String :=
  s!"http://{pod.podIP}:{port}"

def sync (watcher : PodWatcher) (pod : Pod) : PodWatcher × List Callback :=
  let existing := watcher.registered.get? pod.uid
  if isPodReady pod ∧ pod.podIP ≠ "" then
    let addr := address watcher.port pod
    if existing = some addr then
      (watcher, [])
    else
      let gone := if existing.isSome then [.onGone pod.uid] else []
      ({ watcher with registered := watcher.registered.insert pod.uid addr },
        gone ++ [.onReady pod.uid addr])
  else if existing.isSome then
    ({ watcher with registered := watcher.registered.erase pod.uid },
      [.onGone pod.uid])
  else
    (watcher, [])

def markGone (watcher : PodWatcher) (id : String) :
    PodWatcher × List Callback :=
  match watcher.registered.get? id with
  | none => (watcher, [])
  | some _ =>
      ({ watcher with registered := watcher.registered.erase id },
        [.onGone id])

/-- The handlers that `Run` installs. -/
def handle (watcher : PodWatcher) : Event → PodWatcher × List Callback
  | .added (.pod pod) => watcher.sync pod
  | .updated _ (.pod pod) => watcher.sync pod
  | .deleted (.pod pod) => watcher.markGone pod.uid
  | .deleted (.tombstone (some pod)) => watcher.markGone pod.uid
  | _ => (watcher, [])

end PodWatcher

/-! ## The watcher and its pool -/

/-- What a callback does to the pool. -/
def applyCallback (pool : EnginePool) : Callback → EnginePool
  | .onReady id address => pool.addEngine id address
  | .onGone id => pool.removeEngine id

/-- The callbacks are kept in the order in which they were made. -/
structure WatchedPool where
  watcher : PodWatcher
  pool : EnginePool
  callbacks : List Callback

namespace WatchedPool

def init (port : Int) : WatchedPool := ⟨⟨port, .empty⟩, .new, []⟩

def step (watched : WatchedPool) (event : Event) : WatchedPool :=
  let handled := watched.watcher.handle event
  { watcher := handled.1
    pool := handled.2.foldl applyCallback watched.pool
    callbacks := watched.callbacks ++ handled.2 }

/-- The state after a history of events, oldest first. -/
def after (port : Int) (events : List Event) : WatchedPool :=
  events.foldl step (init port)

end WatchedPool

/-! ## What the pool should hold -/

/-- The pod an event is about. -/
def Event.subject : Event → Option String
  | .added (.pod pod) | .updated _ (.pod pod) => some pod.uid
  | .deleted (.pod pod) | .deleted (.tombstone (some pod)) => some pod.uid
  | _ => none

/-- The pod as the event leaves it. -/
def Event.reports : Event → Option Pod
  | .added (.pod pod) | .updated _ (.pod pod) => some pod
  | _ => none

/-- The pod as the last event about it left it. -/
def lastReported (events : List Event) (id : String) : Option Pod :=
  (events.reverse.find? fun event => event.subject = some id).bind
    Event.reports

/-- The address of a pod that is ready and has one. -/
def readyAddress (port : Int) (pod : Pod) : Option String :=
  if isPodReady pod ∧ pod.podIP ≠ "" then
    some (PodWatcher.address port pod)
  else
    none

/-- The callbacks that take a pod from one address to another. -/
def transition (id : String) : Option String → Option String → List Callback
  | none, none => []
  | none, some address => [.onReady id address]
  | some _, none => [.onGone id]
  | some old, some new =>
      if old = new then [] else [.onGone id, .onReady id new]

/-- Callbacks that turn `OnReady`, `OnGone`, `OnReady`, …, and whether the
pod is registered after them. -/
def alternate : Bool → List Callback → Option Bool
  | registered, [] => some registered
  | false, .onReady _ _ :: rest => alternate true rest
  | true, .onGone _ :: rest => alternate false rest
  | _, _ => none

/-- The callbacks about one pod. -/
def about (id : String) (callbacks : List Callback) : List Callback :=
  callbacks.filter fun callback => callback.id = id

/-! ## One event -/

theorem lastReported_append
    (events : List Event) (event : Event) (id : String) :
    lastReported (events ++ [event]) id =
      if event.subject = some id then event.reports
      else lastReported events id := by
  rw [lastReported, List.reverse_append, List.reverse_singleton,
    List.singleton_append, List.find?_cons]
  by_cases isSubject : event.subject = some id
  · simp [isSubject]
  · simp [isSubject, lastReported]

theorem alternate_append
    (registered : Bool) (first second : List Callback) :
    alternate registered (first ++ second) =
      (alternate registered first).bind fun reached =>
        alternate reached second := by
  induction first generalizing registered with
  | nil =>
      rfl
  | cons callback rest inductionHypothesis =>
      cases registered <;> cases callback <;>
        simp [alternate, inductionHypothesis]

theorem alternate_transition
    (id : String) (old new : Option String) :
    alternate old.isSome (transition id old new) = some new.isSome := by
  cases old with
  | none => cases new <;> rfl
  | some before =>
      cases new with
      | none => rfl
      | some later =>
          rw [transition]
          split <;> rfl

theorem about_transition_self
    (id : String) (old new : Option String) :
    about id (transition id old new) = transition id old new := by
  have mine : ∀ callback ∈ transition id old new, callback.id = id := by
    intro callback member
    cases old <;> cases new <;> simp only [transition] at member
    · cases member
    · rw [List.mem_singleton.mp member]
      rfl
    · rw [List.mem_singleton.mp member]
      rfl
    · split at member
      · cases member
      · rcases List.mem_cons.mp member with rfl | member
        · rfl
        · rw [List.mem_singleton.mp member]
          rfl
  exact List.filter_eq_self.mpr fun callback member =>
    decide_eq_true (mine callback member)

theorem about_transition_of_ne
    {id other : String} (different : id ≠ other)
    (old new : Option String) :
    about other (transition id old new) = [] := by
  rw [← about_transition_self id old new]
  refine List.filter_eq_nil_iff.mpr ?_
  intro callback member
  have mine : callback.id = id := by
    simpa using (List.mem_filter.mp member).2
  simpa [mine] using different

/-- What an event does to the watcher: it takes the pod the event is about
from its address to the one reported, and leaves the other pods alone. -/
structure Handled (watcher : PodWatcher) (event : Event)
    (result : PodWatcher × List Callback) : Prop where
  port : result.1.port = watcher.port
  registered : ∀ id, result.1.registered.get? id =
    if event.subject = some id then
      event.reports.bind (readyAddress watcher.port)
    else watcher.registered.get? id
  callbacks : result.2 =
    match event.subject with
    | none => []
    | some id =>
        transition id (watcher.registered.get? id)
          (event.reports.bind (readyAddress watcher.port))

theorem handled_sync
    (watcher : PodWatcher) {event : Event} {pod : Pod}
    (subject : event.subject = some pod.uid)
    (reports : event.reports = some pod) :
    Handled watcher event (watcher.sync pod) := by
  have target :
      event.reports.bind (readyAddress watcher.port) =
        readyAddress watcher.port pod := by
    rw [reports, Option.bind_some]
  by_cases ready : isPodReady pod ∧ pod.podIP ≠ ""
  · have addressed :
        readyAddress watcher.port pod =
          some (PodWatcher.address watcher.port pod) := if_pos ready
    by_cases same :
        watcher.registered.get? pod.uid =
          some (PodWatcher.address watcher.port pod)
    · have kept : watcher.sync pod = (watcher, []) := by
        rw [PodWatcher.sync, if_pos ready, if_pos same]
      rw [kept]
      refine ⟨rfl, ?_, ?_⟩
      · intro id
        rw [target, addressed, subject]
        split
        · next mine =>
            cases mine
            exact same
        · rfl
      · simp [subject, target, addressed, same, transition]
    · have moved :
          watcher.sync pod =
            ({ watcher with
                registered := watcher.registered.insert pod.uid
                  (PodWatcher.address watcher.port pod) },
              (if (watcher.registered.get? pod.uid).isSome then
                  [.onGone pod.uid] else []) ++
                [.onReady pod.uid
                  (PodWatcher.address watcher.port pod)]) := by
        rw [PodWatcher.sync, if_pos ready, if_neg same]
      rw [moved]
      refine ⟨rfl, ?_, ?_⟩
      · intro id
        rw [target, addressed, subject, OrderedDict.get?_insert]
        simp only [Option.some.injEq, eq_comm]
      · simp only [subject, target, addressed]
        cases existing : watcher.registered.get? pod.uid with
        | none => rfl
        | some old =>
            have different :
                ¬ old = PodWatcher.address watcher.port pod := by
              intro equal
              rw [existing, equal] at same
              exact same rfl
            simp [transition, different]
  · have unaddressed : readyAddress watcher.port pod = none := if_neg ready
    have left :
        watcher.sync pod =
          if (watcher.registered.get? pod.uid).isSome then
            ({ watcher with
                registered := watcher.registered.erase pod.uid },
              [.onGone pod.uid])
          else (watcher, []) := by
      rw [PodWatcher.sync, if_neg ready]
    rw [left]
    cases existing : watcher.registered.get? pod.uid with
    | none =>
        change Handled watcher event (watcher, [])
        refine ⟨rfl, ?_, ?_⟩
        · intro id
          rw [target, unaddressed, subject]
          split
          · next mine =>
              cases mine
              exact existing
          · rfl
        · simp [subject, target, unaddressed, existing, transition]
    | some old =>
        refine ⟨rfl, ?_, ?_⟩
        · intro id
          rw [target, unaddressed, subject]
          simp only [Option.isSome_some, if_true,
            OrderedDict.get?_erase, Option.some.injEq, eq_comm]
        · simp [subject, target, unaddressed, existing, transition]

theorem handled_markGone
    (watcher : PodWatcher) {event : Event} {uid : String}
    (subject : event.subject = some uid)
    (reports : event.reports = none) :
    Handled watcher event (watcher.markGone uid) := by
  cases existing : watcher.registered.get? uid with
  | none =>
      have kept : watcher.markGone uid = (watcher, []) := by
        rw [PodWatcher.markGone, existing]
      rw [kept]
      refine ⟨rfl, ?_, ?_⟩
      · intro id
        rw [subject, reports]
        split
        · next mine =>
            cases mine
            exact existing
        · rfl
      · simp [subject, reports, existing, transition]
  | some old =>
      have gone :
          watcher.markGone uid =
            ({ watcher with registered := watcher.registered.erase uid },
              [.onGone uid]) := by
        rw [PodWatcher.markGone, existing]
      rw [gone]
      refine ⟨rfl, ?_, ?_⟩
      · intro id
        rw [subject, reports]
        simp only [OrderedDict.get?_erase, Option.some.injEq, eq_comm,
          Option.bind_none]
      · simp [subject, reports, existing, transition]

theorem handled_ignored
    (watcher : PodWatcher) {event : Event}
    (subject : event.subject = none) :
    Handled watcher event (watcher, []) := by
  refine ⟨rfl, ?_, ?_⟩
  · intro id
    rw [subject, if_neg (by simp)]
  · rw [subject]

theorem handled (watcher : PodWatcher) (event : Event) :
    Handled watcher event (watcher.handle event) := by
  cases event with
  | added obj =>
      cases obj with
      | pod pod => exact handled_sync watcher rfl rfl
      | tombstone last => exact handled_ignored watcher rfl
      | other => exact handled_ignored watcher rfl
  | updated oldObj newObj =>
      cases newObj with
      | pod pod => exact handled_sync watcher rfl rfl
      | tombstone last => exact handled_ignored watcher rfl
      | other => exact handled_ignored watcher rfl
  | deleted obj =>
      cases obj with
      | pod pod => exact handled_markGone watcher rfl rfl
      | tombstone last =>
          cases last with
          | none => exact handled_ignored watcher rfl
          | some pod => exact handled_markGone watcher rfl rfl
      | other => exact handled_ignored watcher rfl

/-! ## A history of events -/

/-- The callbacks of a transition take the pool along. -/
theorem engines_foldl_transition
    {pool : EnginePool} {id : String} {old : Option String}
    (current : pool.engines.get? id = old) (new : Option String)
    (other : String) :
    ((transition id old new).foldl applyCallback pool).engines.get? other =
      if other = id then new else pool.engines.get? other := by
  have kept : ∀ value, pool.engines.get? id = value →
      pool.engines.get? other =
        if other = id then value else pool.engines.get? other := by
    intro value found
    split
    · next same => rw [same, found]
    · rfl
  cases old with
  | none =>
      cases new with
      | none => exact kept none current
      | some address =>
          exact OrderedDict.get?_insert _ _ _ _
  | some before =>
      cases new with
      | none => exact OrderedDict.get?_erase _ _ _
      | some later =>
          rw [transition]
          split
          · next same =>
              rw [← same]
              exact kept _ current
          · change
              ((pool.engines.erase id).insert id later).get? other = _
            rw [OrderedDict.get?_insert, OrderedDict.get?_erase]
            split <;> rfl

/-- What holds after every history of events. -/
structure Refines (port : Int) (events : List Event)
    (watched : WatchedPool) : Prop where
  samePort : watched.watcher.port = port
  registered : ∀ id, watched.watcher.registered.get? id =
    (lastReported events id).bind (readyAddress port)
  engines : ∀ id, watched.pool.engines.get? id =
    watched.watcher.registered.get? id
  alternates : ∀ id, alternate false (about id watched.callbacks) =
    some (watched.watcher.registered.get? id).isSome

/-- A step in terms of the pool alone. -/
theorem Refines.step_eq
    {port : Int} {events : List Event} {watched : WatchedPool}
    (refines : Refines port events watched) (event : Event) :
    (∀ id, (watched.step event).pool.engines.get? id =
        if event.subject = some id then
          event.reports.bind (readyAddress port)
        else watched.pool.engines.get? id) ∧
      (watched.step event).callbacks = watched.callbacks ++
        match event.subject with
        | none => []
        | some id =>
            transition id (watched.pool.engines.get? id)
              (event.reports.bind (readyAddress port)) := by
  have result := handled watched.watcher event
  have emitted := result.callbacks
  rw [refines.samePort] at emitted
  constructor
  · intro id
    change
      ((watched.watcher.handle event).2.foldl applyCallback
        watched.pool).engines.get? id = _
    rw [emitted]
    cases subject : event.subject with
    | none => simp
    | some uid =>
        simp only
        rw [engines_foldl_transition (refines.engines uid)]
        simp only [Option.some.injEq, eq_comm]
  · change watched.callbacks ++ (watched.watcher.handle event).2 = _
    rw [emitted]
    cases event.subject with
    | none => rfl
    | some uid => simp only [refines.engines uid]

theorem Refines.step
    {port : Int} {events : List Event} {watched : WatchedPool}
    (refines : Refines port events watched) (event : Event) :
    Refines port (events ++ [event]) (watched.step event) := by
  have result := handled watched.watcher event
  have stepped := refines.step_eq event
  have registered : ∀ id,
      (watched.step event).watcher.registered.get? id =
        if event.subject = some id then
          event.reports.bind (readyAddress port)
        else watched.watcher.registered.get? id := by
    intro id
    have read := result.registered id
    rw [refines.samePort] at read
    exact read
  refine ⟨result.port.trans refines.samePort, ?_, ?_, ?_⟩
  · intro id
    rw [registered id, lastReported_append]
    split
    · rfl
    · exact refines.registered id
  · intro id
    rw [stepped.1 id, registered id]
    split
    · rfl
    · exact refines.engines id
  · intro id
    rw [stepped.2, registered id, about, List.filter_append]
    change
      alternate false (about id watched.callbacks ++ about id _) = _
    rw [alternate_append, refines.alternates id, Option.bind_some]
    cases subject : event.subject with
    | none => simp [about, alternate]
    | some uid =>
        simp only [Option.some.injEq]
        by_cases mine : uid = id
        · subst mine
          rw [if_pos rfl, about_transition_self, ← refines.engines uid]
          exact alternate_transition uid _ _
        · rw [if_neg mine, about_transition_of_ne mine]
          rfl

theorem refines_after (port : Int) (events : List Event) :
    Refines port events (WatchedPool.after port events) := by
  induction events using List.reverseRecOn with
  | nil => exact ⟨rfl, fun _ => rfl, fun _ => rfl, fun _ => rfl⟩
  | append_singleton events event inductionHypothesis =>
      rw [WatchedPool.after, List.foldl_append]
      exact inductionHypothesis.step event

theorem transition_eq_nil_iff (id : String) (old new : Option String) :
    transition id old new = [] ↔ old = new := by
  cases old with
  | none => cases new <;> simp [transition]
  | some before =>
      cases new with
      | none => simp [transition]
      | some later => simp [transition]

/-- After any history of events the pool holds exactly the pods last reported
ready with an address, at that address; the callbacks about each pod turn
`OnReady`, `OnGone`, and so on, starting with `OnReady`; and an event makes
callbacks exactly when it changes what the pool should hold. -/
theorem pool_refines_reported_pods (port : Int) (events : List Event) :
    (∀ id, (WatchedPool.after port events).pool.engines.get? id =
      (lastReported events id).bind (readyAddress port)) ∧
    (∀ id, (alternate false
      (about id (WatchedPool.after port events).callbacks)).isSome) ∧
    ∀ event,
      (WatchedPool.after port (events ++ [event])).callbacks =
          (WatchedPool.after port events).callbacks ↔
        ∀ id,
          (lastReported (events ++ [event]) id).bind (readyAddress port) =
            (lastReported events id).bind (readyAddress port) := by
  have refines := refines_after port events
  have engines : ∀ id,
      (WatchedPool.after port events).pool.engines.get? id =
        (lastReported events id).bind (readyAddress port) :=
    fun id => (refines.engines id).trans (refines.registered id)
  refine ⟨engines, ?_, ?_⟩
  · intro id
    rw [refines.alternates id]
    rfl
  · intro event
    have stepped := (refines.step_eq event).2
    have next :
        WatchedPool.after port (events ++ [event]) =
          (WatchedPool.after port events).step event :=
      List.foldl_append ..
    rw [next, stepped, List.append_right_eq_self]
    simp only [lastReported_append]
    cases subject : event.subject with
    | none => simp
    | some uid =>
        simp only [transition_eq_nil_iff, Option.some.injEq, engines uid]
        constructor
        · intro same id
          split
          · next mine =>
              rw [← mine, same]
          · rfl
        · intro same
          have mine := same uid
          rw [if_pos rfl] at mine
          exact mine.symm

end LlmDRl.Discovery
