import Mathlib.Data.List.Infix
import LlmDRl.Rollout.Counters

/-!
# The version a response is labelled with

`handleGenerate` labels a response with the server's version, read after the
engine has answered, and not with the version of the engine.  The label is one
that the engine held while it worked on the request as long as requests are
sent to engines that hold the server's version, and the server's version only
moves to one that the engines of all requests in flight have held since.
-/

namespace LlmDRl.Rollout

open LlmDRl.Library
open LlmDRl.Pool

/-- The engine of the request, while the request is for a completion. -/
def Handler.target : Handler → Option Nat
  | .picked _ engine | .dispatched _ engine _
  | .completed _ engine _ => some engine
  | _ => none

namespace Controller

/-- A request answered with this version would carry one that its engine held
since the request was sent to it. -/
def CanCarry (control : Controller) (version : Int) : Handler → Prop
  | .dispatched _ engine start =>
      version ∈ (control.engine engine).versions.drop start
  | .completed _ _ held => version ∈ held
  | _ => True

/-- So would all requests. -/
def AllCanCarry (control : Controller) (version : Int) : Prop :=
  control.requests.AllValues (control.CanCarry version)

/-- Every response carries a version that its engine held while it worked on
the request. -/
def LabelsHeld (control : Controller) : Prop :=
  ∀ response ∈ control.responses, response.weightVersion ∈ response.held

/-- The same is in store for the requests in flight. -/
def LabelsSettle (control : Controller) : Prop :=
  control.AllCanCarry control.weightVersion ∧ control.LabelsHeld

/-- A request is sent to an engine that holds the server's version, and the
server's version moves to one that all requests in flight can carry. -/
def KeepsLabels (control : Controller) : ControlEvent → Prop
  | .dispatch request =>
      match control.requests.get? request with
      | some (.picked _ engine) =>
          (control.engine engine).versions.getLast? =
            some control.weightVersion
      | _ => True
  | .publish request =>
      match control.requests.get? request with
      | some (.updated req none) => control.AllCanCarry req.targetVersion
      | _ => True
  | _ => True

instance (control : Controller) (version : Int) :
    DecidablePred (control.CanCarry version) := by
  intro handler
  unfold CanCarry
  split <;> infer_instance

instance (control : Controller) (version : Int) :
    Decidable (control.AllCanCarry version) :=
  inferInstanceAs (Decidable (OrderedDict.AllValues _ _))

instance (control : Controller) : Decidable control.LabelsHeld :=
  inferInstanceAs (Decidable (∀ _ ∈ _, _))

/-- Decide what is asked of a request that is sent to its engine. -/
def decidableSent (control : Controller) : (found : Option Handler) →
    Decidable (match found with
      | some (.picked _ engine) =>
          (control.engine engine).versions.getLast? =
            some control.weightVersion
      | _ => True)
  | some (.picked _ _) => inferInstanceAs (Decidable (_ = _))
  | none | some (.dispatched ..) | some (.completed ..)
  | some (.updateBegun _) | some (.updating ..) | some (.updated ..)
  | some (.published _) | some .sleepBegun | some .awake
  | some .finished => instDecidableTrue

/-- Decide what is asked of an update that publishes its version. -/
def decidablePublished (control : Controller) : (found : Option Handler) →
    Decidable (match found with
      | some (.updated req none) => control.AllCanCarry req.targetVersion
      | _ => True)
  | some (.updated req none) =>
      inferInstanceAs (Decidable (control.AllCanCarry req.targetVersion))
  | none | some (.picked ..) | some (.dispatched ..)
  | some (.completed ..) | some (.updateBegun _) | some (.updating ..)
  | some (.updated _ (some _)) | some (.published _) | some .sleepBegun
  | some .awake | some .finished => instDecidableTrue

instance (control : Controller) (event : ControlEvent) :
    Decidable (control.KeepsLabels event) := by
  apply ControlEvent.casesOn
    (motive := fun event => Decidable (control.KeepsLabels event)) event
  case dispatch =>
    intro request
    exact control.decidableSent (control.requests.get? request)
  case publish =>
    intro request
    exact control.decidablePublished (control.requests.get? request)
  all_goals
    intros
    exact instDecidableTrue

/-! ## Engines are never reused -/

/-- Engines are numbered in the order of their registration. -/
structure Numbered (control : Controller) : Prop where
  members : ∀ id ∈ control.pool.engines.keys,
    control.registered id < control.created
  targets : ∀ request handler engine,
    control.requests.get? request = some handler →
      handler.target = some engine → engine < control.created
  distinct : ∀ first ∈ control.pool.engines.keys,
    ∀ second ∈ control.pool.engines.keys,
      control.registered first = control.registered second →
        first = second

variable {control next : Controller}

/-- Steps that register no engine. -/
theorem Numbered.of_same
    (numbered : control.Numbered)
    (requests : next.requests = control.requests)
    (registered : next.registered = control.registered)
    (created : next.created = control.created)
    (members : ∀ id ∈ next.pool.engines.keys,
      id ∈ control.pool.engines.keys) :
    next.Numbered where
  members := by
    intro id member
    rw [registered, created]
    exact numbered.members id (members id member)
  targets := by
    rw [requests, created]
    exact numbered.targets
  distinct := by
    intro first firstMember second secondMember same
    rw [registered] at same
    exact numbered.distinct first (members first firstMember) second
      (members second secondMember) same

theorem Numbered.of_handler
    (numbered : control.Numbered) (request : Nat) (handler : Handler)
    (requests : next.requests = control.requests.insert request handler)
    (target : ∀ engine, handler.target = some engine →
      engine < control.created)
    (registered : next.registered = control.registered)
    (created : next.created = control.created)
    (members : next.pool.engines.keys = control.pool.engines.keys) :
    next.Numbered where
  members := by
    rw [members, registered, created]
    exact numbered.members
  targets := by
    intro other found engine present targetEq
    rw [created]
    rw [requests, OrderedDict.get?_insert] at present
    split at present
    · cases present
      exact target engine targetEq
    · exact numbered.targets other found engine present targetEq
  distinct := by
    rw [members, registered]
    exact numbered.distinct

theorem Numbered.added
    (numbered : control.Numbered) (id address : String)
    (pool : next.pool = control.pool.addEngine id address)
    (registered : next.registered =
      Function.update control.registered id control.created)
    (created : next.created = control.created + 1)
    (requests : next.requests = control.requests) :
    next.Numbered where
  members := by
    intro other member
    rw [pool, EnginePool.addEngine, OrderedDict.mem_keys_insert_iff] at member
    rw [registered, created, Function.update_apply]
    split
    · exact Nat.lt_succ_self _
    · next different =>
        have known := numbered.members other
          (member.resolve_left different)
        omega
  targets := by
    intro request handler engine found target
    rw [requests] at found
    have known := numbered.targets request handler engine found target
    omega
  distinct := by
    intro first firstMember second secondMember same
    rw [pool, EnginePool.addEngine, OrderedDict.mem_keys_insert_iff]
      at firstMember secondMember
    rw [registered, Function.update_apply, Function.update_apply] at same
    split at same
    · next firstEq =>
        split at same
        · next secondEq =>
            rw [firstEq, secondEq]
        · next different =>
            have known := numbered.members second
              (secondMember.resolve_left different)
            omega
    · next different =>
        have known := numbered.members first
          (firstMember.resolve_left different)
        split at same
        · omega
        · next otherDifferent =>
            exact numbered.distinct first
              (firstMember.resolve_left different) second
              (secondMember.resolve_left otherDifferent) same

theorem Numbered.step
    {event : ControlEvent} (numbered : control.Numbered)
    (stepped : control.step event = some next) :
    next.Numbered := by
  cases stepped_of_step stepped with
  | pool poolStepped =>
      cases poolStepped with
      | added id address unlocked =>
          exact numbered.added id address rfl rfl rfl rfl
      | removed id unlocked =>
          exact numbered.of_same rfl rfl rfl
            fun other member => OrderedDict.mem_keys_of_mem_keys_erase member
      | checked engine healthy known unlocked =>
          exact numbered.of_same rfl rfl rfl fun other member => member
      | initialised worlds unlocked =>
          refine numbered.of_same rfl rfl rfl ?_
          intro other member
          rw [EnginePool.engines_initWeightTransfer] at member
          exact member
  | generate generateStepped =>
      cases generateStepped with
      | picked request id unlocked fresh member ready =>
          refine numbered.of_handler request _ rfl ?_ rfl rfl rfl
          intro engine targetEq
          cases targetEq
          exact numbered.members id member
      | noneReady request fresh =>
          exact numbered.of_handler request .finished rfl nofun rfl rfl rfl
      | dispatched request id engine picked =>
          refine numbered.of_handler request _ rfl ?_ rfl rfl rfl
          intro other targetEq
          exact numbered.targets request _ other picked targetEq
      | completed request id engine start dispatched =>
          refine numbered.of_handler request _ rfl ?_ rfl rfl rfl
          intro other targetEq
          exact numbered.targets request _ other dispatched targetEq
      | failed request id engine start dispatched =>
          exact numbered.of_handler request .finished rfl nofun rfl rfl rfl
      | labelled request id engine held completed =>
          exact numbered.of_handler request .finished rfl nofun rfl rfl rfl
  | update updateStepped =>
      cases updateStepped <;>
        exact numbered.of_handler _ _ rfl nofun rfl rfl rfl
  | sleep sleepStepped =>
      cases sleepStepped <;>
        exact numbered.of_handler _ _ rfl nofun rfl rfl rfl

theorem numbered_init : init.Numbered where
  members := by
    intro id member
    cases member
  targets := by
    intro request handler engine found
    cases found
  distinct := by
    intro first member
    cases member

/-- The version an engine holds after a call, if the call changes it. -/
def delivered (record : CallRecord) : Option Int :=
  match record.call, record.error with
  | .updateWeights req, none => some req.targetVersion
  | _, _ => none

theorem versions_deliver
    (control : Controller) (record : CallRecord) (engine : Nat) :
    (control.deliver record engine).versions =
      if engine = control.registered record.engine then
        (control.engine engine).versions ++ (delivered record).toList
      else (control.engine engine).versions := by
  obtain ⟨call, id, error⟩ := record
  cases call with
  | updateWeights req =>
      cases error with
      | none =>
          simp only [deliver, delivered, Option.toList_some,
            Function.update_apply]
          split
          · next same =>
              rw [same]
          · rfl
      | some error =>
          simp [deliver, delivered]
  | _ =>
      simp [deliver, delivered]

/-- The engines that are there only add to the versions they have held. -/
theorem versions_prefix_of_step
    {event : ControlEvent} (stepped : control.step event = some next)
    {engine : Nat} (known : engine < control.created) :
    (control.engine engine).versions <+: (next.engine engine).versions := by
  cases stepped_of_step stepped with
  | pool poolStepped =>
      cases poolStepped with
      | added id address unlocked =>
          dsimp only
          rw [Function.update_of_ne (by omega)]
      | removed id unlocked =>
          exact List.prefix_refl _
      | checked checked healthy isKnown unlocked =>
          dsimp only
          rw [Function.update_apply]
          split
          · next same =>
              rw [same, Engine.checked]
              split <;> exact List.prefix_refl _
          · exact List.prefix_refl _
      | initialised worlds unlocked =>
          exact List.prefix_refl _
  | generate generateStepped =>
      cases generateStepped <;> exact List.prefix_refl _
  | update updateStepped =>
      cases updateStepped with
      | returned request req before record remaining version error
          updating =>
          dsimp only
          rw [versions_deliver]
          split
          · exact List.prefix_append _ _
          · exact List.prefix_refl _
      | _ =>
          exact List.prefix_refl _
  | sleep sleepStepped =>
      cases sleepStepped <;> exact List.prefix_refl _

/-! ## Each step settles the labels -/

/-- What a request can carry, it can carry after any step of another one. -/
theorem CanCarry.step
    {event : ControlEvent} {version : Int} {request : Nat}
    {handler : Handler} (numbered : control.Numbered)
    (stepped : control.step event = some next)
    (found : control.requests.get? request = some handler)
    (carries : control.CanCarry version handler) :
    next.CanCarry version handler := by
  cases handler with
  | dispatched id engine start =>
      have known :=
        numbered.targets request _ engine found rfl
      have grown := versions_prefix_of_step stepped known
      exact (grown.drop start).subset carries
  | completed id engine held =>
      exact carries
  | _ =>
      trivial

/-- A step that leaves the server's version alone, and after which a request
that was not there before can carry it. -/
theorem LabelsSettle.of_requests
    {event : ControlEvent} (settles : control.LabelsSettle)
    (numbered : control.Numbered)
    (stepped : control.step event = some next)
    (server : next.weightVersion = control.weightVersion)
    (requests : ∀ request handler,
      next.requests.get? request = some handler →
        control.requests.get? request = some handler ∨
          next.CanCarry control.weightVersion handler)
    (held : next.LabelsHeld) :
    next.LabelsSettle := by
  refine ⟨?_, held⟩
  intro request handler found
  rw [server]
  rcases requests request handler found with before | carries
  · exact (settles.1 request handler before).step numbered stepped before
  · exact carries

/-- A step of one request. -/
theorem LabelsSettle.of_handler
    {event : ControlEvent} (settles : control.LabelsSettle)
    (numbered : control.Numbered)
    (stepped : control.step event = some next)
    (server : next.weightVersion = control.weightVersion)
    (request : Nat) (handler : Handler)
    (requests : next.requests = control.requests.insert request handler)
    (carries : next.CanCarry control.weightVersion handler)
    (responses : next.responses = control.responses) :
    next.LabelsSettle := by
  refine settles.of_requests numbered stepped server ?_ ?_
  · intro other found present
    rw [requests] at present
    rcases OrderedDict.get?_of_get?_insert present with ⟨_, rfl⟩ | before
    · exact .inr carries
    · exact .inl before
  · intro response member
    rw [responses] at member
    exact settles.2 response member

theorem mem_drop_length_sub_one_iff
    {α : Type*} (items : List α) (item : α) :
    item ∈ items.drop (items.length - 1) ↔ items.getLast? = some item := by
  induction items using List.reverseRecOn with
  | nil =>
      simp
  | append_singleton front last _ =>
      simp [eq_comm]

/-- The labels stay settled exactly when the step keeps them. -/
theorem labelsSettle_step_iff
    {event : ControlEvent} (numbered : control.Numbered)
    (settles : control.LabelsSettle)
    (stepped : control.step event = some next) :
    next.LabelsSettle ↔ control.KeepsLabels event := by
  cases stepped_of_step stepped with
  | pool poolStepped =>
      obtain ⟨requests, server, _⟩ := poolStepped.frame
      refine iff_of_true ?_ (by cases poolStepped <;> trivial)
      refine settles.of_requests numbered stepped server ?_ ?_
      · intro request handler found
        rw [requests] at found
        exact .inl found
      · cases poolStepped <;> exact settles.2
  | generate generateStepped =>
      cases generateStepped with
      | picked request id unlocked fresh member ready =>
          exact iff_of_true
            (settles.of_handler numbered stepped rfl request _ rfl trivial
              rfl) trivial
      | noneReady request fresh =>
          exact iff_of_true
            (settles.of_handler numbered stepped rfl request _ rfl trivial
              rfl) trivial
      | dispatched request id engine picked =>
          rw [KeepsLabels, picked]
          dsimp only
          rw [← mem_drop_length_sub_one_iff]
          constructor
          · intro settled
            exact settled.1 request _
              (OrderedDict.get?_insert_self _ _ _)
          · intro carries
            exact settles.of_handler numbered stepped rfl request _ rfl
              carries rfl
      | completed request id engine start dispatched =>
          exact iff_of_true
            (settles.of_handler numbered stepped rfl request _ rfl
              (settles.1 request _ dispatched) rfl) trivial
      | failed request id engine start dispatched =>
          exact iff_of_true
            (settles.of_handler numbered stepped rfl request _ rfl trivial
              rfl) trivial
      | labelled request id engine held completed =>
          refine iff_of_true ?_ trivial
          refine settles.of_requests numbered stepped rfl ?_ ?_
          · intro other found present
            rcases OrderedDict.get?_of_get?_insert present with
              ⟨_, rfl⟩ | before
            · exact .inr trivial
            · exact .inl before
          · intro response member
            rcases List.mem_cons.mp member with rfl | before
            · exact settles.1 request _ completed
            · exact settles.2 response before
  | update updateStepped =>
      cases updateStepped with
      | published request req updated =>
          rw [KeepsLabels, updated]
          constructor
          · intro settled other handler found
            by_cases same : other = request
            · subst same
              rw [updated] at found
              cases found
              trivial
            · refine settled.1 other handler ?_
              exact (OrderedDict.get?_insert_of_ne _ _ same).trans found
          · intro carries
            refine ⟨?_, settles.2⟩
            intro other handler present
            rcases OrderedDict.get?_of_get?_insert present with
              ⟨_, rfl⟩ | before
            · trivial
            · exact carries other handler before
      | _ =>
          exact iff_of_true
            (settles.of_handler numbered stepped rfl _ _ rfl trivial rfl)
            trivial
  | sleep sleepStepped =>
      cases sleepStepped <;>
        exact iff_of_true
          (settles.of_handler numbered stepped rfl _ _ rfl trivial rfl)
          trivial

/-- An engine can always answer, and the answer can always be labelled. -/
theorem exists_complete
    (control : Controller) {request : Nat} {id : String}
    {engine start : Nat}
    (dispatched : control.requests.get? request =
      some (.dispatched id engine start)) :
    ∃ next, control.step (.complete request true) = some next ∧
      next.weightVersion = control.weightVersion ∧
      next.requests.get? request =
        some (.completed id engine
          ((control.engine engine).versions.drop start)) := by
  refine ⟨control.withHandler request (.completed id engine
    ((control.engine engine).versions.drop start)), ?_, rfl,
    OrderedDict.get?_insert_self _ _ _⟩
  simp only [step, generateStep, dispatched, if_true]

theorem exists_label
    (control : Controller) {request : Nat} {id : String} {engine : Nat}
    {held : List Int}
    (completed : control.requests.get? request =
      some (.completed id engine held)) :
    ∃ next, control.step (.label request) = some next ∧
      next.responses =
        ⟨id, engine, control.weightVersion, held⟩ ::
          control.responses := by
  refine ⟨{ control.withHandler request .finished with
    responses := ⟨id, engine, control.weightVersion, held⟩ ::
      control.responses }, ?_, rfl⟩
  simp only [step, generateStep, completed]

/-- From a state that is not settled, an answer from the engine is enough for
a label that the engine did not hold. -/
theorem exists_mislabelled
    (control : Controller) (unsettled : ¬ control.LabelsSettle) :
    ∃ events later, run step control events = some later ∧
      ¬ later.LabelsHeld := by
  by_cases held : control.LabelsHeld
  · have stuck : ¬ control.AllCanCarry control.weightVersion :=
      fun carries => unsettled ⟨carries, held⟩
    obtain ⟨request, handler, found, cannot⟩ :
        ∃ request handler,
          control.requests.get? request = some handler ∧
            ¬ control.CanCarry control.weightVersion handler := by
      by_contra none
      apply stuck
      intro request handler found
      by_contra cannot
      exact none ⟨request, handler, found, cannot⟩
    cases handler with
    | dispatched id engine start =>
        obtain ⟨next, completed, server, answered⟩ :=
          control.exists_complete found
        obtain ⟨later, labelled, responses⟩ := next.exists_label answered
        refine ⟨[.complete request true, .label request], later, ?_, ?_⟩
        · rw [run, completed, Option.bind_some, run, labelled,
            Option.bind_some, run]
        · intro labels
          rw [LabelsHeld, responses, server] at labels
          exact cannot (labels _ List.mem_cons_self)
    | completed id engine versions =>
        obtain ⟨later, labelled, responses⟩ := control.exists_label found
        refine ⟨[.label request], later, ?_, ?_⟩
        · rw [run, labelled, Option.bind_some, run]
        · intro labels
          rw [LabelsHeld, responses] at labels
          exact cannot (labels _ List.mem_cons_self)
    | _ =>
        exact absurd trivial cannot
  · exact ⟨[], control, rfl, held⟩

end Controller

end LlmDRl.Rollout
