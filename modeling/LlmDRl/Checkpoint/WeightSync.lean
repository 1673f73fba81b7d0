import LlmDRl.Checkpoint.WeightVersion
import LlmDRl.Rollout.Versions

/-!
# The trainer and the controller

The calls of the trainer reach the controller as `POST /v1/weights/update`.
The request may be lost before the controller reads it; once it is read, its
handler runs to its end, also when the trainer has stopped waiting: `urlopen`
times out after `http_timeout_s`.

The trainer is the only one to ask for updates; everything else that the
controller serves goes on meanwhile.
-/

namespace LlmDRl.Checkpoint

open LlmDRl.Library
open LlmDRl.Pool
open LlmDRl.Rollout

/-- What `handleUpdateWeights` decodes. -/
def UpdateRequest.received (request : UpdateRequest) :
    WeightUpdateRequest where
  targetVersion := request.targetVersion
  pauseMode := request.pauseMode
  resetKVCache := request.resetKvCache

/-- The request that the trainer waits for. -/
def Trainer.underWay? (trainer : Trainer) : Option UpdateRequest :=
  match trainer.phase with
  | .requesting call version _ => some (trainer.request call version)
  | _ => none

def Trainer.isMaterializing (trainer : Trainer) : Bool :=
  match trainer.phase with
  | .materializing _ _ => true
  | _ => false

/-- Requests have numbers, under which the controller serves them. -/
structure Cluster where
  trainer : Trainer := .init
  control : Controller := .init
  /-- Sent, and not yet read by the controller. -/
  posted : OrderedDict Nat WeightUpdateRequest := .empty
  /-- Answered, by success or by an error, and not yet read by the trainer. -/
  answers : OrderedDict Nat Bool := .empty
  /-- The number of the request that the trainer waits for. -/
  awaiting : Option Nat := none
  /-- History: the versions asked for, the latest first. -/
  asked : List Int := []

inductive ClusterEvent where
  /-- A request that the trainer sends gets the number. -/
  | trainer (event : Event) (number : Nat)
  | controller (event : ControlEvent)
  /-- The answer arrives, with this text if it is an error. -/
  | answered (text : String)
  /-- The request does not reach the controller. -/
  | refused (text : String)
  /-- The trainer stops waiting. -/
  | abandoned (text : String)

def ClusterEvent.isPatient : ClusterEvent → Bool
  | abandoned _ => false
  | _ => true

namespace Cluster

/-! ## The steps -/

def init : Cluster := {}

/-- No request has the number. -/
def IsFree (cluster : Cluster) (number : Nat) : Prop :=
  cluster.posted.get? number = none ∧
    cluster.control.requests.get? number = none ∧
    cluster.answers.get? number = none

instance (cluster : Cluster) (number : Nat) :
    Decidable (cluster.IsFree number) :=
  inferInstanceAs (Decidable (_ ∧ _ ∧ _))

/-- The trainer goes on by itself; when it comes to wait for a request, the
request has been sent. -/
def trainerStep (cluster : Cluster) (event : Event) (number : Nat) :
    Option Cluster :=
  match event with
  | .acknowledges | .requestRaises _ => none
  | _ =>
      match cluster.trainer.step event with
      | none => none
      | some next =>
          match cluster.trainer.underWay?, next.underWay? with
          | none, some request =>
              if cluster.IsFree number then
                some
                  { cluster with
                    trainer := next
                    posted :=
                      cluster.posted.insert number request.received
                    awaiting := some number
                    asked := (request.targetVersion : Int) :: cluster.asked }
              else
                none
          | _, _ => some { cluster with trainer := next }

/-- The controller serves the requests sent, and whatever else it does. -/
def controllerStep (cluster : Cluster) (event : ControlEvent) :
    Option Cluster :=
  match cluster.control.step event with
  | none => none
  | some next =>
      match event with
      | .beginUpdate number req =>
          if cluster.posted.get? number = some req then
            some
              { cluster with
                control := next
                posted := cluster.posted.erase number }
          else
            none
      | .endUpdate number =>
          let succeeded :=
            (cluster.control.requests.get? number).any Handler.isPublished
          some
            { cluster with
              control := next
              answers := cluster.answers.insert number succeeded }
      | _ => some { cluster with control := next }

def step (cluster : Cluster) : ClusterEvent → Option Cluster
  | .trainer event number => cluster.trainerStep event number
  | .controller event => cluster.controllerStep event
  | .answered text =>
      match cluster.awaiting with
      | none => none
      | some number =>
          match cluster.answers.get? number with
          | none => none
          | some succeeded =>
              let event :=
                if succeeded then .acknowledges else .requestRaises text
              (cluster.trainer.step event).map fun next =>
                { cluster with
                  trainer := next
                  answers := cluster.answers.erase number
                  awaiting := none }
  | .refused text =>
      match cluster.awaiting with
      | none => none
      | some number =>
          match cluster.posted.get? number with
          | none => none
          | some _ =>
              (cluster.trainer.step (.requestRaises text)).map fun next =>
                { cluster with
                  trainer := next
                  posted := cluster.posted.erase number
                  awaiting := none }
  | .abandoned text =>
      (cluster.trainer.step (.requestRaises text)).map fun next =>
        { cluster with trainer := next, awaiting := none }

end Cluster

/-! ## What a step does to the request under way -/

namespace Trainer

variable {trainer next : Trainer}

theorem not_materializing_of_underWay {request : UpdateRequest}
    (underWay : trainer.underWay? = some request) :
    trainer.isMaterializing = false := by
  unfold underWay? at underWay
  split at underWay
  · next phase =>
      simp only [isMaterializing, phase]
  · cases underWay

theorem Sound.weightVersion_pos {request : UpdateRequest}
    (sound : trainer.Sound) (underWay : trainer.underWay? = some request) :
    0 < trainer.weightVersion := by
  unfold underWay? at underWay
  split at underWay
  · next phase =>
      simp only [Sound, phase] at sound
      omega
  · cases underWay

/-- The request is for the version of the trainer. -/
theorem Sound.target_underWay {request : UpdateRequest}
    (sound : trainer.Sound) (underWay : trainer.underWay? = some request) :
    request.targetVersion = trainer.weightVersion := by
  unfold underWay? at underWay
  split at underWay
  · next call version thread phase =>
      simp only [Sound, phase] at sound
      cases underWay
      cases call with
      | syncWeights model => rfl
      | updateWeightsFromGenerator metadata => exact sound.1
  · cases underWay

/-- Everything that a step of the trainer itself can do. -/
inductive Effect (trainer next : Trainer) : Prop
  | asks (request : UpdateRequest)
      (before : trainer.underWay? = none)
      (after : next.underWay? = some request)
      (target : request.targetVersion = next.weightVersion)
      (raised : trainer.weightVersion < next.weightVersion ∨
        trainer.isMaterializing = true ∧
          next.weightVersion = trainer.weightVersion)
      (acknowledged : next.acknowledged = trainer.acknowledged)
  | goesOn
      (same : next.underWay? = trainer.underWay?)
      (raised : trainer.weightVersion < next.weightVersion ∨
        (next.isMaterializing = true → trainer.isMaterializing = true) ∧
          next.weightVersion = trainer.weightVersion)
      (acknowledged : next.acknowledged = trainer.acknowledged)

/-- The steps that are not an answer. -/
theorem effect_of_step {event : Event} (sound : trainer.Sound)
    (notAcknowledged : event ≠ .acknowledges)
    (notRaised : ∀ text, event ≠ .requestRaises text)
    (stepped : trainer.step event = some next) :
    trainer.Effect next := by
  cases steps_of_step stepped with
  | calls call idle =>
      have before : trainer.underWay? = none := by
        simp only [underWay?, idle]
      have raised : trainer.weightVersion < trainer.weightVersion + 1 :=
        Nat.lt_succ_self _
      cases call with
      | syncWeights model =>
          exact .asks _ before rfl rfl (.inl raised) rfl
      | updateWeightsFromGenerator metadata =>
          refine .goesOn ?_ (.inl raised) rfl
          rw [before]
          rfl
  | @materializes call version phase =>
      have before : trainer.underWay? = none := by
        simp only [underWay?, phase]
      have begun : trainer.isMaterializing = true := by
        simp only [isMaterializing, phase]
      simp only [Sound, phase] at sound
      refine .asks _ before rfl ?_ (.inr ⟨begun, rfl⟩) rfl
      cases call with
      | syncWeights model => rfl
      | updateWeightsFromGenerator metadata => exact sound.1
  | weightsRaise text phase =>
      refine .goesOn ?_ (.inr ⟨?_, rfl⟩) rfl
      · simp only [underWay?, phase, finish]
      · intro begun
        cases begun
  | acknowledges phase => exact absurd rfl notAcknowledged
  | requestRaises text phase => exact absurd rfl (notRaised text)
  | ends thread error => exact .goesOn rfl (.inr ⟨id, rfl⟩) rfl
  | joins phase ended | joinTimesOut phase runs =>
      have before : trainer.underWay? = none := by
        simp only [underWay?, phase]
      unfold conclude
      split <;>
      · refine .goesOn before.symm (.inr ⟨?_, rfl⟩) rfl
        intro begun
        cases begun

/-- Nothing is under way after an answer, whose version is acknowledged if it
is a success. -/
theorem answered_of_step {request : UpdateRequest} {succeeded : Bool}
    {text : String} (underWay : trainer.underWay? = some request)
    (stepped : trainer.step
      (if succeeded then .acknowledges else .requestRaises text) =
        some next) :
    next.acknowledged =
      if succeeded then request.targetVersion else trainer.acknowledged := by
  cases succeeded with
  | true =>
      cases steps_of_step stepped with
      | acknowledges phase =>
          simp only [underWay?, phase, Option.some.injEq] at underWay
          rw [← underWay]
          rfl
  | false =>
      cases steps_of_step stepped with
      | requestRaises text phase =>
          rfl

theorem quiet_of_step {event : Event}
    (answers : event = .acknowledges ∨ ∃ text, event = .requestRaises text)
    (stepped : trainer.step event = some next) :
    next.underWay? = none ∧ next.isMaterializing = false ∧
      next.weightVersion = trainer.weightVersion := by
  rcases answers with rfl | ⟨text, rfl⟩
  · cases steps_of_step stepped with
    | acknowledges phase =>
        exact ⟨rfl, rfl, rfl⟩
  · cases steps_of_step stepped with
    | requestRaises text phase =>
        exact ⟨rfl, rfl, rfl⟩

end Trainer

namespace Cluster

variable {cluster next : Cluster}

/-- Everything that a step of the cluster can be. -/
inductive Steps (cluster : Cluster) : ClusterEvent → Cluster → Prop
  | asks (event : Event) (number : Nat) (trainer : Trainer)
      (request : UpdateRequest)
      (stepped : cluster.trainer.step event = some trainer)
      (notAcknowledged : event ≠ .acknowledges)
      (notRaised : ∀ text, event ≠ .requestRaises text)
      (before : cluster.trainer.underWay? = none)
      (after : trainer.underWay? = some request)
      (free : cluster.IsFree number) :
      Steps cluster (.trainer event number)
        { cluster with
          trainer := trainer
          posted := cluster.posted.insert number request.received
          awaiting := some number
          asked := (request.targetVersion : Int) :: cluster.asked }
  | goesOn (event : Event) (number : Nat) (trainer : Trainer)
      (stepped : cluster.trainer.step event = some trainer)
      (notAcknowledged : event ≠ .acknowledges)
      (notRaised : ∀ text, event ≠ .requestRaises text)
      (waits : cluster.trainer.underWay? ≠ none ∨
        trainer.underWay? = none) :
      Steps cluster (.trainer event number)
        { cluster with trainer := trainer }
  | reads (number : Nat) (req : WeightUpdateRequest) (control : Controller)
      (stepped : cluster.control.step (.beginUpdate number req) =
        some control)
      (posted : cluster.posted.get? number = some req) :
      Steps cluster (.controller (.beginUpdate number req))
        { cluster with
          control := control
          posted := cluster.posted.erase number }
  | ends (number : Nat) (control : Controller)
      (stepped : cluster.control.step (.endUpdate number) = some control) :
      Steps cluster (.controller (.endUpdate number))
        { cluster with
          control := control
          answers := cluster.answers.insert number
            ((cluster.control.requests.get? number).any
              Handler.isPublished) }
  | serves (event : ControlEvent) (control : Controller)
      (stepped : cluster.control.step event = some control)
      (between : event.boundsUpdate = false) :
      Steps cluster (.controller event) { cluster with control := control }
  | answered (text : String) (number : Nat) (succeeded : Bool)
      (trainer : Trainer) (waits : cluster.awaiting = some number)
      (answer : cluster.answers.get? number = some succeeded)
      (stepped : cluster.trainer.step
        (if succeeded then .acknowledges else .requestRaises text) =
          some trainer) :
      Steps cluster (.answered text)
        { cluster with
          trainer := trainer
          answers := cluster.answers.erase number
          awaiting := none }
  | refused (text : String) (number : Nat) (req : WeightUpdateRequest)
      (trainer : Trainer) (waits : cluster.awaiting = some number)
      (posted : cluster.posted.get? number = some req)
      (stepped : cluster.trainer.step (.requestRaises text) =
        some trainer) :
      Steps cluster (.refused text)
        { cluster with
          trainer := trainer
          posted := cluster.posted.erase number
          awaiting := none }
  | abandoned (text : String) (trainer : Trainer)
      (stepped : cluster.trainer.step (.requestRaises text) =
        some trainer) :
      Steps cluster (.abandoned text)
        { cluster with trainer := trainer, awaiting := none }

theorem steps_of_trainerStep {event : Event} {number : Nat}
    (stepped : cluster.trainerStep event number = some next) :
    Steps cluster (.trainer event number) next := by
  unfold trainerStep at stepped
  split at stepped
  · cases stepped
  · cases stepped
  · next notAcknowledged notRaised =>
      split at stepped
      · cases stepped
      · next trainer trainerStepped =>
          split at stepped
          · next request before after =>
              split at stepped
              · next free =>
                  cases stepped
                  exact .asks event number trainer request trainerStepped
                    notAcknowledged notRaised before after free
              · cases stepped
          · next notAsks =>
              cases stepped
              refine .goesOn event number trainer trainerStepped
                notAcknowledged notRaised ?_
              by_contra asks
              obtain ⟨before, after⟩ := not_or.mp asks
              obtain ⟨request, found⟩ := Option.ne_none_iff_exists'.mp after
              exact notAsks request (not_not.mp before) found

theorem steps_of_controllerStep {event : ControlEvent}
    (stepped : cluster.controllerStep event = some next) :
    Steps cluster (.controller event) next := by
  unfold controllerStep at stepped
  split at stepped
  · cases stepped
  · next control controlStepped =>
      split at stepped
      · next number req =>
          split at stepped
          · next posted =>
              cases stepped
              exact .reads number req control controlStepped posted
          · cases stepped
      · next number =>
          cases stepped
          exact .ends number control controlStepped
      · next notBegin notEnd =>
          cases stepped
          refine .serves event control controlStepped ?_
          unfold ControlEvent.boundsUpdate
          split
          · next number req => exact absurd rfl (notBegin number req)
          · next number => exact absurd rfl (notEnd number)
          · rfl

theorem steps_of_step {event : ClusterEvent}
    (stepped : cluster.step event = some next) :
    Steps cluster event next := by
  cases event with
  | trainer event number => exact steps_of_trainerStep stepped
  | controller event => exact steps_of_controllerStep stepped
  | answered text =>
      simp only [step] at stepped
      split at stepped
      · cases stepped
      · next number waits =>
          split at stepped
          · cases stepped
          · next succeeded answer =>
              obtain ⟨trainer, trainerStepped, rfl⟩ :=
                Option.map_eq_some_iff.mp stepped
              exact .answered text number succeeded trainer waits answer
                trainerStepped
  | refused text =>
      simp only [step] at stepped
      split at stepped
      · cases stepped
      · next number waits =>
          split at stepped
          · cases stepped
          · next req posted =>
              obtain ⟨trainer, trainerStepped, rfl⟩ :=
                Option.map_eq_some_iff.mp stepped
              exact .refused text number req trainer waits posted
                trainerStepped
  | abandoned text =>
      simp only [step] at stepped
      obtain ⟨trainer, trainerStepped, rfl⟩ :=
        Option.map_eq_some_iff.mp stepped
      exact .abandoned text trainer trainerStepped

/-! ## Every version has been asked for -/

/-- A version that is there from the start or has been asked for. -/
def Known (cluster : Cluster) (version : Int) : Prop :=
  version = 0 ∨ version ∈ cluster.asked

/-- The versions asked for rise, and nothing else is on its way or there. -/
structure Accounted (cluster : Cluster) : Prop where
  sound : cluster.trainer.Sound
  versions : cluster.control.AllVersions cluster.Known
  posted : cluster.posted.AllValues fun req =>
    req.targetVersion ∈ cluster.asked
  rises : cluster.asked.Pairwise (· > ·)
  positive : ∀ version ∈ cluster.asked, 0 < version
  reached : ∀ version ∈ cluster.asked,
    version ≤ cluster.trainer.weightVersion
  passed : cluster.trainer.isMaterializing = true →
    ∀ version ∈ cluster.asked, version < cluster.trainer.weightVersion

theorem accounted_init : init.Accounted where
  sound := Trainer.sound_init
  versions := Controller.allVersions_init (.inl rfl)
  posted := by
    intro number req found
    cases found
  rises := List.Pairwise.nil
  positive := fun _ member => absurd member List.not_mem_nil
  reached := fun _ member => absurd member List.not_mem_nil
  passed := fun _ _ member => absurd member List.not_mem_nil

/-- A step of the trainer's own that asks for nothing, or an answer. -/
theorem Accounted.of_trainer (accounted : cluster.Accounted)
    {event : Event}
    (stepped : cluster.trainer.step event = some next.trainer)
    (raised : cluster.trainer.weightVersion < next.trainer.weightVersion ∨
      (next.trainer.isMaterializing = true →
          cluster.trainer.isMaterializing = true) ∧
        next.trainer.weightVersion = cluster.trainer.weightVersion)
    (control : next.control = cluster.control)
    (asked : next.asked = cluster.asked)
    (posted : next.posted.AllValues fun req =>
      req.targetVersion ∈ cluster.asked) :
    next.Accounted where
  sound := accounted.sound.step stepped
  versions := by
    unfold Known
    rw [control, asked]
    exact accounted.versions
  posted := by
    rw [asked]
    exact posted
  rises := asked ▸ accounted.rises
  positive := asked ▸ accounted.positive
  reached := by
    rw [asked]
    intro version member
    have before := accounted.reached version member
    rcases raised with above | ⟨_, same⟩ <;> omega
  passed := by
    rw [asked]
    intro materializes version member
    have before := accounted.reached version member
    rcases raised with above | ⟨kept, same⟩
    · omega
    · have below := accounted.passed (kept materializes) version member
      omega

/-- The version the trainer asks for is above all it has asked for. -/
theorem Accounted.of_asks (accounted : cluster.Accounted) {event : Event}
    {number : Nat} {trainer : Trainer} {request : UpdateRequest}
    (stepped : cluster.trainer.step event = some trainer)
    (notAcknowledged : event ≠ .acknowledges)
    (notRaised : ∀ text, event ≠ .requestRaises text)
    (before : cluster.trainer.underWay? = none)
    (after : trainer.underWay? = some request) :
    Accounted
      { cluster with
        trainer := trainer
        posted := cluster.posted.insert number request.received
        awaiting := some number
        asked := (request.targetVersion : Int) :: cluster.asked } := by
  have sound := accounted.sound
  obtain ⟨_, _, found, target, raised, _⟩ | ⟨same, _, _⟩ :=
    Trainer.effect_of_step sound notAcknowledged notRaised stepped
  · rw [after, Option.some.injEq] at found
    subst found
    have above : ∀ version ∈ cluster.asked,
        version < (request.targetVersion : Int) := by
      intro version member
      have reached := accounted.reached version member
      rcases raised with more | ⟨materializes, same⟩
      · omega
      · have below := accounted.passed materializes version member
        omega
    have positive : 0 < request.targetVersion := by
      rw [target]
      exact (sound.step stepped).weightVersion_pos after
    refine
      ⟨sound.step stepped, ?_, ?_, List.pairwise_cons.mpr ⟨above,
        accounted.rises⟩, ?_, ?_, ?_⟩
    · refine accounted.versions.mono fun version known => ?_
      exact known.imp id (List.mem_cons_of_mem _)
    · refine OrderedDict.AllValues.insert ?_ number (List.mem_cons_self ..)
      exact fun number req present =>
        List.mem_cons_of_mem _ (accounted.posted number req present)
    · intro version member
      rcases List.mem_cons.mp member with rfl | older
      · exact_mod_cast positive
      · exact accounted.positive version older
    · intro version member
      rcases List.mem_cons.mp member with rfl | older
      · exact_mod_cast le_of_eq target
      · have below := above version older
        dsimp only
        omega
    · intro materializes
      exact absurd (Trainer.not_materializing_of_underWay after)
        (by simp [materializes])
  · rw [before, after] at same
    cases same

/-- The controller makes up no version, and reads only what was asked. -/
theorem Accounted.of_control (accounted : cluster.Accounted)
    {event : ControlEvent} {control : Controller}
    (stepped : cluster.control.step event = some control)
    (begins : ∀ number req, event = .beginUpdate number req →
      cluster.posted.get? number = some req) :
    control.AllVersions cluster.Known := by
  refine accounted.versions.step (.inl rfl) ?_ stepped
  intro number req same
  exact .inr (accounted.posted number req (begins number req same))

theorem Accounted.step {event : ClusterEvent}
    (accounted : cluster.Accounted)
    (stepped : cluster.step event = some next) : next.Accounted := by
  have erased : ∀ number, (cluster.posted.erase number).AllValues
      fun req => req.targetVersion ∈ cluster.asked :=
    fun number => accounted.posted.erase number
  cases steps_of_step stepped with
  | asks event number trainer request trainerStepped notAcknowledged
      notRaised before after free =>
      exact accounted.of_asks trainerStepped notAcknowledged notRaised before
        after
  | goesOn event number trainer trainerStepped notAcknowledged notRaised
      waits =>
      obtain ⟨_, before, after, _, _, _⟩ | ⟨_, raised, _⟩ :=
        Trainer.effect_of_step accounted.sound notAcknowledged notRaised
          trainerStepped
      · rw [after] at waits
        exact absurd before (waits.resolve_right nofun)
      · exact accounted.of_trainer trainerStepped raised rfl rfl
          accounted.posted
  | reads number req control controlStepped posted =>
      refine { accounted with versions := ?_, posted := erased number }
      refine accounted.of_control controlStepped ?_
      intro other otherReq same
      cases same
      exact posted
  | ends number control controlStepped =>
      exact { accounted with
        versions := accounted.of_control controlStepped nofun }
  | serves event control controlStepped between =>
      refine { accounted with versions := ?_ }
      refine accounted.of_control controlStepped ?_
      intro number req same
      rw [same] at between
      cases between
  | answered text number succeeded trainer waits answer trainerStepped =>
      obtain ⟨_, notMaterializing, same⟩ :=
        Trainer.quiet_of_step (by cases succeeded <;> simp) trainerStepped
      refine accounted.of_trainer trainerStepped (.inr ⟨?_, same⟩) rfl rfl
        accounted.posted
      intro materializes
      rw [notMaterializing] at materializes
      cases materializes
  | refused text number req trainer waits posted trainerStepped =>
      obtain ⟨_, notMaterializing, same⟩ :=
        Trainer.quiet_of_step (.inr ⟨text, rfl⟩) trainerStepped
      refine accounted.of_trainer trainerStepped (.inr ⟨?_, same⟩) rfl rfl
        (erased number)
      intro materializes
      rw [notMaterializing] at materializes
      cases materializes
  | abandoned text trainer trainerStepped =>
      obtain ⟨_, notMaterializing, same⟩ :=
        Trainer.quiet_of_step (.inr ⟨text, rfl⟩) trainerStepped
      refine accounted.of_trainer trainerStepped (.inr ⟨?_, same⟩) rfl rfl
        accounted.posted
      intro materializes
      rw [notMaterializing] at materializes
      cases materializes

/-- Whatever the trainer gives up on, every version on the controller, its
engines and its responses is 0 or one that the trainer asked for, and so is
every version on its way; those are positive, pairwise different, rising and
none above the trainer's own. -/
theorem versions_asked (events : List ClusterEvent) (final : Cluster)
    (ran : run step init events = some final) :
    final.control.AllVersions
        (fun version => version = 0 ∨ version ∈ final.asked) ∧
      (∀ number req, final.posted.get? number = some req →
        req.targetVersion ∈ final.asked) ∧
      final.asked.Pairwise (· > ·) ∧
      ∀ version ∈ final.asked,
        0 < version ∧ version ≤ final.trainer.weightVersion := by
  have accounted : final.Accounted :=
    run_invariant (fun _ _ _ kept stepped => Accounted.step kept stepped)
      accounted_init ran
  exact ⟨accounted.versions, accounted.posted, accounted.rises,
    fun version member =>
      ⟨accounted.positive version member, accounted.reached version member⟩⟩

/-! ## A trainer that waits for every answer -/

/-- Where the request under way is.  The controller has no update that the
trainer does not wait for, and its versions are the one acknowledged until the
update raises them. -/
inductive Lockstep (cluster : Cluster) : Prop
  | resting
      (idle : cluster.trainer.underWay? = none)
      (waits : cluster.awaiting = none)
      (empty : ∀ number, cluster.posted.get? number = none)
      (quiet : cluster.control.NoUpdate)
      (both : cluster.control.BothAt cluster.trainer.acknowledged)
  | posted {number : Nat} {request : UpdateRequest}
      (asks : cluster.trainer.underWay? = some request)
      (waits : cluster.awaiting = some number)
      (only : ∀ other req, cluster.posted.get? other = some req →
        other = number ∧ req = request.received)
      (unanswered : cluster.answers.get? number = none)
      (quiet : cluster.control.NoUpdate)
      (both : cluster.control.BothAt cluster.trainer.acknowledged)
  | handled {number : Nat} {request : UpdateRequest} {handler : Handler}
      (asks : cluster.trainer.underWay? = some request)
      (waits : cluster.awaiting = some number)
      (empty : ∀ number, cluster.posted.get? number = none)
      (unanswered : cluster.answers.get? number = none)
      (found : cluster.control.requests.get? number = some handler)
      (works : handler.updateRequest? = some request.received)
      (alone : ∀ other found,
        cluster.control.requests.get? other = some found →
          found.Updates → other = number)
      (stands : cluster.control.Stands cluster.trainer.acknowledged handler)
  | answered {number : Nat} {request : UpdateRequest} {succeeded : Bool}
      (asks : cluster.trainer.underWay? = some request)
      (waits : cluster.awaiting = some number)
      (empty : ∀ number, cluster.posted.get? number = none)
      (answer : cluster.answers.get? number = some succeeded)
      (quiet : cluster.control.NoUpdate)
      (both : cluster.control.BothAt
        (if succeeded then request.targetVersion
          else cluster.trainer.acknowledged))

theorem erase_only {posted : OrderedDict Nat WeightUpdateRequest}
    {number : Nat}
    (only : ∀ other req, posted.get? other = some req → other = number)
    (other : Nat) : (posted.erase number).get? other = none := by
  rw [OrderedDict.get?_erase]
  split
  · rfl
  · next different =>
      cases found : posted.get? other with
      | none => rfl
      | some req => exact absurd (only other req found) different

theorem lockstep_init : init.Lockstep := by
  refine .resting rfl rfl (fun _ => rfl) ?_ ⟨rfl, rfl⟩
  intro request handler found
  cases found

/-- A step of the trainer's own that asks for nothing. -/
theorem Lockstep.of_goesOn (lockstep : cluster.Lockstep)
    {trainer : Trainer}
    (same : trainer.underWay? = cluster.trainer.underWay?)
    (acknowledged : trainer.acknowledged = cluster.trainer.acknowledged) :
    Lockstep { cluster with trainer := trainer } := by
  cases lockstep with
  | resting idle waits empty quiet both =>
      refine .resting (same.trans idle) waits empty quiet ?_
      rw [acknowledged]
      exact both
  | posted asks waits only unanswered quiet both =>
      refine .posted (same.trans asks) waits only unanswered quiet ?_
      rw [acknowledged]
      exact both
  | handled asks waits empty unanswered found works alone stands =>
      refine .handled (same.trans asks) waits empty unanswered found works
        alone ?_
      rw [acknowledged]
      exact stands
  | answered asks waits empty answer quiet both =>
      refine .answered (same.trans asks) waits empty answer quiet ?_
      rw [acknowledged]
      exact both

/-- The controller reads the request, whose handler is then the only one. -/
theorem Lockstep.of_reads (lockstep : cluster.Lockstep) {number : Nat}
    {req : WeightUpdateRequest} {control : Controller}
    (effect : cluster.control.UpdateEffect (.beginUpdate number req) control)
    (present : cluster.posted.get? number = some req) :
    Lockstep
      { cluster with
        control := control
        posted := cluster.posted.erase number } := by
  cases lockstep with
  | resting _ _ empty | handled _ _ empty | answered _ _ empty =>
      rw [empty] at present
      cases present
  | @posted awaited request asks waits only unanswered quiet both =>
      obtain ⟨rfl, rfl⟩ := only number req present
      cases effect with
      | aside between => cases between
      | advances between => cases between
      | begins fresh requests pool server =>
          have present : control.requests.get? number =
              some (.updateBegun request.received) := by
            rw [requests, OrderedDict.get?_insert_self]
          refine .handled asks waits ?_ unanswered present rfl ?_
            (both.of_same pool server)
          · exact erase_only fun other found isFound =>
              (only other found isFound).1
          · intro other found isFound updates
            dsimp only at isFound
            rw [requests] at isFound
            rcases OrderedDict.get?_of_get?_insert isFound with
              ⟨rfl, _⟩ | earlier
            · rfl
            · exact absurd updates (quiet other found earlier)

/-- The only handler answers as it has come out. -/
theorem Lockstep.of_ends (lockstep : cluster.Lockstep) {number : Nat}
    {control : Controller}
    (effect : cluster.control.UpdateEffect (.endUpdate number) control) :
    Lockstep
      { cluster with
        control := control
        answers := cluster.answers.insert number
          ((cluster.control.requests.get? number).any
            Handler.isPublished) } := by
  have notQuiet : ¬ cluster.control.NoUpdate := by
    intro quiet
    cases effect with
    | aside between => cases between
    | advances between => cases between
    | ends found exits =>
        refine quiet number _ found ?_
        rcases exits with ⟨_, rfl⟩ | ⟨_, _, rfl⟩ <;> trivial
  cases lockstep with
  | resting _ _ _ quiet | posted _ _ _ _ quiet | answered _ _ _ _ quiet =>
      exact absurd quiet notQuiet
  | handled asks waits empty unanswered found works alone stands =>
      obtain ⟨rfl, quiet, both⟩ := effect.ended found works alone stands
      refine .answered asks waits empty
        (OrderedDict.get?_insert_self _ _ _) quiet ?_
      rw [found]
      exact both

/-- The controller goes on with what it has read. -/
theorem Lockstep.of_serves (lockstep : cluster.Lockstep)
    {event : ControlEvent} {control : Controller}
    (effect : cluster.control.UpdateEffect event control)
    (between : event.boundsUpdate = false) :
    Lockstep { cluster with control := control } := by
  cases lockstep with
  | resting idle waits empty quiet both =>
      obtain ⟨stillQuiet, kept⟩ := effect.quiet between quiet
      exact .resting idle waits empty stillQuiet (kept _ both)
  | posted asks waits only unanswered quiet both =>
      obtain ⟨stillQuiet, kept⟩ := effect.quiet between quiet
      exact .posted asks waits only unanswered stillQuiet (kept _ both)
  | answered asks waits empty answer quiet both =>
      obtain ⟨stillQuiet, kept⟩ := effect.quiet between quiet
      exact .answered asks waits empty answer stillQuiet (kept _ both)
  | handled asks waits empty unanswered found works alone stands =>
      obtain ⟨handler, isFound, stillWorks, nowStands, stillAlone⟩ :=
        effect.handled between found works alone stands
      exact .handled asks waits empty unanswered isFound stillWorks
        stillAlone nowStands

theorem Lockstep.step {event : ClusterEvent}
    (lockstep : cluster.Lockstep) (sound : cluster.trainer.Sound)
    (guarded : cluster.control.Guarded) (patient : event.isPatient = true)
    (stepped : cluster.step event = some next) : next.Lockstep := by
  cases steps_of_step stepped with
  | asks event number trainer request trainerStepped notAcknowledged
      notRaised before after free =>
      have acknowledged :
          trainer.acknowledged = cluster.trainer.acknowledged := by
        cases Trainer.effect_of_step sound notAcknowledged notRaised
          trainerStepped <;> assumption
      cases lockstep with
      | posted asks | handled asks | answered asks =>
          rw [before] at asks
          cases asks
      | resting idle waits empty quiet both =>
          refine .posted after rfl ?_ free.2.2 quiet ?_
          · intro other req found
            rcases OrderedDict.get?_of_get?_insert found with
              ⟨rfl, rfl⟩ | earlier
            · exact ⟨rfl, rfl⟩
            · rw [empty] at earlier
              cases earlier
          · rw [acknowledged]
            exact both
  | goesOn event number trainer trainerStepped notAcknowledged notRaised
      waits =>
      obtain ⟨_, before, after, _, _, _⟩ | ⟨same, _, acknowledged⟩ :=
        Trainer.effect_of_step sound notAcknowledged notRaised trainerStepped
      · rw [after] at waits
        exact absurd before (waits.resolve_right nofun)
      · exact lockstep.of_goesOn same acknowledged
  | reads number req control controlStepped posted =>
      exact lockstep.of_reads
        (Controller.updateEffect_of_step guarded controlStepped) posted
  | ends number control controlStepped =>
      exact lockstep.of_ends
        (Controller.updateEffect_of_step guarded controlStepped)
  | serves event control controlStepped between =>
      exact lockstep.of_serves
        (Controller.updateEffect_of_step guarded controlStepped) between
  | answered text number succeeded trainer waits answer trainerStepped =>
      have idle := (Trainer.quiet_of_step (by cases succeeded <;> simp)
        trainerStepped).1
      cases lockstep with
      | resting _ notWaiting =>
          rw [notWaiting] at waits
          cases waits
      | posted _ waited _ unanswered | handled _ waited _ unanswered =>
          rw [waited, Option.some.injEq] at waits
          rw [← waits, unanswered] at answer
          cases answer
      | answered asks waited empty answered quiet both =>
          rw [waited, Option.some.injEq] at waits
          subst waits
          rw [answered, Option.some.injEq] at answer
          subst answer
          refine .resting idle rfl empty quiet ?_
          rw [Trainer.answered_of_step asks trainerStepped]
          split at both <;> next isSuccess =>
            simp only [isSuccess, if_true, Bool.false_eq_true, if_false]
            exact both
  | refused text number req trainer waits present trainerStepped =>
      have idle := (Trainer.quiet_of_step (.inr ⟨text, rfl⟩)
        trainerStepped).1
      cases lockstep with
      | resting _ _ empty | handled _ _ empty | answered _ _ empty =>
          rw [empty] at present
          cases present
      | posted asks waited only unanswered quiet both =>
          rw [waited, Option.some.injEq] at waits
          subst waits
          refine .resting idle rfl ?_ quiet ?_
          · exact erase_only fun other found isFound =>
              (only other found isFound).1
          · have kept :
                trainer.acknowledged = cluster.trainer.acknowledged := by
              cases Trainer.steps_of_step trainerStepped
              rfl
            rw [kept]
            exact both
  | abandoned text trainer trainerStepped =>
      cases patient

/-- What the controller reads is to a version as high as any there is. -/
theorem Lockstep.beginsHighest (lockstep : cluster.Lockstep)
    (accounted : cluster.Accounted) {number : Nat}
    {req : WeightUpdateRequest}
    (present : cluster.posted.get? number = some req) :
    cluster.control.BeginsHighest (.beginUpdate number req) := by
  cases lockstep with
  | resting _ _ empty | handled _ _ empty | answered _ _ empty =>
      rw [empty] at present
      cases present
  | @posted awaited request asks waits only unanswered quiet both =>
      obtain ⟨rfl, rfl⟩ := only number req present
      have target := accounted.sound.target_underWay asks
      have positive : (0 : Int) ≤ request.targetVersion :=
        Int.natCast_nonneg _
      refine ⟨quiet, positive, accounted.versions.mono ?_⟩
      rintro version (rfl | asked)
      · exact positive
      · change version ≤ (request.targetVersion : Int)
        rw [target]
        exact accounted.reached version asked

/-- What is kept as long as the trainer waits. -/
structure Waiting (cluster : Cluster) : Prop where
  accounted : cluster.Accounted
  guarded : cluster.control.Guarded
  lockstep : cluster.Lockstep
  climbing : cluster.control.Climbing

theorem waiting_init : init.Waiting :=
  ⟨accounted_init, Controller.guarded_init, lockstep_init,
    Controller.climbing_init⟩

/-- A step of the cluster is one of the controller, or leaves it alone. -/
theorem control_of_step {event : ClusterEvent}
    (stepped : cluster.step event = some next) :
    next.control = cluster.control ∨
      ∃ served, cluster.control.step served = some next.control ∧
        ∀ number req, served = .beginUpdate number req →
          cluster.posted.get? number = some req := by
  cases steps_of_step stepped with
  | reads number req control controlStepped posted =>
      refine .inr ⟨_, controlStepped, ?_⟩
      intro other otherReq same
      cases same
      exact posted
  | ends number control controlStepped =>
      exact .inr ⟨_, controlStepped, nofun⟩
  | serves event control controlStepped between =>
      refine .inr ⟨event, controlStepped, ?_⟩
      intro number req same
      rw [same] at between
      cases between
  | _ => exact .inl rfl

theorem Waiting.step {event : ClusterEvent} (waiting : cluster.Waiting)
    (patient : event.isPatient = true)
    (stepped : cluster.step event = some next) : next.Waiting := by
  obtain ⟨accounted, guarded, lockstep, climbing⟩ := waiting
  have kept : next.control.Guarded ∧ next.control.Climbing := by
    rcases control_of_step stepped with
      same | ⟨served, controlStepped, posted⟩
    · rw [same]
      exact ⟨guarded, climbing⟩
    · refine ⟨guarded.step controlStepped,
        climbing.step guarded ?_ controlStepped⟩
      cases served with
      | beginUpdate number req =>
          exact lockstep.beginsHighest accounted (posted number req rfl)
      | _ => trivial
  exact ⟨accounted.step stepped, kept.1,
    lockstep.step accounted.sound guarded patient stepped, kept.2⟩

/-- When the trainer waits for no answer, no update is in progress and the
pool and the server have the version last acknowledged; and nothing has gone
back, on an engine or from one response to the next. -/
structure InStep (cluster : Cluster) : Prop where
  settled : cluster.trainer.underWay? = none →
    cluster.control.NoUpdate ∧
      cluster.control.BothAt cluster.trainer.acknowledged
  engines : ∀ engine,
    (cluster.control.engine engine).versions.Pairwise (· ≤ ·)
  responses : cluster.control.responses.Pairwise fun newer older =>
    older.weightVersion ≤ newer.weightVersion

theorem Waiting.inStep (waiting : cluster.Waiting) : cluster.InStep where
  settled := by
    intro idle
    cases waiting.lockstep with
    | resting _ _ _ quiet both => exact ⟨quiet, both⟩
    | posted asks | handled asks | answered asks =>
        rw [idle] at asks
        cases asks
  engines := waiting.climbing.engines
  responses := waiting.climbing.responses

/-- A trainer that waits for every answer, whatever the answers are, and the
controller that serves it stay in step. -/
theorem in_step_of_patient (events : List ClusterEvent) (final : Cluster)
    (ran : run step init events = some final)
    (patient : ∀ event ∈ events, event.isPatient = true) :
    final.InStep := by
  have meets : StepsMeet step (fun _ event => event.isPatient = true) init
      events :=
    stepsMeet_of_forall (fun event member _ => patient event member) init
  have waiting : final.Waiting :=
    run_invariant_of_stepsMeet
      (fun _ _ _ kept isPatient stepped =>
        Waiting.step kept isPatient stepped)
      waiting_init meets ran
  exact waiting.inStep

/-! ## Two syncs -/

/-- One engine, in the transfer group. -/
def oneEngine : List ClusterEvent :=
  Controller.oneEngine.map .controller

/-- The controller reads the request, and its handler goes through the pool:
the engine is paused, updated, reset and resumed. -/
def handles (number version : Nat) : List ClusterEvent :=
  [.controller (.beginUpdate number ⟨version, "keep", true⟩),
    .controller (.lockPool number PoolHistory.allUpdate),
    .controller (.callReturns number), .controller (.callReturns number),
    .controller (.callReturns number), .controller (.callReturns number),
    .controller (.unlockPool number)]

/-- The handler writes the server's version and answers. -/
def publishes (number : Nat) : List ClusterEvent :=
  [.controller (.publish number), .controller (.endUpdate number)]

def syncs (number : Nat) : ClusterEvent :=
  .trainer (.calls (.syncWeights [])) number

/-- A sync that succeeds, one that does not reach the controller, and a third
one. -/
def threeSyncs : List ClusterEvent :=
  oneEngine ++ syncs 1 :: handles 1 1 ++ publishes 1 ++
    [.answered "", .trainer (.ends 0 none) 0, .trainer .joins 0, syncs 2,
      .refused "connection refused", syncs 3] ++
    handles 3 3 ++ publishes 3 ++ [.answered ""]

theorem in_step_after_three_syncs :
    ∃ final, run step init threeSyncs = some final ∧ final.InStep ∧
      final.trainer.acknowledged = 3 ∧
      (final.control.engine 0).versions = [0, 1, 3] := by
  obtain ⟨final, ran, test⟩ :=
    exists_final_of_map_eq
      (show (run step init threeSyncs).map (fun final =>
        decide (final.trainer.acknowledged = 3 ∧
          (final.control.engine 0).versions = [0, 1, 3])) = some true
        by decide +kernel)
  exact ⟨final, ran, in_step_of_patient _ final ran (by decide),
    of_decide_eq_true test⟩

/-- The trainer gives up on the first sync before its handler writes the
server's version, which it does after the handler of the second. -/
def givenUp : List ClusterEvent :=
  oneEngine ++ syncs 1 :: handles 1 1 ++ [.abandoned "timed out", syncs 2] ++
    handles 2 2 ++ publishes 2 ++ [.answered ""] ++ publishes 1

theorem versions_asked_after_giving_up :
    ∃ final, run step init givenUp = some final ∧ final.asked = [2, 1] ∧
      final.control.AllVersions
        (fun version => version = 0 ∨ version ∈ final.asked) := by
  obtain ⟨final, ran, test⟩ :=
    exists_final_of_map_eq
      (show (run step init givenUp).map (fun final =>
        decide (final.asked = [2, 1])) = some true
        by decide +kernel)
  exact ⟨final, ran, of_decide_eq_true test, (versions_asked _ final ran).1⟩

theorem abandoned_update_goes_back :
    ∃ final, run step init givenUp = some final ∧
      final.trainer.acknowledged = 2 ∧ final.control.weightVersion = 1 ∧
      ¬ final.InStep := by
  obtain ⟨final, ran, test⟩ :=
    exists_final_of_map_eq
      (show (run step init givenUp).map (fun final =>
        decide (final.trainer.acknowledged = 2 ∧
          final.control.weightVersion = 1 ∧
          final.trainer.underWay?.isNone = true)) = some true
        by decide +kernel)
  obtain ⟨acknowledged, server, idle⟩ := of_decide_eq_true test
  refine ⟨final, ran, acknowledged, server, ?_⟩
  intro inStep
  have both := (inStep.settled (Option.isNone_iff_eq_none.mp idle)).2.2
  rw [acknowledged, server] at both
  cases both

end Cluster

end LlmDRl.Checkpoint
