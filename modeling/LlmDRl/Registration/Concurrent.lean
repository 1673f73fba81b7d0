import LlmDRl.Registration.Shim

/-!
# Overlapping requests

A `POST` runs on the event loop, one at a time; a `DELETE` runs on a worker
thread, beside the loop and beside other `DELETE`s.  Each request changes the
map of workers, reads the URLs, writes the temporary file they all share and
renames it over the endpoints file, and these steps of different requests may
come in any order.
-/

namespace LlmDRl.Registration

open LlmDRl.Library

/-- An URL that `split_address` accepts. -/
structure ValidUrl where
  text : String
  splits : Splits text

inductive Request where
  | post (url : ValidUrl) (workerType drawn : String)
  | delete (ref : String)

def Request.onLoop : Request → Bool
  | post .. => true
  | delete _ => false

/-- How far a request has come; `ended` says whether it raised. -/
inductive Phase where
  | changed
  | read (urls : List String)
  | wrote
  | ended (raised : Bool)
  deriving DecidableEq, Repr

/-- The request is in progress. -/
def Phase.Active : Phase → Prop
  | ended _ => False
  | _ => True

/-- The request has changed the map and not yet written the temporary file. -/
def Phase.Unwritten : Phase → Prop
  | changed | read _ => True
  | _ => False

instance : DecidablePred Phase.Active := by
  intro phase
  unfold Phase.Active
  split <;> infer_instance

instance : DecidablePred Phase.Unwritten := by
  intro phase
  unfold Phase.Unwritten
  split <;> infer_instance

inductive ServerEvent where
  | start (id : Nat) (request : Request)
  | read (id : Nat)
  | write (id : Nat)
  | rename (id : Nat)

/-- `tmp` is the temporary file, if it exists; `loop` is the `POST` the event
loop is running. -/
structure Server where
  shim : Shim
  tmp : Option (List Endpoint)
  loop : Option Nat
  requests : OrderedDict Nat Phase

namespace Server

variable (cfg : ShimConfig)

def init : Server := ⟨Shim.init, none, none, .empty⟩

/-- The change a request makes to the map, `none` if it returns without
one. -/
def change (shim : Shim) : Request → Option Shim
  | .post url workerType drawn =>
      match shim.keyOf url.text with
      | some _ => none
      | none => some (shim.added cfg url.text workerType drawn)
  | .delete ref =>
      match shim.workers.get? (normalizeRef ref) with
      | none => none
      | some _ => some (shim.popped ref)

def setPhase (server : Server) (id : Nat) (phase : Phase) : Server :=
  { server with requests := server.requests.insert id phase }

def finish (server : Server) (id : Nat) (raised : Bool) : Server :=
  { server.setPhase id (.ended raised) with
    loop := if server.loop = some id then none else server.loop }

def step (server : Server) : ServerEvent → Option Server
  | .start id request =>
      if server.requests.get? id ≠ none ∨
          (request.onLoop ∧ server.loop ≠ none) then
        none
      else
        match change cfg server.shim request with
        | none => some (server.setPhase id (.ended false))
        | some shim =>
            some
              { server.setPhase id .changed with
                shim := shim
                loop := if request.onLoop then some id else server.loop }
  | .read id =>
      match server.requests.get? id with
      | some .changed =>
          some (server.setPhase id (.read server.shim.urls))
      | _ => none
  | .write id =>
      match server.requests.get? id with
      | some (.read urls) =>
          match rolloutEntries none cfg.engineType 0 urls with
          | .ok entries =>
              some { server.setPhase id .wrote with tmp := some entries }
          | .error _ => some (server.finish id true)
      | _ => none
  | .rename id =>
      match server.requests.get? id with
      | some .wrote =>
          match server.tmp with
          | some entries =>
              some
                { server.finish id false with
                  shim := { server.shim with file := entries }
                  tmp := none }
          -- os.replace raises FileNotFoundError
          | none => some (server.finish id true)
      | _ => none

/-! ## The invariant -/

/-- No request is in progress. -/
def Quiet (server : Server) : Prop :=
  server.requests.AllValues fun phase => ¬ phase.Active

/-- Some request has yet to write the temporary file. -/
def SomeUnwritten (server : Server) : Prop :=
  ∃ entry ∈ server.requests.entries, entry.2.Unwritten

instance (server : Server) : Decidable server.Quiet :=
  inferInstanceAs (Decidable (OrderedDict.AllValues _ _))

instance (server : Server) : Decidable server.SomeUnwritten :=
  inferInstanceAs (Decidable (∃ _ ∈ _, _))

/-- A temporary file that is renamed lists the workers now in the map, unless
some request has yet to write another one. -/
def Publishes (server : Server) : ServerEvent → Prop
  | .rename id =>
      server.requests.get? id = some .wrote →
        ∀ entries, server.tmp = some entries →
          server.shim.entries cfg = .ok entries ∨ server.SomeUnwritten
  | _ => True

/-- A request only starts when no other one is in progress. -/
def StartsAlone (server : Server) : ServerEvent → Prop
  | .start _ _ => server.Quiet
  | _ => True

instance (server : Server) (event : ServerEvent) :
    Decidable (server.StartsAlone event) := by
  unfold StartsAlone
  split <;> infer_instance

theorem someUnwritten_iff (server : Server) :
    server.SomeUnwritten ↔
      ∃ id phase, server.requests.get? id = some phase ∧
        phase.Unwritten := by
  constructor
  · intro listed
    obtain ⟨⟨id, phase⟩, member, unwritten⟩ := listed
    exact ⟨id, phase,
      (OrderedDict.get?_eq_some_iff _ id phase).mpr member, unwritten⟩
  · intro held
    obtain ⟨id, phase, found, unwritten⟩ := held
    exact ⟨(id, phase),
      (OrderedDict.get?_eq_some_iff _ id phase).mp found, unwritten⟩

/-- Either the file lists the workers in the map, or some request will still
replace it by a list read after the last change. -/
structure Settling (server : Server) : Prop where
  splits : ∀ url ∈ server.shim.urls, Splits url
  snapshots : ∀ id urls,
    server.requests.get? id = some (.read urls) →
      ∀ url ∈ urls, Splits url
  settles :
    server.shim.entries cfg = .ok server.shim.file ∨
      server.SomeUnwritten ∨
        (server.tmp.isSome ∧
          ∃ id, server.requests.get? id = some .wrote)

end Server

/-! ## Each step settles -/

namespace Server

variable {cfg : ShimConfig} {server : Server}

@[simp]
theorem setPhase_requests_get?
    (server : Server) (id : Nat) (phase : Phase) (other : Nat) :
    (server.setPhase id phase).requests.get? other =
      if other = id then some phase else server.requests.get? other :=
  OrderedDict.get?_insert _ _ _ _

theorem someUnwritten_setPhase
    (server : Server) (id : Nat) {phase : Phase}
    (unwritten : phase.Unwritten) :
    (server.setPhase id phase).SomeUnwritten := by
  refine (someUnwritten_iff _).mpr ⟨id, phase, ?_, unwritten⟩
  simp

/-- The other requests that have yet to write are still there. -/
theorem SomeUnwritten.kept
    {after : Server} {id : Nat} {phase : Phase}
    (before : server.SomeUnwritten)
    (written : ∀ old, server.requests.get? id = some old →
      ¬ old.Unwritten)
    (requests : after.requests = server.requests.insert id phase) :
    after.SomeUnwritten := by
  obtain ⟨other, kept, found, unwritten⟩ := (someUnwritten_iff _).mp before
  have different : other ≠ id := by
    intro same
    subst same
    exact written kept found unwritten
  refine (someUnwritten_iff _).mpr ⟨other, kept, ?_, unwritten⟩
  rw [requests, OrderedDict.get?_insert_of_ne _ _ different]
  exact found

theorem change_splits
    {shim changed : Shim} {request : Request}
    (splits : ∀ url ∈ shim.urls, Splits url)
    (changes : change cfg shim request = some changed) :
    ∀ url ∈ changed.urls, Splits url := by
  intro url member
  cases request with
  | post posted workerType drawn =>
      simp only [change] at changes
      split at changes
      · cases changes
      · cases changes
        rcases Shim.mem_urls_added posted.text workerType drawn url
          member with rfl | old
        · exact posted.splits
        · exact splits url old
  | delete ref =>
      simp only [change] at changes
      split at changes
      · cases changes
      · cases changes
        exact splits url (Shim.mem_urls_of_popped member)

/-- Reassemble the invariant after a step of one request. -/
theorem Settling.of_step
    {after : Server} {id : Nat} {phase : Phase}
    (settling : server.Settling cfg)
    (requests : after.requests = server.requests.insert id phase)
    (splits : ∀ url ∈ after.shim.urls, Splits url)
    (snapshot : ∀ urls, phase = .read urls → ∀ url ∈ urls, Splits url)
    (settles :
      after.shim.entries cfg = .ok after.shim.file ∨
        after.SomeUnwritten ∨
          (after.tmp.isSome ∧
            ∃ other, after.requests.get? other = some .wrote)) :
    after.Settling cfg where
  splits := splits
  snapshots := by
    intro other urls found
    rw [requests, OrderedDict.get?_insert] at found
    split at found
    · cases found
      exact snapshot urls rfl
    · exact settling.snapshots other urls found
  settles := settles

theorem Settling.step
    {next : Server} {event : ServerEvent}
    (settling : server.Settling cfg)
    (publishes : server.Publishes cfg event)
    (stepped : server.step cfg event = some next) :
    next.Settling cfg := by
  cases event with
  | start id request =>
      simp only [Server.step] at stepped
      split at stepped
      · cases stepped
      · next free =>
          have absent : server.requests.get? id = none := by
            simpa using (not_or.mp free).1
          split at stepped
          · cases stepped
            refine settling.of_step rfl settling.splits
              (fun _ impossible => by cases impossible) ?_
            rcases settling.settles with
              current | unwritten | ⟨written, other, found⟩
            · exact .inl current
            · refine .inr (.inl (unwritten.kept ?_ rfl))
              intro old found
              cases absent.symm.trans found
            · have different : other ≠ id := by
                intro same
                subst same
                cases absent.symm.trans found
              exact .inr (.inr ⟨written, other,
                (OrderedDict.get?_insert_of_ne _ _ different).trans found⟩)
          · next shim changes =>
              cases stepped
              exact settling.of_step rfl
                (change_splits settling.splits changes)
                (fun _ impossible => by cases impossible)
                (.inr (.inl (server.someUnwritten_setPhase id trivial)))
  | read id =>
      simp only [Server.step] at stepped
      split at stepped
      · cases stepped
        refine settling.of_step rfl settling.splits ?_
          (.inr (.inl (server.someUnwritten_setPhase id trivial)))
        rintro urls ⟨⟩
        exact settling.splits
      · cases stepped
  | write id =>
      simp only [Server.step] at stepped
      split at stepped
      · next urls found =>
          obtain ⟨entries, built⟩ :=
            (rolloutEntries_ok_iff none cfg.engineType 0 urls).mpr
              (settling.snapshots id urls found)
          simp only [built] at stepped
          cases stepped
          exact settling.of_step rfl settling.splits
            (fun _ impossible => by cases impossible)
            (.inr (.inr ⟨rfl, id, OrderedDict.get?_insert_self _ _ _⟩))
      · cases stepped
  | rename id =>
      simp only [Server.step] at stepped
      split at stepped
      · next wrote =>
          have written : ∀ old, server.requests.get? id = some old →
              ¬ old.Unwritten := by
            intro old found unwritten
            cases wrote.symm.trans found
            exact unwritten
          split at stepped
          · next entries present =>
              cases stepped
              refine settling.of_step rfl settling.splits
                (fun _ impossible => by cases impossible) ?_
              rcases publishes wrote entries present with
                current | unwritten
              · exact .inl current
              · exact .inr (.inl (unwritten.kept written rfl))
          · next missing =>
              cases stepped
              refine settling.of_step rfl settling.splits
                (fun _ impossible => by cases impossible) ?_
              rcases settling.settles with
                current | unwritten | ⟨present, _⟩
              · exact .inl current
              · exact .inr (.inl (unwritten.kept written rfl))
              · rw [missing] at present
                cases present
      · cases stepped

theorem settling_init (cfg : ShimConfig) : init.Settling cfg where
  splits := by
    intro url member
    cases member
  snapshots := by
    intro id urls found
    cases found
  settles := .inl rfl

theorem Settling.lists
    (settling : server.Settling cfg) (quiet : server.Quiet) :
    Lists server.shim.file server.shim.urls := by
  rcases settling.settles with current | unwritten | ⟨_, id, found⟩
  · exact lists_of_rolloutEntries current
  · obtain ⟨id, phase, found, unwritten⟩ :=
      (someUnwritten_iff _).mp unwritten
    have inactive := quiet id phase found
    cases phase <;> simp [Phase.Active, Phase.Unwritten] at inactive unwritten
  · exact absurd trivial (quiet id .wrote found)

/-! ## Requests that do not overlap -/

/-- The one request in progress works on the map as it is. -/
structure Serial (cfg : ShimConfig) (server : Server) : Prop where
  alone : ∀ id phase, server.requests.get? id = some phase →
    phase.Active → ∀ other otherPhase,
      server.requests.get? other = some otherPhase →
        otherPhase.Active → other = id
  read : ∀ id urls, server.requests.get? id = some (.read urls) →
    urls = server.shim.urls
  wrote : ∀ id entries, server.requests.get? id = some .wrote →
    server.tmp = some entries → server.shim.entries cfg = .ok entries

/-- Reassemble the invariant when no other request is in progress. -/
theorem serial_of_only
    {after : Server} {id : Nat} {phase : Phase}
    (requests : after.requests = server.requests.insert id phase)
    (only : ∀ other otherPhase,
      server.requests.get? other = some otherPhase →
        otherPhase.Active → other = id)
    (read : ∀ urls, phase = .read urls → urls = after.shim.urls)
    (wrote : phase = .wrote → ∀ entries, after.tmp = some entries →
      after.shim.entries cfg = .ok entries) :
    after.Serial cfg := by
  have isId : ∀ other otherPhase,
      after.requests.get? other = some otherPhase →
        otherPhase.Active → other = id ∧ otherPhase = phase := by
    intro other otherPhase found active
    rw [requests, OrderedDict.get?_insert] at found
    split at found
    · next same =>
        cases found
        exact ⟨same, rfl⟩
    · next different =>
        exact absurd (only other otherPhase found active) different
  constructor
  · intro first firstPhase firstFound firstActive second secondPhase
      secondFound secondActive
    exact (isId second secondPhase secondFound secondActive).1.trans
      (isId first firstPhase firstFound firstActive).1.symm
  · intro other urls found
    exact read urls (isId other (.read urls) found trivial).2.symm
  · intro other entries found
    exact wrote (isId other .wrote found trivial).2.symm entries

theorem Serial.step
    {next : Server} {event : ServerEvent}
    (serial : server.Serial cfg) (alone : server.StartsAlone event)
    (stepped : server.step cfg event = some next) :
    next.Serial cfg := by
  cases event with
  | start id request =>
      have only : ∀ other phase,
          server.requests.get? other = some phase → phase.Active →
            other = id :=
        fun other phase found active =>
          absurd active (alone other phase found)
      simp only [Server.step] at stepped
      split at stepped
      · cases stepped
      · split at stepped
        · cases stepped
          exact serial_of_only rfl only
            (fun _ impossible => by cases impossible)
            (fun impossible => by cases impossible)
        · cases stepped
          exact serial_of_only rfl only
            (fun _ impossible => by cases impossible)
            (fun impossible => by cases impossible)
  | read id =>
      simp only [Server.step] at stepped
      split at stepped
      · next found =>
          cases stepped
          refine serial_of_only rfl (serial.alone id _ found trivial) ?_
            (fun impossible => by cases impossible)
          rintro urls ⟨⟩
          rfl
      · cases stepped
  | write id =>
      simp only [Server.step] at stepped
      split at stepped
      · next urls found =>
          have only := serial.alone id _ found trivial
          split at stepped
          · next entries built =>
              cases stepped
              refine serial_of_only rfl only
                (fun _ impossible => by cases impossible) ?_
              rintro _ written ⟨⟩
              rw [serial.read id urls found] at built
              exact built
          · cases stepped
            exact serial_of_only rfl only
              (fun _ impossible => by cases impossible)
              (fun impossible => by cases impossible)
      · cases stepped
  | rename id =>
      simp only [Server.step] at stepped
      split at stepped
      · next found =>
          have only := serial.alone id _ found trivial
          split at stepped <;>
          · cases stepped
            exact serial_of_only rfl only
              (fun _ impossible => by cases impossible)
              (fun impossible => by cases impossible)
      · cases stepped

theorem serial_init (cfg : ShimConfig) : init.Serial cfg where
  alone := by
    intro id phase found
    cases found
  read := by
    intro id urls found
    cases found
  wrote := by
    intro id entries found
    cases found

/-! ## Whole runs -/

/-- In every run whose renames publish a list that is up to date, or leave a
request that will, the file lists the workers whenever no request is in
progress; requests that do not overlap only make such renames. -/
theorem quiet_file_lists_workers
    (cfg : ShimConfig) (events : List ServerEvent) (final : Server)
    (ran : run (step cfg) init events = some final) :
    (StepsMeet (step cfg) (Publishes cfg) init events →
      final.Quiet → Lists final.shim.file final.shim.urls) ∧
    (StepsMeet (step cfg) StartsAlone init events →
      StepsMeet (step cfg) (Publishes cfg) init events) := by
  constructor
  · intro publishes quiet
    have settling : final.Settling cfg :=
      run_invariant_of_stepsMeet
        (fun _ _ _ kept met stepped => Settling.step kept met stepped)
        (settling_init cfg) publishes ran
    exact settling.lists quiet
  · intro alone
    refine alone.of_invariant
      (fun _ _ _ serial met stepped => Serial.step serial met stepped)
      ?_ (serial_init cfg)
    intro server event serial _
    cases event with
    | rename id =>
        intro found entries present
        exact .inl (serial.wrote id entries found present)
    | start id request =>
        trivial
    | read id =>
        trivial
    | write id =>
        trivial

/-- The steps of one request, one after the other. -/
def request (id : Nat) (request : Request) : List ServerEvent :=
  [.start id request, .read id, .write id, .rename id]

def engineA : ValidUrl := ⟨"http://a:1", by decide +kernel⟩

def engineC : ValidUrl := ⟨"http://c:1", by decide +kernel⟩

def shimConfig : ShimConfig := { engineType := "vllm" }

theorem quiet_file_lists_workers_serial :
    ∃ final,
      run (step shimConfig) init
          (request 0 (.post engineA "regular" "") ++
            request 1 (.post engineC "regular" "") ++
            request 2 (.delete "http:/a:1")) = some final ∧
        Lists final.shim.file final.shim.urls := by
  obtain ⟨final, ran, quiet⟩ :=
    exists_final_of_map_eq
      (show (run (step shimConfig) init
          (request 0 (.post engineA "regular" "") ++
            request 1 (.post engineC "regular" "") ++
            request 2 (.delete "http:/a:1"))).map
        (fun final => decide final.Quiet) = some true by decide +kernel)
  have rules := quiet_file_lists_workers shimConfig _ final ran
  exact ⟨final, ran,
    rules.1 (rules.2 (by decide +kernel)) (of_decide_eq_true quiet)⟩

/-- A `DELETE` that runs between the read and the write of a `POST` is
undone: the file still lists the engine that is gone. -/
theorem lost_deregistration :
    ∃ final,
      run (step shimConfig) init
          (request 0 (.post engineA "regular" "") ++
            [.start 1 (.post engineC "regular" ""), .read 1] ++
            request 2 (.delete "http:/a:1") ++
            [.write 1, .rename 1]) = some final ∧
        final.Quiet ∧
        final.shim.urls = ["http://c:1"] ∧
        final.shim.file.map Endpoint.address = ["a", "c"] ∧
        ¬ Lists final.shim.file final.shim.urls := by
  obtain ⟨final, ran, reached⟩ :=
    exists_final_of_map_eq
      (show (run (step shimConfig) init
          (request 0 (.post engineA "regular" "") ++
            [.start 1 (.post engineC "regular" ""), .read 1] ++
            request 2 (.delete "http:/a:1") ++
            [.write 1, .rename 1])).map
        (fun final => decide (final.Quiet ∧
          final.shim.urls = ["http://c:1"] ∧
          final.shim.file.map Endpoint.address = ["a", "c"])) =
          some true by decide +kernel)
  obtain ⟨quiet, urls, addresses⟩ := of_decide_eq_true reached
  refine ⟨final, ran, quiet, urls, addresses, ?_⟩
  intro lists
  have sameLength := List.Forall₂.length_eq lists
  rw [urls, ← List.length_map Endpoint.address, addresses] at sameLength
  cases sameLength

end Server

end LlmDRl.Registration
