import LlmDRl.Registration.Roles
import LlmDRl.Registration.Shim

/-!
# Names after a deregistration

The name and the rank of an entry are the position of its worker, so taking a
worker out renames those behind it: each takes over the name of the one before
it.  The host, the port and the labels go with the worker.
-/

namespace LlmDRl.Registration

open LlmDRl.Library

def replicaName (engineType : String) (rankIndex : Nat) : String :=
  s!"{engineType}-replica-{rankIndex}"

/-- The name and the rank of an entry are those of its position. -/
def Positioned (engineType : String) (file : List Endpoint) : Prop :=
  ∀ i entry, file[i]? = some entry →
    entry.rankIndex = i ∧ entry.name = replicaName engineType i

/-- The entry with the name and the rank of the one before it. -/
def Endpoint.inPlaceOf (entry before : Endpoint) : Endpoint :=
  { entry with
    name := before.name
    rankIndex := before.rankIndex }

/-! ## Entries of a list of addresses -/

section Entries

variable {label : Option String} {engineType : String} {i : Nat}

theorem rolloutEntries_append
    {first second : List String} {entries : List Endpoint}
    (built :
      rolloutEntries label engineType i (first ++ second) = .ok entries) :
    ∃ front back, entries = front ++ back ∧
      rolloutEntries label engineType i first = .ok front ∧
      rolloutEntries label engineType (i + first.length) second =
        .ok back := by
  induction first generalizing i entries with
  | nil =>
      exact ⟨[], entries, rfl, rfl, built⟩
  | cons addr rest inductionHypothesis =>
      rw [List.cons_append] at built
      obtain ⟨host, port, later, split, builtRest, rfl⟩ :=
        rolloutEntries_cons_eq_ok.mp built
      obtain ⟨front, back, rfl, frontBuilt, backBuilt⟩ :=
        inductionHypothesis builtRest
      refine ⟨_ :: front, back, rfl, ?_, ?_⟩
      · exact rolloutEntries_cons_eq_ok.mpr
          ⟨host, port, front, split, frontBuilt, rfl⟩
      · rw [List.length_cons, Nat.add_comm rest.length 1,
          ← Nat.add_assoc]
        exact backBuilt

theorem append_rolloutEntries
    {first second : List String} {front back : List Endpoint}
    (frontBuilt : rolloutEntries label engineType i first = .ok front)
    (backBuilt :
      rolloutEntries label engineType (i + first.length) second =
        .ok back) :
    rolloutEntries label engineType i (first ++ second) =
      .ok (front ++ back) := by
  induction first generalizing i front with
  | nil =>
      cases frontBuilt
      exact backBuilt
  | cons addr rest inductionHypothesis =>
      rw [List.length_cons, Nat.add_comm rest.length 1,
        ← Nat.add_assoc] at backBuilt
      obtain ⟨host, port, later, split, builtRest, rfl⟩ :=
        rolloutEntries_cons_eq_ok.mp frontBuilt
      have both := inductionHypothesis builtRest backBuilt
      exact rolloutEntries_cons_eq_ok.mpr
        ⟨host, port, later ++ back, split, both, rfl⟩

/-- Without the first address each entry takes the place of the one before
it. -/
theorem rolloutEntries_inPlace
    {addr : String} {addresses : List String} {removed : Endpoint}
    {moved : List Endpoint}
    (built :
      rolloutEntries label engineType i (addr :: addresses) =
        .ok (removed :: moved)) :
    rolloutEntries label engineType i addresses =
      .ok (List.zipWith Endpoint.inPlaceOf moved (removed :: moved)) := by
  induction addresses generalizing i addr removed moved with
  | nil =>
      obtain ⟨_, _, later, _, builtRest, same⟩ :=
        rolloutEntries_cons_eq_ok.mp built
      cases builtRest
      cases same
      rfl
  | cons next rest inductionHypothesis =>
      obtain ⟨_, _, later, _, builtRest, same⟩ :=
        rolloutEntries_cons_eq_ok.mp built
      cases same
      obtain ⟨host, port, behind, split, _, rfl⟩ :=
        rolloutEntries_cons_eq_ok.mp builtRest
      exact rolloutEntries_cons_eq_ok.mpr
        ⟨host, port, _, split, inductionHypothesis builtRest, rfl⟩

theorem place_of_rolloutEntries
    {addresses : List String} {entries : List Endpoint}
    (built : rolloutEntries label engineType i addresses = .ok entries)
    {index : Nat} {entry : Endpoint} (found : entries[index]? = some entry) :
    entry.rankIndex = i + index ∧
      entry.name = replicaName engineType (i + index) := by
  induction addresses generalizing i entries index with
  | nil =>
      cases built
      cases found
  | cons addr rest inductionHypothesis =>
      obtain ⟨host, port, later, split, builtRest, rfl⟩ :=
        rolloutEntries_cons_eq_ok.mp built
      cases index with
      | zero =>
          cases found
          exact ⟨rfl, rfl⟩
      | succ index =>
          have place := inductionHypothesis builtRest found
          rw [Nat.add_assoc, Nat.add_comm 1] at place
          exact place

theorem positioned_of_rolloutEntries
    {addresses : List String} {entries : List Endpoint}
    (built : rolloutEntries label engineType 0 addresses = .ok entries) :
    Positioned engineType entries := by
  intro i entry found
  have place := place_of_rolloutEntries built found
  rw [Nat.zero_add] at place
  exact place

theorem replicaName_inj {rankIndex other : Nat} :
    replicaName engineType rankIndex = replicaName engineType other ↔
      rankIndex = other := by
  constructor
  · intro same
    have chars := congrArg String.toList same
    change (engineType ++ "-replica-" ++ toString rankIndex).toList =
      (engineType ++ "-replica-" ++ toString other).toList at chars
    simp only [String.toList_append, List.append_cancel_left_eq] at chars
    exact toList_toString_injective chars
  · rintro rfl
    rfl

theorem Positioned.nodup_names {file : List Endpoint}
    (positioned : Positioned engineType file) :
    (file.map Endpoint.name).Nodup := by
  rw [List.nodup_iff_getElem?_ne_getElem?]
  intro i j before inside same
  rw [List.length_map] at inside
  rw [List.getElem?_map, List.getElem?_map,
    List.getElem?_eq_getElem (before.trans inside),
    List.getElem?_eq_getElem inside] at same
  have names := Option.some.inj same
  rw [(positioned i _ (List.getElem?_eq_getElem _)).2,
    (positioned j _ (List.getElem?_eq_getElem _)).2] at names
  exact before.ne (replicaName_inj.mp names)

/-- One address less: the entries before it stay, each of those after it takes
the place of the one before. -/
theorem rolloutEntries_remove
    {earlier later : List String} {addr : String} {entries : List Endpoint}
    (built : rolloutEntries label engineType 0 (earlier ++ addr :: later) =
      .ok entries) :
    ∃ kept removed moved, entries = kept ++ removed :: moved ∧
      kept.length = earlier.length ∧
      splitAddress addr = .ok (removed.address, removed.port) ∧
      rolloutEntries label engineType 0 (earlier ++ later) =
        .ok
          (kept ++
            List.zipWith Endpoint.inPlaceOf moved (removed :: moved)) := by
  obtain ⟨kept, back, rfl, keptBuilt, backBuilt⟩ :=
    rolloutEntries_append built
  have sameLength := (lists_of_rolloutEntries keptBuilt).length_eq
  obtain ⟨host, port, moved, split, movedBuilt, rfl⟩ :=
    rolloutEntries_cons_eq_ok.mp backBuilt
  refine ⟨kept, _, moved, rfl, sameLength, split, ?_⟩
  exact append_rolloutEntries keptBuilt
    (rolloutEntries_inPlace backBuilt)

end Entries

/-! ## Deregistration -/

namespace Shim

variable {cfg : ShimConfig} {shim : Shim}

/-- The call returns. -/
def Returns (cfg : ShimConfig) (shim : Shim) (call : ShimCall) : Prop :=
  (shim.execute cfg call).2 = .ok ()

instance (call : ShimCall) : Decidable (shim.Returns cfg call) :=
  inferInstanceAs (Decidable ((shim.execute cfg call).2 = .ok ()))

/-- The file is that of the workers now in the map. -/
def UpToDate (cfg : ShimConfig) (shim : Shim) : Prop :=
  shim.entries cfg = .ok shim.file

theorem upToDate_of_written
    {disk : Disk} (returned : (writeEndpoints cfg disk shim).2 = .ok ()) :
    (writeEndpoints cfg disk shim).1.UpToDate cfg := by
  unfold writeEndpoints at returned ⊢
  rw [if_neg cfg.endpointsFile.nonempty] at returned ⊢
  cases built : shim.entries cfg with
  | error error =>
      rw [built] at returned
      cases returned
  | ok entries =>
      rw [built] at returned
      cases disk with
      | writes =>
          exact built
      | raises =>
          cases returned

theorem upToDate_step
    {next : Shim} {call : ShimCall} (upToDate : shim.UpToDate cfg)
    (returned : shim.Returns cfg call)
    (stepped : step cfg shim call = some next) : next.UpToDate cfg := by
  cases stepped
  unfold Returns at returned
  cases call with
  | register url workerType drawn disk =>
      by_cases known : url ∈ shim.urls
      · rw [execute_register_of_mem cfg workerType drawn disk known]
        exact upToDate
      · rw [execute_register_of_not_mem cfg workerType drawn disk known]
          at returned ⊢
        exact upToDate_of_written returned
  | deregister ref disk =>
      cases found : shim.workers.get? (normalizeRef ref) with
      | none =>
          rw [execute_deregister_of_get?_eq_none cfg disk found]
          exact upToDate
      | some worker =>
          rw [execute_deregister_of_get?_eq_some cfg disk found]
            at returned ⊢
          exact upToDate_of_written returned

theorem upToDate_of_run
    {calls : List ShimCall} (ran : run (step cfg) init calls = some shim)
    (everyReturned : StepsMeet (step cfg) (Returns cfg) init calls) :
    shim.UpToDate cfg :=
  run_invariant_of_stepsMeet
    (fun _ _ _ inv returned stepped => upToDate_step inv returned stepped)
    (show init.UpToDate cfg from rfl) everyReturned ran

/-- After a deregistration the file lists the other workers, named by their
positions.  If it was up to date, as it is while every call returns, the
entries before the worker are the same, and each of those after it has taken
the name and the rank of the entry before it. -/
theorem deregister_moves_later_up
    {calls : List ShimCall} (ran : run (step cfg) init calls = some shim)
    {ref : String} {worker : Worker}
    (registered : shim.workers.get? (normalizeRef ref) = some worker)
    {disk : Disk} (returned : shim.Returns cfg (.deregister ref disk)) :
    let after := (shim.execute cfg (.deregister ref disk)).1
    ∃ earlier later, shim.urls = earlier ++ worker.url :: later ∧
      after.urls = earlier ++ later ∧
      Lists after.file (earlier ++ later) ∧
      Positioned cfg.engineType after.file ∧
      (after.file.map Endpoint.name).Nodup ∧
      (StepsMeet (step cfg) (Returns cfg) init calls → shim.UpToDate cfg) ∧
      (shim.UpToDate cfg →
        Positioned cfg.engineType shim.file ∧
          ∃ kept removed moved, shim.file = kept ++ removed :: moved ∧
            kept.length = earlier.length ∧
            splitAddress worker.url = .ok (removed.address, removed.port) ∧
            after.file =
              kept ++
                List.zipWith Endpoint.inPlaceOf moved (removed :: moved)) := by
  intro after
  obtain ⟨before, behind, entriesEq, _, erasedEq, _⟩ :=
    shim.workers.exists_split_of_get? registered
  have executed := execute_deregister_of_get?_eq_some cfg disk registered
  have written : after.UpToDate cfg := by
    unfold Returns at returned
    rw [executed] at returned
    change (shim.execute cfg (.deregister ref disk)).1.UpToDate cfg
    rw [executed]
    exact upToDate_of_written returned
  have urlsBefore : shim.urls =
      before.map (fun entry => entry.2.url) ++
        worker.url :: behind.map (fun entry => entry.2.url) := by
    simp [urls, OrderedDict.values, entriesEq, Function.comp_def]
  have urlsAfter : after.urls =
      before.map (fun entry => entry.2.url) ++
        behind.map (fun entry => entry.2.url) := by
    change (shim.execute cfg (.deregister ref disk)).1.urls = _
    rw [executed]
    unfold urls
    rw [writeEndpoints_workers]
    simp [popped, OrderedDict.values, erasedEq, Function.comp_def]
  have listed := written
  unfold UpToDate Shim.entries at listed
  rw [urlsAfter] at listed
  have positioned := positioned_of_rolloutEntries listed
  refine ⟨_, _, urlsBefore, urlsAfter, lists_of_rolloutEntries listed,
    positioned, positioned.nodup_names, upToDate_of_run ran, ?_⟩
  intro upToDate
  unfold UpToDate Shim.entries at upToDate
  refine ⟨positioned_of_rolloutEntries upToDate, ?_⟩
  rw [urlsBefore] at upToDate
  obtain ⟨kept, removed, moved, fileEq, length, split, rebuilt⟩ :=
    rolloutEntries_remove upToDate
  refine ⟨kept, removed, moved, fileEq, length, split, ?_⟩
  exact Except.ok.inj (listed.symm.trans rebuilt)

/-- A shim for vLLM engines. -/
def vllm : ShimConfig where
  engineType := "vllm"
  endpointsFile := ⟨"/tmp/vllm-endpoints.yaml", by decide⟩

def fleetCalls : List ShimCall :=
  [.register "http://10.0.0.1:80" "regular" "" .writes,
    .register "http://10.0.0.2:80" "regular" "" .writes,
    .register "http://10.0.0.3:80" "regular" "" .writes]

/-- Three engines are registered. -/
def fleet : Shim :=
  fleetCalls.foldl (fun shim call => (shim.execute vllm call).1) init

/-- An address without a port is registered first, and deregistered again. -/
def healedCalls : List ShimCall :=
  [.register "engine-a" "regular" "" .writes,
    .deregister "engine-a" .writes] ++ fleetCalls

/-- With the first engine gone the file lists the other two, each in the place
of the one before it. -/
theorem fleet_without_first :
    run (step vllm) init healedCalls = some fleet ∧
      ¬ StepsMeet (step vllm) (Returns vllm) init healedCalls ∧
      let after :=
        (fleet.execute vllm (.deregister "http://10.0.0.1:80" .writes)).1
      Lists after.file ["http://10.0.0.2:80", "http://10.0.0.3:80"] ∧
        Positioned "vllm" after.file ∧
        ∃ removed moved, fleet.file = removed :: moved ∧
          after.file =
            List.zipWith Endpoint.inPlaceOf moved (removed :: moved) := by
  have raised : ¬ init.Returns vllm
      (.register "engine-a" "regular" "" .writes) := by
    decide +kernel
  have ran : run (step vllm) init healedCalls = some fleet := rfl
  refine ⟨ran, fun met => raised met.1, ?_⟩
  have registered :
      fleet.workers.get? (normalizeRef "http://10.0.0.1:80") =
        some (vllm.entry "http://10.0.0.1:80" "http://10.0.0.1:80"
          "regular") := by
    rfl
  have returned : fleet.Returns vllm
      (.deregister "http://10.0.0.1:80" .writes) := by
    decide +kernel
  obtain ⟨earlier, later, urlsBefore, _, lists, positioned, _, _, moves⟩ :=
    deregister_moves_later_up ran registered returned
  obtain ⟨_, kept, removed, moved, fileEq, length, _, fileAfter⟩ :=
    moves (show fleet.entries vllm = .ok fleet.file from rfl)
  have first : earlier = [] := by
    cases earlier with
    | nil => rfl
    | cons url rest =>
        have others : ["http://10.0.0.2:80", "http://10.0.0.3:80"] =
            rest ++ "http://10.0.0.1:80" :: later :=
          (List.cons.inj urlsBefore).2
        have member : "http://10.0.0.1:80" ∈
            rest ++ "http://10.0.0.1:80" :: later :=
          List.mem_append_right _ (List.mem_cons_self ..)
        rw [← others] at member
        exact absurd member (by decide)
  subst first
  obtain rfl := List.eq_nil_of_length_eq_zero length
  obtain rfl := (List.cons.inj urlsBefore).2
  exact ⟨lists, positioned, removed, moved, fileEq, fileAfter⟩

/-- With the first engine gone the second one takes over its name, and leaves
its own to the third. -/
theorem fleet_renamed :
    fleet.file.map (fun entry => (entry.name, entry.rankIndex, entry.address)) =
        [("vllm-replica-0", 0, "10.0.0.1"),
          ("vllm-replica-1", 1, "10.0.0.2"),
          ("vllm-replica-2", 2, "10.0.0.3")] ∧
      (fleet.execute vllm
          (.deregister "http://10.0.0.1:80" .writes)).1.file.map
          (fun entry => (entry.name, entry.rankIndex, entry.address)) =
        [("vllm-replica-0", 0, "10.0.0.2"),
          ("vllm-replica-1", 1, "10.0.0.3")] := by
  decide +kernel

end Shim

end LlmDRl.Registration
