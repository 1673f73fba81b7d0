import LlmDRl.Library.Runs
import LlmDRl.Registration.Endpoints

/-!
# The registration shim

`RegistrationShim._register` and `_deregister`, one call after the other.  A
call changes the map of workers first and rewrites the endpoints file from the
whole map afterwards, so a call that raises still returns a state.
-/

namespace LlmDRl.Registration

open LlmDRl.Library

/-- The text of a `pathlib.Path`, which is never empty. -/
structure PathText where
  text : String
  nonempty : text ≠ ""

structure ShimConfig where
  engineType : String
  idField : String := "url"
  endpointsFile : PathText := ⟨"/tmp/epp-endpoints.yaml", by decide⟩

/-- The entry dict of a worker, which always has an `url`. -/
structure Worker where
  fields : OrderedDict String String
  url : String
  hasUrl : fields.get? "url" = some url

/-- Whether the file operations of `_atomic_write` all succeed.  If one
raises, the endpoints file is the old one. -/
inductive Disk where
  | writes
  | raises
  deriving DecidableEq, Repr

inductive ShimError where
  | address (error : AddressError)
  | os
  deriving DecidableEq, Repr

structure Shim where
  workers : OrderedDict String Worker
  file : List Endpoint

namespace ShimConfig

variable (cfg : ShimConfig)

/-- `drawn` is `uuid.uuid4().hex[:8]`. -/
def makeKey (drawn url : String) : String :=
  if cfg.idField = "url" then url else drawn

/-- `{"url": url, "worker_type": worker_type, id_field: key}` -/
def entry (key url workerType : String) : Worker where
  fields :=
    ((OrderedDict.empty.insert "url" url).insert "worker_type"
      workerType).insert cfg.idField key
  url := if cfg.idField = "url" then key else url
  hasUrl := by
    by_cases same : cfg.idField = "url"
    · rw [if_pos same, same]
      exact OrderedDict.get?_insert_self _ _ _
    · rw [if_neg same, OrderedDict.get?_insert_of_ne _ _ (Ne.symm same),
        OrderedDict.get?_insert_of_ne _ _ (by decide)]
      exact OrderedDict.get?_insert_self _ _ _

/-- `{id_field: key}` -/
def addResponse (key : String) : String × String := (cfg.idField, key)

end ShimConfig

/-- The `ref` of a `DELETE`, with the slash of the scheme restored. -/
def normalizeRef (ref : String) : String :=
  if "http:/".toList.isPrefixOf ref.toList ∧
      ¬ "http://".toList.isPrefixOf ref.toList then
    "http://" ++ String.ofList (ref.toList.drop 6)
  else if "https:/".toList.isPrefixOf ref.toList ∧
      ¬ "https://".toList.isPrefixOf ref.toList then
    "https://" ++ String.ofList (ref.toList.drop 7)
  else
    ref

namespace Shim

/-- The state `run` starts to listen in. -/
def init : Shim := ⟨.empty, []⟩

def urls (shim : Shim) : List String := shim.workers.values.map Worker.url

variable (cfg : ShimConfig)

/-- The file contents for the workers now in the map. -/
def entries (shim : Shim) : Except AddressError (List Endpoint) :=
  rolloutEntries none cfg.engineType 0 shim.urls

/-- `_write_endpoints`, with the state it leaves. -/
def writeEndpoints (disk : Disk) (shim : Shim) :
    Shim × Except ShimError Unit :=
  if cfg.endpointsFile.text = "" then
    (shim, .ok ())
  else
    match shim.entries cfg with
    | .error error => (shim, .error (.address error))
    | .ok entries =>
        match disk with
        | .writes => ({ shim with file := entries }, .ok ())
        | .raises => (shim, .error .os)

/-- The key of the first worker with this URL. -/
def keyOf (shim : Shim) (url : String) : Option String :=
  (shim.workers.entries.find? fun entry => entry.2.url = url).map Prod.fst

def register (url workerType drawn : String) (disk : Disk) (shim : Shim) :
    Shim × Except ShimError (String × String) :=
  match shim.keyOf url with
  | some key => (shim, .ok (cfg.addResponse key))
  | none =>
      let key := cfg.makeKey drawn url
      let written :=
        writeEndpoints cfg disk
          { shim with
            workers :=
              shim.workers.insert key (cfg.entry key url workerType) }
      (written.1, written.2.map fun _ => cfg.addResponse key)

def deregister (ref : String) (disk : Disk) (shim : Shim) :
    Shim × Except ShimError Bool :=
  match shim.workers.get? (normalizeRef ref) with
  | none => (shim, .ok false)
  | some _ =>
      let written :=
        writeEndpoints cfg disk
          { shim with workers := shim.workers.erase (normalizeRef ref) }
      (written.1, written.2.map fun _ => true)

end Shim

/-! ## Calls -/

inductive ShimCall where
  | register (url workerType drawn : String) (disk : Disk)
  | deregister (ref : String) (disk : Disk)

/-- Nothing is wrong with the call itself. -/
def ShimCall.Valid : ShimCall → Prop
  | register url _ _ disk => Splits url ∧ disk = .writes
  | deregister _ disk => disk = .writes

namespace Shim

variable (cfg : ShimConfig)

/-- The state a call leaves, and the exception if it raises one. -/
def execute (shim : Shim) : ShimCall → Shim × Except ShimError Unit
  | .register url workerType drawn disk =>
      let result := register cfg url workerType drawn disk shim
      (result.1, result.2.map fun _ => ())
  | .deregister ref disk =>
      let result := deregister cfg ref disk shim
      (result.1, result.2.map fun _ => ())

def step (shim : Shim) (call : ShimCall) : Option Shim :=
  some (shim.execute cfg call).1

/-- The URLs registered after a call that takes effect, in registration order:
a new worker comes last. -/
def urlsAfter (shim : Shim) : ShimCall → List String
  | .register url _ drawn _ =>
      if url ∈ shim.urls then
        shim.urls
      else
        (shim.workers.erase (cfg.makeKey drawn url)).values.map
          Worker.url ++ [url]
  | .deregister ref _ =>
      (shim.workers.erase (normalizeRef ref)).values.map Worker.url

/-- The call either takes effect on the workers and the file together, or
raises for a reason of its own and changes neither. -/
structure Atomic (shim : Shim) (call : ShimCall) : Prop where
  returns : (shim.execute cfg call).2 = .ok () →
    (shim.execute cfg call).1.urls = shim.urlsAfter cfg call ∧
      Lists (shim.execute cfg call).1.file (shim.execute cfg call).1.urls
  raises : ∀ error, (shim.execute cfg call).2 = .error error →
    (shim.execute cfg call).1 = shim ∧ ¬ call.Valid

/-- A call that changes the map is valid, and does not draw the key of a
worker other than the last one. -/
def Accepts (shim : Shim) : ShimCall → Prop
  | .register url _ drawn disk =>
      url ∉ shim.urls →
        Splits url ∧ disk = .writes ∧
          (cfg.idField ≠ "url" → drawn ∈ shim.workers.keys →
            shim.workers.keys.getLast? = some drawn)
  | .deregister ref disk =>
      normalizeRef ref ∈ shim.workers.keys → disk = .writes

instance (shim : Shim) (call : ShimCall) :
    Decidable (shim.Accepts cfg call) := by
  unfold Accepts
  split <;> infer_instance

/-- The file lists the workers; in URL mode their keys are their URLs. -/
structure Listed (shim : Shim) : Prop where
  lists : Lists shim.file shim.urls
  keyed : cfg.idField = "url" → ∀ key worker,
    shim.workers.get? key = some worker → worker.url = key

end Shim

/-! ## One write -/

namespace Shim

variable {cfg : ShimConfig} {shim : Shim}

theorem entry_url (cfg : ShimConfig) (drawn url workerType : String) :
    (cfg.entry (cfg.makeKey drawn url) url workerType).url = url := by
  unfold ShimConfig.entry ShimConfig.makeKey
  split <;> rfl

variable (cfg) in
theorem writeEndpoints_of_splits
    (splits : ∀ url ∈ shim.urls, Splits url) :
    ∃ entries, Lists entries shim.urls ∧
      writeEndpoints cfg .writes shim =
        ({ shim with file := entries }, .ok ()) := by
  obtain ⟨entries, built⟩ :=
    (rolloutEntries_ok_iff none cfg.engineType 0 shim.urls).mpr splits
  refine ⟨entries, lists_of_rolloutEntries built, ?_⟩
  unfold writeEndpoints Shim.entries
  rw [if_neg cfg.endpointsFile.nonempty, built]

variable (cfg) in
theorem writeEndpoints_of_not_splits
    (disk : Disk) {url : String} (member : url ∈ shim.urls)
    (rejected : ¬ Splits url) :
    ∃ error, writeEndpoints cfg disk shim = (shim, .error error) := by
  unfold writeEndpoints Shim.entries
  rw [if_neg cfg.endpointsFile.nonempty]
  cases built : rolloutEntries none cfg.engineType 0 shim.urls with
  | error error =>
      exact ⟨_, rfl⟩
  | ok entries =>
      exact absurd ((lists_of_rolloutEntries built).splits url member)
        rejected

theorem writeEndpoints_raises (cfg : ShimConfig) (shim : Shim) :
    ∃ error,
      writeEndpoints cfg .raises shim = (shim, .error error) := by
  unfold writeEndpoints
  rw [if_neg cfg.endpointsFile.nonempty]
  cases shim.entries cfg with
  | error error =>
      exact ⟨_, rfl⟩
  | ok entries =>
      exact ⟨_, rfl⟩

/-! ## Registering -/

theorem mem_urls_iff (shim : Shim) (url : String) :
    url ∈ shim.urls ↔
      ∃ key worker,
        shim.workers.get? key = some worker ∧ worker.url = url := by
  simp only [urls, OrderedDict.values, List.map_map, List.mem_map,
    Function.comp]
  constructor
  · intro listed
    obtain ⟨⟨key, worker⟩, member, same⟩ := listed
    exact ⟨key, worker,
      (OrderedDict.get?_eq_some_iff _ key worker).mpr member, same⟩
  · intro held
    obtain ⟨key, worker, found, same⟩ := held
    exact ⟨(key, worker),
      (OrderedDict.get?_eq_some_iff _ key worker).mp found, same⟩

theorem keyOf_eq_none_iff (shim : Shim) (url : String) :
    shim.keyOf url = none ↔ url ∉ shim.urls := by
  simp [keyOf, urls, OrderedDict.values, List.find?_eq_none]

/-- The state in which a new worker has been put in the map. -/
def added (cfg : ShimConfig) (shim : Shim) (url workerType drawn : String) :
    Shim :=
  { shim with
    workers :=
      shim.workers.insert (cfg.makeKey drawn url)
        (cfg.entry (cfg.makeKey drawn url) url workerType) }

variable (cfg) in
theorem execute_register_of_mem
    {url : String} (workerType drawn : String) (disk : Disk)
    (known : url ∈ shim.urls) :
    shim.execute cfg (.register url workerType drawn disk) =
      (shim, .ok ()) := by
  cases found : shim.keyOf url with
  | none =>
      exact absurd known ((shim.keyOf_eq_none_iff url).mp found)
  | some key =>
      simp [execute, register, found, Except.map]

variable (cfg) in
theorem execute_register_of_not_mem
    {url : String} (workerType drawn : String) (disk : Disk)
    (fresh : url ∉ shim.urls) :
    shim.execute cfg (.register url workerType drawn disk) =
      writeEndpoints cfg disk (shim.added cfg url workerType drawn) := by
  have absent := (shim.keyOf_eq_none_iff url).mpr fresh
  simp only [execute, register, absent, added]
  generalize writeEndpoints cfg disk _ = written
  obtain ⟨after, outcome⟩ := written
  cases outcome <;> rfl

theorem mem_urls_added
    (url workerType drawn other : String)
    (member : other ∈ (shim.added cfg url workerType drawn).urls) :
    other = url ∨ other ∈ shim.urls := by
  obtain ⟨key, worker, found, rfl⟩ := (mem_urls_iff _ _).mp member
  simp only [added, OrderedDict.get?_insert] at found
  split at found
  · cases found
    exact .inl (entry_url cfg drawn url workerType)
  · exact .inr ((mem_urls_iff _ _).mpr ⟨key, worker, found, rfl⟩)

variable (cfg shim) in
theorem url_mem_urls_added (url workerType drawn : String) :
    url ∈ (shim.added cfg url workerType drawn).urls :=
  (mem_urls_iff _ _).mpr
    ⟨_, _, OrderedDict.get?_insert_self _ _ _,
      entry_url cfg drawn url workerType⟩

theorem added_ne
    {url : String} (workerType drawn : String)
    (fresh : url ∉ shim.urls) :
    shim.added cfg url workerType drawn ≠ shim := by
  intro same
  have member :=
    url_mem_urls_added cfg shim url workerType drawn
  rw [same] at member
  exact fresh member

variable (cfg) in
/-- A new worker comes last unless its key is taken by another one that is
not. -/
theorem urls_added_eq_iff
    {url : String} (workerType drawn : String)
    (fresh : url ∉ shim.urls) :
    (shim.added cfg url workerType drawn).urls =
        (shim.workers.erase (cfg.makeKey drawn url)).values.map
          Worker.url ++ [url] ↔
      (cfg.makeKey drawn url ∈ shim.workers.keys →
        shim.workers.keys.getLast? = some (cfg.makeKey drawn url)) := by
  set key := cfg.makeKey drawn url with keyEq
  have named := entry_url cfg drawn url workerType
  cases found : shim.workers.get? key with
  | none =>
      have absent : key ∉ shim.workers.keys :=
        (OrderedDict.get?_eq_none_iff _ key).mp found
      have appended :=
        shim.workers.entries_insert_of_not_mem
          (cfg.entry key url workerType) absent
      simp only [absent, false_implies, iff_true, added, urls,
        OrderedDict.values, ← keyEq, appended,
        OrderedDict.erase_of_get?_eq_none _ _ found, List.map_append,
        List.map_cons, List.map_nil]
      rw [keyEq, named]
  | some old =>
      obtain ⟨before, after, split, inserted, erased, absent⟩ :=
        shim.workers.exists_split_of_get? found
      have present : key ∈ shim.workers.keys :=
        OrderedDict.mem_keys_of_get? found
      have urlsEq :
          (shim.added cfg url workerType drawn).urls =
            before.map (fun entry => entry.2.url) ++ url ::
              after.map (fun entry => entry.2.url) := by
        simp only [added, urls, OrderedDict.values, ← keyEq, inserted,
          List.map_append, List.map_cons, List.map_map, Function.comp_def]
        rw [keyEq, named]
      have erasedEq :
          (shim.workers.erase key).values.map Worker.url =
            before.map (fun entry => entry.2.url) ++
              after.map (fun entry => entry.2.url) := by
        simp only [OrderedDict.values, erased, List.map_append,
          List.map_map, Function.comp_def]
      rw [urlsEq, erasedEq, List.append_assoc, List.append_cancel_left_eq]
      rw [imp_iff_right present]
      simp only [OrderedDict.keys, split, List.map_append, List.map_cons]
      cases after with
      | nil =>
          simp
      | cons next rest =>
          have nextKnown : next.2.url ∈ shim.urls := by
            refine (mem_urls_iff _ _).mpr ⟨next.1, next.2, ?_, rfl⟩
            refine (OrderedDict.get?_eq_some_iff _ _ _).mpr ?_
            rw [split]
            simp
          constructor
          · intro same
            have headEq := (List.cons.inj same).1
            rw [headEq] at fresh
            exact absurd nextKnown fresh
          · intro lastEq
            rw [List.getLast?_append_of_ne_nil _ (by simp), List.map_cons,
              List.getLast?_cons_cons] at lastEq
            have lastMember := List.mem_of_getLast? lastEq
            rw [← List.map_cons] at lastMember
            rw [List.map_append] at absent
            exact absurd (List.mem_append_right _ lastMember) absent

/-- Where every key is the URL of its worker, a new URL is not yet a key. -/
theorem not_mem_keys_of_keyed
    (keyed : ∀ key worker,
      shim.workers.get? key = some worker → worker.url = key)
    {url : String} (fresh : url ∉ shim.urls) :
    url ∉ shim.workers.keys := by
  intro present
  obtain ⟨⟨key, worker⟩, member, rfl⟩ := List.mem_map.mp present
  have found := (OrderedDict.get?_eq_some_iff _ key worker).mpr member
  exact fresh
    ((mem_urls_iff _ _).mpr ⟨key, worker, found, keyed key worker found⟩)

theorem Listed.freshKey_iff
    (listed : shim.Listed cfg) {url : String} (drawn : String)
    (fresh : url ∉ shim.urls) :
    (cfg.makeKey drawn url ∈ shim.workers.keys →
        shim.workers.keys.getLast? = some (cfg.makeKey drawn url)) ↔
      (cfg.idField ≠ "url" → drawn ∈ shim.workers.keys →
        shim.workers.keys.getLast? = some drawn) := by
  unfold ShimConfig.makeKey
  by_cases urlMode : cfg.idField = "url"
  · simp only [urlMode, ne_eq, not_true_eq_false, false_implies, iff_true,
      if_true]
    intro present
    exact absurd present
      (not_mem_keys_of_keyed (listed.keyed urlMode) fresh)
  · simp only [urlMode, ne_eq, not_false_eq_true, true_implies, if_false]

/-- A new worker whose URL cannot be written stays in the map. -/
theorem not_atomic_of_raised
    {url workerType drawn : String} {disk : Disk} {error : ShimError}
    (fresh : url ∉ shim.urls)
    (raised :
      writeEndpoints cfg disk (shim.added cfg url workerType drawn) =
        (shim.added cfg url workerType drawn, .error error)) :
    ¬ shim.Atomic cfg (.register url workerType drawn disk) := by
  intro atomic
  have executed :=
    execute_register_of_not_mem cfg workerType drawn disk fresh
  rw [raised] at executed
  have unchanged := (atomic.raises error (by rw [executed])).1
  rw [executed] at unchanged
  exact added_ne workerType drawn fresh unchanged

theorem atomic_register_iff
    (listed : shim.Listed cfg) (url workerType drawn : String)
    (disk : Disk) :
    shim.Atomic cfg (.register url workerType drawn disk) ↔
      shim.Accepts cfg (.register url workerType drawn disk) := by
  by_cases known : url ∈ shim.urls
  · have executed :=
      execute_register_of_mem cfg workerType drawn disk known
    constructor
    · intro _ fresh
      exact absurd known fresh
    · intro _
      constructor
      · intro _
        rw [executed]
        exact ⟨(if_pos known).symm, listed.lists⟩
      · intro error raised
        rw [executed] at raised
        cases raised
  · have executed :=
      execute_register_of_not_mem cfg workerType drawn disk known
    have fresh : ∀ {accepts : Prop},
        (url ∉ shim.urls → accepts) ↔ accepts :=
      ⟨fun implied => implied known, fun accepts _ => accepts⟩
    change _ ↔ (url ∉ shim.urls → _)
    rw [fresh]
    by_cases splits : Splits url
    · cases disk with
      | raises =>
          obtain ⟨error, raised⟩ :=
            writeEndpoints_raises cfg (shim.added cfg url workerType drawn)
          constructor
          · intro atomic
            exact absurd atomic (not_atomic_of_raised known raised)
          · intro found
            obtain ⟨_, impossible, _⟩ := found
            cases impossible
      | writes =>
          have allSplit :
              ∀ other ∈ (shim.added cfg url workerType drawn).urls,
                Splits other := by
            intro other member
            rcases mem_urls_added url workerType drawn other member with
              rfl | old
            · exact splits
            · exact listed.lists.splits other old
          obtain ⟨entries, lists, written⟩ :=
            writeEndpoints_of_splits cfg allSplit
          rw [written] at executed
          have order := urls_added_eq_iff cfg workerType drawn
            known
          rw [listed.freshKey_iff drawn known] at order
          constructor
          · intro atomic
            have placed := (atomic.returns (by rw [executed])).1
            rw [executed, urlsAfter, if_neg known] at placed
            exact ⟨splits, rfl, order.mp placed⟩
          · intro found
            obtain ⟨_, _, freshKey⟩ := found
            constructor
            · intro _
              rw [executed, urlsAfter, if_neg known]
              exact ⟨order.mpr freshKey, lists⟩
            · intro error raised
              rw [executed] at raised
              cases raised
    · obtain ⟨error, raised⟩ :=
        writeEndpoints_of_not_splits cfg disk
          (url_mem_urls_added cfg _ url workerType drawn) splits
      constructor
      · intro atomic
        exact absurd atomic (not_atomic_of_raised known raised)
      · intro found
        obtain ⟨impossible, _⟩ := found
        exact absurd impossible splits

/-! ## Deregistering -/

/-- The state in which a worker has been popped from the map. -/
def popped (shim : Shim) (ref : String) : Shim :=
  { shim with workers := shim.workers.erase (normalizeRef ref) }

variable (cfg) in
theorem execute_deregister_of_get?_eq_none
    {ref : String} (disk : Disk)
    (absent : shim.workers.get? (normalizeRef ref) = none) :
    shim.execute cfg (.deregister ref disk) = (shim, .ok ()) := by
  simp [execute, deregister, absent, Except.map]

variable (cfg) in
theorem execute_deregister_of_get?_eq_some
    {ref : String} {worker : Worker} (disk : Disk)
    (found : shim.workers.get? (normalizeRef ref) = some worker) :
    shim.execute cfg (.deregister ref disk) =
      writeEndpoints cfg disk (shim.popped ref) := by
  simp only [execute, deregister, found, popped]
  generalize writeEndpoints cfg disk _ = written
  obtain ⟨after, outcome⟩ := written
  cases outcome <;> rfl

theorem mem_urls_of_popped
    {ref url : String} (member : url ∈ (shim.popped ref).urls) :
    url ∈ shim.urls := by
  obtain ⟨key, worker, found, same⟩ := (mem_urls_iff _ _).mp member
  by_cases popped : key = normalizeRef ref
  · subst key
    cases (OrderedDict.get?_erase_self _ _).symm.trans found
  · exact (mem_urls_iff _ _).mpr ⟨key, worker,
      (OrderedDict.get?_erase_of_ne _ popped).symm.trans found, same⟩

theorem atomic_deregister_iff
    (listed : shim.Listed cfg) (ref : String) (disk : Disk) :
    shim.Atomic cfg (.deregister ref disk) ↔
      shim.Accepts cfg (.deregister ref disk) := by
  cases found : shim.workers.get? (normalizeRef ref) with
  | none =>
      have absent := (OrderedDict.get?_eq_none_iff _ _).mp found
      have executed :=
        execute_deregister_of_get?_eq_none cfg disk found
      constructor
      · intro _ present
        exact absurd present absent
      · intro _
        constructor
        · intro _
          rw [executed, urlsAfter,
            OrderedDict.erase_of_get?_eq_none _ _ found]
          exact ⟨rfl, listed.lists⟩
        · intro error raised
          rw [executed] at raised
          cases raised
  | some worker =>
      have present := OrderedDict.mem_keys_of_get? found
      have executed :=
        execute_deregister_of_get?_eq_some cfg disk found
      cases disk with
      | raises =>
          obtain ⟨error, raised⟩ :=
            writeEndpoints_raises cfg (shim.popped ref)
          rw [raised] at executed
          constructor
          · intro atomic
            have unchanged : shim.popped ref = shim := by
              have same := (atomic.raises error (by rw [executed])).1
              rwa [executed] at same
            have gone :
                (shim.popped ref).workers.get? (normalizeRef ref) =
                  none := OrderedDict.get?_erase_self _ _
            rw [unchanged, found] at gone
            cases gone
          · intro accepts
            cases accepts present
      | writes =>
          obtain ⟨entries, lists, written⟩ :=
            writeEndpoints_of_splits cfg fun url member =>
              listed.lists.splits url (mem_urls_of_popped member)
          rw [written] at executed
          constructor
          · intro _ _
            rfl
          · intro _
            constructor
            · intro _
              rw [executed]
              exact ⟨rfl, lists⟩
            · intro error raised
              rw [executed] at raised
              cases raised

/-! ## Whole runs -/

theorem atomic_iff_accepts
    (listed : shim.Listed cfg) (call : ShimCall) :
    shim.Atomic cfg call ↔ shim.Accepts cfg call := by
  cases call with
  | register url workerType drawn disk =>
      exact atomic_register_iff listed url workerType drawn disk
  | deregister ref disk =>
      exact atomic_deregister_iff listed ref disk

theorem writeEndpoints_workers
    (cfg : ShimConfig) (disk : Disk) (shim : Shim) :
    (writeEndpoints cfg disk shim).1.workers = shim.workers := by
  unfold writeEndpoints
  split
  · rfl
  · split
    · rfl
    · cases disk <;> rfl

/-- A worker in the map after a call was there before, or is the one the call
registers. -/
theorem worker_of_get?_execute
    {call : ShimCall} {key : String} {worker : Worker}
    (found :
      (shim.execute cfg call).1.workers.get? key = some worker) :
    shim.workers.get? key = some worker ∨
      ∃ url workerType drawn disk,
        call = .register url workerType drawn disk ∧ url ∉ shim.urls ∧
          key = cfg.makeKey drawn url ∧ worker.url = url := by
  cases call with
  | register url workerType drawn disk =>
      by_cases known : url ∈ shim.urls
      · rw [execute_register_of_mem cfg workerType drawn disk known] at found
        exact .inl found
      · rw [execute_register_of_not_mem cfg workerType drawn disk known,
          writeEndpoints_workers] at found
        simp only [added, OrderedDict.get?_insert] at found
        split at found
        · next same =>
            cases found
            exact .inr ⟨url, workerType, drawn, disk, rfl, known, same,
              entry_url cfg drawn url workerType⟩
        · exact .inl found
  | deregister ref disk =>
      cases present : shim.workers.get? (normalizeRef ref) with
      | none =>
          rw [execute_deregister_of_get?_eq_none cfg disk present] at found
          exact .inl found
      | some removed =>
          rw [execute_deregister_of_get?_eq_some cfg disk present,
            writeEndpoints_workers] at found
          by_cases popped : key = normalizeRef ref
          · subst key
            cases (OrderedDict.get?_erase_self _ _).symm.trans found
          · exact .inl
              ((OrderedDict.get?_erase_of_ne _ popped).symm.trans found)

theorem keyed_execute
    (listed : shim.Listed cfg) (call : ShimCall)
    (urlMode : cfg.idField = "url") (key : String) (worker : Worker)
    (found :
      (shim.execute cfg call).1.workers.get? key = some worker) :
    worker.url = key := by
  rcases worker_of_get?_execute found with
    old | ⟨url, workerType, drawn, disk, rfl, fresh, rfl, named⟩
  · exact listed.keyed urlMode key worker old
  · rw [named, ShimConfig.makeKey, if_pos urlMode]

theorem Listed.step
    {next : Shim} {call : ShimCall}
    (listed : shim.Listed cfg) (accepts : shim.Accepts cfg call)
    (stepped : step cfg shim call = some next) :
    next.Listed cfg := by
  cases stepped
  have atomic := (atomic_iff_accepts listed call).mpr accepts
  refine ⟨?_, keyed_execute listed call⟩
  cases outcome : (shim.execute cfg call).2 with
  | ok _ =>
      exact (atomic.returns outcome).2
  | error error =>
      rw [(atomic.raises error outcome).1]
      exact listed.lists

theorem listed_init (cfg : ShimConfig) : init.Listed cfg where
  lists := .nil
  keyed := by
    intro _ key worker found
    cases found

/-- Over every sequence of calls: each call is atomic exactly when each call
that changes the map is valid and does not draw the key of a worker other than
the last one. -/
theorem calls_atomic_iff (cfg : ShimConfig) (calls : List ShimCall) :
    StepsMeet (step cfg) (Atomic cfg) init calls ↔
      StepsMeet (step cfg) (Accepts cfg) init calls :=
  stepsMeet_congr_of_invariant
    (fun _ _ _ listed accepts stepped => Listed.step listed accepts stepped)
    (fun _ call listed => atomic_iff_accepts listed call)
    (listed_init cfg)

/-- An URL without a port raises but stays registered, and the next valid
registration fails on it. -/
theorem rejected_url_stays_registered :
    let cfg : ShimConfig := { engineType := "vllm" }
    let bad : ShimCall := .register "engine-a" "regular" "" .writes
    let good : ShimCall :=
      .register "http://10.0.0.2:8000" "regular" "" .writes
    let after := (init.execute cfg bad).1
    (init.execute cfg bad).2 =
        .error (.address (.badAddress "engine-a")) ∧
      init.urls = [] ∧ after.urls = ["engine-a"] ∧
      good.Valid ∧
      (after.execute cfg good).2 =
        .error (.address (.badAddress "engine-a")) ∧
      ¬ StepsMeet (step cfg) (Atomic cfg) init [bad, good] := by
  intro cfg bad good after
  have raised :
      (init.execute cfg bad).2 =
        .error (.address (.badAddress "engine-a")) := by decide +kernel
  have kept : after.urls = ["engine-a"] := by decide +kernel
  refine ⟨raised, rfl, kept, ⟨by decide +kernel, rfl⟩,
    by decide +kernel, ?_⟩
  intro meets
  have unchanged : after = init := (meets.1.raises _ raised).1
  rw [unchanged] at kept
  cases kept

end Shim

end LlmDRl.Registration
