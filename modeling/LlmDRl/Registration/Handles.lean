import LlmDRl.Registration.Shim

/-!
# The handles of the registration shim

A `POST` answers with the key of the worker, which a `DELETE` takes to remove
it again: the URL itself, or eight hex digits that no call checks against the
keys in use.  In URL mode the key passes the slash normalization first.
-/

namespace LlmDRl.Registration

open LlmDRl.Library

/-- The schemes whose double slash a proxy collapses. -/
def httpSchemes : List String := ["http:", "https:"]

/-- `ref` is the URL after its `//` was collapsed to `/`. -/
def Collapsed (url ref : String) : Prop :=
  ∃ scheme ∈ httpSchemes, ∃ rest,
    url = scheme ++ "//" ++ rest ∧ ref = scheme ++ "/" ++ rest

/-- Three slashes follow the scheme. -/
def ThirdSlash (url : String) : Prop :=
  ∃ scheme ∈ httpSchemes, ∃ rest, url = scheme ++ "///" ++ rest

/-- A `DELETE` of `ref` that is meant for `url` looks under `target`: the
normalization adds a slash the URL never had, or leaves out one that was
collapsed. -/
inductive Strays (url : String) : (ref target : String) → Prop
  | singleSlash {doubled : String} :
      Collapsed doubled url → ¬ ThirdSlash doubled →
        Strays url url doubled
  | thirdSlash {ref : String} :
      Collapsed url ref → ThirdSlash url → Strays url ref ref

/-- The shape of `uuid.uuid4().hex[:8]`. -/
def IsHexId (drawn : String) : Prop :=
  drawn.length = 8 ∧
    drawn.toList.all fun digit => "0123456789abcdef".toList.contains digit

instance (drawn : String) : Decidable (IsHexId drawn) :=
  instDecidableAnd

/-- Nothing is assumed of a drawn id beyond its shape. -/
def ShimCall.Shaped : ShimCall → Prop
  | register _ _ drawn _ => IsHexId drawn
  | deregister _ _ => True

/-- What a `POST` that returned told the worker at `url`. -/
structure Receipt where
  handle : String
  url : String
  deriving DecidableEq

/-- The shim, with the receipts it gave so far. -/
structure Registry where
  shim : Shim
  receipts : List Receipt

/-- From `before` to `after`, the worker with this receipt is gone, if it was
still there, and no other. -/
def RemovesOnly (receipt : Receipt) (before after : Shim) : Prop :=
  ∀ url, url ∈ after.urls ↔
    url ∈ before.urls ∧
      ¬ (url = receipt.url ∧ before.keyOf url = some receipt.handle)

namespace Registry

def init : Registry := ⟨.init, []⟩

variable (cfg : ShimConfig)

/-- A call that raises gives no receipt. -/
def receiptsOf (shim : Shim) : ShimCall → List Receipt
  | .register url workerType drawn disk =>
      match (Shim.register cfg url workerType drawn disk shim).2 with
      | .ok response => [⟨response.2, url⟩]
      | .error _ => []
  | .deregister _ _ => []

def step (registry : Registry) (call : ShimCall) : Option Registry :=
  some
    { shim := (registry.shim.execute cfg call).1
      receipts := receiptsOf cfg registry.shim call ++ registry.receipts }

/-- A `DELETE` of `ref` is meant for the worker with this receipt. -/
def Addresses (receipt : Receipt) (ref : String) : Prop :=
  ref = receipt.handle ∨
    (cfg.idField = "url" ∧ Collapsed receipt.url ref)

/-- No URL is registered twice; a `POST` leaves every worker under its key,
and a `DELETE` removes the worker it is meant for and no other. -/
def Faithful (registry : Registry) (call : ShimCall) : Prop :=
  (registry.shim.execute cfg call).1.urls.Nodup ∧
    match call with
    | .register url workerType drawn disk =>
        ∀ key worker, registry.shim.workers.get? key = some worker →
          (registry.shim.execute cfg
            (.register url workerType drawn disk)).1.workers.get? key =
              some worker
    | .deregister ref disk =>
        ∀ receipt ∈ registry.receipts, Addresses cfg receipt ref →
          RemovesOnly receipt registry.shim
            (registry.shim.execute cfg (.deregister ref disk)).1

/-- In UUID mode a new URL does not draw a key in use, and no other URL is
registered under a handle a worker hands in.  In URL mode a `DELETE` that goes
astray comes after the worker has left, and finds nothing. -/
def Unambiguous (registry : Registry) : ShimCall → Prop
  | .register url _ drawn _ =>
      cfg.idField ≠ "url" → url ∉ registry.shim.urls →
        drawn ∉ registry.shim.workers.keys
  | .deregister ref _ =>
      ∀ receipt ∈ registry.receipts, Addresses cfg receipt ref →
        if cfg.idField = "url" then
          ∀ target, Strays receipt.url ref target →
            receipt.url ∉ registry.shim.urls ∧
              target ∉ registry.shim.urls
        else
          ∀ worker,
            registry.shim.workers.get? receipt.handle = some worker →
              worker.url = receipt.url

end Registry

/-- What a key says about the worker it stands for. -/
def ShimConfig.Names (cfg : ShimConfig) (key url : String) : Prop :=
  if cfg.idField = "url" then key = url else IsHexId key

/-- No URL is registered twice, and keys and receipts name their workers. -/
structure Registry.Coherent (cfg : ShimConfig) (registry : Registry) :
    Prop where
  distinct : registry.shim.urls.Nodup
  named : ∀ key worker,
    registry.shim.workers.get? key = some worker →
      cfg.Names key worker.url
  issued : ∀ receipt ∈ registry.receipts,
    cfg.Names receipt.handle receipt.url

/-! ## Slashes -/

theorem exists_append_of_prefix
    {text ref : String} (starts : text.toList <+: ref.toList) :
    ∃ rest, ref = text ++ rest := by
  obtain ⟨rest, same⟩ := starts
  refine ⟨String.ofList rest, String.toList_injective ?_⟩
  rw [String.toList_append, String.toList_ofList]
  exact same.symm

theorem normalizeRef_of_scheme
    {scheme : String} (member : scheme ∈ httpSchemes) (rest : String) :
    normalizeRef (scheme ++ "/" ++ rest) =
      if "/".toList <+: rest.toList then
        scheme ++ "/" ++ rest
      else
        scheme ++ "//" ++ rest := by
  simp only [httpSchemes, List.mem_cons, List.not_mem_nil, or_false]
    at member
  rcases member with rfl | rfl
  · unfold normalizeRef
    by_cases third : "/".toList <+: rest.toList
    · simp_all [List.isPrefixOf_iff_prefix]
    · simp_all [List.isPrefixOf_iff_prefix]
  · unfold normalizeRef
    by_cases third : "/".toList <+: rest.toList
    · simp_all [List.isPrefixOf_iff_prefix]
    · simp_all [List.isPrefixOf_iff_prefix]

/-- Without a slash after an http scheme, a ref is looked up as it is. -/
theorem exists_scheme_of_normalizeRef_ne
    {ref : String} (moved : normalizeRef ref ≠ ref) :
    ∃ scheme ∈ httpSchemes, ∃ rest, ref = scheme ++ "/" ++ rest := by
  unfold normalizeRef at moved
  simp only [List.isPrefixOf_iff_prefix] at moved
  split at moved
  · next http =>
      obtain ⟨rest, rfl⟩ := exists_append_of_prefix http.1
      exact ⟨"http:", by decide, rest, rfl⟩
  · split at moved
    · next https =>
        obtain ⟨rest, rfl⟩ := exists_append_of_prefix https.1
        exact ⟨"https:", by decide, rest, rfl⟩
    · exact absurd rfl moved

theorem scheme_unique
    {first second firstRest secondRest : String}
    (firstMember : first ∈ httpSchemes)
    (secondMember : second ∈ httpSchemes)
    (same : first ++ "/" ++ firstRest = second ++ "/" ++ secondRest) :
    first = second ∧ firstRest = secondRest := by
  have lists := congrArg String.toList same
  simp only [httpSchemes, List.mem_cons, List.not_mem_nil, or_false]
    at firstMember secondMember
  rcases firstMember with rfl | rfl <;> rcases secondMember with rfl | rfl
  · exact ⟨rfl, String.toList_injective (by simpa using lists)⟩
  · simp at lists
  · simp at lists
  · exact ⟨rfl, String.toList_injective (by simpa using lists)⟩

theorem thirdSlash_iff
    {scheme : String} (member : scheme ∈ httpSchemes) (rest : String) :
    ThirdSlash (scheme ++ "//" ++ rest) ↔ "/".toList <+: rest.toList := by
  have slashes : "//" = "/" ++ "/" ∧ "///" = "/" ++ "//" := by decide
  constructor
  · intro third
    obtain ⟨other, otherMember, more, same⟩ := third
    have split :
        scheme ++ "/" ++ ("/" ++ rest) =
          other ++ "/" ++ ("/" ++ ("/" ++ more)) := by
      rw [slashes.2, slashes.1] at same
      simpa only [String.append_assoc] using same
    have tails := congrArg String.toList
      (scheme_unique member otherMember split).2
    simp only [String.toList_append, List.append_cancel_left_eq] at tails
    exact ⟨more.toList, tails.symm⟩
  · intro starts
    obtain ⟨more, rfl⟩ := exists_append_of_prefix starts
    refine ⟨scheme, member, more, ?_⟩
    rw [slashes.2, slashes.1]
    simp only [String.append_assoc]

theorem normalizeRef_of_collapsed
    {url ref : String} (collapsed : Collapsed url ref)
    (two : ¬ ThirdSlash url) : normalizeRef ref = url := by
  obtain ⟨scheme, member, rest, rfl, rfl⟩ := collapsed
  rw [thirdSlash_iff member] at two
  rw [normalizeRef_of_scheme member, if_neg two]

theorem normalizeRef_of_thirdSlash
    {url ref : String} (collapsed : Collapsed url ref)
    (third : ThirdSlash url) : normalizeRef ref = ref := by
  obtain ⟨scheme, member, rest, rfl, rfl⟩ := collapsed
  rw [thirdSlash_iff member] at third
  rw [normalizeRef_of_scheme member, if_pos third]

theorem exists_doubled_of_normalizeRef_ne
    {ref : String} (moved : normalizeRef ref ≠ ref) :
    Collapsed (normalizeRef ref) ref ∧ ¬ ThirdSlash (normalizeRef ref) := by
  obtain ⟨scheme, member, rest, rfl⟩ :=
    exists_scheme_of_normalizeRef_ne moved
  rw [normalizeRef_of_scheme member] at moved ⊢
  split at moved
  · exact absurd rfl moved
  · next two =>
      rw [if_neg two, thirdSlash_iff member]
      exact ⟨⟨scheme, member, rest, rfl, rfl⟩, two⟩

theorem Collapsed.ne
    {url ref : String} (collapsed : Collapsed url ref) : ref ≠ url := by
  obtain ⟨scheme, member, rest, rfl, rfl⟩ := collapsed
  intro same
  have lengths := congrArg String.length same
  rw [String.length_append, String.length_append, String.length_append,
    String.length_append] at lengths
  have one : "/".length = 1 := by decide
  have two : "//".length = 2 := by decide
  omega

/-- The lookup goes astray exactly when the normalized ref is another URL. -/
theorem strays_iff
    {url ref : String} (meant : ref = url ∨ Collapsed url ref)
    (target : String) :
    Strays url ref target ↔ normalizeRef ref = target ∧ target ≠ url := by
  constructor
  · intro strays
    cases strays with
    | singleSlash doubled two =>
        exact ⟨normalizeRef_of_collapsed doubled two, doubled.ne.symm⟩
    | thirdSlash collapsed third =>
        exact ⟨normalizeRef_of_thirdSlash collapsed third, collapsed.ne⟩
  · rintro ⟨rfl, away⟩
    rcases meant with rfl | collapsed
    · obtain ⟨doubled, two⟩ := exists_doubled_of_normalizeRef_ne away
      exact .singleSlash doubled two
    · by_cases third : ThirdSlash url
      · rw [normalizeRef_of_thirdSlash collapsed third]
        exact .thirdSlash collapsed third
      · exact absurd (normalizeRef_of_collapsed collapsed third) away

/-- A drawn id is never taken for an URL. -/
theorem normalizeRef_of_isHexId
    {drawn : String} (hex : IsHexId drawn) : normalizeRef drawn = drawn := by
  by_contra moved
  obtain ⟨scheme, member, rest, rfl⟩ :=
    exists_scheme_of_normalizeRef_ne moved
  have digit := List.all_eq_true.mp hex.2 '/' (by simp)
  revert digit
  decide

/-! ## Keys -/

namespace Shim

variable {cfg : ShimConfig} {shim : Shim}

/-- No URL is registered twice exactly when no two keys have the same one. -/
theorem nodup_urls_iff (shim : Shim) :
    shim.urls.Nodup ↔
      ∀ key worker other rival,
        shim.workers.get? key = some worker →
          shim.workers.get? other = some rival →
            worker.url = rival.url → key = other := by
  have entriesNodup : shim.workers.entries.Nodup :=
    List.Nodup.of_map _ shim.workers.nodup
  have urlsEq :
      shim.urls = shim.workers.entries.map fun entry => entry.2.url := by
    simp only [urls, OrderedDict.values, List.map_map, Function.comp_def]
  rw [urlsEq, List.nodup_map_iff_inj_on entriesNodup]
  constructor
  · intro injective key worker other rival found foundOther same
    have entriesEq :=
      injective (key, worker)
        ((OrderedDict.get?_eq_some_iff _ _ _).mp found)
        (other, rival)
        ((OrderedDict.get?_eq_some_iff _ _ _).mp foundOther) same
    exact congrArg Prod.fst entriesEq
  · intro separate entry member other otherMember same
    have found :=
      (OrderedDict.get?_eq_some_iff _ entry.1 entry.2).mpr member
    have foundOther :=
      (OrderedDict.get?_eq_some_iff _ other.1 other.2).mpr otherMember
    have keys := separate _ _ _ _ found foundOther same
    rw [keys, foundOther] at found
    exact Prod.ext keys (Option.some.inj found).symm

theorem keyOf_eq_some_iff
    (distinct : shim.urls.Nodup) (url key : String) :
    shim.keyOf url = some key ↔
      ∃ worker, shim.workers.get? key = some worker ∧
        worker.url = url := by
  have forward : ∀ other, shim.keyOf url = some other →
      ∃ worker, shim.workers.get? other = some worker ∧
        worker.url = url := by
    intro other first
    obtain ⟨⟨_, worker⟩, found, rfl⟩ := Option.map_eq_some_iff.mp first
    refine ⟨worker, (OrderedDict.get?_eq_some_iff _ _ _).mpr
      (List.mem_of_find?_eq_some found), ?_⟩
    simpa using List.find?_some found
  constructor
  · exact forward key
  · intro held
    obtain ⟨worker, found, named⟩ := held
    cases first : shim.keyOf url with
    | none =>
        exact absurd ((mem_urls_iff _ _).mpr ⟨key, worker, found, named⟩)
          ((keyOf_eq_none_iff _ _).mp first)
    | some other =>
        obtain ⟨rival, foundOther, namedToo⟩ := forward other first
        rw [(nodup_urls_iff shim).mp distinct _ _ _ _ found foundOther
          (named.trans namedToo.symm)]

theorem urls_writeEndpoints (cfg : ShimConfig) (disk : Disk) (shim : Shim) :
    (writeEndpoints cfg disk shim).1.urls = shim.urls := by
  unfold urls
  rw [writeEndpoints_workers]

/-- A `DELETE` removes the URL under the normalized ref. -/
theorem mem_urls_deregister_iff
    (cfg : ShimConfig) (distinct : shim.urls.Nodup) (ref url : String)
    (disk : Disk) :
    url ∈ (shim.execute cfg (.deregister ref disk)).1.urls ↔
      url ∈ shim.urls ∧ shim.keyOf url ≠ some (normalizeRef ref) := by
  cases found : shim.workers.get? (normalizeRef ref) with
  | none =>
      rw [execute_deregister_of_get?_eq_none cfg disk found]
      refine ⟨fun member => ⟨member, ?_⟩, And.left⟩
      intro first
      obtain ⟨worker, held, _⟩ := (keyOf_eq_some_iff distinct _ _).mp first
      rw [found] at held
      cases held
  | some removed =>
      rw [execute_deregister_of_get?_eq_some cfg disk found,
        urls_writeEndpoints, mem_urls_iff]
      constructor
      · intro kept
        obtain ⟨key, worker, held, named⟩ := kept
        have away : key ≠ normalizeRef ref := by
          rintro rfl
          cases (OrderedDict.get?_erase_self _ _).symm.trans held
        have heldBefore :=
          (OrderedDict.get?_erase_of_ne shim.workers away).symm.trans held
        refine ⟨(mem_urls_iff _ _).mpr ⟨key, worker, heldBefore, named⟩, ?_⟩
        rw [(keyOf_eq_some_iff distinct _ _).mpr ⟨worker, heldBefore, named⟩]
        exact fun same => away (Option.some.inj same)
      · intro kept
        obtain ⟨member, notFirst⟩ := kept
        obtain ⟨key, worker, held, named⟩ := (mem_urls_iff _ _).mp member
        have away : key ≠ normalizeRef ref := by
          rintro rfl
          exact notFirst
            ((keyOf_eq_some_iff distinct _ _).mpr ⟨worker, held, named⟩)
        exact ⟨key, worker,
          (OrderedDict.get?_erase_of_ne shim.workers away).trans held, named⟩

theorem removesOnly_deregister_iff
    (cfg : ShimConfig) (distinct : shim.urls.Nodup) (receipt : Receipt)
    (ref : String) (disk : Disk) :
    RemovesOnly receipt shim
        (shim.execute cfg (.deregister ref disk)).1 ↔
      ∀ url ∈ shim.urls,
        (shim.keyOf url = some (normalizeRef ref) ↔
          url = receipt.url ∧
            shim.keyOf url = some receipt.handle) := by
  unfold RemovesOnly
  refine forall_congr' fun url => ?_
  rw [mem_urls_deregister_iff cfg distinct]
  tauto

end Shim

/-! ## What a call keeps -/

namespace Registry

variable {cfg : ShimConfig} {registry next : Registry}

theorem names_makeKey
    (cfg : ShimConfig) {drawn : String} (hex : IsHexId drawn)
    (url : String) : cfg.Names (cfg.makeKey drawn url) url := by
  unfold ShimConfig.Names ShimConfig.makeKey
  split
  · rfl
  · exact hex

/-- A receipt tells the key the worker has, or the one it gets. -/
theorem handle_of_mem_receiptsOf
    {shim : Shim} {call : ShimCall} {receipt : Receipt}
    (given : receipt ∈ receiptsOf cfg shim call) :
    ∃ url workerType drawn disk,
      call = .register url workerType drawn disk ∧ receipt.url = url ∧
        (shim.keyOf url = some receipt.handle ∨
          receipt.handle = cfg.makeKey drawn url) := by
  cases call with
  | deregister ref disk =>
      cases given
  | register url workerType drawn disk =>
      refine ⟨url, workerType, drawn, disk, rfl, ?_⟩
      simp only [receiptsOf] at given
      cases outcome : (Shim.register cfg url workerType drawn disk shim).2 with
      | error error =>
          simp only [outcome] at given
          cases given
      | ok response =>
          simp only [outcome, List.mem_singleton] at given
          subst given
          refine ⟨rfl, ?_⟩
          unfold Shim.register at outcome
          cases first : shim.keyOf url with
          | some key =>
              simp only [first, Except.ok.injEq] at outcome
              subst outcome
              exact .inl rfl
          | none =>
              simp only [first] at outcome
              revert outcome
              generalize (Shim.writeEndpoints cfg disk _).2 = written
              intro outcome
              cases written with
              | error error =>
                  cases outcome
              | ok _ =>
                  cases outcome
                  exact .inr rfl

variable (cfg) in
theorem nodup_urls_execute
    (distinct : registry.shim.urls.Nodup) (call : ShimCall) :
    (registry.shim.execute cfg call).1.urls.Nodup := by
  rw [Shim.nodup_urls_iff] at distinct ⊢
  intro key worker other rival found foundOther same
  rcases Shim.worker_of_get?_execute found with
    old | ⟨url, workerType, drawn, disk, rfl, fresh, rfl, named⟩
  · rcases Shim.worker_of_get?_execute foundOther with
      oldToo | ⟨url, workerType, drawn, disk, rfl, fresh, rfl, named⟩
    · exact distinct _ _ _ _ old oldToo same
    · rw [← named, ← same] at fresh
      exact absurd
        ((Shim.mem_urls_iff _ _).mpr ⟨key, worker, old, rfl⟩) fresh
  · rcases Shim.worker_of_get?_execute foundOther with
      oldToo | ⟨_, _, _, _, sameCall, _, rfl, _⟩
    · rw [← named, same] at fresh
      exact absurd
        ((Shim.mem_urls_iff _ _).mpr ⟨other, rival, oldToo, rfl⟩) fresh
    · cases sameCall
      rfl

theorem Coherent.step
    {call : ShimCall} (coherent : registry.Coherent cfg)
    (shaped : call.Shaped)
    (stepped : step cfg registry call = some next) :
    next.Coherent cfg := by
  cases stepped
  refine ⟨nodup_urls_execute cfg coherent.distinct call, ?_, ?_⟩
  · intro key worker found
    rcases Shim.worker_of_get?_execute found with
      old | ⟨url, workerType, drawn, disk, rfl, _, rfl, named⟩
    · exact coherent.named key worker old
    · rw [named]
      exact names_makeKey cfg shaped url
  · intro receipt member
    rcases List.mem_append.mp member with given | older
    · obtain ⟨url, workerType, drawn, disk, rfl, named, known | made⟩ :=
        handle_of_mem_receiptsOf given
      · obtain ⟨worker, found, workerNamed⟩ :=
          (Shim.keyOf_eq_some_iff coherent.distinct _ _).mp known
        rw [named, ← workerNamed]
        exact coherent.named _ worker found
      · rw [named, made]
        exact names_makeKey cfg shaped url
    · exact coherent.issued receipt older

theorem coherent_init (cfg : ShimConfig) : init.Coherent cfg where
  distinct := List.nodup_nil
  named := by
    intro _ _ found
    cases found
  issued := by
    intro _ member
    cases member

/-! ## One call -/

theorem Coherent.keyed
    (coherent : registry.Coherent cfg) (urlMode : cfg.idField = "url")
    (key : String) (worker : Worker)
    (found : registry.shim.workers.get? key = some worker) :
    worker.url = key := by
  have named := coherent.named key worker found
  rw [ShimConfig.Names, if_pos urlMode] at named
  exact named.symm

/-- The key of a new worker is not in use, unless it was drawn. -/
theorem Coherent.makeKey_mem_keys_iff
    (coherent : registry.Coherent cfg) {url : String} (drawn : String)
    (fresh : url ∉ registry.shim.urls) :
    cfg.makeKey drawn url ∈ registry.shim.workers.keys ↔
      cfg.idField ≠ "url" ∧ drawn ∈ registry.shim.workers.keys := by
  unfold ShimConfig.makeKey
  by_cases urlMode : cfg.idField = "url"
  · simp only [urlMode, if_true, ne_eq, not_true_eq_false, false_and,
      iff_false]
    exact Shim.not_mem_keys_of_keyed (coherent.keyed urlMode) fresh
  · simp only [urlMode, if_false, ne_eq, not_false_eq_true, true_and]

theorem faithful_register_iff
    (coherent : registry.Coherent cfg) (url workerType drawn : String)
    (disk : Disk) :
    registry.Faithful cfg (.register url workerType drawn disk) ↔
      registry.Unambiguous cfg (.register url workerType drawn disk) := by
  have distinct :=
    nodup_urls_execute cfg coherent.distinct
      (.register url workerType drawn disk)
  simp only [Faithful, Unambiguous, distinct, true_and]
  by_cases known : url ∈ registry.shim.urls
  · rw [Shim.execute_register_of_mem cfg workerType drawn disk known]
    simp [known]
  · rw [Shim.execute_register_of_not_mem cfg workerType drawn disk known,
      Shim.writeEndpoints_workers]
    have taken := coherent.makeKey_mem_keys_iff drawn known
    constructor
    · intro kept uuidMode _ drawnTaken
      cases found :
          registry.shim.workers.get? (cfg.makeKey drawn url) with
      | none =>
          exact (OrderedDict.get?_eq_none_iff _ _).mp found
            (taken.mpr ⟨uuidMode, drawnTaken⟩)
      | some worker =>
          have replaced := kept _ worker found
          simp only [Shim.added, OrderedDict.get?_insert_self,
            Option.some.injEq] at replaced
          refine known ((Shim.mem_urls_iff _ _).mpr ⟨_, worker, found, ?_⟩)
          rw [← replaced]
          exact Shim.entry_url cfg drawn url workerType
    · intro unused key worker found
      have away : key ≠ cfg.makeKey drawn url := by
        rintro rfl
        obtain ⟨uuidMode, drawnTaken⟩ :=
          taken.mp (OrderedDict.mem_keys_of_get? found)
        exact unused uuidMode known drawnTaken
      exact (OrderedDict.get?_insert_of_ne _ _ away).trans found

theorem Coherent.keyOf_of_urlMode
    (coherent : registry.Coherent cfg) (urlMode : cfg.idField = "url")
    {url : String} (member : url ∈ registry.shim.urls) :
    registry.shim.keyOf url = some url := by
  obtain ⟨key, worker, found, rfl⟩ := (Shim.mem_urls_iff _ _).mp member
  have named := coherent.keyed urlMode key worker found
  exact (Shim.keyOf_eq_some_iff coherent.distinct _ _).mpr
    ⟨worker, named.symm ▸ found, rfl⟩

theorem removesOnly_iff_of_urlMode
    (coherent : registry.Coherent cfg) (urlMode : cfg.idField = "url")
    {receipt : Receipt} {ref : String}
    (sameUrl : receipt.handle = receipt.url)
    (meant : ref = receipt.url ∨ Collapsed receipt.url ref) (disk : Disk) :
    RemovesOnly receipt registry.shim
        (registry.shim.execute cfg (.deregister ref disk)).1 ↔
      ∀ target, Strays receipt.url ref target →
        receipt.url ∉ registry.shim.urls ∧
          target ∉ registry.shim.urls := by
  rw [Shim.removesOnly_deregister_iff cfg coherent.distinct, sameUrl]
  constructor
  · intro removes target strays
    obtain ⟨rfl, away⟩ := (strays_iff meant target).mp strays
    constructor
    · intro member
      have first := coherent.keyOf_of_urlMode urlMode member
      have found := (removes _ member).mpr ⟨rfl, first⟩
      rw [first] at found
      exact away (Option.some.inj found).symm
    · intro member
      have first := coherent.keyOf_of_urlMode urlMode member
      exact away ((removes _ member).mp first).1
  · intro clean url member
    rw [coherent.keyOf_of_urlMode urlMode member]
    by_cases away : normalizeRef ref = receipt.url
    · rw [away]
      simp
    · obtain ⟨gone, free⟩ :=
        clean _ ((strays_iff meant _).mpr ⟨rfl, away⟩)
      constructor
      · intro found
        rw [← Option.some.inj found] at free
        exact absurd member free
      · intro found
        rw [← found.1] at gone
        exact absurd member gone

theorem removesOnly_iff_of_uuidMode
    (coherent : registry.Coherent cfg) {receipt : Receipt}
    (hex : IsHexId receipt.handle) (disk : Disk) :
    RemovesOnly receipt registry.shim
        (registry.shim.execute cfg
          (.deregister receipt.handle disk)).1 ↔
      ∀ worker,
        registry.shim.workers.get? receipt.handle = some worker →
          worker.url = receipt.url := by
  rw [Shim.removesOnly_deregister_iff cfg coherent.distinct,
    normalizeRef_of_isHexId hex]
  constructor
  · intro removes worker found
    have member : worker.url ∈ registry.shim.urls :=
      (Shim.mem_urls_iff _ _).mpr ⟨_, worker, found, rfl⟩
    exact ((removes _ member).mp
      ((Shim.keyOf_eq_some_iff coherent.distinct _ _).mpr
        ⟨worker, found, rfl⟩)).1
  · intro same url _
    constructor
    · intro first
      obtain ⟨worker, found, rfl⟩ :=
        (Shim.keyOf_eq_some_iff coherent.distinct _ _).mp first
      exact ⟨same worker found, first⟩
    · exact And.right

theorem faithful_deregister_iff
    (coherent : registry.Coherent cfg) (ref : String) (disk : Disk) :
    registry.Faithful cfg (.deregister ref disk) ↔
      registry.Unambiguous cfg (.deregister ref disk) := by
  have distinct :=
    nodup_urls_execute cfg coherent.distinct
      (.deregister ref disk)
  simp only [Faithful, Unambiguous, distinct, true_and]
  refine forall₂_congr fun receipt member => ?_
  refine imp_congr_right fun addresses => ?_
  have named := coherent.issued receipt member
  unfold ShimConfig.Names at named
  by_cases urlMode : cfg.idField = "url"
  · rw [if_pos urlMode] at named ⊢
    refine removesOnly_iff_of_urlMode coherent urlMode named ?_ disk
    rcases addresses with rfl | ⟨_, collapsed⟩
    · exact .inl named
    · exact .inr collapsed
  · rw [if_neg urlMode] at named ⊢
    rcases addresses with rfl | ⟨urlModeToo, _⟩
    · exact removesOnly_iff_of_uuidMode coherent named disk
    · exact absurd urlModeToo urlMode

theorem faithful_iff_unambiguous
    (coherent : registry.Coherent cfg) (call : ShimCall) :
    registry.Faithful cfg call ↔ registry.Unambiguous cfg call := by
  cases call with
  | register url workerType drawn disk =>
      exact faithful_register_iff coherent url workerType drawn disk
  | deregister ref disk =>
      exact faithful_deregister_iff coherent ref disk

/-! ## Whole runs -/

/-- Over every sequence of calls whose drawn ids have the right shape. -/
theorem handles_faithful_iff
    (cfg : ShimConfig) (calls : List ShimCall)
    (shaped : ∀ call ∈ calls, call.Shaped) :
    StepsMeet (step cfg) (Faithful cfg) init calls ↔
      StepsMeet (step cfg) (Unambiguous cfg) init calls := by
  have total : ∀ registry call, ∃ next,
      step cfg registry call = some next := fun _ _ => ⟨_, rfl⟩
  obtain ⟨final, ran⟩ := exists_final_of_total total init calls
  have keeps :
      StepsMeet (step cfg) (fun _ call => call.Shaped) init calls :=
    stepsMeet_of_forall (fun call member _ => shaped call member) init
  exact keeps.congr_of_invariant
    (fun _ _ _ coherent hex stepped => coherent.step hex stepped)
    (fun _ call _ coherent _ => faithful_iff_unambiguous coherent call)
    (coherent_init cfg) ran

/-- A worker whose URL lost a slash at the proxy is removed by it. -/
theorem handles_faithful_iff_collapsed :
    let cfg : ShimConfig := { engineType := "vllm" }
    let join : ShimCall :=
      .register "http://10.0.0.1:8000" "regular" "3f9c01ab" .writes
    let leave : ShimCall := .deregister "http:/10.0.0.1:8000" .writes
    join.Shaped ∧ leave.Shaped ∧
      StepsMeet (step cfg) (Faithful cfg) init [join, leave] := by
  intro cfg join leave
  have hex : join.Shaped := by
    change IsHexId _
    decide +kernel
  refine ⟨hex, trivial, (handles_faithful_iff cfg [join, leave] ?_).mpr ?_⟩
  · intro call member
    simp only [List.mem_cons, List.not_mem_nil, or_false] at member
    rcases member with rfl | rfl
    · exact hex
    · trivial
  · refine ⟨fun uuidMode => absurd rfl uuidMode, ?_⟩
    intro next stepped
    refine ⟨?_, fun _ _ => trivial⟩
    have receipts :
        next.receipts =
          [⟨"http://10.0.0.1:8000", "http://10.0.0.1:8000"⟩] := by
      cases stepped
      decide +kernel
    intro receipt member _
    rw [receipts, List.mem_singleton] at member
    subst member
    rw [if_pos (show cfg.idField = "url" from rfl)]
    intro target strays
    have collapsed :
        Collapsed "http://10.0.0.1:8000" "http:/10.0.0.1:8000" :=
      ⟨"http:", by decide, "10.0.0.1:8000", by decide +kernel,
        by decide +kernel⟩
    obtain ⟨rfl, away⟩ := (strays_iff (.inr collapsed) target).mp strays
    exact absurd (by decide +kernel) away

/-- Two workers draw one id: the second one replaces the first, whose handle
then removes the second. -/
theorem drawn_id_replaces_worker :
    let cfg : ShimConfig := { engineType := "sglang", idField := "id" }
    let first : ShimCall :=
      .register "http://10.0.0.1:8000" "regular" "3f9c01ab" .writes
    let second : ShimCall :=
      .register "http://10.0.0.2:8000" "regular" "3f9c01ab" .writes
    let leave : ShimCall := .deregister "3f9c01ab" .writes
    first.Shaped ∧ second.Shaped ∧ leave.Shaped ∧
      (run (step cfg) init [first]).map (fun after => after.shim.urls) =
        some ["http://10.0.0.1:8000"] ∧
      (run (step cfg) init [first, second]).map
          (fun after => after.shim.urls) = some ["http://10.0.0.2:8000"] ∧
      (run (step cfg) init [first, second, leave]).map
          (fun after => after.shim.urls) = some [] ∧
      ¬ StepsMeet (step cfg) (Faithful cfg) init [first, second, leave] := by
  intro cfg first second leave
  have hex : IsHexId "3f9c01ab" := by decide +kernel
  refine ⟨hex, hex, trivial, by decide +kernel, by decide +kernel,
    by decide +kernel, ?_⟩
  intro meets
  let joined := (init.shim.execute cfg first).1
  have member : "http://10.0.0.1:8000" ∈ joined.urls := by decide +kernel
  obtain ⟨key, worker, found, named⟩ := (Shim.mem_urls_iff _ _).mp member
  have kept := (meets.2 _ rfl).1.2 key worker found
  have stays :
      "http://10.0.0.1:8000" ∈ (joined.execute cfg second).1.urls :=
    (Shim.mem_urls_iff _ _).mpr ⟨key, worker, kept, named⟩
  revert stays
  decide +kernel

end Registry

end LlmDRl.Registration
