import LlmDRl.Registration.Grammar

/-!
# Prefill and decode engines

The roles in the P/D file are inferred from the two replica counts by listing
them; the engines are launched by comparing their rank with the same counts.
-/

namespace LlmDRl.Registration

open LlmDRl.Library

/-- The replica counts of a rollout config; `none` is a missing attribute. -/
structure Disaggregation where
  prefillReplicas : Option Int
  decodeReplicas : Option Int

/-- `infer_roles`; repeating a list a negative number of times gives the empty
list. -/
def inferRoles (serverAddresses : List String) (disagg : Disaggregation) :
    List String :=
  let nPrefill := disagg.prefillReplicas.getD 1
  let nDecode := disagg.decodeReplicas.getD 1
  let roles :=
    List.replicate nPrefill.toNat "prefill" ++
      List.replicate nDecode.toNat "decode"
  let roles :=
    if roles.length < serverAddresses.length then
      roles ++
        List.replicate (serverAddresses.length - roles.length) "decode"
    else
      roles
  roles.take serverAddresses.length

/-- What the factory constructs. -/
inductive EngineReplica where
  | prefill (replicaRank : Int)
  | decode (replicaRank : Int)
  deriving DecidableEq, Repr

inductive FactoryError where
  /-- `AttributeError` -/
  | missing (name : String)
  /-- `ValueError` -/
  | outOfRange (replicaRank nPrefill nDecode : Int)
  deriving DecidableEq, Repr

/-- The text of the exception, given the class of the config. -/
def FactoryError.message (owner : String) : FactoryError → String
  | missing name => s!"'{owner}' object has no attribute '{name}'"
  | outOfRange replicaRank nPrefill nDecode =>
      s!"replica_rank {replicaRank} is out of range: " ++
        s!"prefill_replicas={nPrefill} + decode_replicas={nDecode} = " ++
        s!"{nPrefill + nDecode}."

/-- `PDPoolCoordinator.__init__`: the two counts, without defaults. -/
def pdPoolCoordinator (disagg : Disaggregation) :
    Except FactoryError (Int × Int) :=
  match disagg.prefillReplicas, disagg.decodeReplicas with
  | none, _ => .error (.missing "prefill_replicas")
  | some _, none => .error (.missing "decode_replicas")
  | some nPrefill, some nDecode => .ok (nPrefill, nDecode)

/-- `PDEngineReplicaFactory` -/
def pdEngineReplicaFactory (replicaRank : Int) (disagg : Disaggregation) :
    Except FactoryError EngineReplica :=
  match pdPoolCoordinator disagg with
  | .error error => .error error
  | .ok (nPrefill, nDecode) =>
      if nPrefill + nDecode ≤ replicaRank then
        .error (.outOfRange replicaRank nPrefill nDecode)
      else if replicaRank < nPrefill then
        .ok (.prefill replicaRank)
      else
        .ok (.decode replicaRank)

/-! ## Names -/

theorem dash_not_mem_repr (idx : Nat) : '-' ∉ (toString idx).toList := by
  intro member
  rw [Nat.toString_eq_ofList_toDigits, String.toList_ofList] at member
  have digit := Nat.isDigit_of_mem_toDigits (by decide) (by decide) member
  cases digit

theorem toList_toString_injective :
    Function.Injective fun idx : Nat => (toString idx).toList := by
  intro first second same
  simp only [Nat.toString_eq_ofList_toDigits, String.toList_ofList] at same
  have read := congrArg (fun digits => Nat.ofDigitChars 10 digits 0) same
  simpa only [Nat.ofDigitChars_ten_toDigits] using read

/-- The last dash of a name separates the role from the index. -/
theorem splitLast_pdName (role : String) (idx : Nat) :
    splitLast '-' (pdName role idx).toList =
      some ("vllm-".toList ++ (role.toList ++ "-0".toList),
        (toString idx).toList) := by
  have shape : (pdName role idx).toList =
      ("vllm-".toList ++ (role.toList ++ "-0".toList)) ++
        '-' :: (toString idx).toList := by
    change ("vllm-" ++ role ++ "-0-" ++ toString idx).toList = _
    simp
  rw [shape]
  exact splitLast_append (dash_not_mem_repr idx) _

theorem pdName_inj {role other : String} {idx otherIdx : Nat} :
    pdName role idx = pdName other otherIdx ↔
      role = other ∧ idx = otherIdx := by
  constructor
  · intro same
    have split := splitLast_pdName role idx
    rw [same, splitLast_pdName, Option.some_inj, Prod.mk_inj,
      List.append_cancel_left_eq, List.append_cancel_right_eq,
      String.toList_inj] at split
    exact ⟨split.1.symm, (toList_toString_injective split.2).symm⟩
  · rintro ⟨rfl, rfl⟩
    rfl

/-- A name is counted from where the counter of its role stands. -/
theorem exists_pdName_of_mem
    {label : String} {roleCounters : OrderedDict String Nat}
    {pairs : List (String × String)} {entries : List PdEndpoint}
    (built : pdEntries label roleCounters pairs = .ok entries)
    {entry : PdEndpoint} (member : entry ∈ entries) :
    ∃ role idx, entry.name = pdName role idx ∧
      roleCounters.getD role 0 ≤ idx := by
  induction pairs generalizing roleCounters entries with
  | nil =>
      cases built
      cases member
  | cons pair rest inductionHypothesis =>
      obtain ⟨addr, role⟩ := pair
      obtain ⟨host, port, later, split, builtRest, rfl⟩ :=
        pdEntries_cons_eq_ok.mp built
      rcases List.mem_cons.mp member with rfl | inRest
      · exact ⟨role, _, rfl, le_refl _⟩
      · obtain ⟨other, idx, named, counted⟩ :=
          inductionHypothesis builtRest inRest
        refine ⟨other, idx, named, ?_⟩
        by_cases same : other = role
        · subst other
          rw [OrderedDict.getD_insert_self] at counted
          omega
        · rwa [OrderedDict.getD_insert_of_ne _ _ _ same] at counted

theorem nodup_names_of_pdEntries
    {label : String} {roleCounters : OrderedDict String Nat}
    {pairs : List (String × String)} {entries : List PdEndpoint}
    (built : pdEntries label roleCounters pairs = .ok entries) :
    (entries.map PdEndpoint.name).Nodup := by
  induction pairs generalizing roleCounters entries with
  | nil =>
      cases built
      exact List.nodup_nil
  | cons pair rest inductionHypothesis =>
      obtain ⟨addr, role⟩ := pair
      obtain ⟨host, port, later, split, builtRest, rfl⟩ :=
        pdEntries_cons_eq_ok.mp built
      rw [List.map_cons, List.nodup_cons]
      refine ⟨?_, inductionHypothesis builtRest⟩
      -- a later entry of the same role is counted further
      intro repeated
      obtain ⟨entry, inRest, same⟩ := List.mem_map.mp repeated
      obtain ⟨other, idx, named, counted⟩ :=
        exists_pdName_of_mem builtRest inRest
      rw [named, pdName_inj] at same
      obtain ⟨rfl, rfl⟩ := same
      rw [OrderedDict.getD_insert_self] at counted
      omega

/-! ## Roles -/

/-- The role of a rank, whether or not the list had to be padded. -/
theorem getElem?_inferRoles
    (serverAddresses : List String) (prefillReplicas decodeReplicas : ℕ)
    {rank : Nat} (inRange : rank < serverAddresses.length) :
    (inferRoles serverAddresses
        ⟨some prefillReplicas, some decodeReplicas⟩)[rank]? =
      some (if rank < prefillReplicas then "prefill" else "decode") := by
  unfold inferRoles
  simp only [Option.getD_some, Int.toNat_natCast, List.length_append,
    List.length_replicate]
  rw [List.getElem?_take_of_lt inRange]
  by_cases early : rank < prefillReplicas
  · rw [if_pos early]
    have role : (List.replicate prefillReplicas "prefill" ++
        List.replicate decodeReplicas "decode")[rank]? =
          some "prefill" := by
      rw [List.getElem?_append_left (by simpa using early)]
      simp [early]
    split
    · rw [List.getElem?_append_left, role]
      rw [List.length_append, List.length_replicate]
      omega
    · exact role
  · rw [if_neg early]
    have late : prefillReplicas ≤ rank := by omega
    split
    · rw [List.append_assoc, List.replicate_append_replicate,
        List.getElem?_append_right (by simpa using late),
        List.getElem?_replicate, List.length_replicate, if_pos]
      omega
    · rw [List.getElem?_append_right (by simpa using late),
        List.getElem?_replicate, List.length_replicate, if_pos]
      omega

theorem length_inferRoles
    (serverAddresses : List String) (prefillReplicas decodeReplicas : ℕ) :
    (inferRoles serverAddresses
        ⟨some prefillReplicas, some decodeReplicas⟩).length =
      serverAddresses.length := by
  unfold inferRoles
  dsimp only
  rw [List.length_take]
  split
  · simp only [List.length_append, List.length_replicate] at *
    omega
  · omega

theorem pdEngineReplicaFactory_of_lt
    {prefillReplicas decodeReplicas rank : ℕ}
    (inRange : rank < prefillReplicas + decodeReplicas) :
    pdEngineReplicaFactory rank
        ⟨some prefillReplicas, some decodeReplicas⟩ =
      .ok (if rank < prefillReplicas then .prefill rank
        else .decode rank) := by
  have noError : ¬ (prefillReplicas : Int) + decodeReplicas ≤ rank := by
    omega
  simp only [pdEngineReplicaFactory, pdPoolCoordinator, if_neg noError]
  by_cases early : rank < prefillReplicas
  · rw [if_pos (by omega), if_pos early]
  · rw [if_neg (by omega), if_neg early]

theorem get?_role_pdLabels (label role : String) :
    (pdLabels label role).get? "llm-d.ai/role" = some role :=
  OrderedDict.get?_insert_self _ _ _

/-- The P/D file lists every address once and in order under distinct names,
and an entry is labelled with the role of the engine that its rank
launches. -/
theorem pd_roles_agree
    {path label : String} {serverAddresses : List String}
    {prefillReplicas decodeReplicas : ℕ} (hasPath : path ≠ "")
    (fits : serverAddresses.length ≤ prefillReplicas + decodeReplicas)
    (splits : ∀ addr ∈ serverAddresses, Splits addr) :
    let disagg : Disaggregation :=
      ⟨some prefillReplicas, some decodeReplicas⟩
    ∃ entries,
      writePdEndpoints path serverAddresses
          (inferRoles serverAddresses disagg) label =
        .ok (some entries) ∧
      List.Forall₂
        (fun entry addr =>
          splitAddress addr = .ok (entry.address, entry.port))
        entries serverAddresses ∧
      (entries.map PdEndpoint.name).Nodup ∧
      ∀ (rank : ℕ) entry, entries[rank]? = some entry →
        (entry.labels.get? "llm-d.ai/role" = some "prefill" ↔
          pdEngineReplicaFactory rank disagg = .ok (.prefill rank)) ∧
        (entry.labels.get? "llm-d.ai/role" = some "decode" ↔
          pdEngineReplicaFactory rank disagg = .ok (.decode rank)) := by
  intro disagg
  have rolesLength :
      serverAddresses.length = (inferRoles serverAddresses disagg).length :=
    (length_inferRoles serverAddresses prefillReplicas decodeReplicas).symm
  have addresses :
      (serverAddresses.zip (inferRoles serverAddresses disagg)).map
        Prod.fst = serverAddresses :=
    List.map_fst_zip rolesLength.le
  have pairSplits :
      ∀ pair ∈ serverAddresses.zip (inferRoles serverAddresses disagg),
        Splits pair.1 := by
    intro pair member
    exact splits pair.1 (List.of_mem_zip member).1
  obtain ⟨entries, built⟩ := pdEntries_of_splits label .empty pairSplits
  have lists := pdLists_of_pdEntries built
  refine ⟨entries, ?_, ?_, nodup_names_of_pdEntries built, ?_⟩
  · rw [writePdEndpoints, if_neg hasPath, built]
    rfl
  · rw [← addresses, List.forall₂_map_right_iff]
    refine List.Forall₂.imp ?_ lists
    intro entry pair listed
    exact listed.1
  · intro rank entry found
    obtain ⟨inEntries, entryEq⟩ := List.getElem?_eq_some_iff.mp found
    have inPairs := inEntries
    rw [lists.length_eq] at inPairs
    have inRange : rank < serverAddresses.length := by
      rw [List.length_zip, ← rolesLength, Nat.min_self] at inPairs
      exact inPairs
    have role := getElem?_inferRoles serverAddresses prefillReplicas
      decodeReplicas inRange
    obtain ⟨inRoles, roleEq⟩ := List.getElem?_eq_some_iff.mp role
    have listed := (lists.get inEntries inPairs).2
    rw [List.get_eq_getElem, List.get_eq_getElem, entryEq,
      List.getElem_zip, roleEq] at listed
    rw [listed, get?_role_pdLabels,
      pdEngineReplicaFactory_of_lt (by omega)]
    by_cases early : rank < prefillReplicas
    · simp [early]
    · simp [early]

/-- One prefill and two decode engines. -/
theorem pd_roles_agree_three :
    ∃ entries,
      writePdEndpoints "/tmp/epp-endpoints.yaml" ["a:1", "b:1", "c:1"]
          (inferRoles ["a:1", "b:1", "c:1"] ⟨some 1, some 2⟩) "model" =
        .ok (some entries) ∧
      (entries.map PdEndpoint.name).Nodup := by
  obtain ⟨entries, written, _, nodup, _⟩ :=
    @pd_roles_agree "/tmp/epp-endpoints.yaml" "model" ["a:1", "b:1", "c:1"]
      1 2 (by decide) (by decide) (by decide +kernel)
  exact ⟨entries, written, nodup⟩

end LlmDRl.Registration
