import LlmDRl.EppConfig.Merge

/-!
# One level of a merge

Each value has children: the entries of a map under their keys, the items of
a list of objects under their identities.  `children_merge` says that
`_merge` of two values that merge is `mergeWith` on their children; the two
loops of the source are then one.
-/

namespace LlmDRl.EppConfig

open LlmDRl.Library

variable {κ σ : Type} [DecidableEq κ] {n : Naming κ σ}

/-! ## A value merged with itself -/

theorem mergeItems_self
    {items : List (Tree κ σ)} {index : OrderedDict (Option String) Nat}
    (indexes : Indexes n items index) {rest : List (Tree κ σ)}
    (absorbed : ∀ item ∈ rest, item ∈ items ∧ merge n item item = item) :
    mergeItems n items index rest = items := by
  induction rest with
  | nil =>
      rw [mergeItems]
  | cons item rest inductionHypothesis =>
      obtain ⟨member, idempotent⟩ := absorbed item (List.mem_cons_self ..)
      obtain ⟨position, found⟩ := List.mem_iff_getElem?.mp member
      have indexed : index.get? (identity n item) = some position :=
        (indexes _ _).mpr (by rw [List.getElem?_map, found, Option.map_some])
      obtain ⟨before, after, split, modified⟩ := modify_split found
      have unchanged :
          items.modify position (fun old => merge n old item) = items := by
        rw [modified, idempotent, ← split]
      rw [mergeItems, indexed]
      simp only [unchanged]
      exact inductionHypothesis fun other later =>
        absorbed other (List.mem_cons_of_mem _ later)

theorem merge_self
    {tree : Tree κ σ} (distinct : Distinct n tree) :
    merge n tree tree = tree := by
  induction distinct with
  | scalar value =>
      rw [merge]
  | map keys _ inductionHypothesis =>
      rw [merge_map]
      congr 1
      refine mergeWith_eq_self fun entry member => ?_
      exact ⟨(lookup_eq_some_iff_mem keys entry.1 entry.2).mpr member,
        inductionHypothesis entry member⟩
  | @seq items identities _ inductionHypothesis =>
      by_cases keyed : Keyed n items
      · rw [merge_seq keyed keyed]
        congr 1
        exact mergeItems_self (indexes_indexOf (identities keyed))
          fun item member => ⟨member, inductionHypothesis item member⟩
      · exact merge_of_not_mergeable fun together => keyed together.1

/-! ## A merge keeps the identity both sides share -/

theorem str_merge
    {old new : Tree κ σ} (distinct : Distinct n old)
    (same : n.str old = n.str new) :
    n.str (merge n old new) = n.str new := by
  by_cases together : Mergeable n old new
  · obtain ⟨oldContainer, newContainer⟩ := together.containers
    have equal : old = new := n.spelled old new oldContainer newContainer same
    rw [← equal, merge_self distinct]
  · rw [merge_of_not_mergeable together]

theorem identity_map (entries : List (κ × Tree κ σ)) :
    identity n (.map entries) =
      ((entries.lookup (n.text "name")).map
          fun value => "name" ++ "=" ++ n.str value).or
        ((entries.lookup (n.text "pluginRef")).map
          fun value => "pluginRef" ++ "=" ++ n.str value) := by
  simp only [identity, identityKeys, List.findSome?_cons, List.findSome?_nil]
  cases entries.lookup (n.text "name") with
  | none =>
      cases entries.lookup (n.text "pluginRef") <;> rfl
  | some value =>
      rfl

theorem name_ne_pluginRef (left right : String) :
    "name" ++ "=" ++ left ≠ "pluginRef" ++ "=" ++ right := by
  intro same
  have letters := congrArg String.toList same
  simp at letters

theorem Distinct.of_lookup
    {entries : List (κ × Tree κ σ)} (distinct : Distinct n (.map entries))
    {key : κ} {value : Tree κ σ}
    (found : entries.lookup key = some value) : Distinct n value := by
  cases distinct with
  | map keys values =>
      exact values _ ((lookup_eq_some_iff_mem keys key value).mp found)

theorem exists_map_of_identity
    {item : Tree κ σ} (identified : (identity n item).isSome) :
    ∃ entries, item = .map entries := by
  cases item with
  | map entries => exact ⟨entries, rfl⟩
  | scalar _ => simp [identity] at identified
  | seq _ => simp [identity] at identified

theorem identity_merge
    {old item : Tree κ σ}
    (oldDistinct : Distinct n old) (itemDistinct : Distinct n item)
    (identified : (identity n item).isSome)
    (same : identity n old = identity n item) :
    identity n (merge n old item) = identity n item := by
  obtain ⟨overlay, rfl⟩ := exists_map_of_identity identified
  obtain ⟨base, rfl⟩ := exists_map_of_identity (same ▸ identified)
  rw [merge_map, identity_map, lookup_mergeWith _ _ itemDistinct.keys_nodup,
    lookup_mergeWith _ _ itemDistinct.keys_nodup]
  rw [identity_map, identity_map] at same
  rw [identity_map] at identified ⊢
  cases baseName : base.lookup (n.text "name") with
  | some oldName =>
      have distinct := oldDistinct.of_lookup baseName
      cases overName : overlay.lookup (n.text "name") with
      | some newName =>
          simp only [baseName, overName, Option.map_some, Option.some_or,
            Option.some.injEq, String.append_right_inj] at same
          simp only [Option.merge, Option.map_some, Option.some_or,
            str_merge distinct same]
      | none =>
          cases overRef : overlay.lookup (n.text "pluginRef") with
          | some newRef =>
              simp only [baseName, overName, overRef, Option.map_some,
                Option.map_none, Option.none_or, Option.some_or,
                Option.some.injEq] at same
              exact absurd same (name_ne_pluginRef _ _)
          | none =>
              simp [overName, overRef] at identified
  | none =>
      cases overName : overlay.lookup (n.text "name") with
      | some newName =>
          cases baseRef : base.lookup (n.text "pluginRef") with
          | some oldRef =>
              simp only [baseName, overName, baseRef, Option.map_some,
                Option.map_none, Option.none_or, Option.some_or,
                Option.some.injEq] at same
              exact absurd same.symm (name_ne_pluginRef _ _)
          | none =>
              simp [baseName, baseRef, overName] at same
      | none =>
          cases overRef : overlay.lookup (n.text "pluginRef") with
          | none =>
              simp [overName, overRef] at identified
          | some newRef =>
              cases baseRef : base.lookup (n.text "pluginRef") with
              | none =>
                  simp [baseName, baseRef, overName, overRef] at same
              | some oldRef =>
                  have distinct := oldDistinct.of_lookup baseRef
                  simp only [baseName, overName, baseRef, overRef,
                    Option.map_some, Option.map_none, Option.none_or,
                    Option.some.injEq, String.append_right_inj] at same
                  simp only [Option.merge, Option.map_some, Option.map_none,
                    Option.none_or, str_merge distinct same]

/-! ## Children -/

/-- One step of a path: a key of a map or the identity of a list item. -/
inductive Step (κ : Type) where
  | key (key : κ)
  | item (identity : Option String)
  deriving DecidableEq

/-- The items of a list under their identities. -/
def entriesOf (n : Naming κ σ) (items : List (Tree κ σ)) :
    List (Step κ × Tree κ σ) :=
  items.map fun item => (.item (identity n item), item)

/-- What a value holds and under which step.  A list without identities is
atomic. -/
def children (n : Naming κ σ) : Tree κ σ → List (Step κ × Tree κ σ)
  | .scalar _ => []
  | .map entries => renameKeys .key entries
  | .seq items => if Keyed n items then entriesOf n items else []

def steps (n : Naming κ σ) (tree : Tree κ σ) : List (Step κ) :=
  (children n tree).map Prod.fst

def child (n : Naming κ σ) (tree : Tree κ σ) (step : Step κ) :
    Option (Tree κ σ) :=
  (children n tree).lookup step

omit [DecidableEq κ] in
theorem key_injective : Function.Injective (Step.key : κ → Step κ) :=
  fun _ _ same => Step.key.inj same

theorem map_fst_entriesOf (items : List (Tree κ σ)) :
    (entriesOf n items).map Prod.fst =
      (items.map (identity n)).map Step.item := by
  simp [entriesOf]

theorem mem_of_mem_entriesOf
    {items : List (Tree κ σ)} {entry : Step κ × Tree κ σ}
    (member : entry ∈ entriesOf n items) : entry.2 ∈ items := by
  obtain ⟨item, itemMember, rfl⟩ := List.mem_map.mp member
  exact itemMember

theorem nodup_entriesOf
    {items : List (Tree κ σ)} (nodup : (items.map (identity n)).Nodup) :
    ((entriesOf n items).map Prod.fst).Nodup := by
  rw [map_fst_entriesOf]
  exact nodup.map fun _ _ same => Step.item.inj same

theorem nodup_steps {tree : Tree κ σ} (distinct : Distinct n tree) :
    (steps n tree).Nodup := by
  cases distinct with
  | scalar value =>
      exact List.nodup_nil
  | map keys _ =>
      rw [steps, children, map_fst_renameKeys]
      exact keys.map key_injective
  | seq identities _ =>
      rw [steps, children]
      split
      · next keyed =>
          exact nodup_entriesOf (identities keyed)
      · exact List.nodup_nil

/-! ## The loop over the items -/

section Modify

variable {out : List (Tree κ σ)} {position : Nat} {old : Tree κ σ}
  {f : Tree κ σ → Tree κ σ}

theorem map_identity_modify
    (found : out[position]? = some old)
    (kept : identity n (f old) = identity n old) :
    (out.modify position f).map (identity n) = out.map (identity n) := by
  obtain ⟨before, after, split, modified⟩ := modify_split found
  rw [modified, split]
  simp only [List.map_append, List.map_cons, kept]

/-- Replacing an item by one of the same identity assigns to its key. -/
theorem entriesOf_modify
    (nodup : (out.map (identity n)).Nodup)
    (found : out[position]? = some old)
    (kept : identity n (f old) = identity n old) :
    entriesOf n (out.modify position f) =
      assignEntries (.item (identity n old)) (f old) (entriesOf n out) := by
  obtain ⟨before, after, split, modified⟩ := modify_split found
  have absent : ∀ entry ∈ entriesOf n before,
      entry.1 ≠ Step.item (identity n old) := by
    rintro _ member equal
    obtain ⟨other, otherMember, rfl⟩ := List.mem_map.mp member
    rw [split, List.map_append, List.map_cons] at nodup
    exact (List.nodup_append.mp nodup).2.2 _
      (List.mem_map_of_mem otherMember) _ (List.mem_cons_self ..)
      (Step.item.inj equal)
  have outEntries :
      entriesOf n out =
        entriesOf n before ++
          (.item (identity n old), old) :: entriesOf n after := by
    rw [split]
    simp [entriesOf]
  rw [modified, outEntries, assignEntries_split _ _ _ absent]
  simp [entriesOf, kept]

omit [DecidableEq κ] in
theorem mem_or_eq_of_mem_modify
    (found : out[position]? = some old) {item : Tree κ σ}
    (member : item ∈ out.modify position f) : item ∈ out ∨ item = f old := by
  obtain ⟨before, after, split, modified⟩ := modify_split found
  rw [modified, List.mem_append, List.mem_cons] at member
  rw [split, List.mem_append, List.mem_cons]
  tauto

end Modify

/-- With an index of where each identity stands, the loop of `_merge` is a
merge by identity. -/
theorem entriesOf_mergeItems
    {out : List (Tree κ σ)} {index : OrderedDict (Option String) Nat}
    (indexes : Indexes n out index)
    (outNodup : (out.map (identity n)).Nodup)
    {overlay : List (Tree κ σ)}
    (overNodup : (overlay.map (identity n)).Nodup)
    (kept : ∀ old ∈ out, ∀ item ∈ overlay,
      identity n old = identity n item →
        identity n (merge n old item) = identity n item) :
    entriesOf n (mergeItems n out index overlay) =
      mergeWith (merge n) (entriesOf n out) (entriesOf n overlay) := by
  induction overlay generalizing out index with
  | nil =>
      rw [mergeItems]
      rfl
  | cons item rest inductionHypothesis =>
      have nodupCons := List.nodup_cons.mp overNodup
      have notLater : ∀ later ∈ rest, identity n item ≠ identity n later := by
        intro later member same
        exact nodupCons.1 (List.mem_map.mpr ⟨later, member, same.symm⟩)
      change _ = mergeWith (merge n) (entriesOf n out)
        ((.item (identity n item), item) :: entriesOf n rest)
      cases found : index.get? (identity n item) with
      | none =>
          have isNew := indexes.not_mem found
          have absent :
              Step.item (identity n item) ∉
                (entriesOf n out).map Prod.fst := by
            rw [map_fst_entriesOf]
            simpa using isNew
          have grown : ((out ++ [item]).map (identity n)).Nodup := by
            rw [List.map_append, List.map_singleton]
            exact List.nodup_append.mpr
              ⟨outNodup, List.nodup_singleton _, by
                rintro first firstMember second secondMember rfl
                exact isNew
                  (List.mem_singleton.mp secondMember ▸ firstMember)⟩
          have keptLater : ∀ old ∈ out ++ [item], ∀ later ∈ rest,
              identity n old = identity n later →
                identity n (merge n old later) = identity n later := by
            intro old oldMember later laterMember same
            rcases List.mem_append.mp oldMember with before | last
            · exact kept old before later
                (List.mem_cons_of_mem _ laterMember) same
            · cases List.mem_singleton.mp last
              exact absurd same (notLater later laterMember)
          rw [mergeItems, found, mergeWith,
            (lookup_eq_none_iff_not_mem _ _).mpr absent]
          simp only [assignEntries_of_not_mem item absent]
          rw [inductionHypothesis (indexes.append isNew) grown nodupCons.2
            keptLater]
          simp [entriesOf]
      | some position =>
          have indexed := (indexes _ _).mp found
          rw [List.getElem?_map] at indexed
          obtain ⟨old, oldFound, same⟩ := Option.map_eq_some_iff.mp indexed
          have oldMember : old ∈ out := List.mem_of_getElem? oldFound
          have identityKept :
              identity n (merge n old item) = identity n item :=
            kept old oldMember item (List.mem_cons_self ..) same
          have identitiesEq := map_identity_modify
            (f := fun old => merge n old item) oldFound
            (identityKept.trans same.symm)
          have looked :
              (entriesOf n out).lookup (.item (identity n item)) =
                some old := by
            rw [lookup_eq_some_iff_mem (nodup_entriesOf outNodup)]
            exact List.mem_map.mpr ⟨old, oldMember, by rw [same]⟩
          have keptLater :
              ∀ other ∈ out.modify position fun old => merge n old item,
                ∀ later ∈ rest, identity n other = identity n later →
                  identity n (merge n other later) = identity n later := by
            intro other otherMember later laterMember equal
            rcases mem_or_eq_of_mem_modify oldFound otherMember with
              before | rfl
            · exact kept other before later
                (List.mem_cons_of_mem _ laterMember) equal
            · exact absurd (identityKept.symm.trans equal)
                (notLater later laterMember)
          rw [mergeItems, found, mergeWith, looked]
          simp only
          rw [inductionHypothesis
              (fun key place => by rw [indexes key place, identitiesEq])
              (by rwa [identitiesEq]) nodupCons.2 keptLater,
            entriesOf_modify outNodup oldFound
              (identityKept.trans same.symm), same]

/-! ## One level at a time -/

theorem keyed_iff_steps (items : List (Tree κ σ)) :
    Keyed n items ↔
      items ≠ [] ∧ Step.item none ∉ (entriesOf n items).map Prod.fst := by
  rw [map_fst_entriesOf, Keyed]
  refine and_congr_right fun _ => ?_
  simp only [List.mem_map, Step.item.injEq, exists_eq_right, not_exists,
    not_and]
  refine forall₂_congr fun item _ => ?_
  rw [Option.isSome_iff_ne_none]

theorem Distinct.item
    {items : List (Tree κ σ)} (distinct : Distinct n (.seq items)) :
    ∀ item ∈ items, Distinct n item := by
  cases distinct with
  | seq _ values => exact values

/-- What the loop over two lists with identities leaves. -/
theorem mergeItems_keyed
    {base overlay : List (Tree κ σ)}
    (baseDistinct : Distinct n (.seq base))
    (overDistinct : Distinct n (.seq overlay))
    (baseKeyed : Keyed n base) (overKeyed : Keyed n overlay) :
    entriesOf n (mergeItems n base (indexOf n base) overlay) =
        mergeWith (merge n) (entriesOf n base) (entriesOf n overlay) ∧
      Keyed n (mergeItems n base (indexOf n base) overlay) := by
  have baseNodup := baseDistinct.identities_nodup baseKeyed
  have overNodup := overDistinct.identities_nodup overKeyed
  have entriesEq := entriesOf_mergeItems (indexes_indexOf baseNodup)
    baseNodup overNodup fun old oldMember item itemMember same =>
      identity_merge (baseDistinct.item old oldMember)
        (overDistinct.item item itemMember)
        (overKeyed.2 item itemMember) same
  have stepsEq := congrArg (List.map Prod.fst) entriesEq
  rw [map_fst_mergeWith _ _ (nodup_entriesOf overNodup)] at stepsEq
  refine ⟨entriesEq, (keyed_iff_steps _).mpr ⟨?_, ?_⟩⟩
  · intro noItem
    rw [noItem] at stepsEq
    have noBase : (entriesOf n base).map Prod.fst = [] :=
      (List.append_eq_nil_iff.mp stepsEq.symm).1
    exact baseKeyed.1 (by simpa [entriesOf] using noBase)
  · rw [stepsEq, List.mem_append, List.mem_filter]
    intro present
    rcases present with inBase | ⟨inOver, _⟩
    · exact ((keyed_iff_steps base).mp baseKeyed).2 inBase
    · exact ((keyed_iff_steps overlay).mp overKeyed).2 inOver

/-- The children of two values that merge are merged step by step. -/
theorem children_merge
    {base overlay : Tree κ σ} (together : Mergeable n base overlay)
    (baseDistinct : Distinct n base) (overDistinct : Distinct n overlay) :
    children n (merge n base overlay) =
      mergeWith (merge n) (children n base) (children n overlay) := by
  unfold Mergeable at together
  split at together
  · rw [merge_map, children, children, children,
      mergeWith_renameKeys key_injective]
  · next below above =>
      obtain ⟨entriesEq, keyed⟩ := mergeItems_keyed baseDistinct overDistinct
        together.1 together.2
      rw [merge_seq together.1 together.2, children, children, children,
        if_pos keyed, if_pos together.1, if_pos together.2, entriesEq]
  · exact together.elim

/-- Identities stay distinct at every level. -/
theorem Distinct.merge
    {base overlay : Tree κ σ}
    (baseDistinct : Distinct n base) (overDistinct : Distinct n overlay) :
    Distinct n (EppConfig.merge n base overlay) := by
  induction overDistinct generalizing base with
  | scalar value =>
      rw [EppConfig.merge]
      exact .scalar value
  | @map entries keys values inductionHypothesis =>
      by_cases together : Mergeable n base (.map entries)
      · cases base with
        | scalar _ => exact together.elim
        | seq _ => exact together.elim
        | map below =>
            have belowKeys := baseDistinct.keys_nodup
            rw [merge_map]
            refine .map (nodup_mergeWith _ belowKeys keys) ?_
            intro entry member
            have belowDistinct :
                ∀ entry ∈ below, Distinct n entry.2 := by
              cases baseDistinct with
              | map _ values => exact values
            rcases of_mem_mergeWith belowKeys keys member with
              inBase | inOver | ⟨old, new, inBase, inOver, valueEq⟩
            · exact belowDistinct entry inBase
            · exact values entry inOver
            · rw [valueEq]
              exact inductionHypothesis _ inOver (belowDistinct _ inBase)
      · rw [merge_of_not_mergeable together]
        exact .map keys values
  | @seq items identities values inductionHypothesis =>
      by_cases together : Mergeable n base (.seq items)
      · cases base with
        | scalar _ => exact together.elim
        | map _ => exact together.elim
        | seq below =>
            obtain ⟨belowKeyed, keyed⟩ := together
            have belowNodup := baseDistinct.identities_nodup belowKeyed
            have overNodup := identities keyed
            obtain ⟨entriesEq, _⟩ := mergeItems_keyed baseDistinct
              (.seq identities values) belowKeyed keyed
            rw [merge_seq belowKeyed keyed]
            refine .seq (fun _ => ?_) ?_
            · have stepsNodup := nodup_mergeWith (EppConfig.merge n)
                (nodup_entriesOf belowNodup) (nodup_entriesOf overNodup)
              rw [← entriesEq, map_fst_entriesOf] at stepsNodup
              exact stepsNodup.of_map _
            · intro item member
              have entryMember :
                  (Step.item (identity n item), item) ∈
                    mergeWith (EppConfig.merge n) (entriesOf n below)
                      (entriesOf n items) := by
                rw [← entriesEq]
                exact List.mem_map.mpr ⟨item, member, rfl⟩
              rcases of_mem_mergeWith (nodup_entriesOf belowNodup)
                  (nodup_entriesOf overNodup) entryMember with
                inBase | inOver | ⟨old, new, inBase, inOver, valueEq⟩
              · exact baseDistinct.item item (mem_of_mem_entriesOf inBase)
              · exact values item (mem_of_mem_entriesOf inOver)
              · rw [show item = EppConfig.merge n old new from valueEq]
                exact inductionHypothesis new (mem_of_mem_entriesOf inOver)
                  (baseDistinct.item old (mem_of_mem_entriesOf inBase))
      · rw [merge_of_not_mergeable together]
        exact .seq identities values

end LlmDRl.EppConfig
