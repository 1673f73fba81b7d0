import LlmDRl.Library.OrderedDict

/-!
# Merging association lists

`mergeWith f out overlay` assigns every entry of `overlay` to `out`, in order,
and combines the values of a key that both have.  Looked up, the result is the
pointwise `Option.merge`; listed, its keys are those of `out` and then the
new ones of `overlay`.
-/

namespace LlmDRl.Library

universe u v w

variable {κ : Type u} {ν : Type v} [DecidableEq κ]

/-- `for k, v in overlay: out[k] = f(out[k], v) if k in out else v` -/
def mergeWith (f : ν → ν → ν) (out : List (κ × ν)) :
    List (κ × ν) → List (κ × ν)
  | [] => out
  | (key, value) :: rest =>
      mergeWith f
        (assignEntries key
          (match out.lookup key with
            | some old => f old value
            | none => value) out)
        rest

theorem lookup_mergeWith
    (f : ν → ν → ν) (out : List (κ × ν)) {overlay : List (κ × ν)}
    (nodup : (overlay.map Prod.fst).Nodup) (probe : κ) :
    (mergeWith f out overlay).lookup probe =
      Option.merge f (out.lookup probe) (overlay.lookup probe) := by
  induction overlay generalizing out with
  | nil =>
      cases found : out.lookup probe <;> simp [mergeWith, found]
  | cons head rest inductionHypothesis =>
      obtain ⟨key, value⟩ := head
      have nodupCons := List.nodup_cons.mp nodup
      rw [mergeWith, inductionHypothesis _ nodupCons.2,
        lookup_assignEntries, lookup_cons_eq_ite]
      by_cases probed : probe = key
      · subst probe
        have restNone : rest.lookup key = none :=
          (lookup_eq_none_iff_not_mem rest key).mpr nodupCons.1
        cases found : out.lookup key <;> simp [restNone]
      · simp only [if_neg probed]

theorem map_fst_mergeWith
    (f : ν → ν → ν) (out : List (κ × ν)) {overlay : List (κ × ν)}
    (nodup : (overlay.map Prod.fst).Nodup) :
    (mergeWith f out overlay).map Prod.fst =
      out.map Prod.fst ++
        (overlay.map Prod.fst).filter (· ∉ out.map Prod.fst) := by
  induction overlay generalizing out with
  | nil =>
      simp [mergeWith]
  | cons head rest inductionHypothesis =>
      obtain ⟨key, value⟩ := head
      have nodupCons := List.nodup_cons.mp nodup
      rw [mergeWith, inductionHypothesis _ nodupCons.2,
        map_fst_assignEntries, List.map_cons]
      by_cases present : key ∈ out.map Prod.fst
      · rw [if_pos present, List.filter_cons_of_neg (by simpa using present)]
      · have later :
            (rest.map Prod.fst).filter
                (· ∉ out.map Prod.fst ++ [key]) =
              (rest.map Prod.fst).filter (· ∉ out.map Prod.fst) := by
          apply List.filter_congr
          intro other member
          have different : other ≠ key := by
            intro same
            subst same
            exact nodupCons.1 member
          simp [different]
        rw [if_neg present, later,
          List.filter_cons_of_pos (by simpa using present),
          List.append_assoc, List.singleton_append]

theorem nodup_mergeWith
    (f : ν → ν → ν) {out overlay : List (κ × ν)}
    (outNodup : (out.map Prod.fst).Nodup)
    (overNodup : (overlay.map Prod.fst).Nodup) :
    ((mergeWith f out overlay).map Prod.fst).Nodup := by
  rw [map_fst_mergeWith f out overNodup]
  refine List.nodup_append.mpr ⟨outNodup, overNodup.filter _, ?_⟩
  rintro first firstMember second secondMember rfl
  have isNew := (List.mem_filter.mp secondMember).2
  exact absurd firstMember (by simpa using isNew)

/-- Every entry of the result is one of `out`, one of `overlay`, or combines
one of each. -/
theorem of_mem_mergeWith
    {f : ν → ν → ν} {out overlay : List (κ × ν)}
    (outNodup : (out.map Prod.fst).Nodup)
    (overNodup : (overlay.map Prod.fst).Nodup)
    {entry : κ × ν} (member : entry ∈ mergeWith f out overlay) :
    entry ∈ out ∨ entry ∈ overlay ∨
      ∃ old new, (entry.1, old) ∈ out ∧ (entry.1, new) ∈ overlay ∧
        entry.2 = f old new := by
  obtain ⟨key, value⟩ := entry
  have found := (lookup_eq_some_iff_mem
    (nodup_mergeWith f outNodup overNodup) key value).mpr member
  rw [lookup_mergeWith f out overNodup] at found
  cases inOut : out.lookup key with
  | none =>
      rw [inOut, Option.merge_none_left] at found
      exact Or.inr (Or.inl
        ((lookup_eq_some_iff_mem overNodup key value).mp found))
  | some old =>
      have oldMember := (lookup_eq_some_iff_mem outNodup key old).mp inOut
      cases inOver : overlay.lookup key with
      | none =>
          rw [inOut, inOver, Option.merge_none_right] at found
          cases found
          exact Or.inl oldMember
      | some new =>
          rw [inOut, inOver] at found
          cases found
          exact Or.inr (Or.inr ⟨old, new, oldMember,
            (lookup_eq_some_iff_mem overNodup key new).mp inOver, rfl⟩)

/-- Assigning the value that is there changes nothing. -/
theorem assignEntries_lookup
    {key : κ} {value : ν} {entries : List (κ × ν)}
    (found : entries.lookup key = some value) :
    assignEntries key value entries = entries := by
  induction entries with
  | nil =>
      cases found
  | cons head rest inductionHypothesis =>
      obtain ⟨first, old⟩ := head
      rw [lookup_cons_eq_ite] at found
      by_cases same : key = first
      · rw [if_pos same] at found
        cases found
        simp [assignEntries, same]
      · rw [if_neg same] at found
        simp only [assignEntries, if_neg (Ne.symm same),
          inductionHypothesis found]

/-- Entries that combine to what is there already leave it as it is. -/
theorem mergeWith_eq_self
    {f : ν → ν → ν} {out overlay : List (κ × ν)}
    (absorbed : ∀ entry ∈ overlay,
      out.lookup entry.1 = some entry.2 ∧ f entry.2 entry.2 = entry.2) :
    mergeWith f out overlay = out := by
  induction overlay with
  | nil =>
      rfl
  | cons head rest inductionHypothesis =>
      obtain ⟨key, value⟩ := head
      obtain ⟨found, idempotent⟩ := absorbed _ (List.mem_cons_self ..)
      simp only at found idempotent
      rw [mergeWith, found]
      simp only [idempotent, assignEntries_lookup found]
      exact inductionHypothesis fun entry member =>
        absorbed entry (List.mem_cons_of_mem _ member)

/-! ## Merging twice -/

/-- Entries with distinct keys are given by the keys in order and the lookup. -/
theorem eq_of_lookup
    {left right : List (κ × ν)} (nodup : (left.map Prod.fst).Nodup)
    (keys : left.map Prod.fst = right.map Prod.fst)
    (same : ∀ key, left.lookup key = right.lookup key) :
    left = right := by
  induction left generalizing right with
  | nil =>
      exact (List.map_eq_nil_iff.mp keys.symm).symm
  | cons head rest inductionHypothesis =>
      cases right with
      | nil =>
          cases keys
      | cons other others =>
          obtain ⟨key, value⟩ := head
          obtain ⟨otherKey, otherValue⟩ := other
          obtain ⟨rfl, keysEq⟩ := List.cons.inj keys
          have nodupCons := List.nodup_cons.mp nodup
          have valueEq : value = otherValue := by
            have here := same key
            rw [lookup_cons_eq_ite, lookup_cons_eq_ite, if_pos rfl,
              if_pos rfl] at here
            exact Option.some.inj here
          have absent : ∀ entries : List (κ × ν),
              entries.map Prod.fst = rest.map Prod.fst →
                entries.lookup key = none := by
            intro entries equal
            rw [lookup_eq_none_iff_not_mem, equal]
            exact nodupCons.1
          have restEq : rest = others := by
            refine inductionHypothesis nodupCons.2 keysEq ?_
            intro probe
            by_cases probed : probe = key
            · rw [probed, absent rest rfl, absent others keysEq.symm]
            · have there := same probe
              rw [lookup_cons_eq_ite, lookup_cons_eq_ite, if_neg probed,
                if_neg probed] at there
              exact there
          rw [valueEq, restEq]

theorem mergeWith_nil_left
    (f : ν → ν → ν) {overlay : List (κ × ν)}
    (nodup : (overlay.map Prod.fst).Nodup) :
    mergeWith f [] overlay = overlay := by
  refine eq_of_lookup (nodup_mergeWith f List.nodup_nil nodup) ?_ ?_
  · rw [map_fst_mergeWith f [] nodup]
    simp
  · intro key
    rw [lookup_mergeWith f [] nodup, List.lookup_nil,
      Option.merge_none_left]

/-- Merging is associative if combining the values is, where all three sides
have one. -/
theorem mergeWith_assoc
    {f : ν → ν → ν} {first second third : List (κ × ν)}
    (firstNodup : (first.map Prod.fst).Nodup)
    (secondNodup : (second.map Prod.fst).Nodup)
    (thirdNodup : (third.map Prod.fst).Nodup)
    (assoc : ∀ key one two three, first.lookup key = some one →
      second.lookup key = some two → third.lookup key = some three →
        f (f one two) three = f one (f two three)) :
    mergeWith f (mergeWith f first second) third =
      mergeWith f first (mergeWith f second third) := by
  have laterNodup := nodup_mergeWith f secondNodup thirdNodup
  have earlierNodup := nodup_mergeWith f firstNodup secondNodup
  refine eq_of_lookup (nodup_mergeWith f earlierNodup thirdNodup) ?_ ?_
  · rw [map_fst_mergeWith f _ thirdNodup, map_fst_mergeWith f _ secondNodup,
      map_fst_mergeWith f _ laterNodup, map_fst_mergeWith f _ thirdNodup,
      List.filter_append, List.append_assoc, List.filter_filter]
    congr 2
    apply List.filter_congr
    intro key member
    by_cases inFirst : key ∈ first.map Prod.fst <;> simp [inFirst]
  · intro key
    rw [lookup_mergeWith f _ thirdNodup, lookup_mergeWith f _ secondNodup,
      lookup_mergeWith f _ laterNodup, lookup_mergeWith f _ thirdNodup]
    cases one : first.lookup key with
    | none =>
        simp only [Option.merge_none_left]
    | some firstValue =>
        cases two : second.lookup key with
        | none =>
            simp only [Option.merge_none_left, Option.merge_none_right]
        | some secondValue =>
            cases three : third.lookup key with
            | none =>
                simp only [Option.merge_none_right]
            | some thirdValue =>
                exact congrArg some
                  (assoc key firstValue secondValue thirdValue one two three)

/-! ## Renaming the keys -/

section Rename

variable {μ : Type w} [DecidableEq μ]

/-- The entries under renamed keys. -/
def renameKeys (g : κ → μ) (entries : List (κ × ν)) : List (μ × ν) :=
  entries.map fun entry => (g entry.1, entry.2)

omit [DecidableEq κ] [DecidableEq μ] in
theorem map_fst_renameKeys (g : κ → μ) (entries : List (κ × ν)) :
    (renameKeys g entries).map Prod.fst = (entries.map Prod.fst).map g := by
  simp [renameKeys]

variable {g : κ → μ} (injective : Function.Injective g)

omit [DecidableEq κ] [DecidableEq μ] in
include injective in
theorem renameKeys_injective :
    Function.Injective
      (renameKeys g : List (κ × ν) → List (μ × ν)) := by
  refine List.map_injective_iff.mpr ?_
  rintro ⟨key, value⟩ ⟨other, otherValue⟩ same
  obtain ⟨keys, values⟩ := Prod.mk.inj same
  exact Prod.ext (injective keys) values

include injective in
theorem lookup_renameKeys (entries : List (κ × ν)) (key : κ) :
    (renameKeys g entries).lookup (g key) = entries.lookup key := by
  induction entries with
  | nil =>
      rfl
  | cons head rest inductionHypothesis =>
      obtain ⟨found, old⟩ := head
      change ((g found, old) :: renameKeys g rest).lookup (g key) = _
      rw [lookup_cons_eq_ite, lookup_cons_eq_ite, inductionHypothesis]
      simp only [injective.eq_iff]

include injective in
theorem assignEntries_renameKeys
    (entries : List (κ × ν)) (key : κ) (value : ν) :
    assignEntries (g key) value (renameKeys g entries) =
      renameKeys g (assignEntries key value entries) := by
  induction entries with
  | nil =>
      rfl
  | cons head rest inductionHypothesis =>
      obtain ⟨found, old⟩ := head
      change assignEntries _ _ ((g found, old) :: renameKeys g rest) = _
      by_cases same : found = key
      · simp [assignEntries, same, renameKeys]
      · have renamed : ¬ g found = g key := fun equal =>
          same (injective equal)
        simp only [assignEntries, if_neg same, if_neg renamed,
          inductionHypothesis]
        rfl

include injective in
theorem mergeWith_renameKeys
    (f : ν → ν → ν) (out overlay : List (κ × ν)) :
    mergeWith f (renameKeys g out) (renameKeys g overlay) =
      renameKeys g (mergeWith f out overlay) := by
  induction overlay generalizing out with
  | nil =>
      rfl
  | cons head rest inductionHypothesis =>
      obtain ⟨key, value⟩ := head
      change mergeWith f (renameKeys g out)
        ((g key, value) :: renameKeys g rest) = _
      rw [mergeWith, lookup_renameKeys injective,
        assignEntries_renameKeys injective, inductionHypothesis, mergeWith]

end Rename

end LlmDRl.Library
