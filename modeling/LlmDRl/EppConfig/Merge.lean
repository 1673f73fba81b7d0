import LlmDRl.Library.MergeEntries
import Mathlib.Data.List.Induction
import Mathlib.Data.List.Nodup

/-!
# Merging two layers of an EPP config

`_identity` and `_merge` of `epp_config.py` over the trees that
`yaml.safe_load` returns.  The keys of a map are kept in order, as a `dict`
keeps them; that they are distinct is part of `Distinct`.
-/

namespace LlmDRl.EppConfig

open LlmDRl.Library

inductive Tree (κ σ : Type) where
  | scalar (value : σ)
  | map (entries : List (κ × Tree κ σ))
  | seq (items : List (Tree κ σ))

namespace Tree

variable {κ σ : Type}

def IsContainer : Tree κ σ → Prop
  | .scalar _ => False
  | .map _ => True
  | .seq _ => True

end Tree

/-- How strings and values meet: the key under which a `dict` holds a string,
and Python's `str`.  The text of a container spells out what is in it. -/
structure Naming (κ σ : Type) where
  text : String → κ
  str : Tree κ σ → String
  spelled : ∀ left right : Tree κ σ,
    left.IsContainer → right.IsContainer → str left = str right →
      left = right

section Source

variable {κ σ : Type} [DecidableEq κ] (n : Naming κ σ)

/-- `_IDENTITY_KEYS` -/
def identityKeys : List String := ["name", "pluginRef"]

/-- The key an object in a list is merged on, or none if it has none. -/
def identity : Tree κ σ → Option String
  | .map entries =>
      identityKeys.findSome? fun k =>
        (entries.lookup (n.text k)).map fun value => k ++ "=" ++ n.str value
  | _ => none

/-- `{_identity(i): n for n, i in enumerate(out)}` -/
def indexOf (out : List (Tree κ σ)) : OrderedDict (Option String) Nat :=
  out.zipIdx.foldl
    (fun index item => index.insert (identity n item.1) item.2) .empty

mutual

/-- `_merge(base, over)` -/
def merge (base : Tree κ σ) : Tree κ σ → Tree κ σ
  | .scalar value => .scalar value
  | .map overlay =>
      match base with
      | .map entries => .map (mergeEntries entries overlay)
      | _ => .map overlay
  | .seq overlay =>
      match base with
      | .seq items =>
          if !items.isEmpty && !overlay.isEmpty &&
              (items ++ overlay).all fun item => (identity n item).isSome then
            .seq (mergeItems items (indexOf n items) overlay)
          else
            .seq overlay
      | _ => .seq overlay

/-- `for k, v in over.items(): out[k] = _merge(out[k], v) if k in out else v` -/
def mergeEntries (out : List (κ × Tree κ σ)) :
    List (κ × Tree κ σ) → List (κ × Tree κ σ)
  | [] => out
  | (k, v) :: rest =>
      mergeEntries
        (assignEntries k
          (match out.lookup k with
            | some old => merge old v
            | none => v) out)
        rest

/-- `for item in over: …`, with the index of where each identity stands in
`out`. -/
def mergeItems (out : List (Tree κ σ))
    (index : OrderedDict (Option String) Nat) :
    List (Tree κ σ) → List (Tree κ σ)
  | [] => out
  | item :: rest =>
      match index.get? (identity n item) with
      | some position =>
          mergeItems (out.modify position fun old => merge old item) index rest
      | none =>
          mergeItems (out ++ [item])
            (index.insert (identity n item) out.length) rest

end

end Source

/-! ## The shapes that merge -/

section Shapes

variable {κ σ : Type} [DecidableEq κ] (n : Naming κ σ)

/-- A list of objects that all carry an identity key. -/
def Keyed (items : List (Tree κ σ)) : Prop :=
  items ≠ [] ∧ ∀ item ∈ items, (identity n item).isSome

instance (items : List (Tree κ σ)) : Decidable (Keyed n items) := by
  unfold Keyed
  infer_instance

/-- Two maps, or two lists of objects with identities. -/
def Mergeable : Tree κ σ → Tree κ σ → Prop
  | .map _, .map _ => True
  | .seq base, .seq overlay => Keyed n base ∧ Keyed n overlay
  | _, _ => False

instance (base overlay : Tree κ σ) : Decidable (Mergeable n base overlay) := by
  unfold Mergeable
  split <;> infer_instance

variable {n}

theorem both_keyed_iff (base overlay : List (Tree κ σ)) :
    (!base.isEmpty && !overlay.isEmpty &&
        (base ++ overlay).all fun item => (identity n item).isSome) = true ↔
      Keyed n base ∧ Keyed n overlay := by
  simp only [Bool.and_eq_true, Bool.not_eq_true', List.isEmpty_eq_false_iff,
    List.all_append, List.all_eq_true, Keyed, ne_eq]
  tauto

theorem merge_map (base overlay : List (κ × Tree κ σ)) :
    merge n (.map base) (.map overlay) =
      .map (mergeWith (merge n) base overlay) := by
  have same : ∀ out,
      mergeEntries n out overlay = mergeWith (merge n) out overlay := by
    induction overlay with
    | nil =>
        intro out
        rw [mergeEntries, mergeWith]
    | cons head rest inductionHypothesis =>
        intro out
        rw [mergeEntries, mergeWith, inductionHypothesis]
        cases out.lookup head.1 <;> rfl
  rw [merge, same]

theorem merge_seq
    {base overlay : List (Tree κ σ)}
    (baseKeyed : Keyed n base) (overKeyed : Keyed n overlay) :
    merge n (.seq base) (.seq overlay) =
      .seq (mergeItems n base (indexOf n base) overlay) := by
  simp only [merge,
    if_pos ((both_keyed_iff base overlay).mpr ⟨baseKeyed, overKeyed⟩)]

/-- A scalar, a change of type or a list without identities replaces what it
is laid over. -/
theorem merge_of_not_mergeable
    {base overlay : Tree κ σ} (apart : ¬ Mergeable n base overlay) :
    merge n base overlay = overlay := by
  cases overlay with
  | scalar value =>
      rw [merge]
  | map entries =>
      cases base with
      | map _ => exact absurd trivial apart
      | scalar _ => rw [merge]; simp
      | seq _ => rw [merge]; simp
  | seq items =>
      cases base with
      | map _ => rw [merge]; simp
      | scalar _ => rw [merge]; simp
      | seq below =>
          have notBoth : ¬ (Keyed n below ∧ Keyed n items) := apart
          simp only [merge,
            if_neg (fun both => notBoth ((both_keyed_iff below items).mp both))]

theorem Mergeable.containers
    {base overlay : Tree κ σ} (together : Mergeable n base overlay) :
    base.IsContainer ∧ overlay.IsContainer := by
  unfold Mergeable at together
  split at together
  · exact ⟨trivial, trivial⟩
  · exact ⟨trivial, trivial⟩
  · exact together.elim

end Shapes

/-! ## Distinct identities at every level -/

section Distinct

variable {κ σ : Type} [DecidableEq κ]

/-- The keys of every map and the identities of every list of objects with
identities are pairwise distinct. -/
inductive Distinct (n : Naming κ σ) : Tree κ σ → Prop
  | scalar (value : σ) : Distinct n (.scalar value)
  | map {entries : List (κ × Tree κ σ)}
      (keys : (entries.map Prod.fst).Nodup)
      (values : ∀ entry ∈ entries, Distinct n entry.2) :
      Distinct n (.map entries)
  | seq {items : List (Tree κ σ)}
      (identities : Keyed n items → (items.map (identity n)).Nodup)
      (values : ∀ item ∈ items, Distinct n item) :
      Distinct n (.seq items)

variable {n : Naming κ σ}

theorem Distinct.keys_nodup
    {entries : List (κ × Tree κ σ)} (distinct : Distinct n (.map entries)) :
    (entries.map Prod.fst).Nodup := by
  cases distinct with
  | map keys _ => exact keys

theorem Distinct.identities_nodup
    {items : List (Tree κ σ)} (distinct : Distinct n (.seq items))
    (keyed : Keyed n items) : (items.map (identity n)).Nodup := by
  cases distinct with
  | seq identities _ => exact identities keyed

end Distinct

/-! ## The index of a list -/

/-- `out[position] = f(out[position])`, seen around the position. -/
theorem modify_split
    {α : Type} {items : List α} {position : Nat} {old : α}
    (found : items[position]? = some old) :
    ∃ before after,
      items = before ++ old :: after ∧
      ∀ f, items.modify position f = before ++ f old :: after := by
  induction items generalizing position with
  | nil =>
      simp at found
  | cons head rest inductionHypothesis =>
      cases position with
      | zero =>
          cases found
          exact ⟨[], rest, rfl, fun f => rfl⟩
      | succ position =>
          obtain ⟨before, after, split, modified⟩ :=
            inductionHypothesis found
          refine ⟨head :: before, after, by rw [split]; rfl, fun f => ?_⟩
          rw [List.modify_succ_cons, modified, List.cons_append]

section Index

variable {κ σ : Type} [DecidableEq κ] (n : Naming κ σ)

/-- The index holds where each identity stands. -/
def Indexes
    (out : List (Tree κ σ)) (index : OrderedDict (Option String) Nat) :
    Prop :=
  ∀ key position,
    index.get? key = some position ↔
      (out.map (identity n))[position]? = some key

variable {n}

theorem indexes_empty : Indexes n ([] : List (Tree κ σ)) .empty := by
  intro key position
  simp

theorem Indexes.not_mem
    {out : List (Tree κ σ)} {index : OrderedDict (Option String) Nat}
    (indexes : Indexes n out index) {key : Option String}
    (absent : index.get? key = none) : key ∉ out.map (identity n) := by
  intro member
  obtain ⟨position, found⟩ := List.mem_iff_getElem?.mp member
  have present := (indexes key position).mpr found
  rw [absent] at present
  cases present

theorem Indexes.append
    {out : List (Tree κ σ)} {index : OrderedDict (Option String) Nat}
    (indexes : Indexes n out index) {item : Tree κ σ}
    (isNew : identity n item ∉ out.map (identity n)) :
    Indexes n (out ++ [item])
      (index.insert (identity n item) out.length) := by
  intro key position
  rw [OrderedDict.get?_insert, List.map_append, List.map_singleton,
    List.getElem?_append, List.length_map]
  by_cases same : key = identity n item
  · subst key
    rw [if_pos rfl]
    split
    · next inside =>
        have notThere :
            (out.map (identity n))[position]? ≠ some (identity n item) :=
          fun found => isNew (List.mem_of_getElem? found)
        simp only [notThere, iff_false, Option.some.injEq]
        omega
    · next outside =>
        simp only [List.getElem?_singleton, Option.some.injEq]
        constructor
        · intro same
          subst same
          simp
        · intro found
          by_contra apart
          have later : position - out.length ≠ 0 := by omega
          simp [later] at found
  · rw [if_neg same, indexes key position]
    split
    · rfl
    · next outside =>
        have beyond : (out.map (identity n))[position]? = none :=
          List.getElem?_eq_none (by simpa using outside)
        simp only [beyond, List.getElem?_singleton]
        split <;> simp [Ne.symm same]

theorem indexOf_append_singleton (out : List (Tree κ σ)) (item : Tree κ σ) :
    indexOf n (out ++ [item]) =
      (indexOf n out).insert (identity n item) out.length := by
  simp [indexOf, List.zipIdx_append, List.foldl_append]

/-- `index = {_identity(i): n for n, i in enumerate(out)}` -/
theorem indexes_indexOf
    {out : List (Tree κ σ)} (nodup : (out.map (identity n)).Nodup) :
    Indexes n out (indexOf n out) := by
  induction out using List.reverseRecOn with
  | nil =>
      exact indexes_empty
  | append_singleton out item inductionHypothesis =>
      rw [List.map_append, List.map_singleton] at nodup
      have parts := List.nodup_append.mp nodup
      rw [indexOf_append_singleton]
      refine (inductionHypothesis parts.1).append ?_
      intro member
      exact parts.2.2 _ member _ (List.mem_singleton_self _) rfl

end Index

end LlmDRl.EppConfig
