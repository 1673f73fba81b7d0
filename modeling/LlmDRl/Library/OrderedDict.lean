import Mathlib.Data.List.Nodup
import Mathlib.Data.List.Perm.Basic
import Mathlib.Algebra.Order.BigOperators.Group.List

/-!
# Insertion-ordered dictionaries

A dictionary with the iteration order of Python's `dict`: assigning to a
present key keeps its position, assigning to a new key appends it, and every
key occurs once.  The last fact is a field of the structure, so the
operations below never need it as a side condition.

`sumWhere` is the aggregate `sum(f(k) for k, v in d.items() if p(v))`.  Its
rules split off one key, which is what an accounting invariant over a
dictionary needs.
-/

namespace LlmDRl.Library

universe u v

/-! ## Association lists -/

section Entries

variable {κ : Type u} {ν : Type v} [DecidableEq κ]

/-- Assign to one key of an association list, in place or at the end. -/
def assignEntries (key : κ) (value : ν) :
    List (κ × ν) → List (κ × ν)
  | [] => [(key, value)]
  | (found, old) :: rest =>
      if found = key then
        (key, value) :: rest
      else
        (found, old) :: assignEntries key value rest

/-- An entry without its `Option`, if it has a value. -/
def presentEntry : κ × Option ν → Option (κ × ν)
  | (key, value) => value.map fun value => (key, value)

theorem map_fst_assignEntries
    (key : κ) (value : ν) (entries : List (κ × ν)) :
    (assignEntries key value entries).map Prod.fst =
      if key ∈ entries.map Prod.fst then
        entries.map Prod.fst
      else
        entries.map Prod.fst ++ [key] := by
  induction entries with
  | nil =>
      simp [assignEntries]
  | cons head rest inductionHypothesis =>
      obtain ⟨found, old⟩ := head
      by_cases same : found = key
      · subst found
        simp [assignEntries]
      · have different : key ≠ found := Ne.symm same
        simp only [assignEntries, if_neg same, List.map_cons,
          inductionHypothesis, List.mem_cons, different, false_or]
        split <;> rfl

theorem assignEntries_split
    {key : κ} (value old : ν) {before : List (κ × ν)}
    (after : List (κ × ν)) (absent : ∀ entry ∈ before, entry.1 ≠ key) :
    assignEntries key value (before ++ (key, old) :: after) =
      before ++ (key, value) :: after := by
  induction before with
  | nil =>
      simp [assignEntries]
  | cons head rest inductionHypothesis =>
      obtain ⟨found, kept⟩ := head
      have different : found ≠ key := absent _ (List.mem_cons_self ..)
      have restEq := inductionHypothesis fun entry member =>
        absent entry (List.mem_cons_of_mem _ member)
      simp only [List.cons_append, assignEntries, if_neg different, restEq]

theorem assignEntries_of_not_mem
    {key : κ} (value : ν) {entries : List (κ × ν)}
    (absent : key ∉ entries.map Prod.fst) :
    assignEntries key value entries = entries ++ [(key, value)] := by
  induction entries with
  | nil =>
      rfl
  | cons head rest inductionHypothesis =>
      simp only [List.map_cons, List.mem_cons, not_or] at absent
      simp only [assignEntries, if_neg (Ne.symm absent.1),
        List.cons_append, inductionHypothesis absent.2]

theorem lookup_cons_eq_ite
    (found probe : κ) (old : ν) (rest : List (κ × ν)) :
    ((found, old) :: rest).lookup probe =
      if probe = found then some old else rest.lookup probe := by
  by_cases probed : probe = found
  · simp [probed]
  · have skipped : (probe == found) = false := by simpa using probed
    simp only [List.lookup_cons, skipped, if_neg probed]

theorem lookup_assignEntries
    (key probe : κ) (value : ν) (entries : List (κ × ν)) :
    (assignEntries key value entries).lookup probe =
      if probe = key then some value else entries.lookup probe := by
  induction entries with
  | nil =>
      rw [assignEntries, lookup_cons_eq_ite]
  | cons head rest inductionHypothesis =>
      obtain ⟨found, old⟩ := head
      by_cases same : found = key
      · subst found
        simp only [assignEntries, if_true, lookup_cons_eq_ite]
        by_cases probed : probe = key
        · simp only [if_pos probed]
        · simp only [if_neg probed]
      · simp only [assignEntries, if_neg same, lookup_cons_eq_ite,
          inductionHypothesis]
        by_cases probed : probe = found
        · subst probe
          simp only [if_true, if_neg same]
        · simp only [if_neg probed]

theorem filter_assignEntries
    (key : κ) (value : ν) (entries : List (κ × ν)) :
    (assignEntries key value entries).filter (fun entry => entry.1 ≠ key) =
      entries.filter (fun entry => entry.1 ≠ key) := by
  induction entries with
  | nil =>
      simp [assignEntries]
  | cons head rest inductionHypothesis =>
      obtain ⟨found, old⟩ := head
      by_cases same : found = key
      · subst found
        simp [assignEntries]
      · simp only [assignEntries, if_neg same, List.filter_cons,
          inductionHypothesis]

theorem lookup_filter_ne
    (key probe : κ) (entries : List (κ × ν)) :
    (entries.filter (fun entry => entry.1 ≠ key)).lookup probe =
      if probe = key then none else entries.lookup probe := by
  induction entries with
  | nil =>
      simp
  | cons head rest inductionHypothesis =>
      obtain ⟨found, old⟩ := head
      by_cases same : found = key
      · have dropped :
            ((found, old) :: rest).filter (fun entry => entry.1 ≠ key) =
              rest.filter (fun entry => entry.1 ≠ key) :=
          List.filter_cons_of_neg (by simp [same])
        rw [dropped, inductionHypothesis, lookup_cons_eq_ite, same]
        by_cases probed : probe = key
        · simp only [if_pos probed]
        · simp only [if_neg probed]
      · have kept :
            ((found, old) :: rest).filter (fun entry => entry.1 ≠ key) =
              (found, old) :: rest.filter (fun entry => entry.1 ≠ key) :=
          List.filter_cons_of_pos (by simp [same])
        rw [kept, lookup_cons_eq_ite, lookup_cons_eq_ite,
          inductionHypothesis]
        by_cases probed : probe = found
        · subst probe
          simp only [if_true, if_neg same]
        · simp only [if_neg probed]

theorem lookup_eq_some_iff_mem
    {entries : List (κ × ν)}
    (nodup : (entries.map Prod.fst).Nodup) (key : κ) (value : ν) :
    entries.lookup key = some value ↔ (key, value) ∈ entries := by
  induction entries with
  | nil =>
      simp
  | cons head rest inductionHypothesis =>
      obtain ⟨found, old⟩ := head
      have restNodup : (rest.map Prod.fst).Nodup :=
        (List.nodup_cons.mp nodup).2
      have absent : found ∉ rest.map Prod.fst :=
        (List.nodup_cons.mp nodup).1
      rw [lookup_cons_eq_ite]
      by_cases probed : key = found
      · subst key
        have notLater : (found, value) ∉ rest := by
          intro member
          exact absent (List.mem_map.mpr ⟨(found, value), member, rfl⟩)
        simp [notLater, eq_comm]
      · simp only [List.mem_cons, Prod.mk.injEq, probed, if_false,
          false_and, false_or]
        exact inductionHypothesis restNodup

theorem lookup_eq_none_iff_not_mem
    (entries : List (κ × ν)) (key : κ) :
    entries.lookup key = none ↔ key ∉ entries.map Prod.fst := by
  induction entries with
  | nil =>
      simp
  | cons head rest inductionHypothesis =>
      obtain ⟨found, old⟩ := head
      rw [lookup_cons_eq_ite]
      by_cases probed : key = found
      · subst key
        simp
      · simp only [probed, if_false, inductionHypothesis,
          List.map_cons, List.mem_cons, false_or]

end Entries

/-! ## Dictionaries -/

/-- Keys in insertion order, each of them once. -/
structure OrderedDict (κ : Type u) (ν : Type v) where
  entries : List (κ × ν)
  nodup : (entries.map Prod.fst).Nodup

namespace OrderedDict

variable {κ : Type u} {ν : Type v}

/-- `{}` -/
def empty : OrderedDict κ ν := ⟨[], List.nodup_nil⟩

/-- `list(d)` -/
def keys (dict : OrderedDict κ ν) : List κ := dict.entries.map Prod.fst

/-- `list(d.values())` -/
def values (dict : OrderedDict κ ν) : List ν := dict.entries.map Prod.snd

@[ext]
theorem ext {left right : OrderedDict κ ν}
    (same : left.entries = right.entries) : left = right := by
  cases left
  cases right
  cases same
  rfl

variable [DecidableEq κ]

/-- `d.get(key)` -/
def get? (dict : OrderedDict κ ν) (key : κ) : Option ν :=
  dict.entries.lookup key

/-- `d.get(key, default)` -/
def getD (dict : OrderedDict κ ν) (key : κ) (default : ν) : ν :=
  (dict.get? key).getD default

/-- `d[key] = value` -/
def insert (dict : OrderedDict κ ν) (key : κ) (value : ν) :
    OrderedDict κ ν where
  entries := assignEntries key value dict.entries
  nodup := by
    rw [map_fst_assignEntries]
    split
    · exact dict.nodup
    · next absent =>
        exact List.nodup_append.mpr
          ⟨dict.nodup, List.nodup_singleton key, by
            rintro first firstMember second secondMember rfl
            exact absent (List.mem_singleton.mp secondMember ▸ firstMember)⟩

/-- The dictionary left by `d.pop(key, None)`. -/
def erase (dict : OrderedDict κ ν) (key : κ) : OrderedDict κ ν where
  entries := dict.entries.filter (fun entry => entry.1 ≠ key)
  nodup := dict.nodup.sublist (List.filter_sublist.map Prod.fst)

@[simp]
theorem get?_empty (key : κ) :
    (empty : OrderedDict κ ν).get? key = none := rfl

theorem get?_insert
    (dict : OrderedDict κ ν) (key probe : κ) (value : ν) :
    (dict.insert key value).get? probe =
      if probe = key then some value else dict.get? probe :=
  lookup_assignEntries key probe value dict.entries

@[simp]
theorem get?_insert_self
    (dict : OrderedDict κ ν) (key : κ) (value : ν) :
    (dict.insert key value).get? key = some value := by
  simp [get?_insert]

theorem get?_insert_of_ne
    (dict : OrderedDict κ ν) {key probe : κ} (value : ν)
    (different : probe ≠ key) :
    (dict.insert key value).get? probe = dict.get? probe := by
  simp [get?_insert, different]

@[simp]
theorem getD_insert_self
    (dict : OrderedDict κ ν) (key : κ) (value default : ν) :
    (dict.insert key value).getD key default = value := by
  simp [getD]

theorem getD_insert_of_ne
    (dict : OrderedDict κ ν) {key probe : κ} (value default : ν)
    (different : probe ≠ key) :
    (dict.insert key value).getD probe default =
      dict.getD probe default := by
  rw [getD, get?_insert_of_ne dict value different, getD]

theorem get?_of_get?_insert
    {dict : OrderedDict κ ν} {key probe : κ} {value found : ν}
    (present : (dict.insert key value).get? probe = some found) :
    (probe = key ∧ found = value) ∨ dict.get? probe = some found := by
  rw [get?_insert] at present
  split at present
  · next same =>
      exact .inl ⟨same, (Option.some.inj present).symm⟩
  · exact .inr present

theorem get?_erase
    (dict : OrderedDict κ ν) (key probe : κ) :
    (dict.erase key).get? probe =
      if probe = key then none else dict.get? probe :=
  lookup_filter_ne key probe dict.entries

@[simp]
theorem get?_erase_self (dict : OrderedDict κ ν) (key : κ) :
    (dict.erase key).get? key = none := by
  simp [get?_erase]

theorem get?_erase_of_ne
    (dict : OrderedDict κ ν) {key probe : κ} (different : probe ≠ key) :
    (dict.erase key).get? probe = dict.get? probe := by
  simp [get?_erase, different]

theorem get?_eq_some_iff
    (dict : OrderedDict κ ν) (key : κ) (value : ν) :
    dict.get? key = some value ↔ (key, value) ∈ dict.entries :=
  lookup_eq_some_iff_mem dict.nodup key value

theorem get?_eq_none_iff (dict : OrderedDict κ ν) (key : κ) :
    dict.get? key = none ↔ key ∉ dict.keys :=
  lookup_eq_none_iff_not_mem dict.entries key

theorem mem_keys_of_get?
    {dict : OrderedDict κ ν} {key : κ} {value : ν}
    (found : dict.get? key = some value) : key ∈ dict.keys :=
  List.mem_map.mpr
    ⟨(key, value), (dict.get?_eq_some_iff key value).mp found, rfl⟩

theorem keys_insert_of_mem
    (dict : OrderedDict κ ν) {key : κ} (value : ν)
    (present : key ∈ dict.keys) :
    (dict.insert key value).keys = dict.keys := by
  unfold keys insert
  rw [map_fst_assignEntries]
  exact if_pos present

theorem keys_insert_of_not_mem
    (dict : OrderedDict κ ν) {key : κ} (value : ν)
    (absent : key ∉ dict.keys) :
    (dict.insert key value).keys = dict.keys ++ [key] := by
  unfold keys insert
  rw [map_fst_assignEntries]
  exact if_neg absent

theorem mem_keys_insert_iff
    (dict : OrderedDict κ ν) (key : κ) (value : ν) (other : κ) :
    other ∈ (dict.insert key value).keys ↔
      other = key ∨ other ∈ dict.keys := by
  by_cases present : key ∈ dict.keys
  · rw [dict.keys_insert_of_mem value present]
    refine ⟨.inr, ?_⟩
    intro either
    rcases either with rfl | member
    · exact present
    · exact member
  · rw [dict.keys_insert_of_not_mem value present, List.mem_append,
      List.mem_singleton, or_comm]

theorem mem_keys_erase_iff
    (dict : OrderedDict κ ν) (key other : κ) :
    other ∈ (dict.erase key).keys ↔ other ≠ key ∧ other ∈ dict.keys := by
  rw [← not_iff_not, ← get?_eq_none_iff, get?_erase]
  split
  · next same =>
      exact iff_of_true rfl (fun kept => kept.1 same)
  · next different =>
      rw [get?_eq_none_iff, and_iff_right different]

theorem mem_keys_of_mem_keys_erase
    {dict : OrderedDict κ ν} {key other : κ}
    (member : other ∈ (dict.erase key).keys) : other ∈ dict.keys :=
  ((dict.mem_keys_erase_iff key other).mp member).2

theorem entries_insert_of_not_mem
    (dict : OrderedDict κ ν) {key : κ} (value : ν)
    (absent : key ∉ dict.keys) :
    (dict.insert key value).entries = dict.entries ++ [(key, value)] :=
  assignEntries_of_not_mem value absent

/-- Erasing forgets what was last assigned to the key. -/
theorem erase_insert
    (dict : OrderedDict κ ν) (key : κ) (value : ν) :
    (dict.insert key value).erase key = dict.erase key :=
  ext (filter_assignEntries key value dict.entries)

theorem erase_of_get?_eq_none
    (dict : OrderedDict κ ν) (key : κ) (absent : dict.get? key = none) :
    dict.erase key = dict := by
  apply ext
  refine List.filter_eq_self.mpr ?_
  intro entry member
  have notKey : key ∉ dict.keys := (dict.get?_eq_none_iff key).mp absent
  simp only [ne_eq, decide_not, Bool.not_eq_true', decide_eq_false_iff_not]
  intro same
  subst same
  exact notKey (List.mem_map.mpr ⟨entry, member, rfl⟩)

/-- Around a present key the entries split in two halves, which neither an
assignment nor the erasure of the key touches. -/
theorem exists_split_of_get?
    (dict : OrderedDict κ ν) {key : κ} {old : ν}
    (found : dict.get? key = some old) :
    ∃ before after,
      dict.entries = before ++ (key, old) :: after ∧
      (∀ value, (dict.insert key value).entries =
        before ++ (key, value) :: after) ∧
      (dict.erase key).entries = before ++ after ∧
      key ∉ (before ++ after).map Prod.fst := by
  have member := (dict.get?_eq_some_iff key old).mp found
  obtain ⟨before, after, split⟩ := List.mem_iff_append.mp member
  have nodup := dict.nodup
  rw [split, List.map_append, List.map_cons, List.nodup_middle,
    List.nodup_cons, ← List.map_append] at nodup
  have absent : key ∉ (before ++ after).map Prod.fst := nodup.1
  have kept : ∀ entry ∈ before ++ after, entry.1 ≠ key := by
    intro entry inHalves same
    exact absent (List.mem_map.mpr ⟨entry, inHalves, same⟩)
  refine ⟨before, after, split, ?_, ?_, absent⟩
  · intro value
    change assignEntries key value dict.entries = _
    rw [split]
    exact assignEntries_split value old after fun entry inBefore =>
      kept entry (List.mem_append_left after inBefore)
  · change dict.entries.filter _ = _
    rw [split, List.filter_append, List.filter_cons_of_neg (by simp),
      ← List.filter_append]
    exact List.filter_eq_self.mpr fun entry inHalves => by
      simpa using kept entry inHalves

/-- `{k: v for k, v in d.items() if v is not None}` -/
def present (dict : OrderedDict κ (Option ν)) : OrderedDict κ ν where
  entries := dict.entries.filterMap presentEntry
  nodup := by
    have sublist :
        ((dict.entries.filterMap presentEntry).map Prod.fst).Sublist
          (dict.entries.map Prod.fst) := by
      induction dict.entries with
      | nil =>
          exact .slnil
      | cons head rest inductionHypothesis =>
          obtain ⟨key, value⟩ := head
          cases value with
          | none =>
              exact inductionHypothesis.cons key
          | some value =>
              exact inductionHypothesis.cons_cons key
    exact dict.nodup.sublist sublist

theorem get?_present (dict : OrderedDict κ (Option ν)) (key : κ) :
    dict.present.get? key = (dict.get? key).join := by
  apply Option.ext
  intro value
  rw [get?_eq_some_iff, Option.join_eq_some_iff, get?_eq_some_iff]
  change (key, value) ∈ dict.entries.filterMap presentEntry ↔ _
  rw [List.mem_filterMap]
  constructor
  · rintro ⟨⟨found, kept⟩, member, same⟩
    obtain ⟨_, rfl, pairEq⟩ := Option.map_eq_some_iff.mp same
    cases pairEq
    exact member
  · intro member
    exact ⟨(key, some value), member, rfl⟩

/-! ## A property of every value -/

def AllValues (dict : OrderedDict κ ν) (p : ν → Prop) : Prop :=
  ∀ key value, dict.get? key = some value → p value

theorem allValues_empty (p : ν → Prop) :
    (empty : OrderedDict κ ν).AllValues p := by
  intro key value found
  cases found

theorem AllValues.insert
    {dict : OrderedDict κ ν} {p : ν → Prop}
    (all : dict.AllValues p) (key : κ) {value : ν} (chosen : p value) :
    (dict.insert key value).AllValues p := by
  intro other found present
  rw [get?_insert] at present
  split at present
  · cases present
    exact chosen
  · exact all other found present

theorem AllValues.erase
    {dict : OrderedDict κ ν} {p : ν → Prop}
    (all : dict.AllValues p) (key : κ) :
    (dict.erase key).AllValues p := by
  intro other found present
  by_cases same : other = key
  · subst other
    rw [get?_erase_self] at present
    cases present
  · rw [get?_erase_of_ne dict same] at present
    exact all other found present

theorem AllValues.getD
    {dict : OrderedDict κ ν} {p : ν → Prop}
    (all : dict.AllValues p) (key : κ) {fallback : ν}
    (chosen : p fallback) :
    p (dict.getD key fallback) := by
  unfold OrderedDict.getD
  cases found : dict.get? key with
  | none =>
      exact chosen
  | some value =>
      exact all key value found

theorem allValues_iff_entries
    (dict : OrderedDict κ ν) (p : ν → Prop) :
    dict.AllValues p ↔ ∀ entry ∈ dict.entries, p entry.2 := by
  constructor
  · rintro all ⟨key, value⟩ member
    exact all key value ((dict.get?_eq_some_iff key value).mpr member)
  · intro all key value found
    exact all (key, value) ((dict.get?_eq_some_iff key value).mp found)

instance (dict : OrderedDict κ ν) (p : ν → Prop) [DecidablePred p] :
    Decidable (dict.AllValues p) :=
  decidable_of_iff _ (dict.allValues_iff_entries p).symm

/-! ## A property of some value -/

/-- Some value, under another key than this one, has the property. -/
def SomeOther (dict : OrderedDict κ ν) (key : κ) (p : ν → Prop) : Prop :=
  ∃ other value, other ≠ key ∧ dict.get? other = some value ∧ p value

def SomeValue (dict : OrderedDict κ ν) (p : ν → Prop) : Prop :=
  ∃ key value, dict.get? key = some value ∧ p value

theorem someOther_iff_entries
    (dict : OrderedDict κ ν) (key : κ) (p : ν → Prop) :
    dict.SomeOther key p ↔
      ∃ entry ∈ dict.entries, entry.1 ≠ key ∧ p entry.2 := by
  constructor
  · intro held
    obtain ⟨other, value, different, found, has⟩ := held
    exact ⟨(other, value), (dict.get?_eq_some_iff other value).mp found,
      different, has⟩
  · intro listed
    obtain ⟨⟨other, value⟩, member, different, has⟩ := listed
    exact ⟨other, value, different,
      (dict.get?_eq_some_iff other value).mpr member, has⟩

instance (dict : OrderedDict κ ν) (key : κ) (p : ν → Prop)
    [DecidablePred p] : Decidable (dict.SomeOther key p) :=
  decidable_of_iff _ (dict.someOther_iff_entries key p).symm

theorem someValue_insert_iff
    (dict : OrderedDict κ ν) (key : κ) (value : ν) (p : ν → Prop) :
    (dict.insert key value).SomeValue p ↔
      p value ∨ dict.SomeOther key p := by
  constructor
  · intro held
    obtain ⟨other, present, found, has⟩ := held
    rw [get?_insert] at found
    split at found
    · cases found
      exact .inl has
    · next different =>
        exact .inr ⟨other, present, different, found, has⟩
  · intro either
    rcases either with has | ⟨other, present, different, found, has⟩
    · exact ⟨key, value, dict.get?_insert_self key value, has⟩
    · refine ⟨other, present, ?_, has⟩
      rw [get?_insert_of_ne _ _ different]
      exact found

/-- A key that is absent, or whose value does not have the property, makes no
difference. -/
theorem someValue_iff_someOther
    {dict : OrderedDict κ ν} {key : κ} {p : ν → Prop}
    (without : ∀ value, dict.get? key = some value → ¬ p value) :
    dict.SomeValue p ↔ dict.SomeOther key p := by
  constructor
  · intro held
    obtain ⟨other, value, found, has⟩ := held
    refine ⟨other, value, ?_, found, has⟩
    intro same
    subst same
    exact without value found has
  · intro held
    obtain ⟨other, value, _, found, has⟩ := held
    exact ⟨other, value, found, has⟩

/-- Two values that both have the property are under the same key. -/
def AtMostOne (dict : OrderedDict κ ν) (p : ν → Prop) : Prop :=
  ∀ first firstValue second secondValue,
    dict.get? first = some firstValue → p firstValue →
      dict.get? second = some secondValue → p secondValue →
        first = second

theorem atMostOne_of_none
    {dict : OrderedDict κ ν} {p : ν → Prop}
    (none : dict.AllValues fun value => ¬ p value) :
    dict.AtMostOne p := by
  intro first firstValue second secondValue found has
  exact absurd has (none first firstValue found)

/-- A value that has the property must not join another one. -/
theorem AtMostOne.insert
    {dict : OrderedDict κ ν} {p : ν → Prop} (atMost : dict.AtMostOne p)
    (key : κ) (value : ν)
    (alone : p value → ∀ other old,
      dict.get? other = some old → p old → other = key) :
    (dict.insert key value).AtMostOne p := by
  intro first firstValue second secondValue firstFound firstHas secondFound
    secondHas
  rw [get?_insert] at firstFound secondFound
  split at firstFound
  · next firstEq =>
      cases firstFound
      split at secondFound
      · next secondEq =>
          rw [firstEq, secondEq]
      · rw [firstEq]
        exact (alone firstHas second secondValue secondFound
          secondHas).symm
  · split at secondFound
    · next secondEq =>
        cases secondFound
        rw [secondEq]
        exact alone secondHas first firstValue firstFound firstHas
    · exact atMost first firstValue second secondValue firstFound firstHas
        secondFound secondHas

/-- Under the key that had it, any value can stand. -/
theorem AtMostOne.replace
    {dict : OrderedDict κ ν} {p : ν → Prop} (atMost : dict.AtMostOne p)
    {key : κ} {old : ν} (found : dict.get? key = some old) (had : p old)
    (value : ν) :
    (dict.insert key value).AtMostOne p := by
  refine atMost.insert key value ?_
  intro _ other present otherFound otherHas
  exact atMost other present key old otherFound otherHas found had

/-! ## Sums over a dictionary -/

section Sums

variable {α : Type*} [AddCommMonoid α]

/-- `sum(f(k) for k, v in d.items() if p(v))` -/
def sumWhere (dict : OrderedDict κ ν) (p : ν → Bool) (f : κ → α) : α :=
  ((dict.entries.filter (fun entry => p entry.2)).map
    (fun entry => f entry.1)).sum

omit [DecidableEq κ] in
@[simp]
theorem sumWhere_empty (p : ν → Bool) (f : κ → α) :
    (empty : OrderedDict κ ν).sumWhere p f = 0 := rfl

/-- Only the keys that satisfy the filter matter. -/
theorem sumWhere_congr
    (dict : OrderedDict κ ν) (p : ν → Bool) {f g : κ → α}
    (same : ∀ key value,
      dict.get? key = some value → p value → f key = g key) :
    dict.sumWhere p f = dict.sumWhere p g := by
  unfold sumWhere
  congr 1
  apply List.map_congr_left
  rintro ⟨key, value⟩ member
  have kept := List.mem_filter.mp member
  exact same key value
    ((dict.get?_eq_some_iff key value).mpr kept.1) kept.2

/-- Without a key the sum is empty. -/
theorem sumWhere_of_no_key
    (dict : OrderedDict κ ν) (p : ν → Bool) (f : κ → α)
    (absent : ∀ key, dict.get? key = none) :
    dict.sumWhere p f = 0 := by
  have noEntry : dict.entries = [] := by
    apply List.eq_nil_iff_forall_not_mem.mpr
    rintro ⟨key, value⟩ member
    have found := (dict.get?_eq_some_iff key value).mpr member
    cases (absent key).symm.trans found
  simp [sumWhere, noEntry]

private theorem sum_filter_split
    (p : ν → Bool) (f : κ → α) (key : κ) (value : ν) :
    ∀ entries : List (κ × ν),
      (entries.map Prod.fst).Nodup →
      (key, value) ∈ entries →
        ((entries.filter (fun entry => p entry.2)).map
            (fun entry => f entry.1)).sum =
          (((entries.filter (fun entry => entry.1 ≠ key)).filter
              (fun entry => p entry.2)).map (fun entry => f entry.1)).sum +
            if p value then f key else 0
  | [], _, member => by
      simp at member
  | (found, old) :: rest, nodup, member => by
      have absent : found ∉ rest.map Prod.fst :=
        (List.nodup_cons.mp nodup).1
      have restNodup : (rest.map Prod.fst).Nodup :=
        (List.nodup_cons.mp nodup).2
      by_cases same : found = key
      · subst found
        have valueEq : old = value := by
          rcases List.mem_cons.mp member with headEq | later
          · exact (Prod.mk.inj headEq).2.symm
          · exact absurd
              (List.mem_map.mpr ⟨(key, value), later, rfl⟩) absent
        subst old
        have restKept :
            rest.filter (fun entry => entry.1 ≠ key) = rest := by
          refine List.filter_eq_self.mpr ?_
          intro entry entryMember
          simp only [ne_eq, decide_not, Bool.not_eq_true',
            decide_eq_false_iff_not]
          intro same
          subst same
          exact absent (List.mem_map.mpr ⟨entry, entryMember, rfl⟩)
        simp only [List.filter_cons, ne_eq, not_true_eq_false,
          decide_false, Bool.false_eq_true, if_false]
        rw [show rest.filter (fun entry => decide ¬entry.1 = key) = rest
          from restKept]
        by_cases chosen : p value
        · simp [chosen, add_comm]
        · simp [chosen]
      · have later : (key, value) ∈ rest := by
          rcases List.mem_cons.mp member with headEq | later
          · exact absurd (Prod.mk.inj headEq).1.symm same
          · exact later
        have split :=
          sum_filter_split p f key value rest restNodup later
        by_cases chosen : p old
        · simp only [List.filter_cons, chosen, if_true, List.map_cons,
            List.sum_cons, split, ne_eq, same, not_false_eq_true,
            decide_true, add_assoc]
        · simp only [List.filter_cons, chosen, Bool.false_eq_true, if_false,
            split, ne_eq, same, not_false_eq_true, decide_true, if_true]

/-- Split one present key off a sum. -/
theorem sumWhere_eq_erase_add
    (dict : OrderedDict κ ν) (p : ν → Bool) (f : κ → α)
    {key : κ} {value : ν} (found : dict.get? key = some value) :
    dict.sumWhere p f =
      (dict.erase key).sumWhere p f + if p value then f key else 0 :=
  sum_filter_split p f key value dict.entries dict.nodup
    ((dict.get?_eq_some_iff key value).mp found)

end Sums

theorem sumWhere_nonneg
    {α : Type*} [AddCommMonoid α] [PartialOrder α] [IsOrderedAddMonoid α]
    (dict : OrderedDict κ ν) (p : ν → Bool) {f : κ → α}
    (nonneg : ∀ key value,
      dict.get? key = some value → p value → 0 ≤ f key) :
    0 ≤ dict.sumWhere p f := by
  apply List.sum_nonneg
  intro term member
  obtain ⟨⟨key, value⟩, kept, rfl⟩ := List.mem_map.mp member
  have chosen := List.mem_filter.mp kept
  exact nonneg key value
    ((dict.get?_eq_some_iff key value).mpr chosen.1) chosen.2

end OrderedDict

end LlmDRl.Library
