import LlmDRl.Library.OrderedDict
import Mathlib.Data.List.Induction
import Mathlib.Logic.Function.Basic

/-!
# List scheduling

Jobs are placed one after the other in the order of a list.  Each time the
machine is chosen from the load the jobs placed so far have put on every
machine.  The rule below says what each single choice was made from; a
schedule written to a dictionary is read back by the second one.
-/

namespace LlmDRl.Library

universe u v w

section Schedule

variable {ι : Type u} {μ : Type v} {α : Type w} [DecidableEq μ]
  [AddCommMonoid α]

/-- Place the jobs in order, `none` when no machine can be chosen for one. -/
def scheduleList (choose : (μ → α) → Option μ) (weight : ι → α) :
    List ι → (μ → α) → Option (List (ι × μ))
  | [], _ => some []
  | job :: rest, load =>
      match choose load with
      | none => none
      | some machine =>
          (scheduleList choose weight rest
            (Function.update load machine
              (load machine + weight job))).map
            fun placed => (job, machine) :: placed

/-- The load placed jobs put on a machine. -/
def placedLoad (weight : ι → α) (placed : List (ι × μ)) (machine : μ) : α :=
  ((placed.filter fun entry => entry.2 = machine).map
    fun entry => weight entry.1).sum

theorem placedLoad_nil (weight : ι → α) (machine : μ) :
    placedLoad weight ([] : List (ι × μ)) machine = 0 := rfl

theorem add_placedLoad_cons
    (weight : ι → α) (load : μ → α) (job : ι) (chosen : μ)
    (placed : List (ι × μ)) (machine : μ) :
    load machine + placedLoad weight ((job, chosen) :: placed) machine =
      Function.update load chosen (load chosen + weight job) machine +
        placedLoad weight placed machine := by
  by_cases same : chosen = machine
  · subst chosen
    simp [placedLoad, add_assoc]
  · have different : machine ≠ chosen := Ne.symm same
    simp [placedLoad, same, different]

variable {choose : (μ → α) → Option μ} {weight : ι → α}

theorem scheduleList_cons_eq_some
    {job : ι} {rest : List ι} {load : μ → α} {placed : List (ι × μ)}
    (scheduled :
      scheduleList choose weight (job :: rest) load = some placed) :
    ∃ machine later,
      choose load = some machine ∧
      scheduleList choose weight rest
          (Function.update load machine (load machine + weight job)) =
        some later ∧
      placed = (job, machine) :: later := by
  simp only [scheduleList] at scheduled
  split at scheduled
  · cases scheduled
  · next machine chosen =>
      obtain ⟨later, found, same⟩ := Option.map_eq_some_iff.mp scheduled
      exact ⟨machine, later, chosen, found, same.symm⟩

/-- Every job is placed, in the order of the list. -/
theorem map_fst_of_scheduleList
    {jobs : List ι} {load : μ → α} {placed : List (ι × μ)}
    (scheduled : scheduleList choose weight jobs load = some placed) :
    placed.map Prod.fst = jobs := by
  induction jobs generalizing load placed with
  | nil =>
      cases scheduled
      rfl
  | cons job rest inductionHypothesis =>
      obtain ⟨machine, later, _, found, rfl⟩ :=
        scheduleList_cons_eq_some scheduled
      rw [List.map_cons, inductionHypothesis found]

/-- Each job goes to the machine chosen from the load of the jobs before
it. -/
theorem choose_of_scheduleList
    {jobs : List ι} {load : μ → α} {placed : List (ι × μ)}
    (scheduled : scheduleList choose weight jobs load = some placed)
    {before after : List (ι × μ)} {job : ι} {machine : μ}
    (split : placed = before ++ (job, machine) :: after) :
    choose (fun other => load other + placedLoad weight before other) =
      some machine := by
  induction jobs generalizing load placed before with
  | nil =>
      cases scheduled
      simp at split
  | cons first rest inductionHypothesis =>
      obtain ⟨chosen, later, found, continued, rfl⟩ :=
        scheduleList_cons_eq_some scheduled
      cases before with
      | nil =>
          cases split
          simpa [placedLoad_nil] using found
      | cons head earlier =>
          obtain ⟨rfl, laterEq⟩ := List.cons.inj split
          have chosenNext := inductionHypothesis continued laterEq
          rw [← chosenNext]
          congr 1
          funext other
          exact add_placedLoad_cons weight load first chosen earlier other

/-- With a machine to choose under every load, every list can be placed. -/
theorem exists_scheduleList
    (someMachine : ∀ load, ∃ machine, choose load = some machine)
    (jobs : List ι) (load : μ → α) :
    ∃ placed, scheduleList choose weight jobs load = some placed := by
  induction jobs generalizing load with
  | nil =>
      exact ⟨[], rfl⟩
  | cons job rest inductionHypothesis =>
      obtain ⟨machine, chosen⟩ := someMachine load
      obtain ⟨later, found⟩ := inductionHypothesis
        (Function.update load machine (load machine + weight job))
      exact ⟨(job, machine) :: later, by
        simp only [scheduleList, chosen, found, Option.map_some]⟩

end Schedule

/-! ## Writing a schedule to a dictionary -/

section Written

variable {ι : Type u} {κ : Type v} {μ : Type w} [DecidableEq κ]

/-- Assign its machine to the key of each job. -/
def OrderedDict.assignAll (key : ι → κ) (dict : OrderedDict κ μ)
    (placed : List (ι × μ)) : OrderedDict κ μ :=
  placed.foldl
    (fun written entry => written.insert (key entry.1) entry.2) dict

theorem OrderedDict.get?_assignAll_of_not_mem
    {key : ι → κ} {probe : κ} {placed : List (ι × μ)}
    (dict : OrderedDict κ μ)
    (absent : ∀ entry ∈ placed, key entry.1 ≠ probe) :
    (dict.assignAll key placed).get? probe = dict.get? probe := by
  induction placed generalizing dict with
  | nil =>
      rfl
  | cons head rest inductionHypothesis =>
      have different : probe ≠ key head.1 :=
        (absent head (List.mem_cons_self ..)).symm
      have later := inductionHypothesis (dict.insert (key head.1) head.2)
        fun entry member => absent entry (List.mem_cons_of_mem _ member)
      exact later.trans (dict.get?_insert_of_ne head.2 different)

theorem OrderedDict.get?_assignAll_of_mem
    {key : ι → κ} {placed : List (ι × μ)}
    (distinct : (placed.map fun entry => key entry.1).Nodup)
    (dict : OrderedDict κ μ) {entry : ι × μ} (member : entry ∈ placed) :
    (dict.assignAll key placed).get? (key entry.1) = some entry.2 := by
  induction placed generalizing dict with
  | nil =>
      cases member
  | cons head rest inductionHypothesis =>
      obtain ⟨alone, restDistinct⟩ := List.nodup_cons.mp distinct
      rcases List.mem_cons.mp member with rfl | later
      · have absent : ∀ other ∈ rest, key other.1 ≠ key entry.1 := by
          intro other inRest same
          exact alone (List.mem_map.mpr ⟨other, inRest, same⟩)
        exact (get?_assignAll_of_not_mem _ absent).trans
          (dict.get?_insert_self (key entry.1) entry.2)
      · exact inductionHypothesis restDistinct _ later

/-- What is not written is what was there before. -/
theorem OrderedDict.get?_assignAll
    (key : ι → κ) (placed : List (ι × μ)) (dict : OrderedDict κ μ)
    (probe : κ) :
    (dict.assignAll key placed).get? probe =
      ((OrderedDict.empty.assignAll key placed).get? probe).or
        (dict.get? probe) := by
  induction placed using List.reverseRecOn with
  | nil =>
      rfl
  | append_singleton earlier last inductionHypothesis =>
      simp only [assignAll, List.foldl_append, List.foldl_cons,
        List.foldl_nil] at inductionHypothesis ⊢
      rw [get?_insert, get?_insert]
      split
      · rfl
      · exact inductionHypothesis

theorem OrderedDict.mem_of_get?_assignAll
    {key : ι → κ} {placed : List (ι × μ)} {probe : κ} {machine : μ}
    (found :
      (OrderedDict.empty.assignAll key placed).get? probe =
        some machine) :
    ∃ entry ∈ placed, key entry.1 = probe := by
  by_contra absent
  have unwritten : ∀ entry ∈ placed, key entry.1 ≠ probe := by
    intro entry member same
    exact absent ⟨entry, member, same⟩
  have nothing := get?_assignAll_of_not_mem OrderedDict.empty unwritten
  cases found.symm.trans nothing

theorem OrderedDict.mem_keys_assignAll_iff
    (key : ι → κ) (placed : List (ι × μ)) (dict : OrderedDict κ μ)
    (probe : κ) :
    probe ∈ (dict.assignAll key placed).keys ↔
      probe ∈ dict.keys ∨ ∃ entry ∈ placed, key entry.1 = probe := by
  induction placed generalizing dict with
  | nil =>
      simp [assignAll]
  | cons head rest inductionHypothesis =>
      have later := inductionHypothesis (dict.insert (key head.1) head.2)
      rw [mem_keys_insert_iff] at later
      refine later.trans ?_
      simp only [List.mem_cons, exists_eq_or_imp]
      grind

theorem OrderedDict.AllValues.assignAll
    {p : μ → Prop} {dict : OrderedDict κ μ} (all : dict.AllValues p)
    (key : ι → κ) {placed : List (ι × μ)}
    (chosen : ∀ entry ∈ placed, p entry.2) :
    (dict.assignAll key placed).AllValues p := by
  induction placed generalizing dict with
  | nil =>
      exact all
  | cons head rest inductionHypothesis =>
      have headChosen := chosen head (List.mem_cons_self ..)
      exact inductionHypothesis (all.insert (key head.1) headChosen)
        fun entry member => chosen entry (List.mem_cons_of_mem _ member)

end Written

end LlmDRl.Library
