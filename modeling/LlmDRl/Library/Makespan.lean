import LlmDRl.Library.ListScheduling
import Mathlib.Algebra.BigOperators.Group.Finset.Basic
import Mathlib.Algebra.BigOperators.Group.Finset.Piecewise
import Mathlib.Algebra.Order.BigOperators.Group.Finset
import Mathlib.Algebra.Order.Field.Basic
import Mathlib.Data.List.Induction
import Mathlib.Tactic.FieldSimp
import Mathlib.Tactic.Linarith
import Mathlib.Tactic.Positivity
import Mathlib.Tactic.Ring

/-!
# The makespan of longest-first list scheduling

Jobs are assigned to machines; the load of a machine is the weight assigned
to it.  When the jobs are assigned longest first, each to a machine with the
least load so far, no load exceeds `4 / 3 - 1 / (3 * m)` times a bound that
some other assignment to the `m` machines keeps.

A job of at most a third of the bound fits because its machine was at most
average.  As long as the jobs are longer than that, the loads even stay within
the bound: a machine has two of them at most, and a job that shares its
machine with nobody because nobody fits beside it has a machine for itself in
the other assignment as well.

In the order of arrival the loads stay within `2 - 1 / m` of such a bound,
which is stated over the loads alone.
-/

namespace LlmDRl.Library

universe u v w

section Loads

variable {ι : Type u} {μ : Type v} {α : Type w} [DecidableEq ι]
  [DecidableEq μ] [AddCommMonoid α]

/-- The weight an assignment puts on a machine. -/
def load (weight : ι → α) (assign : ι → μ) (jobs : Finset ι)
    (machine : μ) : α :=
  ∑ job ∈ jobs with assign job = machine, weight job

variable {weight : ι → α} {assign : ι → μ} {jobs : Finset ι}

omit [DecidableEq ι] in
theorem load_empty (machine : μ) :
    load weight assign ∅ machine = 0 := rfl

theorem load_insert
    {job : ι} (fresh : job ∉ jobs) (machine : μ) :
    load weight assign (insert job jobs) machine =
      if assign job = machine then
        weight job + load weight assign jobs machine
      else
        load weight assign jobs machine := by
  unfold load
  rw [Finset.filter_insert]
  split
  · rw [Finset.sum_insert (fun member =>
      fresh (Finset.mem_filter.mp member).1)]
  · rfl

omit [DecidableEq ι] in
/-- The loads share out the weight of the jobs. -/
theorem sum_load
    {machines : Finset μ} (listed : ∀ job ∈ jobs, assign job ∈ machines) :
    ∑ machine ∈ machines, load weight assign jobs machine =
      ∑ job ∈ jobs, weight job :=
  Finset.sum_fiberwise_of_maps_to listed weight

/-- The load of a list of jobs. -/
theorem load_toFinset
    {listed : List ι} (distinct : listed.Nodup) (machine : μ) :
    load weight assign listed.toFinset machine =
      ((listed.filter fun job => assign job = machine).map weight).sum := by
  have fiber :
      listed.toFinset.filter (fun job => assign job = machine) =
        (listed.filter fun job => assign job = machine).toFinset := by
    rw [List.toFinset_filter]
    simp only [decide_eq_true_eq]
  unfold load
  rw [fiber, List.sum_toFinset _ (distinct.filter _)]

end Loads

section Bound

variable {ι : Type u} {μ : Type v} {α : Type w} [DecidableEq ι]
  [DecidableEq μ] [Field α] [LinearOrder α] [IsStrictOrderedRing α]

variable {weight : ι → α} {assign rival : ι → μ} {machines : Finset μ}

omit [DecidableEq ι] in
theorem load_nonneg
    {jobs : Finset ι} (nonneg : ∀ job ∈ jobs, 0 ≤ weight job)
    (machine : μ) : 0 ≤ load weight assign jobs machine :=
  Finset.sum_nonneg fun job member =>
    nonneg job (Finset.mem_filter.mp member).1

omit [DecidableEq ι] in
theorem load_mono
    {some all : Finset ι} (part : some ⊆ all)
    (nonneg : ∀ job ∈ all, 0 ≤ weight job) (machine : μ) :
    load weight assign some machine ≤ load weight assign all machine := by
  apply Finset.sum_le_sum_of_subset_of_nonneg
  · exact Finset.filter_subset_filter _ part
  · intro job member _
    exact nonneg job (Finset.mem_filter.mp member).1

omit [DecidableEq ι] in
/-- A job is part of the load of its machine. -/
theorem weight_le_load
    {jobs : Finset ι} (nonneg : ∀ job ∈ jobs, 0 ≤ weight job)
    {job : ι} (member : job ∈ jobs) :
    weight job ≤ load weight assign jobs (assign job) :=
  Finset.single_le_sum
    (f := weight)
    (fun other inFiber => nonneg other (Finset.mem_filter.mp inFiber).1)
    (Finset.mem_filter.mpr ⟨member, rfl⟩)

/-! ## Jobs of more than a third of the bound -/

section Large

variable {jobs : Finset ι} {bound least : α}

omit [DecidableEq ι] in
/-- A machine within the bound has at most two of them. -/
theorem card_fiber_le_two
    (large : bound < 3 * least) (positive : 0 < least)
    (atLeast : ∀ job ∈ jobs, least ≤ weight job) {machine : μ}
    (within : load weight assign jobs machine ≤ bound) :
    (jobs.filter fun job => assign job = machine).card ≤ 2 := by
  have heavy := Finset.card_nsmul_le_sum
    (jobs.filter fun job => assign job = machine) weight least
    (fun job member => atLeast job (Finset.mem_filter.mp member).1)
  rw [nsmul_eq_mul] at heavy
  by_contra many
  have three : (3 : α) ≤
      ((jobs.filter fun job => assign job = machine).card : α) := by
    exact_mod_cast not_le.mp many
  have crowded := mul_le_mul_of_nonneg_right three positive.le
  unfold load at within
  linarith

/-- The jobs that have their machine to themselves. -/
def loners (assign : ι → μ) (jobs : Finset ι) : Finset ι :=
  jobs.filter fun job =>
    (jobs.filter fun other => assign other = assign job).card = 1

omit [DecidableEq ι] in
/-- A machine with one or two jobs has two, or one and a loner. -/
theorem card_fiber_add_card_loners
    {machine : μ}
    (occupied : (jobs.filter fun job => assign job = machine).Nonempty)
    (few : (jobs.filter fun job => assign job = machine).card ≤ 2) :
    (jobs.filter fun job => assign job = machine).card +
      ((loners assign jobs).filter fun job => assign job = machine).card =
        2 := by
  have some := Finset.card_pos.mpr occupied
  by_cases alone :
      (jobs.filter fun job => assign job = machine).card = 1
  · have everyone :
        (loners assign jobs).filter (fun job => assign job = machine) =
          jobs.filter fun job => assign job = machine := by
      unfold loners
      rw [Finset.filter_filter]
      apply Finset.filter_congr
      intro job _
      refine ⟨And.right, ?_⟩
      rintro rfl
      exact ⟨alone, rfl⟩
    rw [everyone, alone]
  · have nobody :
        (loners assign jobs).filter (fun job => assign job = machine) =
          ∅ := by
      unfold loners
      rw [Finset.filter_filter]
      apply Finset.filter_eq_empty_iff.mpr
      rintro job _ ⟨single, rfl⟩
      exact alone single
    rw [nobody, Finset.card_empty]
    omega

omit [DecidableEq ι] in
/-- Where every machine has one or two jobs, the loners make up for the
missing ones. -/
theorem card_add_card_loners
    (listed : ∀ job ∈ jobs, assign job ∈ machines)
    (occupied : ∀ machine ∈ machines,
      (jobs.filter fun job => assign job = machine).Nonempty)
    (few : ∀ machine ∈ machines,
      (jobs.filter fun job => assign job = machine).card ≤ 2) :
    jobs.card + (loners assign jobs).card = ∑ _machine ∈ machines, 2 := by
  have lonersListed : ∀ job ∈ loners assign jobs, assign job ∈ machines :=
    fun job member => listed job (Finset.mem_filter.mp member).1
  rw [Finset.card_eq_sum_card_fiberwise listed,
    Finset.card_eq_sum_card_fiberwise lonersListed,
    ← Finset.sum_add_distrib]
  apply Finset.sum_congr rfl
  intro machine member
  exact card_fiber_add_card_loners (occupied machine member)
    (few machine member)

omit [DecidableEq ι] in
/-- Where no machine has more than two jobs, and some jobs share theirs with
nobody, these count twice. -/
theorem card_add_card_le_of_alone
    {alone : Finset ι} (part : alone ⊆ jobs)
    (listed : ∀ job ∈ jobs, assign job ∈ machines)
    (single : ∀ job ∈ alone,
      (jobs.filter fun other => assign other = assign job) ⊆ {job})
    (few : ∀ machine ∈ machines,
      (jobs.filter fun job => assign job = machine).card ≤ 2) :
    jobs.card + alone.card ≤ ∑ _machine ∈ machines, 2 := by
  rw [Finset.card_eq_sum_card_fiberwise listed,
    Finset.card_eq_sum_card_fiberwise
      (fun job member => listed job (part member)),
    ← Finset.sum_add_distrib]
  apply Finset.sum_le_sum
  intro machine member
  by_cases lonely : ∃ job ∈ alone, assign job = machine
  · obtain ⟨job, isAlone, rfl⟩ := lonely
    have one := Finset.card_le_card (single job isAlone)
    have oneAlone := Finset.card_le_card
      ((Finset.filter_subset_filter _ part).trans (single job isAlone))
    rw [Finset.card_singleton] at one oneAlone
    omega
  · have nobody : (alone.filter fun job => assign job = machine) = ∅ := by
      apply Finset.filter_eq_empty_iff.mpr
      intro job isAlone together
      exact lonely ⟨job, isAlone, together⟩
    rw [nobody, Finset.card_empty, add_zero]
    exact few machine member

omit [DecidableEq ι] [LinearOrder α] [IsStrictOrderedRing α] in
theorem load_of_loner
    {job : ι} (loner : job ∈ loners assign jobs) :
    load weight assign jobs (assign job) = weight job := by
  obtain ⟨member, alone⟩ := Finset.mem_filter.mp loner
  obtain ⟨only, single⟩ := Finset.card_eq_one.mp alone
  have inFiber : job ∈ jobs.filter fun other => assign other = assign job :=
    Finset.mem_filter.mpr ⟨member, rfl⟩
  rw [single, Finset.mem_singleton] at inFiber
  unfold load
  rw [single, Finset.sum_singleton, inFiber]

omit [DecidableEq ι] in
/-- A job that nobody fits beside is alone on its machine. -/
theorem fiber_subset_of_full
    (nonneg : ∀ job ∈ jobs, 0 ≤ weight job)
    (atLeast : ∀ job ∈ jobs, least ≤ weight job)
    {job : ι} (member : job ∈ jobs) (full : bound < weight job + least)
    (within : load weight rival jobs (rival job) ≤ bound) :
    (jobs.filter fun other => rival other = rival job) ⊆ {job} := by
  classical
  intro other inFiber
  obtain ⟨otherMember, together⟩ := Finset.mem_filter.mp inFiber
  rw [Finset.mem_singleton]
  by_contra different
  have pair : ({job, other} : Finset ι) ⊆
      jobs.filter fun third => rival third = rival job := by
    intro third inPair
    rcases Finset.mem_insert.mp inPair with rfl | isOther
    · exact Finset.mem_filter.mpr ⟨member, rfl⟩
    · rw [Finset.mem_singleton.mp isOther]
      exact inFiber
  have both := Finset.sum_le_sum_of_subset_of_nonneg pair
    (f := weight)
    (fun third inThird _ =>
      nonneg third (Finset.mem_filter.mp inThird).1)
  rw [Finset.sum_pair (Ne.symm different)] at both
  have long := atLeast other otherMember
  unfold load at within
  linarith

/-- As long as another assignment keeps the bound, there is a machine the
next of these jobs fits on. -/
theorem exists_room
    {job : ι} (fresh : job ∉ jobs) (positive : 0 < weight job)
    (large : bound < 3 * weight job)
    (longer : ∀ other ∈ jobs, weight job ≤ weight other)
    (listed : ∀ other ∈ jobs, assign other ∈ machines)
    (within : ∀ machine ∈ machines,
      load weight assign jobs machine ≤ bound)
    (rivalListed : ∀ other ∈ insert job jobs, rival other ∈ machines)
    (rivalWithin : ∀ machine ∈ machines,
      load weight rival (insert job jobs) machine ≤ bound) :
    ∃ machine ∈ machines,
      load weight assign jobs machine + weight job ≤ bound := by
  by_contra noRoom
  have full : ∀ machine ∈ machines,
      bound < load weight assign jobs machine + weight job := by
    intro machine member
    by_contra room
    exact noRoom ⟨machine, member, not_lt.mp room⟩
  have atLeast : ∀ other ∈ insert job jobs, weight job ≤ weight other := by
    intro other member
    rcases Finset.mem_insert.mp member with rfl | earlier
    · exact le_refl _
    · exact longer other earlier
  have nonneg : ∀ other ∈ insert job jobs, 0 ≤ weight other :=
    fun other member => positive.le.trans (atLeast other member)
  have fits : weight job ≤ bound :=
    (weight_le_load nonneg (Finset.mem_insert_self job jobs)).trans
      (rivalWithin _ (rivalListed job (Finset.mem_insert_self job jobs)))
  have own : jobs.card + (loners assign jobs).card =
      ∑ _machine ∈ machines, 2 := by
    apply card_add_card_loners listed
    · intro machine member
      by_contra empty
      have noLoad : load weight assign jobs machine = 0 := by
        unfold load
        rw [Finset.not_nonempty_iff_eq_empty.mp empty, Finset.sum_empty]
      have short := full machine member
      rw [noLoad, zero_add] at short
      exact absurd fits (not_le.mpr short)
    · intro machine member
      exact card_fiber_le_two large positive longer (within machine member)
  have others : (insert job jobs).card + (loners assign jobs).card ≤
      ∑ _machine ∈ machines, 2 := by
    have inJobs : ∀ loner ∈ loners assign jobs, loner ∈ jobs :=
      fun loner isLoner => (Finset.mem_filter.mp isLoner).1
    apply card_add_card_le_of_alone
      (fun loner isLoner =>
        Finset.mem_insert_of_mem (inJobs loner isLoner)) rivalListed
    · intro loner isLoner
      have noneBeside :=
        full (assign loner) (listed loner (inJobs loner isLoner))
      rw [load_of_loner isLoner] at noneBeside
      have member : loner ∈ insert job jobs :=
        Finset.mem_insert_of_mem (inJobs loner isLoner)
      exact fiber_subset_of_full nonneg atLeast member noneBeside
        (rivalWithin _ (rivalListed loner member))
    · intro machine member
      exact card_fiber_le_two large positive atLeast
        (rivalWithin machine member)
  rw [Finset.card_insert_of_notMem fresh] at others
  omega

end Large

/-! ## Longest first -/

/-- The jobs are assigned longest first, each to a machine with the least load
of the jobs before it. -/
structure GreedyLongestFirst (weight : ι → α) (machines : Finset μ)
    (assign : ι → μ) (jobs : List ι) : Prop where
  distinct : jobs.Nodup
  descending : jobs.Pairwise fun earlier later =>
    weight later ≤ weight earlier
  listed : ∀ job ∈ jobs, assign job ∈ machines
  leastLoaded : ∀ before job after, jobs = before ++ job :: after →
    ∀ machine ∈ machines,
      load weight assign before.toFinset (assign job) ≤
        load weight assign before.toFinset machine

theorem toFinset_append_singleton (before : List ι) (job : ι) :
    (before ++ [job]).toFinset = insert job before.toFinset := by
  ext other
  simp

namespace GreedyLongestFirst

variable {jobs : List ι} {bound : α}

section Split

variable {before after : List ι} {job : ι}

omit [IsStrictOrderedRing α] in
theorem fresh
    (schedule : GreedyLongestFirst weight machines assign jobs)
    (split : jobs = before ++ job :: after) :
    job ∉ before.toFinset := by
  have distinct := schedule.distinct
  rw [split] at distinct
  rw [List.mem_toFinset]
  intro earlier
  exact (List.disjoint_of_nodup_append distinct) earlier
    (List.mem_cons_self ..)

omit [IsStrictOrderedRing α] in
theorem longer
    (schedule : GreedyLongestFirst weight machines assign jobs)
    (split : jobs = before ++ job :: after) :
    ∀ other ∈ before.toFinset, weight job ≤ weight other := by
  have descending := schedule.descending
  rw [split] at descending
  intro other member
  exact (List.pairwise_append.mp descending).2.2 other
    (List.mem_toFinset.mp member) job (List.mem_cons_self ..)

omit [Field α] [LinearOrder α] [IsStrictOrderedRing α] [DecidableEq μ] in
theorem insert_subset_of_split (split : jobs = before ++ job :: after) :
    insert job before.toFinset ⊆ jobs.toFinset := by
  intro other member
  rw [split]
  simp only [Finset.mem_insert, List.mem_toFinset, List.mem_append,
    List.mem_cons] at member ⊢
  grind

end Split

/-- While the jobs are longer than a third of the bound, so long as another
assignment keeps the bound, this one does. -/
theorem load_le_of_large
    (schedule : GreedyLongestFirst weight machines assign jobs)
    (nonneg : ∀ job ∈ jobs.toFinset, 0 ≤ weight job)
    (boundNonneg : 0 ≤ bound)
    (rivalListed : ∀ job ∈ jobs.toFinset, rival job ∈ machines)
    (rivalWithin : ∀ machine ∈ machines,
      load weight rival jobs.toFinset machine ≤ bound)
    {before after : List ι} (split : jobs = before ++ after)
    (large : ∀ job ∈ before, bound < 3 * weight job) :
    ∀ machine ∈ machines,
      load weight assign before.toFinset machine ≤ bound := by
  induction before using List.reverseRecOn generalizing after with
  | nil =>
      intro machine _
      rw [List.toFinset_nil, load_empty]
      exact boundNonneg
  | append_singleton before job inductionHypothesis =>
      rw [List.append_assoc] at split
      have within := inductionHypothesis split fun other member =>
        large other (List.mem_append_left _ member)
      have third : bound < 3 * weight job :=
        large job (List.mem_append_right _ (List.mem_singleton_self job))
      have fresh := schedule.fresh split
      have part := insert_subset_of_split split
      obtain ⟨free, listed, room⟩ :=
        exists_room fresh (by linarith) third (schedule.longer split)
          (fun other member => schedule.listed other (List.mem_toFinset.mp
            (part (Finset.mem_insert_of_mem member))))
          within
          (fun other member => rivalListed other (part member))
          (fun machine member =>
            (load_mono part nonneg machine).trans
              (rivalWithin machine member))
      have least := schedule.leastLoaded before job after split free listed
      intro machine member
      rw [toFinset_append_singleton, load_insert fresh]
      split
      · next chosen =>
          rw [← chosen]
          linarith
      · exact within machine member

/-- The machine a job goes to was at most average. -/
theorem card_mul_load_add_le
    (schedule : GreedyLongestFirst weight machines assign jobs)
    (nonneg : ∀ job ∈ jobs.toFinset, 0 ≤ weight job)
    (rivalListed : ∀ job ∈ jobs.toFinset, rival job ∈ machines)
    (rivalWithin : ∀ machine ∈ machines,
      load weight rival jobs.toFinset machine ≤ bound)
    {before after : List ι} {job : ι}
    (split : jobs = before ++ job :: after) :
    (machines.card : α) * load weight assign before.toFinset (assign job) +
      weight job ≤ machines.card * bound := by
  have part := insert_subset_of_split split
  have listed : ∀ other ∈ before.toFinset, assign other ∈ machines :=
    fun other member => schedule.listed other (List.mem_toFinset.mp
      (part (Finset.mem_insert_of_mem member)))
  have average := Finset.card_nsmul_le_sum machines
    (load weight assign before.toFinset)
    (load weight assign before.toFinset (assign job))
    (schedule.leastLoaded before job after split)
  rw [sum_load listed, nsmul_eq_mul] at average
  have total : ∑ other ∈ jobs.toFinset, weight other ≤
      machines.card * bound := by
    rw [← sum_load rivalListed, ← nsmul_eq_mul]
    exact Finset.sum_le_card_nsmul machines _ bound rivalWithin
  have some : weight job + ∑ other ∈ before.toFinset, weight other ≤
      ∑ other ∈ jobs.toFinset, weight other := by
    rw [← Finset.sum_insert (schedule.fresh split)]
    exact Finset.sum_le_sum_of_subset_of_nonneg part
      (fun other member _ => nonneg other member)
  linarith

omit [DecidableEq ι] [DecidableEq μ] in
theorem le_factor_mul
    {count : α} (atLeastOne : 1 ≤ count) (boundNonneg : 0 ≤ bound) :
    bound ≤ (4 / 3 - 1 / (3 * count)) * bound := by
  have third : 1 / (3 * count) ≤ 1 / 3 :=
    one_div_le_one_div_of_le (by norm_num) (by linarith)
  exact le_mul_of_one_le_left boundNonneg (by linarith)

omit [DecidableEq ι] [DecidableEq μ] in
/-- A job of at most a third on a machine that was at most average. -/
theorem add_le_factor_mul
    {count earlier own : α} (atLeastOne : 1 ≤ count)
    (average : count * earlier + own ≤ count * bound)
    (short : 3 * own ≤ bound) :
    own + earlier ≤ (4 / 3 - 1 / (3 * count)) * bound := by
  have positive : 0 < count := by linarith
  have shares : (count - 1) * (3 * own) ≤ (count - 1) * bound :=
    mul_le_mul_of_nonneg_left short (by linarith)
  have scaled :
      count * ((4 / 3 - 1 / (3 * count)) * bound) =
        (4 * count - 1) / 3 * bound := by
    field_simp
  apply le_of_mul_le_mul_left _ positive
  rw [scaled]
  linarith

/-- Longest first is within `4 / 3 - 1 / (3 * m)` of any bound that another
assignment keeps. -/
theorem load_le
    (schedule : GreedyLongestFirst weight machines assign jobs)
    (nonneg : ∀ job ∈ jobs.toFinset, 0 ≤ weight job)
    (rivalListed : ∀ job ∈ jobs.toFinset, rival job ∈ machines)
    (rivalWithin : ∀ machine ∈ machines,
      load weight rival jobs.toFinset machine ≤ bound) :
    ∀ machine ∈ machines,
      load weight assign jobs.toFinset machine ≤
        (4 / 3 - 1 / (3 * machines.card)) * bound := by
  intro tested testedListed
  have boundNonneg : 0 ≤ bound :=
    (load_nonneg nonneg tested).trans (rivalWithin tested testedListed)
  have atLeastOne : (1 : α) ≤ machines.card := by
    exact_mod_cast Finset.card_pos.mpr ⟨tested, testedListed⟩
  have factor := le_factor_mul atLeastOne boundNonneg
  have prefixes : ∀ before after : List ι, jobs = before ++ after →
      ∀ machine ∈ machines,
        load weight assign before.toFinset machine ≤
          (4 / 3 - 1 / (3 * machines.card)) * bound := by
    intro before
    induction before using List.reverseRecOn with
    | nil =>
        intro after _ machine _
        rw [List.toFinset_nil, load_empty]
        exact boundNonneg.trans factor
    | append_singleton before job inductionHypothesis =>
        intro after split machine listed
        have splitToo := split
        rw [List.append_assoc] at splitToo
        have fresh := schedule.fresh splitToo
        by_cases large : bound < 3 * weight job
        · have allLarge : ∀ other ∈ before ++ [job],
              bound < 3 * weight other := by
            intro other member
            rcases List.mem_append.mp member with earlier | last
            · have longer := schedule.longer splitToo other
                (List.mem_toFinset.mpr earlier)
              linarith
            · rw [List.mem_singleton.mp last]
              exact large
          exact (schedule.load_le_of_large nonneg boundNonneg rivalListed
            rivalWithin split allLarge machine listed).trans factor
        · rw [toFinset_append_singleton, load_insert fresh]
          split
          · next chosen =>
              rw [← chosen]
              exact add_le_factor_mul atLeastOne
                (schedule.card_mul_load_add_le nonneg rivalListed
                  rivalWithin splitToo)
                (not_lt.mp large)
          · exact inductionHypothesis _ splitToo machine listed
  exact prefixes jobs [] (List.append_nil jobs).symm tested testedListed

end GreedyLongestFirst

/-! ## Schedules of lists -/

section Placed

variable {placed : List (ι × μ)}

omit [LinearOrder α] [IsStrictOrderedRing α] in
/-- The load of the jobs of a schedule is what it has placed. -/
theorem load_toFinset_eq_placedLoad
    (distinct : (placed.map Prod.fst).Nodup)
    (agree : ∀ entry ∈ placed, assign entry.1 = entry.2) (machine : μ) :
    load weight assign (placed.map Prod.fst).toFinset machine =
      placedLoad weight placed machine := by
  have jobs :
      (placed.map Prod.fst).filter (fun job => assign job = machine) =
        (placed.filter fun entry => entry.2 = machine).map Prod.fst := by
    rw [List.filter_map]
    congr 1
    apply List.filter_congr
    intro entry member
    simp only [Function.comp_apply, agree entry member]
  rw [load_toFinset distinct, jobs, List.map_map]
  rfl

omit [IsStrictOrderedRing α] in
/-- A list schedule is greedy longest first if its jobs come in that order and
each was given to a machine with the least load. -/
theorem GreedyLongestFirst.of_placed
    (distinct : (placed.map Prod.fst).Nodup)
    (agree : ∀ entry ∈ placed, assign entry.1 = entry.2)
    (descending : placed.Pairwise fun earlier later =>
      weight later.1 ≤ weight earlier.1)
    (least : ∀ before job target after,
      placed = before ++ (job, target) :: after →
        target ∈ machines ∧ ∀ machine ∈ machines,
          placedLoad weight before target ≤
            placedLoad weight before machine) :
    GreedyLongestFirst weight machines assign (placed.map Prod.fst) where
  distinct := distinct
  descending := List.pairwise_map.mpr descending
  listed := by
    intro job member
    obtain ⟨⟨_, target⟩, inPlaced, rfl⟩ := List.mem_map.mp member
    obtain ⟨before, after, split⟩ := List.append_of_mem inPlaced
    rw [agree _ inPlaced]
    exact (least before _ target after split).1
  leastLoaded := by
    intro before job after split machine listed
    obtain ⟨earlier, rest, rfl, rfl, restEq⟩ :=
      List.map_eq_append_iff.mp split
    obtain ⟨⟨_, target⟩, later, rfl, rfl, rfl⟩ :=
      List.map_eq_cons_iff.mp restEq
    rw [List.map_append] at distinct
    have earlierDistinct := distinct.of_append_left
    have earlierAgree : ∀ entry ∈ earlier, assign entry.1 = entry.2 :=
      fun entry member => agree entry (List.mem_append_left _ member)
    rw [load_toFinset_eq_placedLoad earlierDistinct earlierAgree,
      load_toFinset_eq_placedLoad earlierDistinct earlierAgree,
      agree (_, target) (List.mem_append_right _ (List.mem_cons_self ..))]
    exact (least earlier _ target later rfl).2 machine listed

end Placed

/-! ## In the order of arrival -/

section Arrival

variable {loads : μ → α} {longest bound : α}

/-- No machine is above the average load by more than its share of the
longest job. -/
def Spread (machines : Finset μ) (loads : μ → α) (longest : α) : Prop :=
  ∀ machine ∈ machines,
    (machines.card : α) * loads machine ≤
      ∑ other ∈ machines, loads other + (machines.card - 1) * longest

omit [DecidableEq μ] in
theorem one_le_card {machine : μ} (listed : machine ∈ machines) :
    (1 : α) ≤ machines.card := by
  exact_mod_cast Finset.card_pos.mpr ⟨machine, listed⟩

omit [DecidableEq μ] in
theorem spread_zero (longestNonneg : 0 ≤ longest) :
    Spread machines (fun _ => 0) longest := by
  intro machine listed
  rw [mul_zero, Finset.sum_const_zero, zero_add]
  exact mul_nonneg (sub_nonneg.mpr (one_le_card listed)) longestNonneg

omit [LinearOrder α] [IsStrictOrderedRing α] in
theorem sum_update_add {target : μ} (listed : target ∈ machines) (own : α) :
    ∑ machine ∈ machines,
        Function.update loads target (loads target + own) machine =
      ∑ machine ∈ machines, loads machine + own := by
  rw [Finset.sum_update_of_mem listed, Finset.sdiff_singleton_eq_erase,
    ← Finset.add_sum_erase machines loads listed]
  ring

/-- A job that arrives goes to a machine with the least load, which was at
most average. -/
theorem Spread.place
    (spread : Spread machines loads longest) {target : μ}
    (listed : target ∈ machines)
    (least : ∀ machine ∈ machines, loads target ≤ loads machine)
    {own : α} (nonneg : 0 ≤ own) (short : own ≤ longest) :
    Spread machines (Function.update loads target (loads target + own))
      longest := by
  intro machine member
  rw [sum_update_add listed]
  by_cases chosen : machine = target
  · subst chosen
    have average :=
      Finset.card_nsmul_le_sum machines loads (loads machine) least
    rw [nsmul_eq_mul] at average
    have others := mul_le_mul_of_nonneg_left short
      (sub_nonneg.mpr (one_le_card listed))
    rw [Function.update_self]
    linarith
  · rw [Function.update_of_ne chosen]
    have before := spread machine member
    linarith

omit [DecidableEq μ] in
/-- List scheduling is within `2 - 1 / m` of any bound that the average and
the longest job keep. -/
theorem Spread.le_factor_mul
    (spread : Spread machines loads longest)
    (average : ∑ machine ∈ machines, loads machine ≤ machines.card * bound)
    (short : longest ≤ bound) {machine : μ} (listed : machine ∈ machines) :
    loads machine ≤ (2 - 1 / machines.card) * bound := by
  have atLeastOne : (1 : α) ≤ machines.card := one_le_card listed
  have positive : (0 : α) < machines.card := by linarith
  have own := spread machine listed
  have others := mul_le_mul_of_nonneg_left short
    (sub_nonneg.mpr atLeastOne)
  have scaled :
      (machines.card : α) * ((2 - 1 / machines.card) * bound) =
        (2 * machines.card - 1) * bound := by
    field_simp
  apply le_of_mul_le_mul_left _ positive
  rw [scaled]
  linarith

end Arrival

end Bound

end LlmDRl.Library
