import LlmDRl.Admission.Decisions
import LlmDRl.Admission.WindowRuns
import LlmDRl.Library.Makespan

/-!
# The makespan of an LPT window

A window that opens while all replicas have the same free budget is placed
longest first on the replica with the least work so far.  So the largest work
any replica gets is within `4 / 3 - 1 / (3 * m)` of what any other assignment
of the sessions to the `m` replicas gives some replica.
-/

namespace LlmDRl.Admission

open LlmDRl.Library
open scoped NNRat

/-- The work an assignment of the pending sessions gives a replica. -/
def workOn (pending : List (ℚ × String × ℚ))
    (assignment : String → String) (replica : String) : ℚ :=
  ((pending.filter fun item => assignment item.2.1 = replica).map
    fun item => -item.1).sum

/-- The largest work of a replica. -/
def largestWork (cfg : Config) (pending : List (ℚ × String × ℚ))
    (assignment : String → String) : ℚ :=
  (cfg.replicas.map (workOn pending assignment)).max?.getD 0

theorem workOn_le_largestWork
    {cfg : Config} {replica : String} (listed : replica ∈ cfg.replicas)
    (pending : List (ℚ × String × ℚ)) (assignment : String → String) :
    workOn pending assignment replica ≤
      largestWork cfg pending assignment := by
  unfold largestWork
  cases largest : (cfg.replicas.map (workOn pending assignment)).max? with
  | none =>
      rw [List.max?_eq_none_iff, List.map_eq_nil_iff] at largest
      rw [largest] at listed
      cases listed
  | some work =>
      exact (List.max?_eq_some_iff.mp largest).2 _
        (List.mem_map_of_mem listed)

theorem largestWork_le
    {cfg : Config} (someReplica : cfg.replicas ≠ [])
    {pending : List (ℚ × String × ℚ)} {assignment : String → String}
    {bound : ℚ}
    (within : ∀ replica ∈ cfg.replicas,
      workOn pending assignment replica ≤ bound) :
    largestWork cfg pending assignment ≤ bound := by
  unfold largestWork
  cases largest : (cfg.replicas.map (workOn pending assignment)).max? with
  | none =>
      rw [List.max?_eq_none_iff, List.map_eq_nil_iff] at largest
      exact absurd largest someReplica
  | some work =>
      obtain ⟨replica, listed, rfl⟩ :=
        List.mem_map.mp (List.max?_mem largest)
      exact within replica listed

/-- For distinct sessions the work of a replica is the load of the items
assigned to it. -/
theorem workOn_eq_load
    {pending : List (ℚ × String × ℚ)}
    (distinct : (pending.map fun item => item.2.1).Nodup)
    (assignment : String → String) (replica : String) :
    workOn pending assignment replica =
      load (fun item => -item.1) (fun item => assignment item.2.1)
        pending.toFinset replica :=
  (load_toFinset (List.Nodup.of_map _ distinct) replica).symm

/-- The batch of a window as a greedy longest-first schedule. -/
theorem LongestFirst.greedy_schedule
    {cfg : Config} {books : Books} {pending : List (ℚ × String × ℚ)}
    {placed : List ((ℚ × String × ℚ) × String)}
    (longest : LongestFirst cfg books pending placed)
    (equal : ∀ replica ∈ cfg.replicas, ∀ other ∈ cfg.replicas,
      books.estimatedFree cfg replica = books.estimatedFree cfg other)
    (distinct : (pending.map fun item => item.2.1).Nodup)
    (assignment : String → String)
    (agree : ∀ entry ∈ placed, assignment entry.1.2.1 = entry.2) :
    GreedyLongestFirst (fun item => -item.1) cfg.replicas.toFinset
      (fun item => assignment item.2.1) (placed.map Prod.fst) := by
  refine .of_placed ?_ agree longest.descending ?_
  · exact longest.everyone.nodup_iff.mpr (List.Nodup.of_map _ distinct)
  · intro before item target after split
    have chosen := longest.greedy before item target after split
    have listed := List.argmax_mem chosen
    refine ⟨List.mem_toFinset.mpr listed, ?_⟩
    intro replica member
    have other := List.mem_toFinset.mp member
    -- equal budgets: the most free budget left is the least work placed
    have most := (List.argmax_eq_some_iff.mp chosen).2.1 replica other
    have same := equal replica other target listed
    linarith

/-- The batch of a window is placed, longest first, and the placements are
what is written. -/
theorem exists_lptSchedule
    {cfg : Config} (someReplica : cfg.replicas ≠ []) {ledger : Ledger}
    (distinct : (ledger.lptPending.map fun item => item.2.1).Nodup) :
    ∃ placed,
      ledger.lptSchedule cfg = some placed ∧
        LongestFirst cfg ledger.toBooks ledger.lptPending placed ∧
        (∀ entry ∈ placed, entry.2 ∈ cfg.replicas) ∧
        ∀ entry ∈ placed,
          (ledger.closeWindow placed).lptResult.get? entry.1.2.1 =
            some entry.2 := by
  obtain ⟨placed, scheduled⟩ : ∃ placed,
      ledger.lptSchedule cfg = some placed := by
    apply Option.ne_none_iff_exists'.mp
    intro unscheduled
    exact someReplica (Ledger.lptSchedule_eq_none unscheduled)
  have longest := Ledger.longestFirst_of_lptSchedule scheduled
  have placedDistinct :
      (placed.map fun entry => entry.1.2.1).Nodup := by
    have sessions := longest.everyone.map
      fun item : ℚ × String × ℚ => item.2.1
    rw [List.map_map] at sessions
    exact sessions.nodup_iff.mpr distinct
  refine ⟨placed, scheduled, longest,
    fun _ member => Ledger.lptSchedule_mem scheduled member, ?_⟩
  intro entry member
  show (ledger.lptResult.assignAll (fun item => item.2.1) placed).get?
    entry.1.2.1 = some entry.2
  exact OrderedDict.get?_assignAll_of_mem placedDistinct ledger.lptResult
    member

/-- The sessions collected in a window are distinct in every run of
clients. -/
theorem Clients.pending_sessions_distinct
    {cfg : Config} {events : List ClientEvent} {final : Clients}
    (ran : run (Clients.step cfg) (Clients.init cfg) events = some final) :
    (final.calls.ledger.lptPending.map fun item => item.2.1).Nodup :=
  (windowed_of_run ran).distinct

/-- Distinct sessions with non-negative works, collected while all replicas
have the same free budget, are all placed when the window ends, and no replica
gets more work than `4 / 3 - 1 / (3 * m)` times the largest work under any
other assignment to the `m` replicas. -/
theorem lpt_largest_work_le
    (cfg : Config) (ledger : Ledger)
    (someReplica : cfg.replicas ≠ [])
    (distinct : (ledger.lptPending.map fun item => item.2.1).Nodup)
    (nonneg : ∀ item ∈ ledger.lptPending, 0 ≤ -item.1)
    (equal : ∀ replica ∈ cfg.replicas, ∀ other ∈ cfg.replicas,
      ledger.estimatedFree cfg replica = ledger.estimatedFree cfg other) :
    ∃ placed,
      ledger.lptAssign cfg
          (ledger.lptPending.insertionSort Ledger.PendingLe) (fun _ => 0)
          ledger.lptResult = some (ledger.closeWindow placed).lptResult ∧
        (∀ requestId contextSize,
          ledger.lptWindowOver cfg requestId contextSize =
            (ledger.closeWindow placed).lptFinish cfg requestId
              contextSize) ∧
        (∀ item ∈ ledger.lptPending, ∃ replica ∈ cfg.replicas,
          (ledger.closeWindow placed).lptResult.get? item.2.1 =
            some replica) ∧
        ∀ rival : String → String,
          (∀ item ∈ ledger.lptPending, rival item.2.1 ∈ cfg.replicas) →
            largestWork cfg ledger.lptPending
                (fun session =>
                  (ledger.closeWindow placed).lptResult.getD session "") ≤
              (4 / 3 - 1 / (3 * cfg.replicas.toFinset.card)) *
                largestWork cfg ledger.lptPending rival := by
  obtain ⟨placed, scheduled, longest, targets, written⟩ :=
    exists_lptSchedule someReplica distinct
  refine ⟨placed, ?_,
    fun requestId contextSize =>
      Ledger.lptWindowOver_of_scheduled scheduled requestId contextSize,
    ?_, ?_⟩
  · have found := scheduled
    rw [Ledger.lptSchedule] at found
    rw [Ledger.lptAssign_eq, found]
    rfl
  · intro item member
    obtain ⟨entry, inPlaced, rfl⟩ :=
      List.mem_map.mp (longest.everyone.mem_iff.mpr member)
    exact ⟨entry.2, targets entry inPlaced, written entry inPlaced⟩
  · intro rival rivalListed
    have agree : ∀ entry ∈ placed,
        (ledger.closeWindow placed).lptResult.getD entry.1.2.1 "" =
          entry.2 := by
      intro entry member
      rw [OrderedDict.getD, written entry member]
      rfl
    have schedule := longest.greedy_schedule equal distinct
      (fun session =>
        (ledger.closeWindow placed).lptResult.getD session "") agree
    have jobs : (placed.map Prod.fst).toFinset =
        ledger.lptPending.toFinset :=
      List.toFinset_eq_of_perm _ _ longest.everyone
    have nonnegJobs : ∀ item ∈ (placed.map Prod.fst).toFinset,
        0 ≤ -item.1 := by
      intro item member
      rw [jobs, List.mem_toFinset] at member
      exact nonneg item member
    have rivalJobs : ∀ item ∈ (placed.map Prod.fst).toFinset,
        rival item.2.1 ∈ cfg.replicas.toFinset := by
      intro item member
      rw [jobs, List.mem_toFinset] at member
      exact List.mem_toFinset.mpr (rivalListed item member)
    have rivalWithin : ∀ replica ∈ cfg.replicas.toFinset,
        load (fun item => -item.1) (fun item => rival item.2.1)
            (placed.map Prod.fst).toFinset replica ≤
          largestWork cfg ledger.lptPending rival := by
      intro replica member
      rw [jobs, ← workOn_eq_load distinct]
      exact workOn_le_largestWork (List.mem_toFinset.mp member)
        ledger.lptPending rival
    apply largestWork_le someReplica
    intro replica listed
    rw [workOn_eq_load distinct, ← jobs]
    exact schedule.load_le nonnegJobs rivalJobs rivalWithin replica
      (List.mem_toFinset.mpr listed)

/-- A window with five sessions on two replicas: longest first gives one of
them 7, and 6 is possible. -/
def fiveSessions : Ledger :=
  { Ledger.init windowedPair with
    lptPending :=
      [(-2, "a", 2), (-3, "b", 3), (-2, "c", 2), (-3, "d", 3),
        (-2, "e", 2)] }

/-- The two long sessions on one replica, the three short ones on the
other. -/
def longApart (session : String) : String :=
  if session = "b" ∨ session = "d" then "A" else "B"

theorem lpt_largest_work_le_five :
    ∃ placed,
      fiveSessions.lptWindowOver windowedPair "a" 2 =
          (fiveSessions.closeWindow placed).lptFinish windowedPair "a" 2 ∧
        largestWork windowedPair fiveSessions.lptPending
          (fun session =>
            (fiveSessions.closeWindow placed).lptResult.getD session "") ≤
          7 := by
  have equal : ∀ replica ∈ windowedPair.replicas,
      ∀ other ∈ windowedPair.replicas,
        fiveSessions.estimatedFree windowedPair replica =
          fiveSessions.estimatedFree windowedPair other :=
    fun _ _ _ _ => rfl
  obtain ⟨placed, _, closes, _, bounded⟩ :=
    lpt_largest_work_le windowedPair fiveSessions (by decide) (by decide)
      (by decide +kernel) equal
  refine ⟨placed, closes "a" 2, (bounded longApart (by decide)).trans ?_⟩
  have possible :
      largestWork windowedPair fiveSessions.lptPending longApart = 6 := by
    decide +kernel
  have two : windowedPair.replicas.toFinset.card = 2 := by decide
  rw [possible, two]
  norm_num

end LlmDRl.Admission
