import LlmDRl.Admission.Stagger

/-!
# The group key of a call

A call claims a group, books as its leader or follower, or parks behind its
leader only for the group key it was sent with.
-/

namespace LlmDRl.Admission

open LlmDRl.Library

/-- A segment acts on no group but the one of this key. -/
structure Segment.Keyed (ledger : Ledger) (key : Option String)
    (segment : Segment) : Prop where
  rule : ∀ booking groupKey, segment.booked = some booking →
    booking.rule = .leader groupKey ∨ booking.rule = .follower groupKey →
      key = some groupKey
  claimed : ∀ groupKey ∈ segment.ledger.groupClaimed,
    groupKey ∈ ledger.groupClaimed ∨ key = some groupKey
  parked : ∀ waiting groupKey, segment.outcome = .suspended waiting →
    waiting.groupKey = some groupKey → key = some groupKey

namespace Segment.Keyed

variable {ledger : Ledger} {key : Option String}

/-- A segment outside the group protocol. -/
theorem of_ungrouped
    {segment : Segment}
    (rule : ∀ booking, segment.booked = some booking →
      booking.rule.Ungrouped)
    (claimed : segment.ledger.groupClaimed = ledger.groupClaimed)
    (parks : ∀ waiting, segment.outcome = .suspended waiting →
      waiting.groupKey = none) :
    segment.Keyed ledger key where
  rule := by
    intro booking groupKey booked grouped
    have ungrouped := rule booking booked
    rcases grouped with leads | follows
    · rw [leads] at ungrouped
      cases ungrouped
    · rw [follows] at ungrouped
      cases ungrouped
  claimed := by
    intro groupKey member
    rw [claimed] at member
    exact .inl member
  parked := by
    intro waiting groupKey suspended keyed
    rw [parks waiting suspended] at keyed
    cases keyed

theorem of_same
    {earlier : Ledger} {segment : Segment}
    (keyed : segment.Keyed ledger key)
    (claimed : ledger.groupClaimed = earlier.groupClaimed) :
    segment.Keyed earlier key where
  rule := keyed.rule
  claimed := claimed ▸ keyed.claimed
  parked := keyed.parked

end Segment.Keyed

namespace Ledger

variable (cfg : Config) (ledger : Ledger) (requestId : String)
  (key : Option String)

theorem place_keyed
    (turnIndex : Int) (contextSize : ℚ) (rule : Rule)
    (ungrouped : rule.Ungrouped) (replica : Option String) :
    (ledger.place cfg requestId turnIndex contextSize rule
      replica).Keyed ledger key := by
  cases replica with
  | none =>
      exact .of_ungrouped (fun _ booked => by cases booked) rfl
        (fun _ parked => by cases parked)
  | some r =>
      exact .of_ungrouped
        (fun _ booked => by cases booked; exact ungrouped) rfl
        (fun _ parked => by cases parked)

end Ledger

theorem Branch.keyed
    {cfg : Config} {ledger : Ledger} {requestId : String}
    {contextSize : ℚ} {sessionWork : Option ℚ} {key : Option String}
    {turnIndex : Int} {segment : Segment}
    (branch :
      Branch cfg ledger requestId contextSize sessionWork key turnIndex
        segment) :
    segment.Keyed ledger key := by
  have claims : ∀ groupKey, key = some groupKey →
      ∀ other ∈ insert groupKey ledger.groupClaimed,
        other ∈ ledger.groupClaimed ∨ key = some other := by
    intro groupKey keyed other member
    rcases Finset.mem_insert.mp member with same | older
    · exact .inr (same ▸ keyed)
    · exact .inl older
  cases branch with
  | placed rule replica ungrouped window member none fits stays absent =>
      exact Ledger.place_keyed cfg ledger requestId key turnIndex
        contextSize rule ungrouped replica
  | polled deadline =>
      exact .of_ungrouped (fun _ booked => by cases booked) rfl
        (fun _ parked => by cases parked; rfl)
  | opened collecting unset =>
      exact .of_ungrouped (fun _ booked => by cases booked) rfl
        (fun _ parked => by cases parked; rfl)
  | joined collecting set =>
      exact .of_ungrouped (fun _ booked => by cases booked) rfl
        (fun _ parked => by cases parked; rfl)
  | claimed groupKey keyed fresh noReplica =>
      exact
        { rule := by
            intro booking other impossible
            cases impossible
          claimed := claims groupKey keyed
          parked := by
            intro waiting other impossible
            cases impossible }
  | led groupKey replica keyed fresh member =>
      exact
        { rule := by
            rintro booking other ⟨⟩ (⟨⟨⟩⟩ | ⟨⟨⟩⟩)
            exact keyed
          claimed := claims groupKey keyed
          parked := by
            intro waiting other impossible
            cases impossible }
  | held groupKey keyed =>
      exact
        { rule := by
            intro booking other impossible
            cases impossible
          claimed := fun _ member => .inl member
          parked := by
            rintro waiting other ⟨⟩ ⟨⟩
            exact keyed }
  | followed groupKey leader target keyed ready leads member pulls =>
      exact
        { rule := by
            rintro booking other ⟨⟩ (⟨⟨⟩⟩ | ⟨⟨⟩⟩)
            exact keyed
          claimed := fun _ member => .inl member
          parked := by
            intro waiting other parked
            exact absurd parked (pulls.not_suspended waiting) }
  | moved resident target rule later ungrouped window found member moves
      fits pulls =>
      exact .of_ungrouped (fun _ booked => by cases booked; exact ungrouped)
        rfl (fun waiting parked => absurd parked (pulls.not_suspended waiting))

theorem Segment.IsBranch.keyed
    {cfg : Config} {ledger : Ledger} {requestId : String}
    {contextSize : ℚ} {sessionWork : Option ℚ} {key : Option String}
    {turnIndex : Int} {segment : Segment}
    (branch :
      segment.IsBranch cfg ledger requestId contextSize sessionWork key
        turnIndex) :
    segment.Keyed ledger key := by
  obtain ⟨counted, same, runs⟩ := branch
  exact runs.keyed.of_same (congrArg GroupTables.groupClaimed same.groups)

namespace Ledger

variable (cfg : Config) (ledger : Ledger) (requestId : String)

/-- The first segment of `acquire` acts on the group of its key. -/
theorem acquire_keyed (args : AcquireArgs) (clock : Clock) :
    (ledger.acquire cfg requestId args clock).Keyed ledger
      args.heededKey :=
  (acquire_isBranch cfg ledger requestId args clock).keyed

/-- Every later segment acts on the group its call is parked behind. -/
theorem resume_keyed
    {waiting : Waiting} {wakeup : Wakeup} {segment : Segment}
    (resumed :
      ledger.resume cfg requestId waiting wakeup = some segment) :
    segment.Keyed ledger waiting.groupKey := by
  rcases resume_cases resumed with ⟨_, branch⟩ | exits
  · exact branch.keyed
  · obtain ⟨after, replica, same, rfl⟩ := exits.eq_place
    exact (place_keyed cfg after requestId _ 0 waiting.contextSize .lpt
      trivial replica).of_same
        (congrArg GroupTables.groupClaimed same.groups)

theorem groupClaimed_recordTurn (turnIndex : Int) (contextSize : ℚ) :
    (ledger.recordTurn cfg requestId turnIndex
      contextSize).groupClaimed = ledger.groupClaimed := by
  unfold recordTurn
  dsimp only
  split
  · unfold markGroupReady
    split
    · rfl
    · split <;> rfl
  · rfl

end Ledger

end LlmDRl.Admission
