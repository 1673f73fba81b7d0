import LlmDRl.Admission.Effects
import LlmDRl.Library.ListScheduling
import Mathlib.Data.String.Basic

/-!
# The LPT window

What a segment of `acquire` does to the windowed-LPT state.  The batch of a
window is placed by list scheduling: longest work first, each session on the
replica with the most free budget after the sessions before it have been
charged.
-/

namespace LlmDRl.Admission

open LlmDRl.Library

/-! ## The tables of the window -/

namespace LptTables

/-- The sessions collected so far. -/
def sessions (tables : LptTables) : List String :=
  tables.pending.map fun item => item.2.1

/-- One more session in the window. -/
def collect (tables : LptTables) (requestId : String) (contextSize : ℚ)
    (sessionWork : Option ℚ) : LptTables :=
  { tables with
    pending :=
      tables.pending ++
        [(-sessionLoad contextSize sessionWork, requestId, contextSize)] }

theorem sessions_collect
    (tables : LptTables) (requestId : String) (contextSize : ℚ)
    (sessionWork : Option ℚ) :
    (tables.collect requestId contextSize sessionWork).sessions =
      tables.sessions ++ [requestId] := by
  simp [sessions, collect]

end LptTables

/-- Everything a segment that does not come out of the window can do to its
tables, with the booking and the outcome that go with it. -/
inductive LptEffect (cfg : Config) (tables : LptTables)
    (requestId : String) (contextSize : ℚ) (sessionWork : Option ℚ) :
    Option Booking → Outcome → LptTables → Prop
  | outside {booked : Option Booking} {outcome : Outcome}
      (rule : ∀ booking, booked = some booking → booking.rule ≠ .lpt)
      (parks : ∀ waiting, outcome = .suspended waiting →
        ¬ waiting.InWindow) :
      LptEffect cfg tables requestId contextSize sessionWork booked outcome
        tables
  | late {booked : Option Booking} {outcome : Outcome}
      (closed : tables.closed = true)
      (stays : ∀ waiting, outcome ≠ .suspended waiting) :
      LptEffect cfg tables requestId contextSize sessionWork booked outcome
        tables
  | opened
      (collecting : tables.closed = false)
      (unset : tables.event = none) :
      LptEffect cfg tables requestId contextSize sessionWork none
        (.suspended (.lptWindow contextSize))
        { tables.collect requestId contextSize sessionWork with
          event := some false }
  | joined
      (collecting : tables.closed = false)
      (present : tables.event ≠ none) :
      LptEffect cfg tables requestId contextSize sessionWork none
        (.suspended (.lptEvent contextSize))
        (tables.collect requestId contextSize sessionWork)

theorem LptEffect.result_eq
    {cfg : Config} {tables after : LptTables} {requestId : String}
    {contextSize : ℚ} {sessionWork : Option ℚ} {booked : Option Booking}
    {outcome : Outcome}
    (effect :
      LptEffect cfg tables requestId contextSize sessionWork booked outcome
        after) :
    after.result = tables.result ∧ after.closed = tables.closed := by
  cases effect with
  | outside rule parks =>
      exact ⟨rfl, rfl⟩
  | late closed stays =>
      exact ⟨rfl, rfl⟩
  | opened collecting unset =>
      exact ⟨rfl, rfl⟩
  | joined collecting present =>
      exact ⟨rfl, rfl⟩

/-- Only a call that is suspended changes the tables. -/
theorem LptEffect.tables_eq
    {cfg : Config} {tables after : LptTables} {requestId : String}
    {contextSize : ℚ} {sessionWork : Option ℚ} {booked : Option Booking}
    {outcome : Outcome}
    (effect :
      LptEffect cfg tables requestId contextSize sessionWork booked outcome
        after)
    (stays : ∀ waiting, outcome ≠ .suspended waiting) :
    after = tables := by
  cases effect with
  | outside rule parks =>
      rfl
  | late closed notSuspended =>
      rfl
  | opened collecting unset =>
      exact absurd rfl (stays _)
  | joined collecting present =>
      exact absurd rfl (stays _)

/-- The same, read off a segment. -/
def Segment.Lpt (cfg : Config) (ledger : Ledger) (requestId : String)
    (contextSize : ℚ) (sessionWork : Option ℚ) (segment : Segment) : Prop :=
  LptEffect cfg ledger.lptTables requestId contextSize sessionWork
    segment.booked segment.outcome segment.ledger.lptTables

namespace Segment.Lpt

variable {cfg : Config} {ledger : Ledger} {requestId : String}
  {contextSize : ℚ} {sessionWork : Option ℚ}

theorem of_same
    {earlier : Ledger} {segment : Segment}
    (lpt : segment.Lpt cfg ledger requestId contextSize sessionWork)
    (tables : ledger.lptTables = earlier.lptTables) :
    segment.Lpt cfg earlier requestId contextSize sessionWork := by
  rw [Segment.Lpt, ← tables]
  exact lpt

theorem of_outside
    {segment : Segment}
    (tables : segment.ledger.lptTables = ledger.lptTables)
    (rule : ∀ booking, segment.booked = some booking →
      booking.rule ≠ .lpt)
    (parks : ∀ waiting, segment.outcome = .suspended waiting →
      ¬ waiting.InWindow) :
    segment.Lpt cfg ledger requestId contextSize sessionWork := by
  rw [Segment.Lpt, tables]
  exact .outside rule parks

end Segment.Lpt

namespace Ledger

variable (cfg : Config) (ledger : Ledger) (requestId : String)

theorem lptTables_place
    (turnIndex : Int) (contextSize : ℚ) (rule : Rule)
    (replica : Option String) :
    (ledger.place cfg requestId turnIndex contextSize rule
      replica).ledger.lptTables = ledger.lptTables := by
  cases replica <;> rfl

theorem lptResult_place
    (turnIndex : Int) (contextSize : ℚ) (rule : Rule)
    (replica : Option String) :
    (ledger.place cfg requestId turnIndex contextSize rule
      replica).ledger.lptResult = ledger.lptResult :=
  congrArg LptTables.result
    (lptTables_place cfg ledger requestId turnIndex contextSize rule
      replica)

theorem place_not_suspended
    (turnIndex : Int) (contextSize : ℚ) (rule : Rule)
    (replica : Option String) (waiting : Waiting) :
    (ledger.place cfg requestId turnIndex contextSize rule
      replica).outcome ≠ .suspended waiting := by
  cases replica <;> simp [place]

theorem place_lpt
    (turnIndex : Int) (contextSize size : ℚ) (sessionWork : Option ℚ)
    (rule : Rule) (other : rule ≠ .lpt) (replica : Option String) :
    (ledger.place cfg requestId turnIndex contextSize rule replica).Lpt
      cfg ledger requestId size sessionWork := by
  apply Segment.Lpt.of_outside
  · exact lptTables_place cfg ledger requestId turnIndex contextSize rule
      replica
  · intro booking booked
    cases replica with
    | none =>
        cases booked
    | some r =>
        cases booked
        exact other
  · intro waiting parked
    exact absurd parked (place_not_suspended cfg ledger requestId turnIndex
      contextSize rule replica waiting)

end Ledger

theorem Branch.lpt
    {cfg : Config} {ledger : Ledger} {requestId : String}
    {contextSize : ℚ} {sessionWork : Option ℚ} {key : Option String}
    {turnIndex : Int} {segment : Segment}
    (branch :
      Branch cfg ledger requestId contextSize sessionWork key turnIndex
        segment) :
    segment.Lpt cfg ledger requestId contextSize sessionWork := by
  cases branch with
  | placed rule replica ungrouped window member none fits stays absent =>
      by_cases lpt : rule = .lpt
      · have tables := Ledger.lptTables_place cfg ledger requestId turnIndex
          contextSize rule replica
        rw [Segment.Lpt, tables]
        exact .late (window lpt) (Ledger.place_not_suspended cfg ledger
          requestId turnIndex contextSize rule replica)
      · exact Ledger.place_lpt cfg ledger requestId turnIndex contextSize
          contextSize sessionWork rule lpt replica
  | polled deadline =>
      refine .of_outside rfl (fun _ booked => by cases booked) ?_
      rintro waiting ⟨⟩
      exact not_false
  | opened collecting unset =>
      exact .opened collecting unset
  | joined collecting set =>
      exact .joined collecting set
  | claimed groupKey keyed fresh noReplica =>
      exact .of_outside rfl (fun _ booked => by cases booked)
        (fun _ parked => by cases parked)
  | led groupKey replica keyed fresh member =>
      exact .of_outside rfl (fun _ booked => by cases booked; simp)
        (fun _ parked => by cases parked)
  | held groupKey keyed =>
      refine .of_outside rfl (fun _ booked => by cases booked) ?_
      rintro waiting ⟨⟩
      exact not_false
  | followed groupKey leader target keyed ready leads member pulls =>
      exact .of_outside rfl (fun _ booked => by cases booked; simp)
        (fun waiting parked => absurd parked (pulls.not_suspended waiting))
  | moved resident target rule later ungrouped window found member moves
      fits pulls =>
      exact .of_outside rfl (fun _ booked => by cases booked; exact window)
        (fun waiting parked => absurd parked (pulls.not_suspended waiting))

theorem Segment.IsBranch.lpt
    {cfg : Config} {ledger : Ledger} {requestId : String}
    {contextSize : ℚ} {sessionWork : Option ℚ} {key : Option String}
    {turnIndex : Int} {segment : Segment}
    (branch :
      segment.IsBranch cfg ledger requestId contextSize sessionWork key
        turnIndex) :
    segment.Lpt cfg ledger requestId contextSize sessionWork := by
  obtain ⟨counted, same, runs⟩ := branch
  exact runs.lpt.of_same same.window

namespace Ledger

variable (cfg : Config) (ledger : Ledger) (requestId : String)

theorem acquire_lpt (args : AcquireArgs) (clock : Clock) :
    (ledger.acquire cfg requestId args clock).Lpt cfg ledger requestId
      args.contextSize args.sessionWork :=
  (acquire_isBranch cfg ledger requestId args clock).lpt

/-- Only turn 0 is ever held back. -/
theorem acquire_not_suspended
    {args : AcquireArgs} (later : 0 < args.turnIndex) (clock : Clock)
    (waiting : Waiting) :
    (ledger.acquire cfg requestId args clock).outcome ≠
      .suspended waiting := by
  obtain ⟨counted, _, branch⟩ :=
    acquire_isBranch cfg ledger requestId args clock
  rw [max_eq_right later.le] at branch
  exact branch.not_suspended later waiting

end Ledger

/-- What a wake-up does. -/
theorem Ledger.resume_lpt
    {cfg : Config} {ledger : Ledger} {requestId : String}
    {waiting : Waiting} {wakeup : Wakeup} {segment : Segment}
    (resumed :
      ledger.resume cfg requestId waiting wakeup = some segment) :
    (¬ waiting.InWindow ∧
      segment.Lpt cfg ledger requestId waiting.contextSize
        waiting.sessionWork) ∨
    WindowExit cfg ledger requestId waiting wakeup segment := by
  rcases resume_cases resumed with ⟨outside, branch⟩ | exits
  · exact .inl ⟨outside, branch.lpt⟩
  · exact .inr exits

/-- Whoever leaves the window does not park again. -/
theorem WindowExit.not_suspended
    {cfg : Config} {ledger : Ledger} {requestId : String}
    {waiting : Waiting} {wakeup : Wakeup} {segment : Segment}
    (exits : WindowExit cfg ledger requestId waiting wakeup segment)
    (held : Waiting) : segment.outcome ≠ .suspended held := by
  obtain ⟨after, replica, _, rfl⟩ := exits.eq_place
  exact Ledger.place_not_suspended cfg after requestId 0
    waiting.contextSize .lpt replica held

theorem Ledger.lptTables_recordTurn
    (cfg : Config) (ledger : Ledger) (requestId : String)
    (turnIndex : Int) (contextSize : ℚ) :
    (ledger.recordTurn cfg requestId turnIndex contextSize).lptTables =
      ledger.lptTables := by
  unfold Ledger.recordTurn
  dsimp only
  split
  · rcases markGroupReady_cases ledger requestId with
      same | ⟨groupKey, _, marked⟩
    · rw [same]
      rfl
    · rw [marked]
      rfl
  · rfl

theorem Ledger.lptResult_recordTurn
    (cfg : Config) (ledger : Ledger) (requestId : String)
    (turnIndex : Int) (contextSize : ℚ) :
    (ledger.recordTurn cfg requestId turnIndex contextSize).lptResult =
      ledger.lptResult :=
  congrArg LptTables.result
    (lptTables_recordTurn cfg ledger requestId turnIndex contextSize)

/-! ## The batch of a window -/

theorem pendingLe_trans
    {first second third : ℚ × String × ℚ}
    (left : Ledger.PendingLe first second)
    (right : Ledger.PendingLe second third) :
    Ledger.PendingLe first third := by
  rcases left with work | ⟨work, rest⟩
  · rcases right with later | ⟨later, _⟩
    · exact .inl (work.trans later)
    · exact .inl (later ▸ work)
  · rcases right with later | ⟨later, restRight⟩
    · exact .inl (work ▸ later)
    · refine .inr ⟨work.trans later, ?_⟩
      rcases rest with name | ⟨name, size⟩
      · rcases restRight with after | ⟨after, _⟩
        · exact .inl (name.trans after)
        · exact .inl (after ▸ name)
      · rcases restRight with after | ⟨after, sizeRight⟩
        · exact .inl (name ▸ after)
        · exact .inr ⟨name.trans after, size.trans sizeRight⟩

theorem pendingLe_total (left right : ℚ × String × ℚ) :
    Ledger.PendingLe left right ∨ Ledger.PendingLe right left := by
  rcases lt_trichotomy left.1 right.1 with work | work | work
  · exact .inl (.inl work)
  · rcases lt_trichotomy left.2.1 right.2.1 with name | name | name
    · exact .inl (.inr ⟨work, .inl name⟩)
    · rcases le_total left.2.2 right.2.2 with size | size
      · exact .inl (.inr ⟨work, .inr ⟨name, size⟩⟩)
      · exact .inr (.inr ⟨work.symm, .inr ⟨name.symm, size⟩⟩)
    · exact .inr (.inr ⟨work.symm, .inl name⟩)
  · exact .inr (.inl work)

namespace Ledger

/-- The replica the batch chooses under a provisional load. -/
def lptTarget (cfg : Config) (ledger : Ledger)
    (provisional : String → ℚ) : Option String :=
  cfg.replicas.argmax fun r => ledger.estimatedFree cfg r - provisional r

/-- The placements of a window's batch, in the order they are made. -/
def lptSchedule (cfg : Config) (ledger : Ledger) :
    Option (List ((ℚ × String × ℚ) × String)) :=
  scheduleList (ledger.lptTarget cfg) (fun item => -item.1)
    (ledger.lptPending.insertionSort PendingLe) (fun _ => 0)

theorem lptAssign_eq
    (cfg : Config) (ledger : Ledger) (batch : List (ℚ × String × ℚ))
    (provisional : String → ℚ) (result : OrderedDict String String) :
    ledger.lptAssign cfg batch provisional result =
      (scheduleList (ledger.lptTarget cfg) (fun item => -item.1) batch
        provisional).map
        (result.assignAll fun item => item.2.1) := by
  induction batch generalizing provisional result with
  | nil =>
      rfl
  | cons item rest inductionHypothesis =>
      obtain ⟨negw, rid, contextSize⟩ := item
      simp only [lptAssign, scheduleList]
      cases chosen : ledger.lptTarget cfg provisional with
      | none =>
          rw [lptTarget] at chosen
          simp only [chosen, Option.map_none]
      | some target =>
          rw [lptTarget] at chosen
          simp only [chosen, inductionHypothesis, Option.map_map]
          rfl

end Ledger

/-- The placements of a batch, longest work first, each on the replica with
the most free budget once the work placed before it is charged. -/
structure LongestFirst (cfg : Config) (books : Books)
    (pending : List (ℚ × String × ℚ))
    (placed : List ((ℚ × String × ℚ) × String)) : Prop where
  everyone : (placed.map Prod.fst).Perm pending
  descending : placed.Pairwise fun earlier later =>
    -later.1.1 ≤ -earlier.1.1
  greedy : ∀ before item target after,
    placed = before ++ (item, target) :: after →
      cfg.replicas.argmax (fun r => books.estimatedFree cfg r -
        placedLoad (fun charged => -charged.1) before r) = some target

namespace Ledger

theorem longestFirst_of_lptSchedule
    {cfg : Config} {ledger : Ledger}
    {placed : List ((ℚ × String × ℚ) × String)}
    (scheduled : ledger.lptSchedule cfg = some placed) :
    LongestFirst cfg ledger.toBooks ledger.lptPending placed where
  everyone := by
    rw [map_fst_of_scheduleList scheduled]
    exact List.perm_insertionSort PendingLe ledger.lptPending
  descending := by
    have sorted :
        (placed.map Prod.fst).Pairwise PendingLe := by
      rw [map_fst_of_scheduleList scheduled]
      have total : Std.Total (PendingLe) := ⟨pendingLe_total⟩
      have trans : IsTrans (ℚ × String × ℚ) PendingLe :=
        ⟨fun _ _ _ => pendingLe_trans⟩
      exact List.pairwise_insertionSort PendingLe ledger.lptPending
    refine (List.pairwise_map.mp sorted).imp ?_
    intro earlier later ordered
    apply neg_le_neg
    rcases ordered with less | ⟨same, _⟩
    · exact less.le
    · exact same.le
  greedy := by
    intro before item target after split
    have chosen := choose_of_scheduleList scheduled split
    simpa only [lptTarget, zero_add] using chosen

/-! ## The end of the window -/

/-- The ledger once the batch of its window has been placed. -/
def closeWindow (ledger : Ledger)
    (placed : List ((ℚ × String × ℚ) × String)) : Ledger :=
  { ledger with
    lptPending := []
    lptResult := ledger.lptResult.assignAll (fun item => item.2.1) placed
    lptBatches := ledger.lptBatches + 1
    lptClosed := true
    lptEvent := some true }

variable {cfg : Config} {ledger : Ledger}

theorem lptWindowOver_of_scheduled
    {placed : List ((ℚ × String × ℚ) × String)}
    (scheduled : ledger.lptSchedule cfg = some placed)
    (requestId : String) (contextSize : ℚ) :
    ledger.lptWindowOver cfg requestId contextSize =
      (ledger.closeWindow placed).lptFinish cfg requestId contextSize := by
  have assigned := lptAssign_eq cfg { ledger with lptPending := [] }
    (ledger.lptPending.insertionSort PendingLe) (fun _ => 0)
    ledger.lptResult
  have target :
      lptTarget cfg { ledger with lptPending := [] } =
        ledger.lptTarget cfg := rfl
  rw [lptSchedule] at scheduled
  rw [target, scheduled, Option.map_some] at assigned
  simp only [lptWindowOver, assigned]
  rfl

theorem lptWindowOver_of_unscheduled
    (unscheduled : ledger.lptSchedule cfg = none)
    (requestId : String) (contextSize : ℚ) :
    ledger.lptWindowOver cfg requestId contextSize =
      ⟨{ ledger with lptPending := [] }, .raised .emptyMax, none⟩ := by
  have assigned := lptAssign_eq cfg { ledger with lptPending := [] }
    (ledger.lptPending.insertionSort PendingLe) (fun _ => 0)
    ledger.lptResult
  have target :
      lptTarget cfg { ledger with lptPending := [] } =
        ledger.lptTarget cfg := rfl
  rw [lptSchedule] at unscheduled
  rw [target, unscheduled, Option.map_none] at assigned
  simp only [lptWindowOver, assigned]

theorem lptTables_lptFinish (requestId : String) (contextSize : ℚ) :
    (ledger.lptFinish cfg requestId contextSize).ledger.lptTables =
      { ledger.lptTables with
        result := ledger.lptResult.erase requestId } := by
  obtain ⟨replica, finish⟩ :=
    lptFinish_eq_place cfg ledger requestId contextSize
  rw [finish]
  exact lptTables_place cfg _ requestId 0 contextSize .lpt replica

theorem lptResult_lptFinish (requestId : String) (contextSize : ℚ) :
    (ledger.lptFinish cfg requestId contextSize).ledger.lptResult =
      ledger.lptResult.erase requestId :=
  congrArg LptTables.result (lptTables_lptFinish requestId contextSize)

theorem lptFinish_not_suspended
    (requestId : String) (contextSize : ℚ) (waiting : Waiting) :
    (ledger.lptFinish cfg requestId contextSize).outcome ≠
      .suspended waiting := by
  obtain ⟨replica, finish⟩ :=
    lptFinish_eq_place cfg ledger requestId contextSize
  rw [finish]
  exact place_not_suspended cfg _ requestId 0 contextSize .lpt replica
    waiting

/-- A session collects the replica it was assigned. -/
theorem lptFinish_of_assigned
    {requestId target : String} (contextSize : ℚ)
    (assigned : ledger.lptResult.get? requestId = some target)
    (named : target ≠ "") :
    (ledger.lptFinish cfg requestId contextSize).booked =
        some ⟨target, .lpt⟩ ∧
      (ledger.lptFinish cfg requestId contextSize).outcome =
        .returned ⟨target, none⟩ := by
  simp only [lptFinish, assigned, if_neg named, place, and_self]

end Ledger

end LlmDRl.Admission
