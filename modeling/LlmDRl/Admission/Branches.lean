import LlmDRl.Admission.Acquire

/-!
# The branches of `acquire`

Every function of `Acquire` is inverted here once.  `Branch` lists the ways a
segment can run, each with the tests of the source it has passed; the three
ways out of the LPT window are listed in `WindowExit`.  The effects on
bookings, groups and window are read off these lists in the modules that
follow, which unfold no function of `Acquire` again.
-/

namespace LlmDRl.Admission

open LlmDRl.Library

/-! ## What a call carries -/

/-- The context size a suspended call will book. -/
def Waiting.contextSize : Waiting → ℚ
  | .poll contextSize _ => contextSize
  | .group _ contextSize _ => contextSize
  | .lptWindow contextSize => contextSize
  | .lptEvent contextSize => contextSize

/-- The work hint a suspended call still carries. -/
def Waiting.sessionWork : Waiting → Option ℚ
  | .group _ _ sessionWork => sessionWork
  | _ => none

/-- The group key a suspended call still carries. -/
def Waiting.groupKey : Waiting → Option String
  | .group groupKey _ _ => some groupKey
  | _ => none

/-- The call is parked in `_lpt_place`. -/
def Waiting.InWindow : Waiting → Prop
  | .lptWindow _ | .lptEvent _ => True
  | _ => False

instance (waiting : Waiting) : Decidable waiting.InWindow := by
  unfold Waiting.InWindow
  split <;> infer_instance

/-- The group key a call acts on: later turns ignore theirs. -/
def AcquireArgs.heededKey (args : AcquireArgs) : Option String :=
  if 0 < args.turnIndex then none else args.groupKey

/-- `float(session_work) if session_work else context_size` -/
def sessionLoad (contextSize : ℚ) : Option ℚ → ℚ
  | some given => if given = 0 then contextSize else given
  | none => contextSize

/-- The rules outside the group protocol. -/
def Rule.Ungrouped : Rule → Prop
  | .leader _ | .follower _ => False
  | _ => True

/-! ## The tests of the source -/

theorem Config.mem_of_mem_othersThan
    {cfg : Config} {replica other : String}
    (member : other ∈ cfg.othersThan replica) : other ∈ cfg.replicas :=
  (List.mem_filter.mp member).1

theorem Config.ne_of_mem_othersThan
    {cfg : Config} {replica other : String}
    (member : other ∈ cfg.othersThan replica) : other ≠ replica := by
  simpa using (List.mem_filter.mp member).2

namespace Books

/-- The fit test a booking's rule has passed, in the state before it. -/
def Fits (cfg : Config) (books : Books) (requestId : String)
    (turnIndex : Int) (contextSize : ℚ) (booking : Booking) : Prop :=
  match booking.rule with
  | .gated | .rebalance | .migration =>
      contextSize ≤ books.estimatedFree cfg booking.replica
  | .inPlace =>
      books.resident.get? requestId = some booking.replica ∧
        books.incrementalNeed requestId turnIndex contextSize ≤
          books.estimatedFree cfg booking.replica
  | _ => True

/-- Neither rule of a later turn moves the request off `resident`. -/
def StaysOn (cfg : Config) (books : Books) (requestId : String)
    (turnIndex : Int) (contextSize : ℚ) (resident : String) : Prop :=
  books.rebalanceTarget cfg resident contextSize = none ∧
    (books.incrementalNeed requestId turnIndex contextSize ≤
        books.estimatedFree cfg resident ∨
      books.migrationTarget cfg resident contextSize
        (books.incrementalNeed requestId turnIndex contextSize) = none)

instance (cfg : Config) (books : Books) (requestId : String)
    (turnIndex : Int) (contextSize : ℚ) (resident : String) :
    Decidable
      (books.StaysOn cfg requestId turnIndex contextSize resident) :=
  inferInstanceAs (Decidable (_ ∧ _))

variable {cfg : Config} {books : Books}

theorem freest_mem
    {replicas : List String} {target : String}
    (found : books.freest cfg replicas = some target) :
    target ∈ replicas :=
  List.argmax_mem found

theorem leastLoaded_mem
    {replica : String} (found : books.leastLoaded cfg = some replica) :
    replica ∈ cfg.replicas :=
  freest_mem found

theorem leastLoaded_eq_none (none : books.leastLoaded cfg = none) :
    cfg.replicas = [] :=
  List.argmax_eq_none.mp none

theorem rebalanceTarget_eq_some
    {resident target : String} {contextSize : ℚ}
    (found :
      books.rebalanceTarget cfg resident contextSize = some target) :
    target ∈ cfg.othersThan resident ∧
      contextSize ≤ books.estimatedFree cfg target := by
  unfold rebalanceTarget at found
  split at found
  · split at found
    · cases found
    · next cand chosen =>
        dsimp only at found
        split at found
        · next guards =>
            cases found
            exact ⟨freest_mem chosen, guards.2⟩
        · cases found
  · cases found

theorem migrationTarget_eq_some
    {resident target : String} {contextSize need : ℚ}
    (found :
      books.migrationTarget cfg resident contextSize need =
        some target) :
    target ∈ cfg.othersThan resident ∧
      contextSize ≤ books.estimatedFree cfg target := by
  unfold migrationTarget at found
  dsimp only at found
  split at found
  · split at found
    · cases found
    · next cand chosen =>
        split at found
        · next fits =>
            cases found
            exact ⟨freest_mem chosen, fits⟩
        · cases found
  · cases found

end Books

/-! ## One branch -/

/-- How a booking on `target` ends that pulls from `source`. -/
inductive PullsFrom (cfg : Config) (source target : String) :
    Outcome → Prop
  | returned {kvSource : Option String}
      (handed : cfg.kvSourceFrom source = .ok kvSource) :
      PullsFrom cfg source target (.returned ⟨target, kvSource⟩)
  | raised (error : PyError) :
      PullsFrom cfg source target (.raised error)

theorem PullsFrom.ended
    {cfg : Config} {source target : String} {outcome : Outcome}
    (pulls : PullsFrom cfg source target outcome) :
    (∃ error, outcome = .raised error) ∨
      ∃ kvSource, outcome = .returned ⟨target, kvSource⟩ := by
  cases pulls with
  | returned handed => exact .inr ⟨_, rfl⟩
  | raised error => exact .inl ⟨error, rfl⟩

theorem PullsFrom.not_suspended
    {cfg : Config} {source target : String} {outcome : Outcome}
    (pulls : PullsFrom cfg source target outcome) (waiting : Waiting) :
    outcome ≠ .suspended waiting := by
  cases pulls <;> simp

/-- Every way a segment of `acquire` can run that does not come out of the
window, from a ledger whose counters and hints are up to date.  `key` is the
group key the call acts on. -/
inductive Branch (cfg : Config) (ledger : Ledger) (requestId : String)
    (contextSize : ℚ) (sessionWork : Option ℚ) (key : Option String) :
    Int → Segment → Prop
  | placed {turnIndex : Int} (rule : Rule) (replica : Option String)
      (ungrouped : rule.Ungrouped)
      (window : rule = .lpt → ledger.lptClosed = true)
      (member : ∀ r, replica = some r →
        r ∈ cfg.replicas ∨ ledger.resident.get? requestId = some r)
      (none : replica = none → cfg.replicas = [])
      (fits : ∀ r, replica = some r →
        ledger.toBooks.Fits cfg requestId turnIndex contextSize ⟨r, rule⟩)
      (stays : ∀ r, replica = some r → 0 < turnIndex → ∀ resident,
        ledger.resident.get? requestId = some resident →
          r = resident ∧
            ledger.toBooks.StaysOn cfg requestId turnIndex contextSize
              resident)
      (absent : replica = .none → 0 < turnIndex →
        ledger.resident.get? requestId = .none) :
      Branch cfg ledger requestId contextSize sessionWork key turnIndex
        (ledger.place cfg requestId turnIndex contextSize rule replica)
  | polled (deadline : ℚ) :
      Branch cfg ledger requestId contextSize sessionWork key 0
        ⟨ledger, .suspended (.poll contextSize deadline), none⟩
  | opened (collecting : ledger.lptClosed = false)
      (unset : ledger.lptEvent = none) :
      Branch cfg ledger requestId contextSize sessionWork key 0
        ⟨{ ledger with
            lptPending := ledger.lptPending ++
              [(-sessionLoad contextSize sessionWork, requestId,
                contextSize)]
            lptEvent := some false },
          .suspended (.lptWindow contextSize), none⟩
  | joined (collecting : ledger.lptClosed = false)
      (set : ledger.lptEvent ≠ none) :
      Branch cfg ledger requestId contextSize sessionWork key 0
        ⟨{ ledger with
            lptPending := ledger.lptPending ++
              [(-sessionLoad contextSize sessionWork, requestId,
                contextSize)] },
          .suspended (.lptEvent contextSize), none⟩
  | claimed (groupKey : String) (keyed : key = some groupKey)
      (fresh : groupKey ∉ ledger.groupClaimed)
      (noReplica : cfg.replicas = []) :
      Branch cfg ledger requestId contextSize sessionWork key 0
        ⟨{ ledger with
            groupClaimed := insert groupKey ledger.groupClaimed
            groupReady := ledger.groupReady.insert groupKey false },
          .raised .emptyMax, none⟩
  | led (groupKey replica : String) (keyed : key = some groupKey)
      (fresh : groupKey ∉ ledger.groupClaimed)
      (member : replica ∈ cfg.replicas) :
      Branch cfg ledger requestId contextSize sessionWork key 0
        ⟨{ ledger.book cfg requestId replica 0 contextSize with
            groupClaimed := insert groupKey ledger.groupClaimed
            groupReady := ledger.groupReady.insert groupKey false
            groupLeader := ledger.groupLeader.insert groupKey replica
            groupLeaderRid :=
              ledger.groupLeaderRid.insert requestId groupKey
            staggerLeaders := ledger.staggerLeaders + 1 },
          .returned ⟨replica, none⟩, some ⟨replica, .leader groupKey⟩⟩
  | held (groupKey : String) (keyed : key = some groupKey) :
      Branch cfg ledger requestId contextSize sessionWork key 0
        ⟨ledger, .suspended (.group groupKey contextSize sessionWork),
          none⟩
  | followed (groupKey leader target : String) {outcome : Outcome}
      (keyed : key = some groupKey)
      (ready : ledger.groupReady.get? groupKey = some true ∨
        (groupKey ∈ ledger.groupClaimed ∧
          ledger.groupReady.get? groupKey ≠ some false))
      (leads : ledger.groupLeader.get? groupKey = some leader)
      (member : target ∈ cfg.othersThan leader)
      (pulls : PullsFrom cfg leader target outcome) :
      Branch cfg ledger requestId contextSize sessionWork key 0
        ⟨{ ledger.book cfg requestId target 0 contextSize with
            staggerFollowers := ledger.staggerFollowers + 1 },
          outcome, some ⟨target, .follower groupKey⟩⟩
  | moved {turnIndex : Int} (resident target : String) (rule : Rule)
      {outcome : Outcome} (later : 0 < turnIndex)
      (ungrouped : rule.Ungrouped) (window : rule ≠ .lpt)
      (found : ledger.resident.get? requestId = some resident)
      (member : target ∈ cfg.othersThan resident)
      (moves :
        ¬ ledger.toBooks.StaysOn cfg requestId turnIndex contextSize
          resident)
      (fits :
        ledger.toBooks.Fits cfg requestId turnIndex contextSize
          ⟨target, rule⟩)
      (pulls : PullsFrom cfg resident target outcome) :
      Branch cfg ledger requestId contextSize sessionWork key turnIndex
        ⟨(ledger.releaseBooking requestId resident (turnIndex - 1)).book
            cfg requestId target turnIndex contextSize,
          outcome, some ⟨target, rule⟩⟩

/-- A later turn is never held back. -/
theorem Branch.not_suspended
    {cfg : Config} {ledger : Ledger} {requestId : String}
    {contextSize : ℚ} {sessionWork : Option ℚ} {key : Option String}
    {turnIndex : Int} {segment : Segment}
    (branch :
      Branch cfg ledger requestId contextSize sessionWork key turnIndex
        segment)
    (later : 0 < turnIndex) (waiting : Waiting) :
    segment.outcome ≠ .suspended waiting := by
  cases branch with
  | placed rule replica ungrouped window member none fits stays absent =>
      cases replica <;> simp [Ledger.place]
  | polled deadline => exact absurd later (lt_irrefl 0)
  | opened collecting unset => exact absurd later (lt_irrefl 0)
  | joined collecting set => exact absurd later (lt_irrefl 0)
  | claimed groupKey keyed fresh noReplica =>
      exact absurd later (lt_irrefl 0)
  | led groupKey replica keyed fresh member =>
      exact absurd later (lt_irrefl 0)
  | held groupKey keyed => exact absurd later (lt_irrefl 0)
  | followed groupKey leader target keyed ready leads member pulls =>
      exact absurd later (lt_irrefl 0)
  | moved resident target rule later ungrouped window found member moves
      fits pulls =>
      exact pulls.not_suspended waiting

/-! ## Counters and hints -/

/-- The state of the windowed placement. -/
structure LptTables where
  pending : List (ℚ × String × ℚ)
  result : OrderedDict String String
  event : Option Bool
  closed : Bool

namespace Ledger

def lptTables (ledger : Ledger) : LptTables where
  pending := ledger.lptPending
  result := ledger.lptResult
  event := ledger.lptEvent
  closed := ledger.lptClosed

/-- The ledger is `earlier` up to its window, its counters and its hints. -/
structure SameBooks (ledger earlier : Ledger) : Prop where
  books : ledger.toBooks = earlier.toBooks
  estimator : ledger.estimator = earlier.estimator
  groups : ledger.toGroupTables = earlier.toGroupTables

/-- The ledger is `earlier` up to its counters and its hints. -/
structure Counted (ledger earlier : Ledger) : Prop
    extends SameBooks ledger earlier where
  window : ledger.lptTables = earlier.lptTables

theorem Counted.trans
    {ledger counted earlier : Ledger} (first : counted.Counted earlier)
    (second : ledger.Counted counted) : ledger.Counted earlier where
  books := second.books.trans first.books
  estimator := second.estimator.trans first.estimator
  groups := second.groups.trans first.groups
  window := second.window.trans first.window

theorem hintSessionFinal_counted
    (ledger : Ledger) (requestId : String) (sessionFinal : Option ℚ) :
    (ledger.hintSessionFinal requestId sessionFinal).Counted ledger := by
  cases sessionFinal <;> exact ⟨⟨rfl, rfl, rfl⟩, rfl⟩

end Ledger

/-- The segment runs one branch, after the counters and hints it starts
with. -/
def Segment.IsBranch (cfg : Config) (ledger : Ledger) (requestId : String)
    (contextSize : ℚ) (sessionWork : Option ℚ) (key : Option String)
    (turnIndex : Int) (segment : Segment) : Prop :=
  ∃ counted : Ledger, counted.Counted ledger ∧
    Branch cfg counted requestId contextSize sessionWork key turnIndex
      segment

section Counting

variable {cfg : Config} {ledger counted : Ledger} {requestId : String}
  {contextSize : ℚ} {sessionWork : Option ℚ} {key : Option String}
  {turnIndex : Int} {segment : Segment}

theorem Branch.isBranch
    (branch :
      Branch cfg ledger requestId contextSize sessionWork key turnIndex
        segment) :
    segment.IsBranch cfg ledger requestId contextSize sessionWork key
      turnIndex :=
  ⟨ledger, ⟨⟨rfl, rfl, rfl⟩, rfl⟩, branch⟩

theorem Segment.IsBranch.after
    (branch :
      segment.IsBranch cfg counted requestId contextSize sessionWork key
        turnIndex)
    (counts : counted.Counted ledger) :
    segment.IsBranch cfg ledger requestId contextSize sessionWork key
      turnIndex := by
  obtain ⟨later, counting, runs⟩ := branch
  exact ⟨later, counts.trans counting, runs⟩

end Counting

/-! ## The functions of `acquire` -/

namespace Ledger

variable (cfg : Config) (ledger : Ledger) (requestId : String)
  (sessionWork : Option ℚ) (key : Option String)

/-- A turn-0 booking has no residency to keep. -/
theorem place_zero_isBranch
    (contextSize : ℚ) (rule : Rule) (replica : Option String)
    (ungrouped : rule.Ungrouped)
    (window : rule = .lpt → ledger.lptClosed = true)
    (member : ∀ r, replica = some r → r ∈ cfg.replicas)
    (noReplica : replica = none → cfg.replicas = [])
    (fits : ∀ r, replica = some r →
      ledger.toBooks.Fits cfg requestId 0 contextSize ⟨r, rule⟩) :
    (ledger.place cfg requestId 0 contextSize rule replica).IsBranch cfg
      ledger requestId contextSize sessionWork key 0 := by
  apply Branch.isBranch
  refine .placed rule replica ungrouped window ?_ noReplica fits ?_ ?_
  · intro r same
    exact .inl (member r same)
  · intro _ _ later
    exact absurd later (lt_irrefl 0)
  · intro _ later
    exact absurd later (lt_irrefl 0)

theorem place_leastLoaded_isBranch
    (contextSize : ℚ) (rule : Rule) (ungrouped : rule.Ungrouped)
    (window : rule = .lpt → ledger.lptClosed = true)
    (untested : ∀ r,
      ledger.toBooks.Fits cfg requestId 0 contextSize ⟨r, rule⟩) :
    (ledger.place cfg requestId 0 contextSize rule
      (ledger.leastLoaded cfg)).IsBranch cfg ledger requestId contextSize
        sessionWork key 0 :=
  place_zero_isBranch cfg ledger requestId sessionWork key contextSize
    rule _ ungrouped window (fun _ => Books.leastLoaded_mem)
    Books.leastLoaded_eq_none (fun r _ => untested r)

theorem gateLoop_isBranch (contextSize deadline now : ℚ) :
    (ledger.gateLoop cfg requestId contextSize deadline now).IsBranch cfg
      ledger requestId contextSize sessionWork key 0 := by
  unfold gateLoop
  split
  · split
    · next found =>
        have noReplica := place_leastLoaded_isBranch cfg ledger requestId
          sessionWork key contextSize .forced trivial
          (fun same => by cases same) (fun _ => trivial)
        rw [found] at noReplica
        exact noReplica
    · next candidate found =>
        split
        · next enough =>
            refine place_zero_isBranch cfg ledger requestId sessionWork key
              contextSize .gated (some candidate) trivial
              (fun same => by cases same) ?_ (fun same => by cases same) ?_
            · rintro r ⟨⟩
              exact Books.leastLoaded_mem found
            · rintro r ⟨⟩
              exact enough
        · exact (Branch.polled deadline).isBranch.after
            ⟨⟨rfl, rfl, rfl⟩, rfl⟩
  · exact (place_leastLoaded_isBranch cfg _ requestId sessionWork key
      contextSize .forced trivial (fun same => by cases same)
      (fun _ => trivial)).after ⟨⟨rfl, rfl, rfl⟩, rfl⟩

theorem admitGated_isBranch (contextSize : ℚ) (clock : Clock) :
    (ledger.admitGated cfg requestId contextSize clock).IsBranch cfg ledger
      requestId contextSize sessionWork key 0 := by
  unfold admitGated
  dsimp only
  split
  · exact (place_leastLoaded_isBranch cfg _ requestId sessionWork key
      contextSize .wave1 trivial (fun same => by cases same)
      (fun _ => trivial)).after ⟨⟨rfl, rfl, rfl⟩, rfl⟩
  · exact (gateLoop_isBranch cfg _ requestId sessionWork key contextSize _
      _).after ⟨⟨rfl, rfl, rfl⟩, rfl⟩

theorem lptPlace_isBranch (contextSize : ℚ) :
    (ledger.lptPlace cfg requestId contextSize sessionWork).IsBranch cfg
      ledger requestId contextSize sessionWork key 0 := by
  unfold lptPlace
  split
  · next closed =>
      exact place_leastLoaded_isBranch cfg ledger requestId sessionWork key
        contextSize .lpt trivial (fun _ => closed) (fun _ => trivial)
  · next collecting =>
      have notClosed : ledger.lptClosed = false :=
        Bool.eq_false_iff.mpr collecting
      dsimp only
      split
      · next unset =>
          exact (Branch.opened notClosed unset).isBranch
      · next flag present =>
          have set : ledger.lptEvent ≠ none := by
            rw [present]
            exact Option.some_ne_none flag
          exact (Branch.joined notClosed set).isBranch

theorem acquireUngrouped_isBranch (contextSize : ℚ) (clock : Clock) :
    (ledger.acquireUngrouped cfg requestId contextSize sessionWork
      clock).IsBranch cfg ledger requestId contextSize sessionWork key
        0 := by
  unfold acquireUngrouped
  split
  · exact lptPlace_isBranch cfg ledger requestId sessionWork key
      contextSize
  · exact admitGated_isBranch cfg ledger requestId sessionWork key
      contextSize clock

theorem staggerFollow_isBranch
    {groupKey : String} {contextSize : ℚ} {segment : Segment}
    (keyed : key = some groupKey)
    (ready : ledger.groupReady.get? groupKey = some true ∨
      (groupKey ∈ ledger.groupClaimed ∧
        ledger.groupReady.get? groupKey ≠ some false))
    (followed :
      ledger.staggerFollow cfg requestId groupKey contextSize =
        some segment) :
    segment.IsBranch cfg ledger requestId contextSize sessionWork key
      0 := by
  apply Branch.isBranch
  unfold staggerFollow at followed
  split at followed
  · cases followed
  · next leader leads =>
      split at followed
      · cases followed
      · next target chosen =>
          have member := Books.freest_mem chosen
          dsimp only at followed
          split at followed
          · next kvSource handed =>
              cases followed
              exact .followed groupKey leader target keyed ready leads
                member (.returned handed)
          · next error _ =>
              cases followed
              exact .followed groupKey leader target keyed ready leads
                member (.raised error)

theorem staggerLead_isBranch
    {groupKey : String} (contextSize : ℚ) (keyed : key = some groupKey)
    (fresh : groupKey ∉ ledger.groupClaimed) :
    (ledger.staggerLead cfg requestId groupKey contextSize).IsBranch cfg
      ledger requestId contextSize sessionWork key 0 := by
  apply Branch.isBranch
  unfold staggerLead
  dsimp only
  split
  · next none =>
      exact .claimed groupKey keyed fresh (Books.leastLoaded_eq_none none)
  · next replica found =>
      exact .led groupKey replica keyed fresh
        (Books.leastLoaded_mem found)

theorem staggerPlace_isBranch
    {groupKey : String} (contextSize : ℚ) (clock : Clock)
    (keyed : key = some groupKey) :
    (ledger.staggerPlace cfg requestId groupKey contextSize sessionWork
      clock).IsBranch cfg ledger requestId contextSize sessionWork key
        0 := by
  unfold staggerPlace
  split
  · next fresh =>
      exact staggerLead_isBranch cfg ledger requestId sessionWork key
        contextSize keyed fresh
  · next claimed =>
      split
      · exact (Branch.held groupKey keyed).isBranch
      · next notHeld =>
          split
          · next followed =>
              exact staggerFollow_isBranch cfg ledger requestId sessionWork
                key keyed (.inr ⟨not_not.mp claimed, notHeld⟩) followed
          · exact acquireUngrouped_isBranch cfg ledger requestId
              sessionWork key contextSize clock

/-- A migration, ended by the return or by the listener's exception. -/
theorem moveTo_isBranch
    {resident target : String} {turnIndex : Int} (contextSize : ℚ)
    (rule : Rule) (later : 0 < turnIndex) (ungrouped : rule.Ungrouped)
    (window : rule ≠ .lpt)
    (found : ledger.resident.get? requestId = some resident)
    (member : target ∈ cfg.othersThan resident)
    (moves :
      ¬ ledger.toBooks.StaysOn cfg requestId turnIndex contextSize
        resident)
    (fits :
      ledger.toBooks.Fits cfg requestId turnIndex contextSize
        ⟨target, rule⟩) :
    (ledger.moveTo cfg requestId resident target turnIndex contextSize
      rule).IsBranch cfg ledger requestId contextSize sessionWork key
        turnIndex := by
  apply Branch.isBranch
  unfold moveTo
  dsimp only
  split
  · next kvSource handed =>
      exact .moved resident target rule later ungrouped window found member
        moves fits (.returned handed)
  · next error _ =>
      exact .moved resident target rule later ungrouped window found member
        moves fits (.raised error)

/-- A booking on the replica the request is resident on. -/
theorem place_resident_isBranch
    {resident : String} {turnIndex : Int} (contextSize : ℚ) (rule : Rule)
    (ungrouped : rule.Ungrouped) (window : rule ≠ .lpt)
    (found : ledger.resident.get? requestId = some resident)
    (fits :
      ledger.toBooks.Fits cfg requestId turnIndex contextSize
        ⟨resident, rule⟩)
    (stays :
      ledger.toBooks.StaysOn cfg requestId turnIndex contextSize
        resident) :
    (ledger.place cfg requestId turnIndex contextSize rule
      (some resident)).IsBranch cfg ledger requestId contextSize
        sessionWork key turnIndex := by
  apply Branch.isBranch
  refine .placed rule (some resident) ungrouped
    (fun same => absurd same window) ?_ (fun impossible => ?_) ?_ ?_
    (fun impossible => ?_)
  · rintro r ⟨⟩
    exact .inr found
  · cases impossible
  · rintro r ⟨⟩
    exact fits
  · rintro r ⟨⟩ _ home homeFound
    cases found.symm.trans homeFound
    exact ⟨rfl, stays⟩
  · cases impossible

theorem continueOrMigrate_isBranch
    {turnIndex : Int} (later : 0 < turnIndex) (contextSize : ℚ) :
    (ledger.continueOrMigrate cfg requestId turnIndex
      contextSize).IsBranch cfg ledger requestId contextSize sessionWork
        key turnIndex := by
  unfold continueOrMigrate
  split
  · next absent =>
      apply Branch.isBranch
      refine .placed .failSafe _ trivial (fun same => by cases same)
        (fun _ same => .inl (Books.leastLoaded_mem same))
        Books.leastLoaded_eq_none (fun _ _ => trivial) ?_
        (fun _ _ => absent)
      intro _ _ _ resident found
      cases absent.symm.trans found
  · next resident found =>
      dsimp only
      split
      · next cand rebalanced =>
          obtain ⟨member, fits⟩ := Books.rebalanceTarget_eq_some rebalanced
          refine (moveTo_isBranch cfg
            { ledger with rebalances := ledger.rebalances + 1 } requestId
            sessionWork key contextSize .rebalance later trivial (by simp)
            found member ?_ fits).after ⟨⟨rfl, rfl, rfl⟩, rfl⟩
          intro stays
          cases stays.1.symm.trans rebalanced
      · next noRebalance =>
          split
          · next enough =>
              exact place_resident_isBranch cfg ledger requestId
                sessionWork key contextSize .inPlace trivial (by simp)
                found ⟨found, enough⟩ ⟨noRebalance, .inl enough⟩
          · next short =>
              split
              · next target migrated =>
                  obtain ⟨member, fits⟩ :=
                    Books.migrationTarget_eq_some migrated
                  refine (moveTo_isBranch cfg
                    { ledger with migrations := ledger.migrations + 1 }
                    requestId sessionWork key contextSize .migration later
                    trivial (by simp) found member ?_ fits).after
                      ⟨⟨rfl, rfl, rfl⟩, rfl⟩
                  rintro ⟨_, enough | noMigration⟩
                  · exact short enough
                  · cases noMigration.symm.trans migrated
              · next noMigration =>
                  exact place_resident_isBranch cfg ledger requestId
                    sessionWork key contextSize .overshoot trivial
                    (by simp) found trivial
                    ⟨noRebalance, .inr noMigration⟩

/-- The first segment of `acquire`.  A turn index that is not positive counts
as turn 0. -/
theorem acquire_isBranch (args : AcquireArgs) (clock : Clock) :
    (ledger.acquire cfg requestId args clock).IsBranch cfg ledger requestId
      args.contextSize args.sessionWork args.heededKey
      (max 0 args.turnIndex) := by
  have hinted :=
    hintSessionFinal_counted ledger requestId args.sessionFinal
  unfold acquire AcquireArgs.heededKey
  dsimp only
  by_cases later : 0 < args.turnIndex
  · rw [if_pos later, if_pos later, max_eq_right later.le]
    exact (continueOrMigrate_isBranch cfg _ requestId _ _ later
      args.contextSize).after hinted
  · rw [if_neg later, if_neg later, max_eq_left (not_lt.mp later)]
    split
    · next groupKey found =>
        split
        · exact (staggerPlace_isBranch cfg _ requestId _ _
            args.contextSize clock found).after hinted
        · exact (acquireUngrouped_isBranch cfg _ requestId _ _
            args.contextSize clock).after hinted
    · exact (acquireUngrouped_isBranch cfg _ requestId _ _
        args.contextSize clock).after hinted

end Ledger

/-! ## The ways out of the window -/

/-- The three ways a call leaves the window. -/
inductive WindowExit (cfg : Config) (ledger : Ledger)
    (requestId : String) : Waiting → Wakeup → Segment → Prop
  | ended (contextSize : ℚ) :
      WindowExit cfg ledger requestId (.lptWindow contextSize)
        .lptWindowOver (ledger.lptWindowOver cfg requestId contextSize)
  | collected (contextSize : ℚ) (set : ledger.lptEvent = some true) :
      WindowExit cfg ledger requestId (.lptEvent contextSize) .lptReady
        (ledger.lptFinish cfg requestId contextSize)
  | timedOut (contextSize : ℚ) :
      WindowExit cfg ledger requestId (.lptEvent contextSize) .lptTimeout
        (ledger.place cfg requestId 0 contextSize .lpt
          (ledger.leastLoaded cfg))

namespace Ledger

variable (cfg : Config) (ledger : Ledger) (requestId : String)

/-- `lptFinish` places the session, on its assignment or without one. -/
theorem lptFinish_eq_place (contextSize : ℚ) :
    ∃ replica : Option String,
      ledger.lptFinish cfg requestId contextSize =
        { ledger with
          lptResult := ledger.lptResult.erase requestId }.place cfg
            requestId 0 contextSize .lpt replica := by
  unfold lptFinish
  dsimp only
  split
  · next target _ =>
      split
      · exact ⟨_, rfl⟩
      · exact ⟨some target, rfl⟩
  · exact ⟨_, rfl⟩

theorem lptWindowOver_eq_place (contextSize : ℚ) :
    ∃ (after : Ledger) (replica : Option String),
      after.SameBooks ledger ∧
        ledger.lptWindowOver cfg requestId contextSize =
          after.place cfg requestId 0 contextSize .lpt replica := by
  unfold lptWindowOver
  dsimp only
  split
  · exact ⟨{ ledger with lptPending := [] }, none, ⟨rfl, rfl, rfl⟩, rfl⟩
  · next result assigned =>
      obtain ⟨replica, finish⟩ := lptFinish_eq_place cfg
        { ledger with
          lptPending := []
          lptResult := result
          lptBatches := ledger.lptBatches + 1
          lptClosed := true
          lptEvent := some true } requestId contextSize
      refine ⟨_, replica, ?_, finish⟩
      exact ⟨rfl, rfl, rfl⟩

end Ledger

namespace WindowExit

variable {cfg : Config} {ledger : Ledger} {requestId : String}
  {waiting : Waiting} {wakeup : Wakeup} {segment : Segment}

theorem inWindow
    (exits : WindowExit cfg ledger requestId waiting wakeup segment) :
    waiting.InWindow := by
  cases exits <;> trivial

/-- Whoever leaves the window is placed or raises. -/
theorem eq_place
    (exits : WindowExit cfg ledger requestId waiting wakeup segment) :
    ∃ (after : Ledger) (replica : Option String),
      after.SameBooks ledger ∧
        segment = after.place cfg requestId 0 waiting.contextSize .lpt
          replica := by
  cases exits with
  | ended contextSize =>
      exact Ledger.lptWindowOver_eq_place cfg ledger requestId contextSize
  | collected contextSize set =>
      obtain ⟨replica, finish⟩ :=
        Ledger.lptFinish_eq_place cfg ledger requestId contextSize
      refine ⟨_, replica, ?_, finish⟩
      exact ⟨rfl, rfl, rfl⟩
  | timedOut contextSize =>
      exact ⟨ledger, _, ⟨rfl, rfl, rfl⟩, rfl⟩

end WindowExit

/-- Every later segment of a suspended call. -/
theorem Ledger.resume_cases
    {cfg : Config} {ledger : Ledger} {requestId : String}
    {waiting : Waiting} {wakeup : Wakeup} {segment : Segment}
    (resumed :
      ledger.resume cfg requestId waiting wakeup = some segment) :
    (¬ waiting.InWindow ∧
      segment.IsBranch cfg ledger requestId waiting.contextSize
        waiting.sessionWork waiting.groupKey 0) ∨
    WindowExit cfg ledger requestId waiting wakeup segment := by
  cases waiting with
  | poll contextSize deadline =>
      cases wakeup <;> simp only [resume, Option.some.injEq,
        reduceCtorEq] at resumed
      subst segment
      exact .inl ⟨not_false,
        gateLoop_isBranch cfg ledger requestId _ _ contextSize deadline _⟩
  | group groupKey contextSize sessionWork =>
      refine .inl ⟨not_false, ?_⟩
      cases wakeup <;> simp only [resume, Option.some.injEq,
        reduceCtorEq] at resumed
      · split at resumed
        · next ready =>
            split at resumed
            · next followed =>
                cases resumed
                exact staggerFollow_isBranch cfg ledger requestId _ _ rfl
                  (.inl ready) followed
            · cases resumed
              exact acquireUngrouped_isBranch cfg ledger requestId _ _
                contextSize _
        · cases resumed
      · subst segment
        exact (acquireUngrouped_isBranch cfg _ requestId _ _ contextSize
          _).after ⟨⟨rfl, rfl, rfl⟩, rfl⟩
  | lptWindow contextSize =>
      cases wakeup <;> simp only [resume, Option.some.injEq,
        reduceCtorEq] at resumed
      subst segment
      exact .inr (.ended contextSize)
  | lptEvent contextSize =>
      cases wakeup <;> simp only [resume, Option.some.injEq,
        reduceCtorEq] at resumed
      · split at resumed
        · next set =>
            cases resumed
            exact .inr (.collected contextSize set)
        · cases resumed
      · subst segment
        exact .inr (.timedOut contextSize)

end LlmDRl.Admission
