import LlmDRl.Admission.LaterTurns
import LlmDRl.Admission.Replicas

/-!
# Exceptions of `acquire`

`acquire` raises for two reasons.  `max()` of no replica raises before
anything is booked.  The listener address of a source that is to be pulled
from is computed last, when the booking is made and counted, and it does not
exist for a replica past index 253.  `Pulls` lists the three paths that
compute one.
-/

namespace LlmDRl.Admission

open LlmDRl.Library
open scoped NNRat

/-! ## Addresses -/

/-- A listener address is not needed, or the replica has one. -/
def Config.Addressable (cfg : Config) (replica : String) : Prop :=
  cfg.p2pKvAvailable = false ∨
    ∃ index, cfg.replicas.idxOf? replica = some index ∧ index ≤ 253

theorem Config.kvSourceFrom_ok_iff
    (cfg : Config) (replica : String) :
    (∃ kvSource, cfg.kvSourceFrom replica = .ok kvSource) ↔
      cfg.Addressable replica := by
  unfold Config.kvSourceFrom Config.Addressable
  cases available : cfg.p2pKvAvailable with
  | false =>
      simp
  | true =>
      cases found : cfg.replicas.idxOf? replica with
      | none =>
          simp [Config.p2pAddress, found, Except.map]
      | some index =>
          by_cases small : index ≤ 253
          · have notLarge : ¬ index > 253 := not_lt.mpr small
            simp [Config.p2pAddress, found, p2pListenerHost, Except.map,
              small, notLarge]
          · have large : index > 253 := not_le.mp small
            simp [Config.p2pAddress, found, p2pListenerHost, Except.map,
              small, large]

theorem Config.lost_of_error
    {cfg : Config} {replica : String} {error : PyError}
    (failed : cfg.kvSourceFrom replica = .error error) :
    ¬ cfg.Addressable replica := by
  intro addressable
  obtain ⟨kvSource, handed⟩ :=
    (cfg.kvSourceFrom_ok_iff replica).mpr addressable
  cases failed.symm.trans handed

/-! ## Ending without a trace -/

/-- The bookings and the counters of the three rules that pull. -/
structure Ledger.SameBookings (ledger earlier : Ledger) : Prop where
  books : ledger.toBooks = earlier.toBooks
  migrations : ledger.migrations = earlier.migrations
  rebalances : ledger.rebalances = earlier.rebalances
  followers : ledger.staggerFollowers = earlier.staggerFollowers

/-- Unless the segment returns, it leaves the bookings and the counters as
they were. -/
def Segment.Clean (segment : Segment) (ledger : Ledger) : Prop :=
  (∀ placement, segment.outcome ≠ .returned placement) →
    segment.ledger.SameBookings ledger

section Clean

variable (cfg : Config) {ledger counted : Ledger} {requestId : String}

theorem place_clean
    {turnIndex : Int} {contextSize : ℚ} {rule : Rule}
    {replica : Option String} (same : counted.SameBookings ledger) :
    (counted.place cfg requestId turnIndex contextSize rule
      replica).Clean ledger := by
  intro unreturned
  cases replica with
  | none =>
      exact same
  | some placed =>
      exact absurd rfl (unreturned ⟨placed, none⟩)

theorem gateLoop_clean
    {contextSize deadline now : ℚ} (same : counted.SameBookings ledger) :
    (counted.gateLoop cfg requestId contextSize deadline now).Clean
      ledger := by
  unfold Ledger.gateLoop
  split
  · split
    · exact fun _ => same
    · split
      · exact place_clean cfg same
      · intro _
        exact ⟨same.books, same.migrations, same.rebalances,
          same.followers⟩
  · apply place_clean
    exact ⟨same.books, same.migrations, same.rebalances, same.followers⟩

theorem admitGated_clean
    {contextSize : ℚ} {clock : Clock} (same : counted.SameBookings ledger) :
    (counted.admitGated cfg requestId contextSize clock).Clean
      ledger := by
  have sameCounted :
      Ledger.SameBookings
        { counted with admittedCount := counted.admittedCount + 1 }
        ledger :=
    ⟨same.books, same.migrations, same.rebalances, same.followers⟩
  unfold Ledger.admitGated
  dsimp only
  split
  · exact place_clean cfg sameCounted
  · exact gateLoop_clean cfg sameCounted

theorem lptPlace_clean
    {contextSize : ℚ} {sessionWork : Option ℚ}
    (same : counted.SameBookings ledger) :
    (counted.lptPlace cfg requestId contextSize sessionWork).Clean
      ledger := by
  unfold Ledger.lptPlace
  split
  · exact place_clean cfg same
  · dsimp only
    split
    · intro _
      exact ⟨same.books, same.migrations, same.rebalances, same.followers⟩
    · intro _
      exact ⟨same.books, same.migrations, same.rebalances, same.followers⟩

theorem acquireUngrouped_clean
    {contextSize : ℚ} {sessionWork : Option ℚ} {clock : Clock}
    (same : counted.SameBookings ledger) :
    (counted.acquireUngrouped cfg requestId contextSize sessionWork
      clock).Clean ledger := by
  unfold Ledger.acquireUngrouped
  split
  · exact lptPlace_clean cfg same
  · exact admitGated_clean cfg same

theorem lptFinish_clean
    {contextSize : ℚ} (same : counted.SameBookings ledger) :
    (counted.lptFinish cfg requestId contextSize).Clean ledger := by
  obtain ⟨replica, finish⟩ :=
    Ledger.lptFinish_eq_place cfg counted requestId contextSize
  rw [finish]
  apply place_clean
  exact ⟨same.books, same.migrations, same.rebalances, same.followers⟩

theorem lptWindowOver_clean
    {contextSize : ℚ} (same : counted.SameBookings ledger) :
    (counted.lptWindowOver cfg requestId contextSize).Clean
      ledger := by
  unfold Ledger.lptWindowOver
  dsimp only
  split
  · intro _
    exact ⟨same.books, same.migrations, same.rebalances, same.followers⟩
  · apply lptFinish_clean
    exact ⟨same.books, same.migrations, same.rebalances, same.followers⟩

theorem staggerLead_clean
    {groupKey : String} {contextSize : ℚ}
    (same : counted.SameBookings ledger) :
    (counted.staggerLead cfg requestId groupKey contextSize).Clean
      ledger := by
  unfold Ledger.staggerLead
  dsimp only
  split
  · intro _
    exact ⟨same.books, same.migrations, same.rebalances, same.followers⟩
  · intro unreturned
    exact absurd rfl (unreturned _)

end Clean

/-! ## The paths that pull -/

/-- The segment has booked and counted, and then looked up the address of
`source`. -/
structure Segment.PulledFrom (cfg : Config) (ledger : Ledger)
    (source : String) (segment : Segment) : Prop where
  changed : ¬ segment.ledger.SameBookings ledger
  booked : ∃ booking, segment.booked = some booking
  raised : ¬ cfg.Addressable source →
    ∃ error, segment.outcome = .raised error
  returned : cfg.Addressable source →
    ∃ placement, segment.outcome = .returned placement

theorem moveTo_pulls
    {cfg : Config} {ledger counted : Ledger} {requestId source : String}
    {target : String} {turnIndex : Int} {contextSize : ℚ} {rule : Rule}
    (counts : counted.migrations ≠ ledger.migrations ∨
      counted.rebalances ≠ ledger.rebalances) :
    (counted.moveTo cfg requestId source target turnIndex contextSize
      rule).PulledFrom cfg ledger source := by
  have changed :
      ∀ after : Ledger,
        after = (counted.releaseBooking requestId source
          (turnIndex - 1)).book cfg requestId target turnIndex
            contextSize →
        ¬ after.SameBookings ledger := by
    intro after afterEq same
    subst afterEq
    rcases counts with migrated | rebalanced
    · exact migrated same.migrations
    · exact rebalanced same.rebalances
  unfold Ledger.moveTo
  dsimp only
  split
  · next kvSource handed =>
      have addressable :=
        (cfg.kvSourceFrom_ok_iff source).mp ⟨kvSource, handed⟩
      exact ⟨changed _ rfl, ⟨_, rfl⟩,
        fun lost => absurd addressable lost, fun _ => ⟨_, rfl⟩⟩
  · next error failed =>
      exact ⟨changed _ rfl, ⟨_, rfl⟩, fun _ => ⟨_, rfl⟩,
        fun addressable =>
          absurd addressable (Config.lost_of_error failed)⟩

/-- A later turn of a resident request either moves it, and pulls from its
replica, or raises without a trace. -/
theorem continueOrMigrate_pulls
    {cfg : Config} {ledger : Ledger} {requestId resident target : String}
    {turnIndex : Int} {contextSize : ℚ}
    (found : ledger.resident.get? requestId = some resident)
    (moves :
      cfg.MovesTo (ledger.estimatedFree cfg) resident target contextSize
        (ledger.incrementalNeed requestId turnIndex contextSize)) :
    (ledger.continueOrMigrate cfg requestId turnIndex
      contextSize).PulledFrom cfg ledger resident := by
  obtain ⟨counted, rule, counts, moved⟩ :=
    continueOrMigrate_of_moves found moves
  rw [moved]
  apply moveTo_pulls
  rcases counts with migrated | rebalanced
  · rw [migrated]
    exact .inl (Nat.succ_ne_self _)
  · rw [rebalanced]
    exact .inr (Nat.succ_ne_self _)

theorem continueOrMigrate_clean
    (cfg : Config) {ledger counted : Ledger} {requestId : String}
    {turnIndex : Int} {contextSize : ℚ}
    (same : counted.SameBookings ledger)
    (stays : ∀ resident target,
      counted.resident.get? requestId = some resident →
        ¬ cfg.MovesTo (counted.estimatedFree cfg) resident target
          contextSize
          (counted.incrementalNeed requestId turnIndex contextSize)) :
    (counted.continueOrMigrate cfg requestId turnIndex
      contextSize).Clean ledger := by
  cases found : counted.resident.get? requestId with
  | none =>
      unfold Ledger.continueOrMigrate
      simp only [found]
      exact place_clean cfg same
  | some resident =>
      obtain ⟨rule, segment⟩ := continueOrMigrate_of_stays found
        (fun target => stays resident target found)
      rw [segment]
      exact place_clean cfg same

/-- A follower has someone to follow to another replica. -/
def Ledger.Follows (cfg : Config) (ledger : Ledger)
    (groupKey leader : String) : Prop :=
  ledger.groupLeader.get? groupKey = some leader ∧
    ∃ other ∈ cfg.replicas, other ≠ leader

theorem exists_freest_of_other
    (books : Books) {cfg : Config} {leader : String}
    (others : ∃ other ∈ cfg.replicas, other ≠ leader) :
    ∃ target, books.freest cfg (cfg.othersThan leader) = some target := by
  obtain ⟨other, listed, different⟩ := others
  have member : other ∈ cfg.othersThan leader :=
    List.mem_filter.mpr ⟨listed, decide_eq_true different⟩
  cases freest : books.freest cfg (cfg.othersThan leader) with
  | none =>
      rw [List.argmax_eq_none.mp freest] at member
      cases member
  | some target =>
      exact ⟨target, rfl⟩

theorem staggerFollow_pulls
    {cfg : Config} {ledger : Ledger} {groupKey leader : String}
    (follows : ledger.Follows cfg groupKey leader) (requestId : String)
    (contextSize : ℚ) :
    ∃ segment,
      ledger.staggerFollow cfg requestId groupKey contextSize =
          some segment ∧
        segment.PulledFrom cfg ledger leader := by
  obtain ⟨leads, others⟩ := follows
  obtain ⟨target, freest⟩ := exists_freest_of_other ledger.toBooks others
  simp only [Ledger.staggerFollow, leads, freest]
  cases handed : cfg.kvSourceFrom leader with
  | ok kvSource =>
      have addressable :=
        (cfg.kvSourceFrom_ok_iff leader).mp ⟨kvSource, handed⟩
      exact ⟨_, rfl, fun same => Nat.succ_ne_self _ same.followers,
        ⟨_, rfl⟩, fun lost => absurd addressable lost, fun _ => ⟨_, rfl⟩⟩
  | error error =>
      exact ⟨_, rfl, fun same => Nat.succ_ne_self _ same.followers,
        ⟨_, rfl⟩, fun _ => ⟨_, rfl⟩, fun addressable =>
          absurd addressable (Config.lost_of_error handed)⟩

theorem staggerFollow_eq_none
    {cfg : Config} {ledger : Ledger} {groupKey : String}
    (alone : ∀ leader, ¬ ledger.Follows cfg groupKey leader)
    (requestId : String) (contextSize : ℚ) :
    ledger.staggerFollow cfg requestId groupKey contextSize = none := by
  unfold Ledger.staggerFollow
  split
  · rfl
  · next leader leads =>
      split
      · rfl
      · next target freest =>
          have member := Books.freest_mem freest
          exact absurd
            ⟨leads, target, Config.mem_of_mem_othersThan member,
              Config.ne_of_mem_othersThan member⟩
            (alone leader)

namespace Calls

/-- The call comes to a path that pulls from `source`. -/
inductive Pulls (cfg : Config) (calls : Calls) : Call → String → Prop
  | moved (requestId : String) (args : AcquireArgs) (clock : Clock)
      (resident target : String) (later : 0 < args.turnIndex)
      (home : calls.ledger.resident.get? requestId = some resident)
      (moves :
        cfg.MovesTo (calls.ledger.estimatedFree cfg) resident target
          args.contextSize
          (calls.ledger.incrementalNeed requestId args.turnIndex
            args.contextSize)) :
      Pulls cfg calls (.acquire requestId args clock) resident
  | followed (requestId : String) (args : AcquireArgs) (clock : Clock)
      (groupKey leader : String) (first : ¬ 0 < args.turnIndex)
      (keyed : args.groupKey = some groupKey)
      (staggered : cfg.staggerGroups ∧ groupKey ≠ "")
      (claimed : groupKey ∈ calls.ledger.groupClaimed)
      (released : calls.ledger.groupReady.get? groupKey ≠ some false)
      (follows : calls.ledger.Follows cfg groupKey leader) :
      Pulls cfg calls (.acquire requestId args clock) leader
  | resumed (requestId : String) (clock : Clock) (groupKey leader : String)
      (contextSize : ℚ) (sessionWork : Option ℚ)
      (parked :
        calls.waiting requestId =
          some (.group groupKey contextSize sessionWork))
      (ready : calls.ledger.groupReady.get? groupKey = some true)
      (follows : calls.ledger.Follows cfg groupKey leader) :
      Pulls cfg calls (.resume requestId (.groupReady clock)) leader

end Calls

/-! ## One segment -/

theorem Ledger.hintSessionFinal_sameBookings
    (ledger : Ledger) (requestId : String) (sessionFinal : Option ℚ) :
    (ledger.hintSessionFinal requestId sessionFinal).SameBookings
      ledger := by
  cases sessionFinal <;> exact ⟨rfl, rfl, rfl, rfl⟩

theorem Ledger.Follows.of_groups
    {cfg : Config} {ledger earlier : Ledger} {groupKey leader : String}
    (follows : earlier.Follows cfg groupKey leader)
    (groups : ledger.toGroupTables = earlier.toGroupTables) :
    ledger.Follows cfg groupKey leader := by
  unfold Ledger.Follows at follows ⊢
  rw [groups]
  exact follows

theorem Segment.PulledFrom.of_same
    {cfg : Config} {ledger earlier : Ledger} {source : String}
    {segment : Segment} (pulled : segment.PulledFrom cfg ledger source)
    (same : ledger.SameBookings earlier) :
    segment.PulledFrom cfg earlier source where
  changed := by
    intro unchanged
    exact pulled.changed
      ⟨unchanged.books.trans same.books.symm,
        unchanged.migrations.trans same.migrations.symm,
        unchanged.rebalances.trans same.rebalances.symm,
        unchanged.followers.trans same.followers.symm⟩
  booked := pulled.booked
  raised := pulled.raised
  returned := pulled.returned

theorem acquire_follows
    {cfg : Config} {ledger : Ledger} {args : AcquireArgs}
    {groupKey leader : String} (requestId : String) (clock : Clock)
    (first : ¬ 0 < args.turnIndex) (keyed : args.groupKey = some groupKey)
    (staggered : cfg.staggerGroups ∧ groupKey ≠ "")
    (claimed : groupKey ∈ ledger.groupClaimed)
    (released : ledger.groupReady.get? groupKey ≠ some false)
    (follows : ledger.Follows cfg groupKey leader) :
    (ledger.acquire cfg requestId args clock).PulledFrom cfg ledger
      leader := by
  have hinted := ledger.hintSessionFinal_sameBookings requestId
    args.sessionFinal
  have groups :=
    (Ledger.hintSessionFinal_counted ledger requestId
      args.sessionFinal).groups
  obtain ⟨segment, found, pulled⟩ :=
    staggerFollow_pulls (follows.of_groups groups) requestId
      args.contextSize
  have run : ledger.acquire cfg requestId args clock = segment := by
    have claimedToo : ¬ groupKey ∉ (ledger.hintSessionFinal requestId
        args.sessionFinal).groupClaimed := by
      rw [groups]
      exact not_not.mpr claimed
    have releasedToo : (ledger.hintSessionFinal requestId
        args.sessionFinal).groupReady.get? groupKey ≠ some false := by
      rw [groups]
      exact released
    unfold Ledger.acquire
    simp only [if_neg first, keyed, if_pos staggered]
    unfold Ledger.staggerPlace
    rw [if_neg claimedToo]
    split
    · next held =>
        exact absurd held releasedToo
    · rw [found]
  rw [run]
  exact pulled.of_same hinted

namespace Calls

variable {cfg : Config} {calls : Calls} {call : Call} {requestId : String}
variable {turnIndex : Int} {segment : Segment}

theorem Pulls.pulledFrom
    {source : String} (pulls : calls.Pulls cfg call source)
    (started : calls.Started cfg call requestId turnIndex segment) :
    segment.PulledFrom cfg calls.ledger source := by
  cases pulls with
  | moved _ args clock resident target later home moves =>
      cases started with
      | acquired _ _ _ free =>
          have hinted := calls.ledger.hintSessionFinal_sameBookings
            requestId args.sessionFinal
          have run :
              calls.ledger.acquire cfg requestId args clock =
                (calls.ledger.hintSessionFinal requestId
                  args.sessionFinal).continueOrMigrate cfg requestId
                    args.turnIndex args.contextSize :=
            if_pos later
          rw [run]
          rw [← hinted.books] at home moves
          exact (continueOrMigrate_pulls home moves).of_same hinted
  | followed _ args clock groupKey leader first keyed staggered claimed
      released follows =>
      cases started with
      | acquired _ _ _ free =>
          exact acquire_follows requestId clock first keyed staggered
            claimed released follows
  | resumed _ clock groupKey leader contextSize sessionWork parked ready
      follows =>
      cases started with
      | resumed _ _ waiting _ waits ran =>
          cases parked.symm.trans waits
          obtain ⟨followed, found, pulled⟩ :=
            staggerFollow_pulls follows requestId contextSize
          simp only [Ledger.resume, ready, if_true, found,
            Option.some.injEq] at ran
          subst ran
          exact pulled

/-- A first segment that pulls from nowhere. -/
theorem acquire_clean
    {args : AcquireArgs} {clock : Clock}
    (pullsNot : ∀ source,
      ¬ calls.Pulls cfg (.acquire requestId args clock) source) :
    (calls.ledger.acquire cfg requestId args clock).Clean
      calls.ledger := by
  have hinted := calls.ledger.hintSessionFinal_sameBookings requestId
    args.sessionFinal
  have groups :=
    (Ledger.hintSessionFinal_counted calls.ledger requestId
      args.sessionFinal).groups
  unfold Ledger.acquire
  dsimp only
  split
  · next later =>
      apply continueOrMigrate_clean cfg hinted
      intro resident target home moves
      rw [hinted.books] at home moves
      exact pullsNot resident
        (.moved requestId args clock resident target later home moves)
  · next first =>
      split
      · next groupKey keyed =>
          split
          · next staggered =>
              unfold Ledger.staggerPlace
              split
              · exact staggerLead_clean cfg hinted
              · next claimed =>
                  split
                  · exact fun _ => hinted
                  · next released =>
                      rw [groups] at claimed released
                      have alone : ∀ leader,
                          ¬ (calls.ledger.hintSessionFinal requestId
                            args.sessionFinal).Follows cfg groupKey
                              leader := by
                        intro leader follows
                        exact pullsNot leader
                          (.followed requestId args clock groupKey leader
                            first keyed staggered (not_not.mp claimed)
                            released (follows.of_groups groups.symm))
                      rw [staggerFollow_eq_none alone]
                      exact acquireUngrouped_clean cfg hinted
          · exact acquireUngrouped_clean cfg hinted
      · exact acquireUngrouped_clean cfg hinted

/-- A later segment that pulls from nowhere. -/
theorem resume_clean
    {waiting : Waiting} {wakeup : Wakeup}
    (parked : calls.waiting requestId = some waiting)
    (ran :
      calls.ledger.resume cfg requestId waiting wakeup = some segment)
    (pullsNot : ∀ source,
      ¬ calls.Pulls cfg (.resume requestId wakeup) source) :
    segment.Clean calls.ledger := by
  have same : calls.ledger.SameBookings calls.ledger :=
    ⟨rfl, rfl, rfl, rfl⟩
  cases waiting with
  | poll contextSize deadline =>
      cases wakeup <;> simp only [Ledger.resume, Option.some.injEq,
        reduceCtorEq] at ran
      subst ran
      exact gateLoop_clean cfg same
  | group groupKey contextSize sessionWork =>
      cases wakeup <;> simp only [Ledger.resume, Option.some.injEq,
        reduceCtorEq] at ran
      · next clock =>
          split at ran
          · next ready =>
              have alone : ∀ leader,
                  ¬ calls.ledger.Follows cfg groupKey leader := by
                intro leader follows
                exact pullsNot leader
                  (.resumed requestId clock groupKey leader contextSize
                    sessionWork parked ready follows)
              rw [staggerFollow_eq_none alone] at ran
              cases ran
              exact acquireUngrouped_clean cfg same
          · cases ran
      · subst ran
        apply acquireUngrouped_clean
        exact ⟨rfl, rfl, rfl, rfl⟩
  | lptWindow contextSize =>
      cases wakeup <;> simp only [Ledger.resume, Option.some.injEq,
        reduceCtorEq] at ran
      subst ran
      exact lptWindowOver_clean cfg same
  | lptEvent contextSize =>
      cases wakeup <;> simp only [Ledger.resume, Option.some.injEq,
        reduceCtorEq] at ran
      · split at ran
        · cases ran
          exact lptFinish_clean cfg same
        · cases ran
      · subst ran
        exact place_clean cfg same

theorem Started.clean
    (started : calls.Started cfg call requestId turnIndex segment)
    (pullsNot : ∀ source, ¬ calls.Pulls cfg call source) :
    segment.Clean calls.ledger := by
  cases started with
  | acquired _ args clock free =>
      exact acquire_clean pullsNot
  | resumed _ wakeup waiting _ parked ran =>
      exact resume_clean parked ran pullsNot

theorem Started.clean_of_addressable
    (started : calls.Started cfg call requestId turnIndex segment)
    (addressable : ∀ source, calls.Pulls cfg call source →
      cfg.Addressable source) :
    segment.Clean calls.ledger := by
  by_cases pulling : ∃ source, calls.Pulls cfg call source
  · obtain ⟨source, pulls⟩ := pulling
    obtain ⟨placement, returned⟩ :=
      (pulls.pulledFrom started).returned (addressable source pulls)
    intro unreturned
    exact absurd returned (unreturned placement)
  · exact started.clean (not_exists.mp pulling)

/-! ## Runs -/

/-- Whatever segment the call starts, unless it returns, bookings and
counters are as they were. -/
def LeavesNoTrace (cfg : Config) (calls : Calls) (call : Call) : Prop :=
  ∀ requestId turnIndex segment,
    calls.Started cfg call requestId turnIndex segment →
      segment.Clean calls.ledger

/-- The replica the call would pull from, if there is one, has a listener
address. -/
def SourcesAddressable (cfg : Config) (calls : Calls) (call : Call) :
    Prop :=
  ∀ source, calls.Pulls cfg call source → cfg.Addressable source

theorem Started.clean_iff
    (started : calls.Started cfg call requestId turnIndex segment) :
    segment.Clean calls.ledger ↔ calls.SourcesAddressable cfg call := by
  constructor
  · intro clean source pulls
    have pulled := pulls.pulledFrom started
    by_contra lost
    obtain ⟨error, raised⟩ := pulled.raised lost
    apply pulled.changed
    apply clean
    intro placement returned
    cases raised.symm.trans returned
  · exact started.clean_of_addressable

/-- One call that runs. -/
theorem leavesNoTrace_iff
    {next : Calls} (stepped : calls.step cfg call = some next) :
    calls.LeavesNoTrace cfg call ↔ calls.SourcesAddressable cfg call := by
  rcases step_cases stepped with
    ⟨requestId, turnIndex, segment, started, _⟩ |
    ⟨requestId, turnIndex, contextSize, rfl, _⟩ | ⟨requestId, rfl, _⟩
  · constructor
    · intro clean
      exact started.clean_iff.mp
        (clean requestId turnIndex segment started)
    · intro addressable _ _ _ other
      exact other.clean_iff.mpr addressable
  · refine iff_of_true ?_ ?_
    · intro _ _ _ impossible
      cases impossible
    · intro source impossible
      cases impossible
  · refine iff_of_true ?_ ?_
    · intro _ _ _ impossible
      cases impossible
    · intro source impossible
      cases impossible

end Calls

end LlmDRl.Admission
