import LlmDRl.Admission.Balance
import LlmDRl.Admission.Stagger

/-!
# The sources handed to trajectories

A placement with a source tells the server where to pull KV from.  Over runs
of the client protocol a source is either the replica the trajectory itself
was placed on before, or the leader's replica.  The leader has then reported
its turn 0, but it reports it from a `finally` block, whatever became of the
generation: only when no leader reports a failed turn 0 has a leader whose
replica is handed out computed anything there.
-/

namespace LlmDRl.Admission

open LlmDRl.Library
open scoped List NNRat

namespace Clients

/-- A leader whose turn 0 was generated and then recorded. -/
def computed (leaderRid : String) : List Notice :=
  [.recorded leaderRid 0, .generated leaderRid 0 true]

/-- A source is handed to a follower, or names an earlier replica of the
trajectory itself. -/
def SourceKnown (cfg : Config) : Notice → List Notice → Prop
  | .segment requestId turnIndex booked (.returned placement), past =>
      ∀ source, placement.kvSource = some source →
        (∃ groupKey,
          booked = some ⟨placement.replica, .follower groupKey⟩) ∨
        0 < turnIndex ∧
          ∃ home earlierTurn rule outcome,
            .segment requestId earlierTurn (some ⟨home, rule⟩) outcome ∈
              past ∧
            cfg.p2pAddress home = .ok source
  | _, _ => True

/-- Turn 0 of a group's leader is not reported after a failed generation. -/
def LeaderSucceeded (clients : Clients) : ClientEvent → Prop
  | .recordTurn requestId _ =>
      clients.phase requestId = .generated 0 false →
        clients.calls.ledger.groupLeaderRid.get? requestId = none
  | _ => True

instance (clients : Clients) (event : ClientEvent) :
    Decidable (clients.LeaderSucceeded event) := by
  unfold LeaderSucceeded
  split <;> infer_instance

/-- What holds of placements and sources in every state of a run without a
failed leader. -/
structure SourcesConsistent (cfg : Config) (clients : Clients) : Prop where
  groups :
    GroupsConsistent computed cfg clients.calls.ledger.toGroupTables
      clients.calls.log
  generated : ∀ requestId succeeded,
    clients.phase requestId = .generated 0 succeeded →
      ∀ groupKey replica turnIndex,
        .ledBy groupKey requestId replica turnIndex ∈ clients.calls.log →
          [.generated requestId 0 succeeded,
            .ledBy groupKey requestId replica turnIndex] <+
              clients.calls.log
  placed : ∀ requestId replica,
    clients.books.resident.get? requestId = some replica →
      ∃ turnIndex rule outcome,
        .segment requestId turnIndex (some ⟨replica, rule⟩) outcome ∈
          clients.calls.log
  known : EachWithPast (SourceKnown cfg) clients.calls.log

namespace SourcesConsistent

variable {cfg : Config} {clients : Clients}

/-- A notice about one trajectory leaves the order known of the others. -/
theorem generated_of_ne
    (consistent : clients.SourcesConsistent cfg)
    {notice : Notice} {requestId other : String} {phase : Phase}
    {succeeded : Bool}
    (different : other ≠ requestId)
    (foreign : ∀ groupKey replica turnIndex,
      notice ≠ .ledBy groupKey other replica turnIndex)
    (ended :
      Function.update clients.phase requestId phase other =
        .generated 0 succeeded)
    (groupKey replica : String) (turnIndex : Int)
    (member :
      .ledBy groupKey other replica turnIndex ∈
        notice :: clients.calls.log) :
    [.generated other 0 succeeded,
        .ledBy groupKey other replica turnIndex] <+
      notice :: clients.calls.log := by
  rw [Function.update_of_ne different] at ended
  rcases List.mem_cons.mp member with same | older
  · exact absurd same.symm (foreign groupKey replica turnIndex)
  · exact (consistent.generated other succeeded ended groupKey replica
      turnIndex older).cons notice

/-- A step that does not end a generation of turn 0 leaves the order known. -/
theorem generated_of_update
    (consistent : clients.SourcesConsistent cfg)
    {notice : Notice} {requestId other : String} {phase : Phase}
    {succeeded : Bool}
    (leaves : ∀ succeeded, phase ≠ .generated 0 succeeded)
    (foreign : other ≠ requestId → ∀ groupKey replica turnIndex,
      notice ≠ .ledBy groupKey other replica turnIndex)
    (ended :
      Function.update clients.phase requestId phase other =
        .generated 0 succeeded)
    (groupKey replica : String) (turnIndex : Int)
    (member :
      .ledBy groupKey other replica turnIndex ∈
        notice :: clients.calls.log) :
    [.generated other 0 succeeded,
        .ledBy groupKey other replica turnIndex] <+
      notice :: clients.calls.log := by
  by_cases here : other = requestId
  · subst other
    rw [Function.update_self] at ended
    exact absurd ended (leaves succeeded)
  · exact consistent.generated_of_ne here (foreign here) ended groupKey
      replica turnIndex member

/-- What was placed stays so under a longer log. -/
theorem placed_cons
    (consistent : clients.SourcesConsistent cfg) (notice : Notice)
    {requestId replica : String}
    (home : clients.books.resident.get? requestId = some replica) :
    ∃ turnIndex rule outcome,
      .segment requestId turnIndex (some ⟨replica, rule⟩) outcome ∈
        notice :: clients.calls.log := by
  obtain ⟨index, rule, outcome, member⟩ :=
    consistent.placed requestId replica home
  exact ⟨index, rule, outcome, List.mem_cons_of_mem notice member⟩

/-- Every segment keeps the sources known. -/
theorem runSegment
    (consistent : clients.SourcesConsistent cfg)
    {requestId : String} {turn : Nat} {turnIndex : Int}
    {contextSize : ℚ} {segment : Segment}
    (groups :
      segment.Groups cfg clients.calls.ledger requestId turnIndex)
    (spec :
      segment.Spec cfg clients.calls.ledger requestId turnIndex
        contextSize) :
    (clients.runSegment turn
      (requestId, turnIndex, segment)).SourcesConsistent cfg where
  groups := consistent.groups.segment groups
  generated := by
    intro other succeeded ended
    refine consistent.generated_of_update ?_ ?_ ended
    · intro succeeded
      cases segment.outcome <;> simp [Phase.afterSegment]
    · intro different groupKey replica index same
      exact different (Notice.segment.inj same).1.symm
  placed := by
    intro other replica home
    by_cases here : other = requestId
    · subst other
      have resident := spec.effect.resident_eq
      change segment.ledger.resident.get? requestId = some replica
        at home
      rw [resident] at home
      cases booked : segment.booked with
      | none =>
          rw [booked] at home
          exact consistent.placed_cons _ home
      | some booking =>
          rw [booked] at home
          cases home
          exact ⟨turnIndex, booking.rule, segment.outcome,
            List.mem_cons.mpr (.inl (by rw [← booked]))⟩
    · have elsewhere := (spec.effect.sameElsewhere other here).1
      exact consistent.placed_cons _ (elsewhere.symm.trans home)
  known := by
    refine ⟨?_, consistent.known⟩
    unfold Segment.Groups at groups
    generalize segment.booked = booked at groups ⊢
    generalize segment.outcome = outcome at groups ⊢
    generalize segment.ledger.toGroupTables = after at groups
    cases groups with
    | ungrouped rule source =>
        cases outcome with
        | returned placement =>
            intro address handed
            obtain ⟨later, resident, home, addressEq⟩ :=
              source placement address rfl handed
            obtain ⟨index, rule, outcome, member⟩ :=
              consistent.placed requestId resident home
            exact .inr ⟨later, resident, index, rule, outcome, member,
              addressEq⟩
        | suspended waiting =>
            trivial
        | raised error =>
            trivial
    | claimed groupKey error fresh =>
        trivial
    | led groupKey replica fresh =>
        intro address impossible
        cases impossible
    | followed groupKey leader target opened leads different source =>
        cases outcome with
        | returned placement =>
            intro address handed
            obtain ⟨rfl, _⟩ := source placement rfl
            exact .inl ⟨groupKey, rfl⟩
        | suspended waiting =>
            trivial
        | raised error =>
            trivial

theorem step
    {next : Clients} {event : ClientEvent}
    (consistent : clients.SourcesConsistent cfg)
    (leaders : clients.LeaderSucceeded event)
    (stepped : clients.step cfg event = some next) :
    next.SourcesConsistent cfg := by
  cases stepped_of_step stepped with
  | acquired requestId contextSize hint clock turn due =>
      exact consistent.runSegment
        (Ledger.acquire_groups cfg clients.calls.ledger requestId
          (hint.args turn contextSize) clock)
        (Ledger.acquire_spec cfg clients.calls.ledger requestId
          (hint.args turn contextSize) clock (Int.natCast_nonneg turn))
  | resumed requestId wakeup waiting segment acquiring parked ran =>
      exact consistent.runSegment
        (Ledger.resume_groups cfg clients.calls.ledger requestId ran)
        (Ledger.resume_spec cfg clients.calls.ledger requestId ran)
  | generated requestId succeeded turn placed =>
      refine
        { groups := consistent.groups.cons (fun _ => rfl) trivial
          generated := ?_
          placed := ?_
          known := ⟨trivial, consistent.known⟩ }
      · intro other outcome ended groupKey replica index member
        by_cases here : other = requestId
        · subst other
          change
            Function.update clients.phase requestId
              (.generated turn succeeded) requestId = _ at ended
          rw [Function.update_self] at ended
          cases ended
          rcases List.mem_cons.mp member with impossible | older
          · cases impossible
          · exact (List.singleton_sublist.mpr older).cons_cons _
        · exact consistent.generated_of_ne here
            (fun _ _ _ => by simp [Notice.ledBy]) ended groupKey replica
            index member
      · intro other replica home
        exact consistent.placed_cons _ home
  | recorded requestId contextSize turn succeeded ended =>
      refine
        { groups := ?_
          generated := ?_
          placed := ?_
          known := ⟨trivial, consistent.known⟩ }
      · refine consistent.groups.recordTurn requestId turn contextSize ?_
        intro first groupKey replica index leads member
        obtain rfl : turn = 0 := by exact_mod_cast first
        cases succeeded with
        | true =>
            exact (consistent.generated requestId true ended groupKey
              replica index member).cons_cons _
        | false =>
            cases (leaders ended).symm.trans leads
      · intro other outcome ended' groupKey replica index member
        exact consistent.generated_of_update (fun _ => by simp)
          (fun _ _ _ _ => by simp [Notice.ledBy]) ended' groupKey replica
          index member
      · intro other replica home
        have kept :
            (clients.calls.ledger.recordTurn cfg requestId turn
                contextSize).toBooks.resident.get? other =
              clients.books.resident.get? other := by
          rw [Ledger.recordTurn_toBooks, Books.resident_recordTurn]
          rfl
        exact consistent.placed_cons _ (kept.symm.trans home)
  | finished requestId turn last =>
      refine
        { groups := consistent.groups.cons (fun _ => rfl) trivial
          generated := ?_
          placed := ?_
          known := ⟨trivial, consistent.known⟩ }
      · intro other outcome ended groupKey replica index member
        exact consistent.generated_of_update (fun _ => by simp)
          (fun _ _ _ _ => by simp [Notice.ledBy]) ended groupKey replica
          index member
      · intro other replica home
        change
          (clients.books.onTrajectoryDone requestId).resident.get?
            other = some replica at home
        by_cases here : other = requestId
        · subst other
          have gone :=
            (Books.bookedUpTo_onTrajectoryDone clients.books requestId).1
          cases gone.symm.trans home
        · have elsewhere :=
            (Books.sameElsewhere_onTrajectoryDone clients.books requestId
              other here).1
          exact consistent.placed_cons _ (elsewhere.symm.trans home)

end SourcesConsistent

theorem sourcesConsistent_init (cfg : Config) :
    (init cfg).SourcesConsistent cfg where
  groups := groupsConsistent_init cfg
  generated := by
    intro requestId succeeded ended
    cases ended
  placed := by
    intro requestId replica home
    cases home
  known := trivial

/-- In a run in which no leader reports a failed turn 0, every source handed
to a trajectory names its own group's leader's replica, on which the leader's
turn 0 was generated before, or at a later turn a replica the trajectory was
placed on itself. -/
theorem sources_follow_leader_success
    (cfg : Config) (events : List ClientEvent) (final : Clients)
    (ran : run (step cfg) (init cfg) events = some final)
    (leaders : StepsMeet (step cfg) LeaderSucceeded (init cfg) events) :
    ∀ later requestId turnIndex booked placement past source,
      final.calls.log =
          later ++
            .segment requestId turnIndex booked
              (.returned placement) :: past →
      placement.kvSource = some source →
        (∃ groupKey leaderRid leaderTurn leader,
          booked = some ⟨placement.replica, .follower groupKey⟩ ∧
          [.recorded leaderRid 0, .generated leaderRid 0 true,
            .segment leaderRid leaderTurn
              (some ⟨leader, .leader groupKey⟩)
              (.returned ⟨leader, none⟩)] <+ past ∧
          placement.replica ≠ leader ∧
          cfg.p2pAddress leader = .ok source) ∨
        (0 < turnIndex ∧
          ∃ home earlierTurn rule outcome,
            .segment requestId earlierTurn (some ⟨home, rule⟩) outcome ∈
              past ∧
            cfg.p2pAddress home = .ok source) := by
  have consistent : final.SourcesConsistent cfg :=
    run_invariant_of_stepsMeet
      (fun _ _ _ kept succeeded stepped =>
        SourcesConsistent.step kept succeeded stepped)
      (sourcesConsistent_init cfg) leaders ran
  intro later requestId turnIndex booked placement past source split
    handed
  have known :=
    (eachWithPast_iff _ _).mp consistent.known later _ past split
  rcases known source handed with ⟨groupKey, rfl⟩ | own
  · have follows :=
      (eachWithPast_iff _ _).mp consistent.groups.follows later _ past
        split
    obtain ⟨leader, ⟨leaderRid, leaderTurn, ordered⟩, different, named⟩ :=
      follows
    exact .inl ⟨groupKey, leaderRid, leaderTurn, leader, rfl, ordered,
      different, (named placement rfl).2 source handed⟩
  · exact .inr own

/-- A leader and a parked member of one group; the leader's generation ends,
its turn is reported, and the member is released. -/
def leaderEnds (succeeded : Bool) : List ClientEvent :=
  [.acquire "lead" 1 ⟨none, none, some "g"⟩ ⟨0, 0⟩,
    .acquire "member" 1 ⟨none, none, some "g"⟩ ⟨0, 0⟩,
    .generateEnds "lead" succeeded,
    .recordTurn "lead" 1,
    .resume "member" (.groupReady ⟨0, 0⟩)]

theorem sources_follow_leader_success_generated :
    ∃ final past,
      run (step staggered) (init staggered) (leaderEnds true) =
          some final ∧
        final.calls.log =
          .segment "member" 0 (some ⟨"B", .follower "g"⟩)
            (.returned ⟨"B", some "127.0.7.1:7777"⟩) :: past ∧
        ∃ leaderRid leaderTurn leader,
          [.recorded leaderRid 0, .generated leaderRid 0 true,
            .segment leaderRid leaderTurn (some ⟨leader, .leader "g"⟩)
              (.returned ⟨leader, none⟩)] <+ past := by
  obtain ⟨final, ran, reached⟩ :=
    exists_final_of_map_eq
      (show (run (step staggered) (init staggered)
          (leaderEnds true)).map
        (fun final => decide (final.calls.log.head? = some
          (.segment "member" 0 (some ⟨"B", .follower "g"⟩)
            (.returned ⟨"B", some "127.0.7.1:7777"⟩)))) =
          some true by decide +kernel)
  obtain ⟨past, split⟩ :=
    List.head?_eq_some_iff.mp (of_decide_eq_true reached)
  have explained := sources_follow_leader_success staggered
    (leaderEnds true) final ran (by decide +kernel) [] _ _ _ _ past _
    split rfl
  rcases explained with
    ⟨groupKey, leaderRid, leaderTurn, leader, booked, ordered, _⟩ |
      ⟨later, _⟩
  · cases booked
    exact ⟨final, past, ran, split, leaderRid, leaderTurn, leader,
      ordered⟩
  · exact absurd later (lt_irrefl 0)

/-- A leader whose generation raised releases its follower all the same, with
the leader's address as its source. -/
theorem failed_leader_is_handed_out :
    ∃ final,
      run (step staggered) (init staggered) (leaderEnds false) =
          some final ∧
        final.calls.log =
          [.segment "member" 0 (some ⟨"B", .follower "g"⟩)
              (.returned ⟨"B", some "127.0.7.1:7777"⟩),
            .recorded "lead" 0,
            .generated "lead" 0 false,
            .segment "member" 0 none
              (.suspended (.group "g" 1 none)),
            .segment "lead" 0 (some ⟨"A", .leader "g"⟩)
              (.returned ⟨"A", none⟩)] ∧
        staggered.p2pAddress "A" = .ok "127.0.7.1:7777" := by
  obtain ⟨final, ran, reached⟩ :=
    exists_final_of_map_eq
      (show (run (step staggered) (init staggered)
          (leaderEnds false)).map
        (fun final => decide (final.calls.log =
          [.segment "member" 0 (some ⟨"B", .follower "g"⟩)
              (.returned ⟨"B", some "127.0.7.1:7777"⟩),
            .recorded "lead" 0,
            .generated "lead" 0 false,
            .segment "member" 0 none
              (.suspended (.group "g" 1 none)),
            .segment "lead" 0 (some ⟨"A", .leader "g"⟩)
              (.returned ⟨"A", none⟩)])) = some true by decide +kernel)
  exact ⟨final, ran, of_decide_eq_true reached, by rfl⟩

end Clients

end LlmDRl.Admission
