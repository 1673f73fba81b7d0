import LlmDRl.Admission.Replicas
import LlmDRl.Admission.Stagger
import LlmDRl.Library.JsonRoundTrip
import LlmDRl.Registration.Roles

/-!
# The listener behind a source

A placement that pulls names its source by a text, which the client takes
apart into the host and the port of a listener.  Three parts of the system have
to agree on it: the ledger, which computes it from a replica's place in its
list; `P2PVLLMHttpServer.launch_server`, which binds the listener of a rank; and
`WaveAdmissionLLMClient.generate`.  The hosts of the ledger and of the fleet are
computed alike, but each of the two has a setting of its own for the port.
-/

namespace LlmDRl.Admission

open LlmDRl.Library
open LlmDRl.Registration (splitLast splitLast_append toList_toString_injective)
open scoped List

/-! ## Servers and clients -/

/-- `VLLM_P2P_SIDE_CHANNEL_HOST` and `VLLM_P2P_SIDE_CHANNEL_PORT`. -/
structure Listener where
  host : String
  port : Int
  deriving DecidableEq, Repr

/-- `_p2p_listener_port`, given `VERL_P2P_CONNECTOR_PORT` if it is set. -/
def p2pListenerPort (connectorPort : Option Int) : Int :=
  connectorPort.getD 7777

/-- What `launch_server` of a replica binds. -/
def launchServer (connectorPort : Option Int) (replicaRank : Nat) :
    Except PyError Listener :=
  (p2pListenerHost replicaRank).map fun host =>
    ⟨host, p2pListenerPort connectorPort⟩

/-- `text.rpartition(sep)`, without the separator. -/
def rpartition (sep : Char) (text : List Char) : List Char × List Char :=
  (splitLast sep text).getD ([], text)

/-- `int(text)` on a sign and ASCII digits. -/
def intOf (text : List Char) : Option Int :=
  let sign := Json.splitSign text
  if sign.2 ≠ [] ∧ sign.2.all Char.isDigit then
    let value : Int := Nat.ofDigitChars 10 sign.2 0
    some (if sign.1 = ['-'] then -value else value)
  else
    none

/-- `remote_kv_source` as `generate` makes it, without the fresh request id;
`none` is the `ValueError` of `int`. -/
def remoteKvSource (kvSource : String) : Option Listener :=
  let parts := rpartition ':' kvSource.toList
  (intOf parts.2).map fun port => ⟨String.ofList parts.1, port⟩

theorem intOf_toString (value : Int) :
    intOf (toString value).toList = some value := by
  have digits := Json.isDigits_toDigits value.natAbs
  have all : (Nat.toDigits 10 value.natAbs).all Char.isDigit = true :=
    List.all_eq_true.mpr digits.2
  have number := Nat.ofDigitChars_ten_toDigits (n := value.natAbs)
  rw [Json.toList_toString_int]
  by_cases negative : value < 0
  · rw [if_pos negative]
    simp only [intOf, List.singleton_append, Json.splitSign, digits.1, all,
      number, ne_eq, not_false_eq_true, and_self, if_true]
    congr 1
    omega
  · have unsigned : Json.splitSign (Nat.toDigits 10 value.natAbs) =
        ([], Nat.toDigits 10 value.natAbs) := by
      unfold Json.splitSign
      split
      · next rest same => exact absurd (digits.2 '-' (by simp [same])) (by decide)
      · next rest same => exact absurd (digits.2 '+' (by simp [same])) (by decide)
      · rfl
    rw [if_neg negative, List.nil_append]
    simp only [intOf, unsigned, digits.1, all, number, ne_eq,
      not_false_eq_true, and_self, if_true]
    have plain : ¬ (([] : List Char) = ['-']) := by simp
    rw [if_neg plain]
    congr 1
    omega

/-- The client takes an address apart where the ledger has put it
together. -/
theorem remoteKvSource_address (host : String) (port : Int) :
    remoteKvSource s!"{host}:{port}" = some ⟨host, port⟩ := by
  have noColon : ':' ∉ (toString port).toList := by
    rw [Json.toList_toString_int]
    intro member
    obtain sign | digits := List.mem_append.mp member
    · split at sign <;> simp at sign
    · exact absurd ((Json.isDigits_toDigits _).2 ':' digits) (by decide)
  have text : (s!"{host}:{port}").toList =
      host.toList ++ ':' :: (toString port).toList := by
    have colon : (toString ":").toList = [':'] := by
      decide
    have same : toString host = host := rfl
    rw [String.toList_append, String.toList_append, colon, same]
    simp
  unfold remoteKvSource rpartition
  rw [text, splitLast_append noColon]
  simp only [Option.getD_some, intOf_toString, Option.map_some,
    String.ofList_toList]

/-- No two ranks have one host. -/
theorem p2pListenerHost_injective {rank other : Nat} {host : String}
    (here : p2pListenerHost rank = .ok host)
    (there : p2pListenerHost other = .ok host) : rank = other := by
  have named : ∀ {index : Nat}, p2pListenerHost index = .ok host →
      host = s!"127.0.7.{index + 1}" := by
    intro index found
    unfold p2pListenerHost at found
    split at found
    · cases found
    · exact (Except.ok.inj found).symm
  have chars := congrArg String.toList ((named here).symm.trans (named there))
  rw [String.toList_append, String.toList_append] at chars
  have ranks := toList_toString_injective (List.append_cancel_left chars)
  omega

/-- A source has the host of the replica it was computed for, and the ledger's
port. -/
theorem exists_rank_of_p2pAddress {cfg : Config} {replica address : String}
    (found : cfg.p2pAddress replica = .ok address) :
    ∃ rank host, cfg.replicas[rank]? = some replica ∧
      p2pListenerHost rank = .ok host ∧
      remoteKvSource address = some ⟨host, cfg.p2pPort⟩ := by
  unfold Config.p2pAddress at found
  split at found
  · cases found
  · next rank index =>
      cases host : p2pListenerHost rank with
      | error error =>
          rw [host] at found
          cases found
      | ok name =>
          rw [host] at found
          obtain rfl := Except.ok.inj found
          obtain ⟨inside, same, _⟩ := List.idxOf?_eq_some_iff.mp index
          refine ⟨rank, name, ?_, host,
            remoteKvSource_address name cfg.p2pPort⟩
          rw [List.getElem?_eq_getElem inside, same]

theorem launchServer_eq_ok_iff {connectorPort : Option Int} {rank : Nat}
    {listener : Listener} :
    launchServer connectorPort rank = .ok listener ↔
      p2pListenerHost rank = .ok listener.host ∧
        p2pListenerPort connectorPort = listener.port := by
  unfold launchServer
  cases host : p2pListenerHost rank with
  | error error => simp [Except.map]
  | ok name =>
      obtain ⟨bound, port⟩ := listener
      simp [Except.map]

/-- No other rank has the listener. -/
theorem launchServer_iff_of_host {rank : Nat} {host : String} {port : Int}
    (bound : p2pListenerHost rank = .ok host) (connectorPort : Option Int)
    (other : Nat) :
    launchServer connectorPort other = .ok ⟨host, port⟩ ↔
      other = rank ∧ p2pListenerPort connectorPort = port := by
  rw [launchServer_eq_ok_iff]
  refine and_congr_left fun _ => ?_
  constructor
  · intro there
    exact p2pListenerHost_injective there bound
  · rintro rfl
    exact bound

/-! ## Where a source comes from -/

/-- The replica that a placement pulls from: the one the request is on, or for
a follower the leader's of its open group. -/
inductive PulledReplica (ledger : Ledger) (requestId : String)
    (turnIndex : Int) (booked : Option Booking) : String → Prop
  | resident {replica : String} (later : 0 < turnIndex)
      (found : ledger.resident.get? requestId = some replica) :
      PulledReplica ledger requestId turnIndex booked replica
  | leader {replica : String} (groupKey target : String)
      (first : ¬ 0 < turnIndex)
      (follows : booked = some ⟨target, .follower groupKey⟩)
      (opened : ledger.Open groupKey)
      (leads : ledger.groupLeader.get? groupKey = some replica) :
      PulledReplica ledger requestId turnIndex booked replica

/-- A placement of the segment that names a source names the one of another
replica, which it pulls from. -/
def Segment.Pulling (cfg : Config) (ledger : Ledger) (requestId : String)
    (turnIndex : Int) (segment : Segment) : Prop :=
  ∀ placement source, segment.outcome = .returned placement →
    placement.kvSource = some source →
      ∃ replica,
        PulledReplica ledger requestId turnIndex segment.booked replica ∧
          placement.replica ≠ replica ∧ cfg.p2pAddress replica = .ok source

section Branches

variable {cfg : Config} {ledger : Ledger} {requestId : String}
  {contextSize : ℚ} {turnIndex : Int} {segment : Segment}

theorem PulledReplica.of_same
    {earlier : Ledger} {booked : Option Booking} {replica : String}
    (pulled : PulledReplica ledger requestId turnIndex booked replica)
    (books : ledger.toBooks = earlier.toBooks)
    (groups : ledger.toGroupTables = earlier.toGroupTables) :
    PulledReplica earlier requestId turnIndex booked replica := by
  cases pulled with
  | resident later found =>
      exact .resident later (books ▸ found)
  | leader groupKey target first follows opened leads =>
      exact .leader groupKey target first follows (groups ▸ opened)
        (groups ▸ leads)

/-- A turn index that is not positive counts as turn 0. -/
theorem Segment.Pulling.of_max
    (pulling : segment.Pulling cfg ledger requestId (max 0 turnIndex)) :
    segment.Pulling cfg ledger requestId turnIndex := by
  intro placement source returned handed
  obtain ⟨replica, pulled, different, address⟩ :=
    pulling placement source returned handed
  refine ⟨replica, ?_, different, address⟩
  cases pulled with
  | resident later found =>
      exact .resident (by omega) found
  | leader groupKey target first follows opened leads =>
      exact .leader groupKey target (by omega) follows opened leads

/-- `place` names no source. -/
theorem place_pulling
    (before : Ledger) (given : Int) (rule : Rule) (replica : Option String) :
    (ledger.place cfg requestId turnIndex contextSize rule replica).Pulling
      cfg before requestId given := by
  intro placement source returned handed
  cases replica with
  | none =>
      cases returned
  | some replica =>
      cases returned
      cases handed

theorem Branch.pulling {sessionWork : Option ℚ} {key : Option String}
    (branch :
      Branch cfg ledger requestId contextSize sessionWork key turnIndex
        segment) :
    segment.Pulling cfg ledger requestId turnIndex := by
  cases branch with
  | placed rule replica ungrouped window member none fits stays absent =>
      exact place_pulling ledger turnIndex rule replica
  | polled deadline =>
      intro placement source returned
      cases returned
  | opened collecting unset =>
      intro placement source returned
      cases returned
  | joined collecting set =>
      intro placement source returned
      cases returned
  | claimed groupKey keyed fresh noReplica =>
      intro placement source returned
      cases returned
  | led groupKey replica keyed fresh member =>
      intro placement source returned handed
      cases returned
      cases handed
  | held groupKey keyed =>
      intro placement source returned
      cases returned
  | followed groupKey leader target keyed ready leads member pulls =>
      intro placement source returned handed
      obtain ⟨placed, address⟩ := pulls.source returned
      refine ⟨leader,
        .leader groupKey target (lt_irrefl 0) rfl ready leads, ?_,
        address source handed⟩
      rw [placed]
      exact Config.ne_of_mem_othersThan member
  | moved resident target rule later ungrouped window found member moves
      fits pulls =>
      intro placement source returned handed
      obtain ⟨placed, address⟩ := pulls.source returned
      refine ⟨resident, .resident later found, ?_, address source handed⟩
      rw [placed]
      exact Config.ne_of_mem_othersThan member

theorem Segment.IsBranch.pulling
    {sessionWork : Option ℚ} {key : Option String}
    (branch :
      segment.IsBranch cfg ledger requestId contextSize sessionWork key
        turnIndex) :
    segment.Pulling cfg ledger requestId turnIndex := by
  obtain ⟨counted, same, runs⟩ := branch
  intro placement source returned handed
  obtain ⟨replica, pulled, rest⟩ :=
    runs.pulling placement source returned handed
  exact ⟨replica, pulled.of_same same.books same.groups, rest⟩

/-- Every segment that a call starts. -/
theorem Calls.Started.pulling
    {calls : Calls} {call : Call}
    (started : calls.Started cfg call requestId turnIndex segment) :
    segment.Pulling cfg calls.ledger requestId turnIndex := by
  cases started with
  | acquired _ args clock free =>
      exact (Ledger.acquire_isBranch cfg calls.ledger requestId args
        clock).pulling.of_max
  | resumed _ wakeup waiting _ parked ran =>
      rcases Ledger.resume_cases ran with ⟨_, branch⟩ | exits
      · exact branch.pulling
      · obtain ⟨after, replica, _, rfl⟩ := exits.eq_place
        exact place_pulling calls.ledger 0 .lpt replica

end Branches

/-! ## Whole runs -/

/-- The replica that a log, newest entry first, has left a request on. -/
def lastBooked (requestId : String) : List Notice → Option String
  | [] => none
  | .segment caller _ (some booking) _ :: older =>
      if caller = requestId then some booking.replica
      else lastBooked requestId older
  | .finished caller :: older =>
      if caller = requestId then none else lastBooked requestId older
  | _ :: older => lastBooked requestId older

/-- What a request's own turns or its group's leader have computed is on the
replica. -/
inductive HoldsContext (past : List Notice) (requestId : String)
    (turnIndex : Int) (booked : Option Booking) (replica : String) : Prop
  | own (later : 0 < turnIndex)
      (last : lastBooked requestId past = some replica)
  | leader (groupKey target leaderRid : String) (leaderTurn : Int)
      (first : ¬ 0 < turnIndex)
      (follows : booked = some ⟨target, .follower groupKey⟩)
      (recorded :
        [.recorded leaderRid 0,
          .ledBy groupKey leaderRid replica leaderTurn] <+ past)

/-- A source that an entry of the log has handed out, with respect to the
older ones. -/
def PullsFromListener (cfg : Config) : Notice → List Notice → Prop
  | .segment requestId turnIndex booked (.returned ⟨target, some source⟩),
      past =>
      ∃ rank replica host,
        cfg.replicas[rank]? = some replica ∧ target ≠ replica ∧
          HoldsContext past requestId turnIndex booked replica ∧
          p2pListenerHost rank = .ok host ∧
          remoteKvSource source = some ⟨host, cfg.p2pPort⟩
  | _, _ => True

namespace Calls

/-- Residents are where the log has left them, and its sources are listeners
of replicas that hold the context. -/
structure Pulling (cfg : Config) (calls : Calls) : Prop where
  grouped : calls.Grouped cfg
  resident : ∀ requestId,
    calls.ledger.resident.get? requestId = lastBooked requestId calls.log
  pulls : EachWithPast (PullsFromListener cfg) calls.log

variable {cfg : Config} {calls next : Calls}

theorem pulling_init (cfg : Config) : (init cfg).Pulling cfg where
  grouped := grouped_init cfg
  resident := fun _ => rfl
  pulls := trivial

theorem lastBooked_segment (requestId caller : String) (turnIndex : Int)
    (booked : Option Booking) (outcome : Outcome) (past : List Notice) :
    lastBooked requestId (.segment caller turnIndex booked outcome :: past) =
      if caller = requestId then
        (booked.map Booking.replica).or (lastBooked requestId past)
      else
        lastBooked requestId past := by
  cases booked with
  | none =>
      simp [lastBooked]
  | some booking =>
      simp [lastBooked]

/-- A segment's entry names a listener of a replica that holds the context. -/
theorem Pulling.pullsFromListener
    (pulling : calls.Pulling cfg) {call : Call} {requestId : String}
    {turnIndex : Int} {segment : Segment}
    (started : calls.Started cfg call requestId turnIndex segment) :
    PullsFromListener cfg
      (.segment requestId turnIndex segment.booked segment.outcome)
      calls.log := by
  have pulls := started.pulling
  obtain ⟨ledger, outcome, booked⟩ := segment
  unfold PullsFromListener
  split
  · next caller turn placed target source same =>
      cases same
      obtain ⟨replica, pulled, different, address⟩ :=
        pulls ⟨target, some source⟩ source rfl rfl
      obtain ⟨rank, host, ranked, bound, parsed⟩ :=
        exists_rank_of_p2pAddress address
      refine ⟨rank, replica, host, ranked, different, ?_, bound, parsed⟩
      cases pulled with
      | resident later found =>
          exact .own later ((pulling.resident requestId).symm.trans found)
      | leader groupKey chosen first follows opened leads =>
          obtain ⟨home, ledOn, leaderRid, leaderTurn, ordered⟩ :=
            pulling.grouped.released_of_open opened
          cases leads.symm.trans ledOn
          exact .leader groupKey chosen leaderRid leaderTurn first follows
            ordered
  · trivial

theorem Pulling.step
    (pulling : calls.Pulling cfg) {call : Call}
    (stepped : calls.step cfg call = some next) : next.Pulling cfg where
  grouped := grouped_step pulling.grouped stepped
  resident := by
    intro requestId
    rcases step_cases stepped with
      ⟨caller, turnIndex, segment, started, rfl⟩ |
      ⟨caller, turnIndex, contextSize, rfl, rfl⟩ |
      ⟨caller, rfl, rfl⟩
    · obtain ⟨contextSize, spec⟩ := started.spec
      have logged := lastBooked_segment requestId caller turnIndex
        segment.booked segment.outcome calls.log
      refine Eq.trans ?_ logged.symm
      by_cases here : caller = requestId
      · subst here
        rw [if_pos rfl, ← pulling.resident caller]
        exact spec.effect.resident_eq
      · rw [if_neg here, ← pulling.resident requestId]
        exact (spec.effect.sameElsewhere requestId (Ne.symm here)).1
    · have written := Ledger.recordTurn_toBooks cfg calls.ledger caller
        turnIndex contextSize
      simp only [written, Books.resident_recordTurn]
      exact pulling.resident requestId
    · have popped :=
        (Books.popped_onTrajectoryDone calls.ledger.toBooks caller).1
      have erased :
          (calls.ledger.onTrajectoryDone caller).resident =
            calls.ledger.resident.erase caller := popped
      simp only [erased, lastBooked]
      by_cases here : caller = requestId
      · subst here
        rw [if_pos rfl]
        exact OrderedDict.get?_erase_self _ _
      · rw [if_neg here, OrderedDict.get?_erase_of_ne _ (Ne.symm here)]
        exact pulling.resident requestId
  pulls := by
    rcases step_cases stepped with
      ⟨caller, turnIndex, segment, started, rfl⟩ |
      ⟨caller, turnIndex, contextSize, rfl, rfl⟩ |
      ⟨caller, rfl, rfl⟩
    · exact ⟨pulling.pullsFromListener started, pulling.pulls⟩
    · exact ⟨trivial, pulling.pulls⟩
    · exact ⟨trivial, pulling.pulls⟩

/-- In every run, a placement that pulls names the host of one replica of the
fleet and of no other, with the ledger's port: the listener of that replica, if
the fleet has been given the same port.  It is not the replica the placement is
on, and what is pulled has been computed there. -/
theorem source_is_listener
    (cfg : Config) (calls : List Call) (final : Calls)
    (ran : run (step cfg) (init cfg) calls = some final)
    (later past : List Notice) (requestId : String) (turnIndex : Int)
    (booked : Option Booking) (target source : String)
    (split :
      final.log =
        later ++
          .segment requestId turnIndex booked
            (.returned ⟨target, some source⟩) :: past) :
    ∃ rank replica host,
      cfg.replicas[rank]? = some replica ∧ target ≠ replica ∧
        HoldsContext past requestId turnIndex booked replica ∧
        remoteKvSource source = some ⟨host, cfg.p2pPort⟩ ∧
        ∀ connectorPort other,
          launchServer connectorPort other = .ok ⟨host, cfg.p2pPort⟩ ↔
            other = rank ∧ p2pListenerPort connectorPort = cfg.p2pPort := by
  have pulling : final.Pulling cfg :=
    run_invariant (fun _ _ _ kept stepped => kept.step stepped)
      (pulling_init cfg) ran
  obtain ⟨rank, replica, host, ranked, different, holds, bound, parsed⟩ :=
    (eachWithPast_iff _ _).mp pulling.pulls later _ past split
  exact ⟨rank, replica, host, ranked, different, holds, parsed,
    launchServer_iff_of_host bound⟩

/-- A member of a group pulls from its leader, which listens on the port unless
the fleet has been given another one. -/
theorem leaderThenFollower_pulls :
    ∃ final past,
      run (step staggered) (init staggered) leaderThenFollower =
          some final ∧
        final.log =
          .segment "member" 0 (some ⟨"B", .follower "g"⟩)
            (.returned ⟨"B", some "127.0.7.1:7777"⟩) :: past ∧
        ∃ rank replica host,
          staggered.replicas[rank]? = some replica ∧ "B" ≠ replica ∧
            HoldsContext past "member" 0 (some ⟨"B", .follower "g"⟩)
              replica ∧
            remoteKvSource "127.0.7.1:7777" = some ⟨host, 7777⟩ ∧
            launchServer none rank = .ok ⟨host, 7777⟩ ∧
            ∀ other, launchServer (some 7800) other ≠ .ok ⟨host, 7777⟩ := by
  obtain ⟨final, ran, reached⟩ :=
    exists_final_of_map_eq
      (show (run (step staggered) (init staggered)
          leaderThenFollower).map
        (fun final => decide (final.log.head? = some
          (.segment "member" 0 (some ⟨"B", .follower "g"⟩)
            (.returned ⟨"B", some "127.0.7.1:7777"⟩)))) =
          some true by decide +kernel)
  obtain ⟨past, split⟩ :=
    List.head?_eq_some_iff.mp (of_decide_eq_true reached)
  obtain ⟨rank, replica, host, ranked, different, holds, parsed, listens⟩ :=
    source_is_listener staggered leaderThenFollower final ran [] past
      "member" 0 _ "B" "127.0.7.1:7777" split
  refine ⟨final, past, ran, split, rank, replica, host, ranked, different,
    holds, parsed, (listens none rank).mpr ⟨rfl, rfl⟩, ?_⟩
  intro other bound
  exact absurd ((listens (some 7800) other).mp bound).2 (by decide)

end Calls

end LlmDRl.Admission
