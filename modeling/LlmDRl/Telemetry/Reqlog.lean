import LlmDRl.Library.Decimal
import LlmDRl.Library.JsonLines
import LlmDRl.Library.Runs
import LlmDRl.Library.Utf8

/-!
# The request log

`reqlog.py` and the end of `EPPLLMClient.generate`.  Every client of a process
has a queue and a writer thread of its own, and all of the threads append to
one file, which is named by the process id.  A `write` that returns has appended
all that its file object held, the line at the end.  One that raises may have
appended a part of it, and the file object holds on to the rest, which the next
`write` puts before its own line, wherever the file ends by then.

Between the read of a turn counter and the `put` there is no `await`, so they
are one step; the writers take theirs in any order.
-/

namespace LlmDRl.Telemetry

open LlmDRl.Library

variable {F : Type} {ι : Type}

/-! ## Records -/

/-- `hexdigest()` -/
def hexDigest (digest : List UInt8) : String :=
  String.ofList (digest.flatMap fun byte =>
    [Nat.digitChar (byte.toNat / 16), Nat.digitChar (byte.toNat % 16)])

/-- `phash`, given `hashlib.blake2b` with a digest of eight bytes. -/
def phash (blake2b : List UInt8 → Vector UInt8 8) (promptIds : List Int) :
    String :=
  hexDigest (blake2b
    (Utf8.encode ((",").intercalate (promptIds.map toString)))).toList

/-- A time, as a float. -/
def Seconds (format : FloatFormat F) : Type := { x : F // format.IsFloat x }

/-- What the end of a call of `generate` knows. -/
structure Finished (format : FloatFormat F) where
  ts : Seconds format
  requestId : String
  endpoint : String
  promptIds : List Int
  outputTokens : Nat
  pickS : Seconds format
  genS : Seconds format

/-- The dict that is logged. -/
structure Record (format : FloatFormat F) where
  ts : Seconds format
  requestId : String
  turn : Nat
  endpoint : String
  promptHash : String
  promptTokens : Nat
  outputTokens : Nat
  pickS : Seconds format
  genS : Seconds format

variable {format : FloatFormat F}

def Finished.record (blake2b : List UInt8 → Vector UInt8 8)
    (call : Finished format) (turn : Nat) : Record format where
  ts := call.ts
  requestId := call.requestId
  turn := turn
  endpoint := call.endpoint
  promptHash := phash blake2b call.promptIds
  promptTokens := call.promptIds.length
  outputTokens := call.outputTokens
  pickS := call.pickS
  genS := call.genS

def Record.json (record : Record format) : JsonValue F :=
  .object [("ts", .float record.ts.val), ("request_id", .text record.requestId),
    ("turn", .int record.turn), ("endpoint", .text record.endpoint),
    ("prompt_hash", .text record.promptHash),
    ("prompt_tokens", .int record.promptTokens),
    ("output_tokens", .int record.outputTokens),
    ("pick_s", .float record.pickS.val), ("gen_s", .float record.genS.val)]

/-! ## Processes -/

/-- A client with its handle.  `opened` is what came of the writer's `open`,
once it is done, and `held` what its file object holds; `logged` and `taken`
remember what has been put on the queue and taken from it, and `failed` that an
`open` or a `write` has raised. -/
structure Client (format : FloatFormat F) where
  hasHandle : Bool
  turnCounts : OrderedDict String Nat := .empty
  queue : List (Record format) := []
  opened : Option Bool := none
  held : List Char := []
  logged : List (Record format) := []
  taken : List (Record format) := []
  failed : Bool := false

/-- The clients of a process and its file; `returned` are the records whose
`write` has returned, each with the client that has logged it. -/
structure Process (format : FloatFormat F) (ι : Type) where
  clients : ι → Client format
  file : String
  returned : List (ι × Record format)

/-- A `write` that raises has moved some characters to the file, and the file
object has room for some of those that are left. -/
inductive Writing where
  | returns
  | raises (moved kept : Nat)

inductive Event (format : FloatFormat F) (ι : Type) where
  /-- The `finally` block of `generate`, behind `complete`. -/
  | finish (client : ι) (call : Finished format)
  /-- The writer's `open`. -/
  | open (client : ι) (ok : Bool)
  /-- The writer takes an item and writes it. -/
  | write (client : ι) (writing : Writing)

/-- No `write` raises. -/
def Event.Returns : Event format ι → Prop
  | .write _ (.raises ..) => False
  | _ => True

/-- The turn is counted; `log_request` does nothing without a handle. -/
def Client.finish (blake2b : List UInt8 → Vector UInt8 8)
    (client : Client format) (call : Finished format) : Client format :=
  let turn := client.turnCounts.getD call.requestId 0
  let counted :=
    { client with
      turnCounts := client.turnCounts.insert call.requestId (turn + 1) }
  if client.hasHandle then
    { counted with
      queue := client.queue ++ [call.record blake2b turn]
      logged := client.logged ++ [call.record blake2b turn] }
  else
    counted

/-- The item that is taken, and whether the file is open for it. -/
def Client.take? (client : Client format) :
    Option (Bool × Record format × Client format) :=
  match client.opened, client.queue with
  | some isOpen, item :: rest =>
      some (isOpen, item,
        { client with queue := rest, taken := client.taken ++ [item] })
  | _, _ => none

variable [DecidableEq ι] (blake2b : List UInt8 → Vector UInt8 8)

def Process.set (process : Process format ι) (client : ι)
    (next : Client format) : Process format ι :=
  { process with clients := Function.update process.clients client next }

def step (process : Process format ι) :
    Event format ι → Option (Process format ι)
  | .finish client call =>
      some (process.set client ((process.clients client).finish blake2b call))
  | .open client ok =>
      let before := process.clients client
      if before.hasHandle ∧ before.opened = none then
        some (process.set client
          { before with opened := some ok, failed := before.failed || !ok })
      else
        none
  | .write client writing =>
      match (process.clients client).take? with
      | none => none
      | some (false, _, after) =>
          some (process.set client { after with failed := true })
      | some (true, item, after) =>
          let pending := after.held ++ (Json.line format item.json).toList
          match writing with
          | .returns =>
              some
                { process.set client { after with held := [] } with
                  file := process.file ++ String.ofList pending
                  returned := process.returned ++ [(client, item)] }
          | .raises moved kept =>
              some
                { process.set client
                    { after with
                      held := (pending.drop moved).take kept
                      failed := true } with
                  file := process.file ++ String.ofList (pending.take moved) }

/-- No client has logged anything; which of them have a handle depends on the
environment. -/
def start (hasHandle : ι → Bool) : Process format ι where
  clients client := { hasHandle := hasHandle client }
  file := ""
  returned := []

/-! ## What holds of every client -/

/-- The records of a client whose `write` has returned. -/
def Process.written (process : Process format ι) (client : ι) :
    List (Record format) :=
  (process.returned.filter fun entry => entry.1 = client).map Prod.snd

/-- The turns of one trajectory. -/
def turnsOf (requestId : String) (records : List (Record format)) : List Nat :=
  (records.filter fun record => record.requestId = requestId).map Record.turn

/-- What has been logged is queued or taken, in order, and its write has returned
unless something has failed; the turns of a trajectory count up from zero. -/
structure Kept (client : Client format) (written : List (Record format)) :
    Prop where
  queued : client.logged = client.taken ++ client.queue
  sublist : written.Sublist client.taken
  exact : client.failed = false → written = client.taken
  turns : client.hasHandle = true → ∀ requestId,
    turnsOf requestId client.logged =
      List.range (client.turnCounts.getD requestId 0)

theorem kept_start (hasHandle : Bool) :
    Kept ({ hasHandle := hasHandle } : Client format) [] where
  queued := rfl
  sublist := .slnil
  exact _ := rfl
  turns _ _ := rfl

theorem turnsOf_append (requestId : String) (records : List (Record format))
    (record : Record format) :
    turnsOf requestId (records ++ [record]) =
      turnsOf requestId records ++
        if record.requestId = requestId then [record.turn] else [] := by
  unfold turnsOf
  rw [List.filter_append, List.map_append]
  by_cases same : record.requestId = requestId
  · simp [same]
  · simp [same]

theorem Kept.finish {client : Client format} {written : List (Record format)}
    (kept : Kept client written) (call : Finished format) :
    Kept (client.finish blake2b call) written := by
  unfold Client.finish
  dsimp only
  by_cases hasHandle : client.hasHandle = true
  · rw [if_pos hasHandle]
    refine ⟨?_, kept.sublist, kept.exact, fun _ requestId => ?_⟩
    · dsimp only
      rw [kept.queued, List.append_assoc]
    · dsimp only
      rw [turnsOf_append, kept.turns hasHandle]
      by_cases same : call.requestId = requestId
      · have named : (call.record blake2b
            (client.turnCounts.getD call.requestId 0)).requestId =
              requestId := same
        rw [if_pos named, ← same, OrderedDict.getD_insert_self,
          List.range_succ]
        rfl
      · have named : ¬ (call.record blake2b
            (client.turnCounts.getD call.requestId 0)).requestId =
              requestId := same
        rw [if_neg named, List.append_nil,
          OrderedDict.getD_insert_of_ne _ _ _ (Ne.symm same)]
  · rw [if_neg hasHandle]
    exact ⟨kept.queued, kept.sublist, kept.exact, fun has =>
      absurd has hasHandle⟩

theorem Client.take?_eq_some {client after : Client format} {isOpen : Bool}
    {item : Record format}
    (taken : client.take? = some (isOpen, item, after)) :
    ∃ rest, client.opened = some isOpen ∧ client.queue = item :: rest ∧
      after = { client with queue := rest, taken := client.taken ++ [item] } := by
  unfold Client.take? at taken
  split at taken
  · next isOpen item rest isOpened queue =>
      obtain ⟨rfl, rfl, rfl⟩ := taken
      exact ⟨rest, isOpened, queue, rfl⟩
  · cases taken

/-- The write of an item returns, or does not. -/
theorem Kept.take {client after : Client format}
    {written : List (Record format)} {isOpen : Bool} {item : Record format}
    (kept : Kept client written)
    (taken : client.take? = some (isOpen, item, after)) (held : List Char) :
    Kept { after with held := held } (written ++ [item]) ∧
      Kept { after with held := held, failed := true } written := by
  obtain ⟨rest, -, queue, rfl⟩ := Client.take?_eq_some taken
  have queued : client.logged = client.taken ++ [item] ++ rest := by
    rw [kept.queued, queue, List.append_assoc, List.singleton_append]
  constructor
  · exact ⟨queued, kept.sublist.append_right [item], fun fine =>
      congrArg (· ++ [item]) (kept.exact fine), kept.turns⟩
  · exact ⟨queued, kept.sublist.trans (List.sublist_append_left _ _),
      fun fine => (by cases fine), kept.turns⟩

/-! ## Runs -/

@[simp]
theorem written_set (process : Process format ι) (client other : ι)
    (next : Client format) :
    (process.set client next).written other = process.written other := rfl

@[simp]
theorem clients_set_self (process : Process format ι) (client : ι)
    (next : Client format) :
    (process.set client next).clients client = next := by
  simp [Process.set]

theorem clients_set_of_ne (process : Process format ι) {client other : ι}
    (different : other ≠ client) (next : Client format) :
    (process.set client next).clients other = process.clients other := by
  simp [Process.set, different]

def AllKept (process : Process format ι) : Prop :=
  ∀ client, Kept (process.clients client) (process.written client)

theorem AllKept.set {process : Process format ι} (allKept : AllKept process)
    {client : ι} {next : Client format}
    (kept : Kept next (process.written client)) :
    AllKept (process.set client next) := by
  intro other
  rw [written_set]
  by_cases same : other = client
  · rw [same, clients_set_self]
    exact kept
  · rw [clients_set_of_ne process same]
    exact allKept other

/-- A line of one client. -/
theorem AllKept.append {process : Process format ι} (allKept : AllKept process)
    {client : ι} {next : Client format} {item : Record format}
    (kept : Kept next (process.written client ++ [item])) (file : String) :
    AllKept { process.set client next with
      file := file
      returned := process.returned ++ [(client, item)] } := by
  intro other
  unfold Process.written
  dsimp only
  rw [List.filter_append, List.map_append]
  by_cases same : other = client
  · subst same
    rw [clients_set_self]
    simpa [Process.written] using kept
  · rw [clients_set_of_ne process same]
    simpa [Process.written, Ne.symm same] using allKept other

/-- Everything a step can be. -/
inductive Stepped (process : Process format ι) :
    Event format ι → Process format ι → Prop
  | finished (client : ι) (call : Finished format) :
      Stepped process (.finish client call)
        (process.set client ((process.clients client).finish blake2b call))
  | opened (client : ι) (ok : Bool) :
      Stepped process (.open client ok)
        (process.set client
          { process.clients client with
            opened := some ok
            failed := (process.clients client).failed || !ok })
  | dropped (client : ι) (writing : Writing) (item : Record format)
      (after : Client format)
      (taken : (process.clients client).take? = some (false, item, after)) :
      Stepped process (.write client writing)
        (process.set client { after with failed := true })
  | wrote (client : ι) (item : Record format) (after : Client format)
      (taken : (process.clients client).take? = some (true, item, after)) :
      Stepped process (.write client .returns)
        { process.set client { after with held := [] } with
          file :=
            process.file ++ String.ofList
              (after.held ++ (Json.line format item.json).toList)
          returned := process.returned ++ [(client, item)] }
  | raised (client : ι) (moved kept : Nat) (item : Record format)
      (after : Client format) (held : List Char) (file : String)
      (taken : (process.clients client).take? = some (true, item, after)) :
      Stepped process (.write client (.raises moved kept))
        { process.set client { after with held := held, failed := true } with
          file := file }

theorem stepped_of_step {process next : Process format ι}
    {event : Event format ι}
    (stepped : step blake2b process event = some next) :
    Stepped blake2b process event next := by
  cases event with
  | finish client call =>
      cases stepped
      exact .finished client call
  | «open» client ok =>
      unfold Telemetry.step at stepped
      dsimp only at stepped
      split at stepped
      · cases stepped
        exact .opened client ok
      · cases stepped
  | write client writing =>
      unfold Telemetry.step at stepped
      dsimp only at stepped
      split at stepped
      · cases stepped
      · next item after taken =>
          cases stepped
          exact .dropped client writing item after taken
      · next item after taken =>
          cases writing with
          | returns =>
              cases stepped
              exact .wrote client item after taken
          | raises moved kept =>
              cases stepped
              exact .raised client moved kept item after _ _ taken

theorem AllKept.step {process next : Process format ι}
    (allKept : AllKept process) {event : Event format ι}
    (stepped : step blake2b process event = some next) : AllKept next := by
  cases stepped_of_step blake2b stepped with
  | finished client call =>
      exact allKept.set ((allKept client).finish blake2b call)
  | opened client ok =>
      have kept := allKept client
      refine allKept.set ⟨kept.queued, kept.sublist, fun fine => ?_,
        kept.turns⟩
      exact kept.exact (Bool.or_eq_false_iff.mp fine).1
  | dropped client writing item after taken =>
      exact allKept.set ((allKept client).take taken after.held).2
  | wrote client item after taken =>
      exact allKept.append ((allKept client).take taken []).1 _
  | raised client moved kept item after held file taken =>
      exact allKept.set ((allKept client).take taken held).2

/-- The file is what has been written, and no file object holds a rest. -/
structure Whole (process : Process format ι) : Prop where
  file : process.file =
    String.join ((process.returned.map fun entry => entry.2.json).map
      (Json.line format))
  held : ∀ client, (process.clients client).held = []

theorem held_take? {client after : Client format} {isOpen : Bool}
    {item : Record format}
    (taken : client.take? = some (isOpen, item, after)) :
    after.held = client.held := by
  obtain ⟨rest, -, -, rfl⟩ := Client.take?_eq_some taken
  rfl

theorem held_finish (client : Client format) (call : Finished format) :
    (client.finish blake2b call).held = client.held := by
  unfold Client.finish
  split
  · rfl
  · rfl

theorem held_set {process : Process format ι} {client : ι}
    {next : Client format} (empty : next.held = [])
    (held : ∀ other, (process.clients other).held = []) (other : ι) :
    ((process.set client next).clients other).held = [] := by
  by_cases same : other = client
  · rw [same, clients_set_self, empty]
  · rw [clients_set_of_ne process same, held other]

theorem Whole.step {process next : Process format ι} (whole : Whole process)
    {event : Event format ι} (returns : event.Returns)
    (stepped : step blake2b process event = some next) : Whole next := by
  cases stepped_of_step blake2b stepped with
  | finished client call =>
      refine ⟨whole.file, held_set ?_ whole.held⟩
      rw [held_finish, whole.held]
  | opened client ok =>
      exact ⟨whole.file, held_set (whole.held client) whole.held⟩
  | dropped client writing item after taken =>
      refine ⟨whole.file, held_set ?_ whole.held⟩
      exact (held_take? taken).trans (whole.held client)
  | wrote client item after taken =>
      refine ⟨?_, held_set rfl whole.held⟩
      have empty := (held_take? taken).trans (whole.held client)
      dsimp only
      rw [whole.file, empty, List.nil_append, String.ofList_toList,
        List.map_append, List.map_append, String.join_append]
      simp
  | raised => exact returns.elim

theorem proper_json (record : Record format) :
    record.json.Proper format.IsFloat := by
  refine .object (by simp) ?_
  intro member inMembers
  simp only [List.mem_cons, List.not_mem_nil, or_false] at inMembers
  obtain rfl | rfl | rfl | rfl | rfl | rfl | rfl | rfl | rfl := inMembers
  · exact .float record.ts.property
  · exact .text record.requestId
  · exact .int record.turn
  · exact .text record.endpoint
  · exact .text record.promptHash
  · exact .int record.promptTokens
  · exact .int record.outputTokens
  · exact .float record.pickS.property
  · exact .float record.genS.property

/-- Whatever the order in which the clients log and the writers write, the
writes of a client return in the order in which it has logged, all of them up to
the ones still in the queue unless an `open` or a `write` has raised; and it
numbers the turns of a trajectory from zero without a gap.  As long as no
`write` raises, the file is read back as the records written to it. -/
theorem reqlog_read_back {hasHandle : ι → Bool}
    {events : List (Event format ι)} {final : Process format ι}
    (ran : run (step blake2b) (start hasHandle) events = some final) :
    ((∀ event ∈ events, event.Returns) →
      (Json.records final.file).mapM
          (fun line => Json.loads format (String.ofList line)) =
        some (final.returned.map fun entry => entry.2.json)) ∧
    ∀ client,
      (final.written client).Sublist (final.clients client).logged ∧
      ((final.clients client).failed = false →
        (final.clients client).logged =
          final.written client ++ (final.clients client).queue) ∧
      ((final.clients client).hasHandle = true → ∀ requestId,
        turnsOf requestId (final.clients client).logged =
          List.range
            ((final.clients client).turnCounts.getD requestId 0)) := by
  have allKept : AllKept final :=
    run_invariant (fun _ _ _ allKept stepped => allKept.step blake2b stepped)
      (fun client => kept_start (hasHandle client)) ran
  constructor
  · intro returns
    have whole : Whole final :=
      run_invariant_of_stepsMeet
        (fun _ _ _ whole returns stepped => whole.step blake2b returns stepped)
        ⟨rfl, fun _ => rfl⟩
        (stepsMeet_of_forall (fun event member _ => returns event member) _)
        ran
    have proper : ∀ value ∈ final.returned.map fun entry => entry.2.json,
        value.Proper format.IsFloat := by
      intro value member
      obtain ⟨entry, -, rfl⟩ := List.mem_map.mp member
      exact proper_json entry.2
    rw [whole.file, Json.records_join proper, Json.mapM_loads proper]
  · intro client
    have kept := allKept client
    refine ⟨?_, fun fine => ?_, kept.turns⟩
    · rw [kept.queued]
      exact kept.sublist.trans (List.sublist_append_left _ _)
    · rw [kept.exact fine]
      exact kept.queued

/-- A turn of a trajectory, with all times zero. -/
def oneTurn : Finished Decimal.format :=
  let zero : Seconds Decimal.format := ⟨0, 0, by norm_num⟩
  ⟨zero, "trace-0", "10.0.0.1:8000", [1, 2], 3, zero, zero⟩

/-- Two clients; the writer of the second one cannot open the file. -/
def twoWriters : List (Event Decimal.format Bool) :=
  [.finish false oneTurn, .open false true, .finish true oneTurn,
    .write false .returns, .open true false, .finish false oneTurn,
    .write true .returns, .write false .returns]

theorem twoWriters_read_back :
    ∃ final, run (step fun _ => #v[0, 0, 0, 0, 0, 0, 0, 0])
        (start fun _ => true) twoWriters = some final ∧
      (Json.records final.file).mapM
          (fun line => Json.loads Decimal.format (String.ofList line)) =
        some (final.returned.map fun entry => entry.2.json) ∧
      turnsOf "trace-0" (final.written false) = [0, 1] := by
  refine ⟨_, rfl, ?_, ?_⟩
  · refine (@reqlog_read_back ℚ Bool Decimal.format _
      (fun _ => #v[0, 0, 0, 0, 0, 0, 0, 0]) (fun _ => true) twoWriters _
      rfl).1 ?_
    simp [twoWriters, Event.Returns]
  · rfl

end LlmDRl.Telemetry
