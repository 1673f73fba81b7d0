import LlmDRl.Library.OrderedDict
import Mathlib.Data.List.Forall2

/-!
# The endpoints file

`split_address`, `write_rollout_endpoints` and `write_pd_endpoints`, which turn
the addresses of the engines into the entries of the file EPP's file-discovery
plugin watches.  Strings are taken apart as lists of characters.
-/

namespace LlmDRl.Registration

open LlmDRl.Library

/-- The exceptions of `split_address`, all `ValueError`. -/
inductive AddressError where
  /-- `str.index("]")` -/
  | substringNotFound
  | badIPv6 (serverAddress : String)
  | badAddress (serverAddress : String)
  deriving DecidableEq, Repr

/-- The text of the exception, given `repr` of a string. -/
def AddressError.message (repr : String → String) : AddressError → String
  | substringNotFound => "substring not found"
  | badIPv6 serverAddress => s!"Bad IPv6 address: {repr serverAddress}"
  | badAddress serverAddress =>
      s!"Bad address (expected host:port): {repr serverAddress}"

/-! ## Taking strings apart -/

/-- What follows the first occurrence of `separator`. -/
def afterFirst (separator : List Char) : List Char → Option (List Char)
  | [] => if separator = [] then some [] else none
  | char :: rest =>
      if separator.isPrefixOf (char :: rest) then
        some ((char :: rest).drop separator.length)
      else
        afterFirst separator rest

/-- The parts before and after the first occurrence of `separator`. -/
def splitFirst (separator : Char) :
    List Char → Option (List Char × List Char)
  | [] => none
  | char :: rest =>
      if char = separator then
        some ([], rest)
      else
        (splitFirst separator rest).map fun parts =>
          (char :: parts.1, parts.2)

/-- `s.rsplit(separator, 1)`, `none` where the separator does not occur. -/
def splitLast (separator : Char) :
    List Char → Option (List Char × List Char)
  | [] => none
  | char :: rest =>
      match splitLast separator rest with
      | some (before, after) => some (char :: before, after)
      | none => if char = separator then some ([], rest) else none

/-- Split `host:port`, `[ipv6]:port`, or `scheme://host:port` into (host,
port). -/
def splitAddress (serverAddress : String) :
    Except AddressError (String × String) :=
  let address :=
    (afterFirst "://".toList serverAddress.toList).getD
      serverAddress.toList
  match address with
  | '[' :: inner =>
      match splitFirst ']' inner with
      | none => .error .substringNotFound
      | some (host, ':' :: port) =>
          .ok (String.ofList host, String.ofList port)
      | some (_, _) => .error (.badIPv6 (String.ofList address))
  | _ =>
      match splitLast ':' address with
      | none => .error (.badAddress (String.ofList address))
      | some (host, port) => .ok (String.ofList host, String.ofList port)

/-! ## The entries -/

/-- One entry of the `endpoints` list. -/
structure Endpoint where
  name : String
  address : String
  port : String
  rankIndex : Nat
  labels : OrderedDict String String

/-- The labels of an entry; `label` is `model_label(model_config)` when a
model config is given. -/
def rolloutLabels (label : Option String) (engineType : String) :
    OrderedDict String String :=
  match label with
  | some model =>
      (OrderedDict.empty.insert "model" model).insert
        "llm-d.ai/engine-type" engineType
  | none => OrderedDict.empty.insert "llm-d.ai/engine-type" engineType

/-- The loop of `write_rollout_endpoints`, from index `i` on. -/
def rolloutEntries (label : Option String) (engineType : String) :
    Nat → List String → Except AddressError (List Endpoint)
  | _, [] => .ok []
  | i, addr :: rest =>
      match splitAddress addr with
      | .error error => .error error
      | .ok (host, port) =>
          match rolloutEntries label engineType (i + 1) rest with
          | .error error => .error error
          | .ok entries =>
              .ok
                ({ name := s!"{engineType}-replica-{i}"
                   address := host
                   port := port
                   rankIndex := i
                   labels := rolloutLabels label engineType } :: entries)

/-- One entry of the P/D file, which has no rank. -/
structure PdEndpoint where
  name : String
  address : String
  port : String
  labels : OrderedDict String String

def pdLabels (label role : String) : OrderedDict String String :=
  (OrderedDict.empty.insert "model" label).insert "llm-d.ai/role" role

/-- The name of the `idx`th entry with a role. -/
def pdName (role : String) (idx : Nat) : String := s!"vllm-{role}-0-{idx}"

/-- The loop of `write_pd_endpoints` over the addresses with their roles. -/
def pdEntries (label : String) :
    OrderedDict String Nat → List (String × String) →
      Except AddressError (List PdEndpoint)
  | _, [] => .ok []
  | roleCounters, (addr, role) :: rest =>
      match splitAddress addr with
      | .error error => .error error
      | .ok (host, port) =>
          let idx := roleCounters.getD role 0
          match pdEntries label (roleCounters.insert role (idx + 1)) rest with
          | .error error => .error error
          | .ok entries =>
              .ok
                ({ name := pdName role idx
                   address := host
                   port := port
                   labels := pdLabels label role } :: entries)

/-- `write_pd_endpoints`, up to the file operations; `label` is
`model_label(model_config)`, and nothing is written without a path. -/
def writePdEndpoints (path : String)
    (serverAddresses serverRoles : List String) (label : String) :
    Except AddressError (Option (List PdEndpoint)) :=
  if path = "" then
    .ok none
  else
    (pdEntries label .empty (serverAddresses.zip serverRoles)).map some

/-- The address can be split. -/
def Splits (serverAddress : String) : Prop :=
  ∃ parts, splitAddress serverAddress = .ok parts

instance (serverAddress : String) : Decidable (Splits serverAddress) :=
  match found : splitAddress serverAddress with
  | .ok parts => isTrue ⟨parts, found⟩
  | .error error =>
      isFalse (by rintro ⟨parts, split⟩; cases found.symm.trans split)

/-- The entries are those of the addresses, in order, each split into host and
port. -/
def Lists (entries : List Endpoint) (addresses : List String) : Prop :=
  List.Forall₂
    (fun entry addr => splitAddress addr = .ok (entry.address, entry.port))
    entries addresses

theorem Lists.splits
    {entries : List Endpoint} {addresses : List String}
    (lists : Lists entries addresses) :
    ∀ addr ∈ addresses, Splits addr := by
  induction lists with
  | nil =>
      intro addr member
      cases member
  | cons split _ inductionHypothesis =>
      intro addr member
      rcases List.mem_cons.mp member with rfl | later
      · exact ⟨_, split⟩
      · exact inductionHypothesis addr later

/-- One turn of the loop: the address is split and the rest is listed. -/
theorem rolloutEntries_cons_eq_ok
    {label : Option String} {engineType : String} {i : Nat}
    {addr : String} {rest : List String} {entries : List Endpoint} :
    rolloutEntries label engineType i (addr :: rest) = .ok entries ↔
      ∃ host port later, splitAddress addr = .ok (host, port) ∧
        rolloutEntries label engineType (i + 1) rest = .ok later ∧
        entries =
          { name := s!"{engineType}-replica-{i}"
            address := host
            port := port
            rankIndex := i
            labels := rolloutLabels label engineType } :: later := by
  constructor
  · intro built
    simp only [rolloutEntries] at built
    split at built
    · cases built
    · next host port split =>
        split at built
        · cases built
        · next later builtRest =>
            cases built
            exact ⟨host, port, later, split, builtRest, rfl⟩
  · rintro ⟨host, port, later, split, builtRest, rfl⟩
    simp only [rolloutEntries, split, builtRest]

theorem lists_of_rolloutEntries
    {label : Option String} {engineType : String} {i : Nat}
    {addresses : List String} {entries : List Endpoint}
    (built : rolloutEntries label engineType i addresses = .ok entries) :
    Lists entries addresses := by
  induction addresses generalizing i entries with
  | nil =>
      cases built
      exact .nil
  | cons addr rest inductionHypothesis =>
      obtain ⟨host, port, later, split, builtRest, rfl⟩ :=
        rolloutEntries_cons_eq_ok.mp built
      exact .cons split (inductionHypothesis builtRest)

/-- An address that cannot be split fails the whole list. -/
theorem rolloutEntries_ok_iff
    (label : Option String) (engineType : String) (i : Nat)
    (addresses : List String) :
    (∃ entries,
        rolloutEntries label engineType i addresses = .ok entries) ↔
      ∀ addr ∈ addresses, Splits addr := by
  induction addresses generalizing i with
  | nil =>
      simp [rolloutEntries]
  | cons addr rest inductionHypothesis =>
      rw [List.forall_mem_cons, ← inductionHypothesis (i + 1)]
      simp only [rolloutEntries, Splits]
      cases splitAddress addr with
      | error error =>
          simp
      | ok parts =>
          cases rolloutEntries label engineType (i + 1) rest with
          | error error =>
              simp
          | ok entries =>
              simp

/-- The entries are those of the addresses, in order, each labelled with its
role. -/
def PdLists (label : String) (entries : List PdEndpoint)
    (pairs : List (String × String)) : Prop :=
  List.Forall₂
    (fun entry pair =>
      splitAddress pair.1 = .ok (entry.address, entry.port) ∧
        entry.labels = pdLabels label pair.2)
    entries pairs

theorem pdEntries_cons_eq_ok
    {label : String} {roleCounters : OrderedDict String Nat}
    {addr role : String} {rest : List (String × String)}
    {entries : List PdEndpoint} :
    pdEntries label roleCounters ((addr, role) :: rest) = .ok entries ↔
      ∃ host port later, splitAddress addr = .ok (host, port) ∧
        pdEntries label
            (roleCounters.insert role (roleCounters.getD role 0 + 1)) rest =
          .ok later ∧
        entries =
          { name := pdName role (roleCounters.getD role 0)
            address := host
            port := port
            labels := pdLabels label role } :: later := by
  constructor
  · intro built
    simp only [pdEntries] at built
    split at built
    · cases built
    · next host port split =>
        split at built
        · cases built
        · next later builtRest =>
            cases built
            exact ⟨host, port, later, split, builtRest, rfl⟩
  · rintro ⟨host, port, later, split, builtRest, rfl⟩
    simp only [pdEntries, split, builtRest]

theorem pdLists_of_pdEntries
    {label : String} {roleCounters : OrderedDict String Nat}
    {pairs : List (String × String)} {entries : List PdEndpoint}
    (built : pdEntries label roleCounters pairs = .ok entries) :
    PdLists label entries pairs := by
  induction pairs generalizing roleCounters entries with
  | nil =>
      cases built
      exact .nil
  | cons pair rest inductionHypothesis =>
      obtain ⟨addr, role⟩ := pair
      obtain ⟨host, port, later, split, builtRest, rfl⟩ :=
        pdEntries_cons_eq_ok.mp built
      exact .cons ⟨split, rfl⟩ (inductionHypothesis builtRest)

theorem pdEntries_of_splits
    (label : String) (roleCounters : OrderedDict String Nat)
    {pairs : List (String × String)}
    (splits : ∀ pair ∈ pairs, Splits pair.1) :
    ∃ entries, pdEntries label roleCounters pairs = .ok entries := by
  induction pairs generalizing roleCounters with
  | nil =>
      exact ⟨[], rfl⟩
  | cons pair rest inductionHypothesis =>
      obtain ⟨addr, role⟩ := pair
      rw [List.forall_mem_cons] at splits
      obtain ⟨⟨host, port⟩, split⟩ := splits.1
      obtain ⟨later, builtRest⟩ := inductionHypothesis
        (roleCounters.insert role (roleCounters.getD role 0 + 1)) splits.2
      exact ⟨_, pdEntries_cons_eq_ok.mpr
        ⟨host, port, later, split, builtRest, rfl⟩⟩

end LlmDRl.Registration
