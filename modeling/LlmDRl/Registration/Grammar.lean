import LlmDRl.Registration.Endpoints

/-!
# The addresses that can be split

`split_address` drops a scheme, tells a bracketed host from a plain one, and
looks for the colon.  It does not look at the host and the port themselves:
either can be empty, and neither has to be a name or a number.
-/

namespace LlmDRl.Registration

/-! ## Strings that are split -/

/-- What follows the first `://`, or the whole where there is none. -/
inductive Strips : (serverAddress address : List Char) → Prop
  | bare {address : List Char}
      (absent : ¬ "://".toList <:+: address) : Strips address address
  | scheme {before address : List Char}
      (first : ¬ "://".toList <:+: before ++ ":/".toList) :
      Strips (before ++ ("://".toList ++ address)) address

/-- The address after the scheme, in the two forms with their parts. -/
inductive HostPort : (address host port : List Char) → Prop
  | bracketed {host port : List Char} (first : ']' ∉ host) :
      HostPort ('[' :: (host ++ ']' :: ':' :: port)) host port
  | plain {host port : List Char}
      (unbracketed : (host ++ ':' :: port).head? ≠ some '[')
      (last : ':' ∉ port) : HostPort (host ++ ':' :: port) host port

/-- The string has this host and this port. -/
def HasParts (serverAddress host port : String) : Prop :=
  ∃ address, Strips serverAddress.toList address ∧
    HostPort address host.toList port.toList

/-- A scheme with its `://`, or nothing. -/
def IsScheme (text : List Char) : Prop :=
  text = [] ∨ ∃ name, ':' ∉ name ∧ text = name ++ "://".toList

/-- A decimal number. -/
def IsNumber (text : List Char) : Prop :=
  text ≠ [] ∧ ∀ char ∈ text, char.isDigit

/-- A scheme or none, a host that is plain or in brackets, and a numeric
port. -/
structure WellFormed (serverAddress host port : String) : Prop where
  hostNonempty : host ≠ ""
  noSlash : '/' ∉ host.toList
  number : IsNumber port.toList
  form : ∃ scheme, IsScheme scheme ∧
    (serverAddress.toList =
        scheme ++ (host.toList ++ ':' :: port.toList) ∧
          ':' ∉ host.toList ∧ host.toList.head? ≠ some '[' ∨
      serverAddress.toList =
        scheme ++ '[' :: (host.toList ++ ']' :: ':' :: port.toList) ∧
          ']' ∉ host.toList)

/-- A host and a port in the file that are those of an address, whatever
they are. -/
structure TakenFrom (addr host port : String) : Prop where
  parts : HasParts addr host port
  wellFormed : ∀ name number,
    WellFormed addr name number → host = name ∧ port = number

/-! ## Splitting -/

section Splitting

variable {separator : List Char}

theorem afterFirst_eq_none_iff (chars : List Char) :
    afterFirst separator chars = none ↔ ¬ separator <:+: chars := by
  induction chars with
  | nil =>
      rw [afterFirst, List.infix_nil]
      by_cases empty : separator = [] <;> simp [empty]
  | cons char rest inductionHypothesis =>
      rw [afterFirst, List.infix_cons_iff, not_or, ← inductionHypothesis]
      by_cases here : separator.isPrefixOf (char :: rest)
      · have starts := List.isPrefixOf_iff_prefix.mp here
        simp [here, starts]
      · have later : ¬ separator <+: char :: rest := by
          rwa [← List.isPrefixOf_iff_prefix]
        rw [if_neg here, and_iff_right later]

theorem exists_before_of_afterFirst
    (nonempty : separator ≠ []) {chars rest : List Char}
    (found : afterFirst separator chars = some rest) :
    ∃ before, chars = before ++ (separator ++ rest) ∧
      ¬ separator <:+: before ++ separator.dropLast := by
  induction chars with
  | nil =>
      rw [afterFirst, if_neg nonempty] at found
      cases found
  | cons char tail inductionHypothesis =>
      rw [afterFirst] at found
      by_cases here : separator.isPrefixOf (char :: tail)
      · rw [if_pos here] at found
        cases found
        have starts := List.isPrefixOf_iff_prefix.mp here
        refine ⟨[], (List.prefix_iff_eq_append.mp starts).symm, ?_⟩
        intro inside
        have short := inside.length_le
        have positive := List.length_pos_iff.mpr nonempty
        rw [List.nil_append, List.length_dropLast] at short
        omega
      · rw [if_neg here] at found
        obtain ⟨before, tailEq, first⟩ := inductionHypothesis found
        refine ⟨char :: before, by rw [tailEq, List.cons_append], ?_⟩
        rw [List.cons_append, List.infix_cons_iff]
        rintro (starts | inside)
        · apply here
          rw [List.isPrefixOf_iff_prefix, tailEq]
          refine starts.trans ?_
          rw [List.prefix_cons_inj, List.prefix_append_right_inj]
          exact (List.dropLast_prefix separator).trans
            (List.prefix_append separator rest)
        · exact first inside

theorem afterFirst_append
    (nonempty : separator ≠ []) {before : List Char} (rest : List Char)
    (first : ¬ separator <:+: before ++ separator.dropLast) :
    afterFirst separator (before ++ (separator ++ rest)) = some rest := by
  induction before with
  | nil =>
      obtain ⟨head, tail, rfl⟩ := List.exists_cons_of_ne_nil nonempty
      have starts : (head :: tail).isPrefixOf (head :: (tail ++ rest)) :=
        List.isPrefixOf_iff_prefix.mpr (List.prefix_append ..)
      rw [List.nil_append, List.cons_append, afterFirst, if_pos starts,
        ← List.cons_append, List.drop_left]
  | cons char before inductionHypothesis =>
      rw [List.cons_append, List.infix_cons_iff, not_or] at first
      rw [List.cons_append, afterFirst, if_neg, inductionHypothesis first.2]
      intro here
      apply first.1
      have starts := List.isPrefixOf_iff_prefix.mp here
      refine List.prefix_of_prefix_length_le starts ?_ ?_
      · rw [List.prefix_cons_inj, List.prefix_append_right_inj]
        exact (List.dropLast_prefix separator).trans
          (List.prefix_append separator rest)
      · have positive := List.length_pos_iff.mpr nonempty
        rw [List.length_cons, List.length_append, List.length_dropLast]
        omega

end Splitting

theorem splitFirst_append
    {separator : Char} {before : List Char} (first : separator ∉ before)
    (after : List Char) :
    splitFirst separator (before ++ separator :: after) =
      some (before, after) := by
  induction before with
  | nil =>
      exact if_pos rfl
  | cons char before inductionHypothesis =>
      rw [List.mem_cons, not_or] at first
      rw [List.cons_append, splitFirst, if_neg (Ne.symm first.1),
        inductionHypothesis first.2, Option.map_some]

theorem splitFirst_eq_some_iff
    (separator : Char) (chars before after : List Char) :
    splitFirst separator chars = some (before, after) ↔
      chars = before ++ separator :: after ∧ separator ∉ before := by
  constructor
  · intro found
    induction chars generalizing before with
    | nil =>
        cases found
    | cons char rest inductionHypothesis =>
        rw [splitFirst] at found
        by_cases here : char = separator
        · rw [if_pos here] at found
          cases found
          exact ⟨by rw [here, List.nil_append], List.not_mem_nil⟩
        · rw [if_neg here] at found
          obtain ⟨parts, later, same⟩ := Option.map_eq_some_iff.mp found
          cases same
          obtain ⟨restEq, first⟩ := inductionHypothesis parts.1 later
          refine ⟨by rw [restEq, List.cons_append], ?_⟩
          rw [List.mem_cons, not_or]
          exact ⟨Ne.symm here, first⟩
  · rintro ⟨rfl, first⟩
    exact splitFirst_append first after

theorem splitLast_eq_none_iff (separator : Char) (chars : List Char) :
    splitLast separator chars = none ↔ separator ∉ chars := by
  induction chars with
  | nil =>
      simp [splitLast]
  | cons char rest inductionHypothesis =>
      rw [splitLast, List.mem_cons, not_or, ← inductionHypothesis]
      cases splitLast separator rest with
      | some parts =>
          simp
      | none =>
          by_cases here : char = separator
          · simp [here]
          · simp [here, Ne.symm here]

theorem splitLast_append
    {separator : Char} {after : List Char} (last : separator ∉ after)
    (before : List Char) :
    splitLast separator (before ++ separator :: after) =
      some (before, after) := by
  induction before with
  | nil =>
      rw [List.nil_append, splitLast,
        (splitLast_eq_none_iff separator after).mpr last]
      exact if_pos rfl
  | cons char before inductionHypothesis =>
      rw [List.cons_append, splitLast, inductionHypothesis]

theorem splitLast_eq_some_iff
    (separator : Char) (chars before after : List Char) :
    splitLast separator chars = some (before, after) ↔
      chars = before ++ separator :: after ∧ separator ∉ after := by
  constructor
  · intro found
    induction chars generalizing before with
    | nil =>
        cases found
    | cons char rest inductionHypothesis =>
        rw [splitLast] at found
        cases later : splitLast separator rest with
        | some parts =>
            simp only [later] at found
            cases found
            obtain ⟨restEq, last⟩ := inductionHypothesis parts.1 later
            exact ⟨by rw [restEq, List.cons_append], last⟩
        | none =>
            simp only [later] at found
            split at found
            · next here =>
                cases found
                rw [here]
                exact ⟨rfl, (splitLast_eq_none_iff separator _).mp later⟩
            · cases found
  · rintro ⟨rfl, last⟩
    exact splitLast_append last before

/-! ## The characterisation -/

theorem strips_iff (serverAddress address : List Char) :
    Strips serverAddress address ↔
      (afterFirst "://".toList serverAddress).getD serverAddress =
        address := by
  have nonempty : "://".toList ≠ [] := by decide
  constructor
  · intro strips
    cases strips with
    | bare absent =>
        rw [(afterFirst_eq_none_iff _).mpr absent]
        rfl
    | scheme first =>
        rw [afterFirst_append nonempty _ first]
        rfl
  · intro same
    cases found : afterFirst "://".toList serverAddress with
    | none =>
        rw [found] at same
        cases same
        exact .bare ((afterFirst_eq_none_iff _).mp found)
    | some rest =>
        rw [found] at same
        cases same
        obtain ⟨before, rfl, first⟩ :=
          exists_before_of_afterFirst nonempty found
        exact .scheme first

theorem strips_unique
    {serverAddress address other : List Char}
    (first : Strips serverAddress address)
    (second : Strips serverAddress other) : address = other :=
  ((strips_iff _ _).mp first).symm.trans ((strips_iff _ _).mp second)

theorem hostPort_bracket_iff (inner host port : List Char) :
    HostPort ('[' :: inner) host port ↔
      splitFirst ']' inner = some (host, ':' :: port) := by
  rw [splitFirst_eq_some_iff]
  constructor
  · intro parts
    generalize whole : '[' :: inner = address at parts
    cases parts with
    | bracketed first =>
        cases whole
        exact ⟨rfl, first⟩
    | plain unbracketed last =>
        rw [← whole] at unbracketed
        exact absurd rfl unbracketed
  · rintro ⟨rfl, first⟩
    exact .bracketed first

theorem hostPort_plain_iff
    {address : List Char} (unbracketed : address.head? ≠ some '[')
    (host port : List Char) :
    HostPort address host port ↔
      splitLast ':' address = some (host, port) := by
  rw [splitLast_eq_some_iff]
  constructor
  · intro parts
    cases parts with
    | bracketed first =>
        exact absurd rfl unbracketed
    | plain _ last =>
        exact ⟨rfl, last⟩
  · rintro ⟨rfl, last⟩
    exact .plain unbracketed last

theorem ofList_eq_iff (chars : List Char) (text : String) :
    String.ofList chars = text ↔ chars = text.toList := by
  constructor
  · rintro rfl
    exact String.toList_ofList.symm
  · rintro rfl
    exact String.ofList_toList

/-- What the code does with the address after the scheme. -/
theorem splitAddress_of_strips
    {serverAddress : String} {address : List Char}
    (strips : Strips serverAddress.toList address) (host port : String) :
    splitAddress serverAddress = .ok (host, port) ↔
      HostPort address host.toList port.toList := by
  unfold splitAddress
  rw [(strips_iff _ _).mp strips]
  dsimp only
  cases address with
  | nil =>
      rw [hostPort_plain_iff (by simp)]
      simp [splitLast]
  | cons head inner =>
      by_cases bracket : head = '['
      · subst head
        rw [hostPort_bracket_iff]
        cases found : splitFirst ']' inner with
        | none =>
            simp [found]
        | some parts =>
            obtain ⟨before, after⟩ := parts
            cases after with
            | nil =>
                simp [found]
            | cons next rest =>
                by_cases colon : next = ':'
                · subst next
                  simp [found, ofList_eq_iff]
                · simp [found, colon]
      · rw [hostPort_plain_iff (by simpa using bracket)]
        cases found : splitLast ':' (head :: inner) with
        | none =>
            simp [bracket]
        | some parts =>
            simp [bracket, ofList_eq_iff, Prod.ext_iff]

theorem splitAddress_eq_ok_iff (serverAddress host port : String) :
    splitAddress serverAddress = .ok (host, port) ↔
      HasParts serverAddress host port := by
  have strips : Strips serverAddress.toList _ := (strips_iff _ _).mpr rfl
  rw [splitAddress_of_strips strips]
  constructor
  · intro parts
    exact ⟨_, strips, parts⟩
  · rintro ⟨other, otherStrips, parts⟩
    rw [strips_unique strips otherStrips]
    exact parts

/-! ## Well-formed addresses -/

theorem IsNumber.not_mem
    {text : List Char} (number : IsNumber text) {char : Char}
    (noDigit : char.isDigit = false) : char ∉ text := by
  intro member
  have digit := number.2 char member
  rw [noDigit] at digit
  cases digit

theorem not_separator_infix_of_no_slash
    {chars : List Char} (noSlash : '/' ∉ chars) :
    ¬ "://".toList <:+: chars := by
  intro inside
  exact noSlash (inside.subset (by decide))

theorem first_separator_of_no_colon
    {name : List Char} (noColon : ':' ∉ name) :
    ¬ "://".toList <:+: name ++ ":/".toList := by
  induction name with
  | nil =>
      intro inside
      have short := inside.length_le
      simp at short
  | cons char name inductionHypothesis =>
      rw [List.mem_cons, not_or] at noColon
      rw [List.cons_append, List.infix_cons_iff, not_or]
      refine ⟨?_, inductionHypothesis noColon.2⟩
      intro starts
      exact noColon.1 (List.cons_prefix_cons.mp starts).1

theorem strips_append
    {scheme address : List Char} (isScheme : IsScheme scheme)
    (noSlash : '/' ∉ address) : Strips (scheme ++ address) address := by
  rcases isScheme with rfl | ⟨name, noColon, rfl⟩
  · exact .bare (not_separator_infix_of_no_slash noSlash)
  · rw [List.append_assoc]
    exact .scheme (first_separator_of_no_colon noColon)

theorem WellFormed.hasParts
    {serverAddress host port : String}
    (wellFormed : WellFormed serverAddress host port) :
    HasParts serverAddress host port := by
  obtain ⟨hostNonempty, noSlash, number, scheme, isScheme, form⟩ :=
    wellFormed
  have portSlash : '/' ∉ port.toList := number.not_mem (by decide)
  have portColon : ':' ∉ port.toList := number.not_mem (by decide)
  rcases form with ⟨shape, _, unbracketed⟩ | ⟨shape, first⟩
  · have plain :
        (host.toList ++ ':' :: port.toList).head? ≠ some '[' := by
      have nonempty : host.toList ≠ [] := by simpa using hostNonempty
      rw [List.head?_append_of_ne_nil _ nonempty]
      exact unbracketed
    refine ⟨host.toList ++ ':' :: port.toList, ?_, .plain plain portColon⟩
    rw [shape]
    refine strips_append isScheme ?_
    simp [noSlash, portSlash]
  · refine ⟨'[' :: (host.toList ++ ']' :: ':' :: port.toList), ?_,
      .bracketed first⟩
    rw [shape]
    refine strips_append isScheme ?_
    simp [noSlash, portSlash]

theorem takenFrom_of_splitAddress
    {addr host port : String} (split : splitAddress addr = .ok (host, port)) :
    TakenFrom addr host port where
  parts := (splitAddress_eq_ok_iff addr host port).mp split
  wellFormed := by
    intro name number wellFormed
    have asWritten :=
      (splitAddress_eq_ok_iff addr name number).mpr wellFormed.hasParts
    rw [split] at asWritten
    cases asWritten
    exact ⟨rfl, rfl⟩

theorem splitAddress_eq_error_iff (serverAddress : String) :
    (∃ error, splitAddress serverAddress = .error error) ↔
      ¬ ∃ host port, HasParts serverAddress host port := by
  cases found : splitAddress serverAddress with
  | error error =>
      refine iff_of_true ⟨error, rfl⟩ ?_
      rintro ⟨host, port, parts⟩
      cases found.symm.trans
        ((splitAddress_eq_ok_iff serverAddress host port).mpr parts)
  | ok parts =>
      refine iff_of_false (by simp) (not_not.mpr ⟨parts.1, parts.2, ?_⟩)
      exact (splitAddress_eq_ok_iff serverAddress _ _).mp found

/-- A string is split exactly when it has a host and a port, and raises
otherwise.  Well-formed strings are split into the parts they are made of, and
the files hold the parts of the addresses. -/
theorem splitAddress_accepts :
    (∀ serverAddress host port,
      splitAddress serverAddress = .ok (host, port) ↔
        HasParts serverAddress host port) ∧
    (∀ serverAddress,
      (∃ error, splitAddress serverAddress = .error error) ↔
        ¬ ∃ host port, HasParts serverAddress host port) ∧
    (∀ serverAddress host port, WellFormed serverAddress host port →
      splitAddress serverAddress = .ok (host, port)) ∧
    (∀ label engineType addresses entries,
      rolloutEntries label engineType 0 addresses = .ok entries →
        List.Forall₂
          (fun entry addr => TakenFrom addr entry.address entry.port)
          entries addresses) ∧
    (∀ path addresses roles label entries,
      writePdEndpoints path addresses roles label = .ok (some entries) →
        List.Forall₂
          (fun entry pair => TakenFrom pair.1 entry.address entry.port)
          entries (addresses.zip roles)) := by
  refine ⟨splitAddress_eq_ok_iff, splitAddress_eq_error_iff, ?_, ?_, ?_⟩
  · intro serverAddress host port wellFormed
    exact (splitAddress_eq_ok_iff serverAddress host port).mpr
      wellFormed.hasParts
  · intro label engineType addresses entries built
    refine (lists_of_rolloutEntries built).imp ?_
    intro entry addr split
    exact takenFrom_of_splitAddress split
  · intro path addresses roles label entries written
    unfold writePdEndpoints at written
    split at written
    · cases written
    · cases built : pdEntries label .empty (addresses.zip roles) with
      | error error =>
          rw [built] at written
          cases written
      | ok found =>
          rw [built] at written
          cases written
          refine (pdLists_of_pdEntries built).imp ?_
          intro entry pair split
          exact takenFrom_of_splitAddress split.1

/-- A well-formed address. -/
theorem splitAddress_with_scheme :
    splitAddress "http://10.0.0.2:8000" = .ok ("10.0.0.2", "8000") := by
  have number : IsNumber "8000".toList :=
    ⟨by decide, List.all_eq_true.mp (by decide)⟩
  refine splitAddress_accepts.2.2.1 _ _ _ ⟨by decide, by decide, number,
    "http://".toList, .inr ⟨"http".toList, ?_, ?_⟩, .inl ⟨?_, ?_, ?_⟩⟩ <;>
    decide

/-- A port that is empty or followed by a path is taken as it is, as is a host
with colons or none; and a plain host can not start with a bracket. -/
theorem loose_addresses_split :
    (splitAddress "engine:" = .ok ("engine", "") ∧
      ¬ ∃ host port, WellFormed "engine:" host port) ∧
    splitAddress "engine:80/v1" = .ok ("engine", "80/v1") ∧
    splitAddress "::1:80" = .ok ("::1", "80") ∧
    splitAddress ":80" = .ok ("", "80") ∧
    splitAddress "[engine:80" = .error .substringNotFound := by
  have split : splitAddress "engine:" = .ok ("engine", "") := by
    decide +kernel
  refine ⟨⟨split, ?_⟩, by decide +kernel⟩
  rintro ⟨host, port, wellFormed⟩
  obtain ⟨_, rfl⟩ :=
    (takenFrom_of_splitAddress split).wellFormed host port wellFormed
  exact wellFormed.number.1 rfl

end LlmDRl.Registration
