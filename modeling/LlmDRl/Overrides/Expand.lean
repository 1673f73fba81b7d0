import Mathlib.Data.List.Forall2

/-!
# Expanding references

`_expand` of `modes.py` replaces what one regular expression finds in a
string.  Beside it stands what a shell with unset variables an error makes of
the same references in the template the string was made from: there a default
is a word of its own, and text that was inserted is never read.
-/

namespace LlmDRl.Overrides

/-- `env.get` -/
abbrev Env := String → Option String

/-- A text that counts as true in Python. -/
def truthy : Option String → Option String
  | none => none
  | some text => if text = "" then none else some text

/-- The exceptions of `overrides`, all `KeyError`. -/
inductive KeyError where
  | notSet (name : String)
  | unknownMode (mode : String) (known : List String)
  | manualOnly (mode : String)
  | missing (key : String)
  deriving DecidableEq, Repr

/-- The argument of the exception, given `repr` of a string. -/
def KeyError.message (repr : String → String) : KeyError → String
  | notSet name => s!"{name} is referenced by modes.yaml but not set"
  | unknownMode mode known =>
      let names := ", ".intercalate known
      s!"unknown mode {repr mode}; known: {names}"
  | manualOnly mode =>
      s!"mode {repr mode} is manual-only - see modes.yaml for what is " ++
        "missing. Pass --allow-manual to render its overrides anyway."
  | missing key => key

/-! ## The regular expression -/

/-- `[A-Za-z_]` -/
def isNameStart (char : Char) : Bool := char.isAlpha || char = '_'

/-- `[A-Za-z0-9_]` -/
def isNameChar (char : Char) : Bool := char.isAlphanum || char = '_'

/-- The groups of a match, and its length. -/
structure Match where
  name : String
  default : Option (List Char)
  length : Nat

/-- `_ENV_RE` at the front of a string; a default ends at the first brace. -/
def envRe : List Char → Option Match
  | '$' :: '\x7b' :: rest =>
      let name := rest.takeWhile isNameChar
      if name.head?.any isNameStart then
        match rest.dropWhile isNameChar with
        | '\x7d' :: _ => some ⟨String.ofList name, none, name.length + 3⟩
        | ':' :: '-' :: tail =>
            let default := tail.takeWhile (· ≠ '\x7d')
            if default.length < tail.length then
              some ⟨String.ofList name, some default,
                name.length + default.length + 5⟩
            else
              none
        | _ => none
      else
        none
  | _ => none

/-- A string as `re.sub` goes through it. -/
inductive Segment where
  | char (char : Char)
  | reference (name : String) (default : Option (List Char))
  deriving DecidableEq, Repr

/-- The segments of a string, of which the first characters are still part of
a match. -/
def segmentsFrom : Nat → List Char → List Segment
  | _, [] => []
  | skip + 1, _ :: rest => segmentsFrom skip rest
  | 0, char :: rest =>
      match envRe (char :: rest) with
      | some found =>
          .reference found.name found.default ::
            segmentsFrom (found.length - 1) rest
      | none => .char char :: segmentsFrom 0 rest

/-- `one` -/
def one (env : Env) : Segment → Except KeyError (List Char)
  | .char char => .ok [char]
  | .reference name default =>
      match truthy (env name) with
      | some got => .ok got.toList
      | none =>
          match default with
          | some default => .ok default
          | none => .error (.notSet name)

/-- `_expand` -/
def expand (env : Env) (value : String) : Except KeyError String :=
  ((segmentsFrom 0 value.toList).mapM (one env)).map fun texts =>
    String.ofList texts.flatten

/-! ## The shell -/

/-- A template: what is written in it, and texts that are inserted as a
whole. -/
inductive Symbol where
  | char (char : Char)
  | verbatim (text : List Char)
  deriving DecidableEq, Repr

inductive Token where
  | char (char : Char)
  | verbatim (text : List Char)
  | plain (name : String)
  /-- A reference up to its default. -/
  | opens (name : String)
  /-- A closing brace. -/
  | closes
  deriving DecidableEq, Repr

/-- The name that a template starts with, and what follows it. -/
def leadingName : List Symbol → List Char × List Symbol
  | .char char :: rest =>
      if isNameChar char then
        (char :: (leadingName rest).1, (leadingName rest).2)
      else
        ([], .char char :: rest)
  | symbols => ([], symbols)

/-- A reference at the front of a template, and the length of the token. -/
def reference : List Symbol → Option (Token × Nat)
  | .char '$' :: .char '\x7b' :: rest =>
      let name := (leadingName rest).1
      if name.head?.any isNameStart then
        match (leadingName rest).2 with
        | .char '\x7d' :: _ =>
            some (.plain (String.ofList name), name.length + 3)
        | .char ':' :: .char '-' :: _ =>
            some (.opens (String.ofList name), name.length + 4)
        | _ => none
      else
        none
  | _ => none

def Symbol.token : Symbol → Token
  | char '\x7d' => .closes
  | char other => .char other
  | verbatim text => .verbatim text

def tokensFrom : Nat → List Symbol → List Token
  | _, [] => []
  | skip + 1, _ :: rest => tokensFrom skip rest
  | 0, symbol :: rest =>
      match reference (symbol :: rest) with
      | some (token, length) => token :: tokensFrom (length - 1) rest
      | none => symbol.token :: tokensFrom 0 rest

inductive ShellError where
  | unset (name : String)
  | unterminated
  deriving DecidableEq, Repr

abbrev Word := Except ShellError (List Char)

def Word.append (word next : Word) : Word :=
  match word, next with
  | .ok text, .ok more => .ok (text ++ more)
  | .ok _, .error error => .error error
  | .error error, _ => .error error

/-- A plain reference: a variable that is set can be empty. -/
def plainValue (env : Env) (name : String) : Word :=
  match env name with
  | some value => .ok value.toList
  | none => .error (.unset name)

/-- A reference with a default, which is only looked at where it is needed. -/
def defaultedValue (env : Env) (name : String) (default : Word) : Word :=
  match truthy (env name) with
  | some value => .ok value.toList
  | none => default

/-- The expansion of the rest of a template, within the references that are
open, innermost first, each with the word before it. -/
def shellFrom (env : Env) : List (String × Word) → Word → List Token → Word
  | [], word, [] => word
  | _ :: _, _, [] => .error .unterminated
  | opened, word, .char char :: rest =>
      shellFrom env opened (word.append (.ok [char])) rest
  | opened, word, .verbatim text :: rest =>
      shellFrom env opened (word.append (.ok text)) rest
  | opened, word, .plain name :: rest =>
      shellFrom env opened (word.append (plainValue env name)) rest
  | opened, word, .opens name :: rest =>
      shellFrom env ((name, word) :: opened) (.ok []) rest
  | [], word, .closes :: rest =>
      shellFrom env [] (word.append (.ok ['\x7d'])) rest
  | (name, outer) :: opened, word, .closes :: rest =>
      shellFrom env opened
        (outer.append (defaultedValue env name word)) rest

/-- What the shell makes of a template. -/
def shellExpand (env : Env) (template : List Symbol) : Word :=
  shellFrom env [] (.ok []) (tokensFrom 0 template)

/-! ## Readings -/

/-- A template as segments, where no default has a reference in it and every
reference ends. -/
def segments? : Option (String × List Char) → List Token →
    Option (List Segment)
  | none, [] => some []
  | some _, [] => none
  | none, .char char :: rest =>
      (segments? none rest).map (.char char :: ·)
  | none, .closes :: rest =>
      (segments? none rest).map (.char '\x7d' :: ·)
  | none, .verbatim text :: rest =>
      (segments? none rest).map (text.map .char ++ ·)
  | none, .plain name :: rest =>
      (segments? none rest).map (.reference name none :: ·)
  | none, .opens name :: rest => segments? (some (name, [])) rest
  | some (name, default), .char char :: rest =>
      segments? (some (name, default ++ [char])) rest
  | some (name, default), .verbatim text :: rest =>
      segments? (some (name, default ++ text)) rest
  | some (name, default), .closes :: rest =>
      (segments? none rest).map (.reference name (some default) :: ·)
  | some _, .plain _ :: _ => none
  | some _, .opens _ :: _ => none

/-- What the shell makes of one segment. -/
def shellOne (env : Env) : Segment → Word
  | .char char => .ok [char]
  | .reference name none => plainValue env name
  | .reference name (some default) => defaultedValue env name (.ok default)

def shellSegments (env : Env) : List Segment → Word
  | [] => .ok []
  | segment :: rest =>
      (shellOne env segment).append (shellSegments env rest)

/-- The plain references are to variables that are set. -/
def AllSet (env : Env) (segments : List Segment) : Prop :=
  ∀ name, .reference name none ∈ segments → env name ≠ none

/-- No plain reference is to a variable that is set but empty. -/
def NoneEmpty (env : Env) (segments : List Segment) : Prop :=
  ∀ name, .reference name none ∈ segments → env name ≠ some ""

section Words

variable {env : Env}

theorem Word.append_assoc (first second third : Word) :
    (first.append second).append third =
      first.append (second.append third) := by
  cases first with
  | error error =>
      rfl
  | ok text =>
      cases second with
      | error error =>
          rfl
      | ok more =>
          cases third with
          | error error =>
              rfl
          | ok last =>
              exact congrArg Except.ok (List.append_assoc ..)

theorem Word.append_ok_nil (word : Word) : word.append (.ok []) = word := by
  cases word with
  | error error =>
      rfl
  | ok text =>
      exact congrArg Except.ok (List.append_nil text)

theorem Word.ok_nil_append (word : Word) :
    Word.append (.ok []) word = word := by
  cases word <;> rfl

theorem Word.append_eq_ok_iff (word next : Word) (text : List Char) :
    word.append next = .ok text ↔
      ∃ front back, word = .ok front ∧ next = .ok back ∧
        front ++ back = text := by
  cases word with
  | error error =>
      simp [Word.append]
  | ok front =>
      cases next with
      | error error =>
          simp [Word.append]
      | ok back =>
          simp [Word.append]

theorem shellSegments_chars (text : List Char) (segments : List Segment) :
    shellSegments env (text.map .char ++ segments) =
      Word.append (.ok text) (shellSegments env segments) := by
  induction text with
  | nil =>
      exact (Word.ok_nil_append _).symm
  | cons char rest inductionHypothesis =>
      rw [List.map_cons, List.cons_append, shellSegments,
        inductionHypothesis, ← Word.append_assoc]
      rfl

/-- The shell goes through a template without nested references segment by
segment. -/
theorem shellFrom_of_segments?
    (inside : Option (String × List Char)) (tokens : List Token)
    (word : Word) {segments : List Segment}
    (reading : segments? inside tokens = some segments) :
    (match inside with
      | none => shellFrom env [] word tokens
      | some (name, default) =>
          shellFrom env [(name, word)] (.ok default) tokens) =
      word.append (shellSegments env segments) := by
  induction tokens generalizing inside word segments with
  | nil =>
      cases inside with
      | none =>
          cases reading
          exact (Word.append_ok_nil word).symm
      | some within =>
          cases reading
  | cons token rest inductionHypothesis =>
      cases inside with
      | none =>
          cases token with
          | char char =>
              obtain ⟨later, found, rfl⟩ := Option.map_eq_some_iff.mp reading
              have onward := inductionHypothesis none
                (word.append (.ok [char])) found
              rw [Word.append_assoc] at onward
              exact onward
          | verbatim text =>
              obtain ⟨later, found, rfl⟩ := Option.map_eq_some_iff.mp reading
              have onward := inductionHypothesis none
                (word.append (.ok text)) found
              rw [Word.append_assoc, ← shellSegments_chars] at onward
              exact onward
          | plain name =>
              obtain ⟨later, found, rfl⟩ := Option.map_eq_some_iff.mp reading
              have onward := inductionHypothesis none
                (word.append (plainValue env name)) found
              rw [Word.append_assoc] at onward
              exact onward
          | opens name =>
              exact inductionHypothesis (some (name, [])) word reading
          | closes =>
              obtain ⟨later, found, rfl⟩ := Option.map_eq_some_iff.mp reading
              have onward := inductionHypothesis none
                (word.append (.ok ['\x7d'])) found
              rw [Word.append_assoc] at onward
              exact onward
      | some within =>
          obtain ⟨name, default⟩ := within
          cases token with
          | char char =>
              exact inductionHypothesis (some (name, default ++ [char])) word
                reading
          | verbatim text =>
              exact inductionHypothesis (some (name, default ++ text)) word
                reading
          | plain inner =>
              cases reading
          | opens inner =>
              cases reading
          | closes =>
              obtain ⟨later, found, rfl⟩ := Option.map_eq_some_iff.mp reading
              have onward := inductionHypothesis none
                (word.append (defaultedValue env name (.ok default))) found
              rw [Word.append_assoc] at onward
              exact onward

/-- Only a plain reference to an empty variable tells the code from the
shell. -/
theorem one_eq_ok_iff (segment : Segment) (text : List Char) :
    one env segment = .ok text ↔
      shellOne env segment = .ok text ∧
        ∀ name, segment = .reference name none → env name ≠ some "" := by
  cases segment with
  | char char =>
      simp [one, shellOne]
  | reference name default =>
      cases default with
      | none =>
          cases value : env name with
          | none =>
              simp [one, shellOne, plainValue, value, truthy]
          | some got =>
              by_cases empty : got = ""
              · simp [one, shellOne, plainValue, value, truthy, empty]
              · simp [one, shellOne, plainValue, value, truthy, empty]
      | some default =>
          cases found : truthy (env name) with
          | none =>
              simp [one, shellOne, defaultedValue, found]
          | some got =>
              simp [one, shellOne, defaultedValue, found]

theorem mapM_one_eq_ok_iff (segments : List Segment) (text : List Char) :
    (segments.mapM (one env)).map List.flatten = .ok text ↔
      shellSegments env segments = .ok text ∧ NoneEmpty env segments := by
  induction segments generalizing text with
  | nil =>
      simp [shellSegments, NoneEmpty, Except.map, pure, Except.pure]
  | cons segment rest inductionHypothesis =>
      have headEmpty : NoneEmpty env (segment :: rest) ↔
          (∀ name, segment = .reference name none →
            env name ≠ some "") ∧ NoneEmpty env rest := by
        simp only [NoneEmpty, List.mem_cons, or_imp, forall_and, eq_comm]
      rw [List.mapM_cons, shellSegments, Word.append_eq_ok_iff, headEmpty]
      cases made : one env segment with
      | error error =>
          refine iff_of_false (by simp [Except.map, bind, Except.bind]) ?_
          rintro ⟨⟨front, _, shell, _⟩, headSet, _⟩
          cases made.symm.trans
            ((one_eq_ok_iff segment front).mpr ⟨shell, headSet⟩)
      | ok front =>
          obtain ⟨shell, headSet⟩ := (one_eq_ok_iff segment front).mp made
          have onward : ∀ back, (∃ texts, rest.mapM (one env) = .ok texts ∧
              texts.flatten = back) ↔
                shellSegments env rest = .ok back ∧ NoneEmpty env rest := by
            intro back
            rw [← inductionHypothesis back]
            cases rest.mapM (one env) <;> simp [Except.map]
          constructor
          · intro expanded
            cases later : rest.mapM (one env) with
            | error error =>
                rw [later] at expanded
                cases expanded
            | ok texts =>
                rw [later] at expanded
                cases expanded
                obtain ⟨shellRest, restSet⟩ :=
                  (onward _).mp ⟨texts, later, rfl⟩
                exact ⟨⟨front, texts.flatten, shell, shellRest, rfl⟩,
                  headSet, restSet⟩
          · rintro ⟨⟨other, back, otherShell, shellRest, rfl⟩, _, restSet⟩
            cases shell.symm.trans otherShell
            obtain ⟨texts, later, rfl⟩ :=
              (onward back).mpr ⟨shellRest, restSet⟩
            rw [later]
            rfl

theorem expand_eq_ok_iff (value out : String) :
    expand env value = .ok out ↔
      shellSegments env (segmentsFrom 0 value.toList) = .ok out.toList ∧
        NoneEmpty env (segmentsFrom 0 value.toList) := by
  rw [← mapM_one_eq_ok_iff, expand]
  cases (segmentsFrom 0 value.toList).mapM (one env) with
  | error error =>
      simp [Except.map]
  | ok texts =>
      simp only [Except.map, Except.ok.injEq]
      constructor
      · rintro rfl
        exact String.toList_ofList.symm
      · intro same
        rw [same, String.ofList_toList]

/-- The shell has a result unless a variable is not set. -/
theorem exists_shellSegments_iff (segments : List Segment) :
    (∃ text, shellSegments env segments = .ok text) ↔
      AllSet env segments := by
  induction segments with
  | nil =>
      simp [shellSegments, AllSet]
  | cons segment rest inductionHypothesis =>
      have headSet : AllSet env (segment :: rest) ↔
          (∀ name, segment = .reference name none → env name ≠ none) ∧
            AllSet env rest := by
        simp only [AllSet, List.mem_cons, or_imp, forall_and, eq_comm]
      have headShell : (∃ text, shellOne env segment = .ok text) ↔
          ∀ name, segment = .reference name none → env name ≠ none := by
        cases segment with
        | char char =>
            simp [shellOne]
        | reference name default =>
            cases default with
            | none =>
                cases value : env name <;>
                  simp [shellOne, plainValue, value]
            | some default =>
                cases found : truthy (env name) <;>
                  simp [shellOne, defaultedValue, found]
      rw [headSet, ← headShell, ← inductionHypothesis]
      simp only [shellSegments, Word.append_eq_ok_iff]
      constructor
      · rintro ⟨_, front, back, shell, shellRest, _⟩
        exact ⟨⟨front, shell⟩, back, shellRest⟩
      · rintro ⟨⟨front, shell⟩, back, shellRest⟩
        exact ⟨_, front, back, shell, shellRest, rfl⟩

end Words

end LlmDRl.Overrides
