import LlmDRl.Library.Loops
import LlmDRl.Library.OrderedDict
import LlmDRl.Overrides.Expand

/-!
# The overrides of a mode

`overrides` puts the overrides of a mode together and expands each of them.
Some are made of text from the modes file, some also of text from the
environment or of the config directory; the code joins them before it expands.
-/

namespace LlmDRl.Overrides

open LlmDRl.Library

/-- A hydra list of the modes file, which can nest. -/
inductive Hydra where
  | none
  | item (text : String)
  | list (items : List Hydra)

mutual

/-- `_flatten` -/
def Hydra.flatten : Hydra → List String
  | .none => []
  | .item text => [text]
  | .list items => flattenAll items

def flattenAll : List Hydra → List String
  | [] => []
  | item :: rest => item.flatten ++ flattenAll rest

end

/-- An entry of `when`; `none` is a missing key. -/
structure When where
  env : Option String
  equals : Option String
  hydra : Hydra

/-- A mode; a missing list is empty. -/
structure Mode where
  status : Option String := none
  manager : Option String
  eppConfig : Option String := none
  envoyConfig : Option String := none
  rolloutName : Option String := none
  externalLib : Option String := none
  hydra : Hydra := .none
  when : List When := []

/-- The modes file. -/
structure Spec where
  commonHydra : List String := []
  commonHydraLast : List String := []
  eppBinaryEnv : List String := []
  modes : OrderedDict String Mode

/-- A part of an f-string: text of the modes file and of the code, or a value
from the environment or the command line. -/
inductive Part where
  | written (text : String)
  | inserted (text : String)

def Part.text : Part → String
  | written text => text
  | inserted text => text

/-- The string that the parts make. -/
def joined (parts : List Part) : String :=
  String.ofList (parts.flatMap fun part => part.text.toList)

def Part.symbols : Part → List Symbol
  | written text => text.toList.map .char
  | inserted text => [.verbatim text.toList]

/-- The template the string was made from. -/
def template (parts : List Part) : List Symbol := parts.flatMap Part.symbols

/-- The mode, if it exists and may be rendered. -/
def modeOf (spec : Spec) (mode : String) (allowManual : Bool) :
    Except KeyError Mode :=
  match spec.modes.get? mode with
  | none => .error (.unknownMode mode spec.modes.keys)
  | some m =>
      if m.status = some "manual-only" ∧ ¬ allowManual then
        .error (.manualOnly mode)
      else
        .ok m

/-- `EPP_CONFIG` overrides the mode's default variant without editing the
mode. -/
def variant (env : Env) (eppConfig : String) : Part :=
  match truthy (env "EPP_CONFIG") with
  | some other => .inserted other
  | none => .written eppConfig

def eppArgs (spec : Spec) (env : Env) (configDir : String) (m : Mode) :
    List (List Part) :=
  match truthy m.eppConfig with
  | none => []
  | some eppConfig =>
      [.written "+actor_rollout_ref.rollout.custom.epp_config_file=",
        .inserted configDir, .written "/", variant env eppConfig] ::
        spec.eppBinaryEnv.filterMap fun name =>
          (truthy (env name)).map fun value =>
            [.written s!"+ray_kwargs.ray_init.runtime_env.env_vars.{name}=",
              .inserted value]

/-- An argument that is there if its key is. -/
def namedArg (key : String) (value : Option String) : List (List Part) :=
  match truthy value with
  | none => []
  | some value => [[.written s!"{key}={value}"]]

def envoyArgs (configDir : String) (m : Mode) : List (List Part) :=
  match truthy m.envoyConfig with
  | none => []
  | some envoyConfig =>
      [[.written "+actor_rollout_ref.rollout.custom.envoy_config=",
        .inserted configDir, .written s!"/{envoyConfig}"]]

def writtenArgs (texts : List String) : List (List Part) :=
  texts.map fun text => [.written text]

/-- The loop over `when`. -/
def whenArgs (env : Env) : List When → Except KeyError (List (List Part))
  | [] => .ok []
  | cond :: rest =>
      match cond.env, cond.equals with
      | none, _ => .error (.missing "env")
      | some _, none => .error (.missing "equals")
      | some name, some equals =>
          match whenArgs env rest with
          | .error error => .error error
          | .ok later =>
              if (env name).getD "" = equals then
                .ok (writtenArgs cond.hydra.flatten ++ later)
              else
                .ok later

/-- The list `args`, each with the parts it is made of. -/
def args (spec : Spec) (mode : String) (env : Env) (configDir : String)
    (allowManual : Bool) : Except KeyError (List (List Part)) :=
  match modeOf spec mode allowManual with
  | .error error => .error error
  | .ok m =>
      match m.manager with
      | none => .error (.missing "manager")
      | some manager =>
          match whenArgs env m.when with
          | .error error => .error error
          | .ok conditional =>
              .ok
                (writtenArgs spec.commonHydra ++
                  [[.written ("+actor_rollout_ref.rollout.agent." ++
                    s!"agent_loop_manager_class={manager}")]] ++
                  eppArgs spec env configDir m ++
                  envoyArgs configDir m ++
                  namedArg "actor_rollout_ref.rollout.name" m.rolloutName ++
                  namedArg "+actor_rollout_ref.model.external_lib"
                    m.externalLib ++
                  writtenArgs m.hydra.flatten ++
                  conditional ++
                  writtenArgs spec.commonHydraLast)

/-- `overrides` -/
def overrides (spec : Spec) (mode : String) (env : Env)
    (configDir : String) (allowManual : Bool) :
    Except KeyError (List String) :=
  match args spec mode env configDir allowManual with
  | .error error => .error error
  | .ok args => args.mapM fun parts => expand env (joined parts)

/-! ## Overrides of the shell -/

inductive ShellFailure where
  | key (error : KeyError)
  | shell (error : ShellError)

def shellOverride (env : Env) (parts : List Part) :
    Except ShellFailure String :=
  match shellExpand env (template parts) with
  | .ok text => .ok (String.ofList text)
  | .error error => .error (.shell error)

/-- The same list with every template expanded by the shell. -/
def shellOverrides (spec : Spec) (mode : String) (env : Env)
    (configDir : String) (allowManual : Bool) :
    Except ShellFailure (List String) :=
  match args spec mode env configDir allowManual with
  | .error error => .error (.key error)
  | .ok args => args.mapM (shellOverride env)

/-- The references that the regular expression finds in an override are those
of its template: no inserted text takes part in one, no default has one in it,
and every one of them ends. -/
def SameReading (parts : List Part) : Prop :=
  segments? none (tokensFrom 0 (template parts)) =
    some (segmentsFrom 0 (joined parts).toList)

instance (parts : List Part) : Decidable (SameReading parts) :=
  inferInstanceAs (Decidable (_ = _))

/-- The regular expression finds a plain reference to a variable that is not set
or empty. -/
def Raises (env : Env) (parts : List Part) : Prop :=
  ∃ name, .reference name none ∈ segmentsFrom 0 (joined parts).toList ∧
    truthy (env name) = none

/-- The shell needs a variable that is not set, or a reference does not
end. -/
def Refuses (env : Env) (parts : List Part) : Prop :=
  ∀ text, shellExpand env (template parts) ≠ .ok text

/-- Neither the code nor the shell gets through the list. -/
def BothFail (env : Env) (list : List (List Part)) : Prop :=
  (∃ parts ∈ list, Raises env parts) ∧ ∃ parts ∈ list, Refuses env parts

/-- The names that stand in plain references of a template. -/
def plainNames (parts : List Part) : List String :=
  (tokensFrom 0 (template parts)).filterMap fun token =>
    match token with
    | .plain name => some name
    | _ => none

/-! ## One override -/

/-- The plain references of a reading are those of the template. -/
theorem plain_mem_of_segments?
    {inside : Option (String × List Char)} {tokens : List Token}
    {segments : List Segment}
    (reading : segments? inside tokens = some segments) (name : String) :
    .reference name none ∈ segments ↔ .plain name ∈ tokens := by
  induction tokens generalizing inside segments with
  | nil =>
      cases inside with
      | none =>
          cases reading
          simp
      | some within =>
          cases reading
  | cons token rest inductionHypothesis =>
      cases inside with
      | none =>
          cases token with
          | opens inner =>
              rw [inductionHypothesis reading]
              simp
          | char char =>
              obtain ⟨later, found, rfl⟩ := Option.map_eq_some_iff.mp reading
              simp [inductionHypothesis found]
          | verbatim text =>
              obtain ⟨later, found, rfl⟩ := Option.map_eq_some_iff.mp reading
              simp [inductionHypothesis found]
          | plain inner =>
              obtain ⟨later, found, rfl⟩ := Option.map_eq_some_iff.mp reading
              simp [inductionHypothesis found]
          | closes =>
              obtain ⟨later, found, rfl⟩ := Option.map_eq_some_iff.mp reading
              simp [inductionHypothesis found]
      | some within =>
          cases token with
          | char char =>
              rw [inductionHypothesis reading]
              simp
          | verbatim text =>
              rw [inductionHypothesis reading]
              simp
          | plain inner =>
              cases reading
          | opens inner =>
              cases reading
          | closes =>
              obtain ⟨later, found, rfl⟩ := Option.map_eq_some_iff.mp reading
              simp [inductionHypothesis found]

theorem mem_plainNames_iff (parts : List Part) (name : String) :
    name ∈ plainNames parts ↔
      .plain name ∈ tokensFrom 0 (template parts) := by
  unfold plainNames
  rw [List.mem_filterMap]
  constructor
  · rintro ⟨token, member, found⟩
    cases token with
    | plain other =>
        cases found
        exact member
    | char char =>
        cases found
    | verbatim text =>
        cases found
    | opens other =>
        cases found
    | closes =>
        cases found
  · intro member
    exact ⟨.plain name, member, rfl⟩

namespace SameReading

variable {env : Env} {parts : List Part}

theorem plain_iff (same : SameReading parts) (name : String) :
    .reference name none ∈ segmentsFrom 0 (joined parts).toList ↔
      name ∈ plainNames parts := by
  rw [mem_plainNames_iff]
  exact plain_mem_of_segments? same name

theorem shellExpand_eq (same : SameReading parts) :
    shellExpand env (template parts) =
      shellSegments env (segmentsFrom 0 (joined parts).toList) :=
  (shellFrom_of_segments? none _ (.ok []) same).trans
    (Word.ok_nil_append _)

/-- The code agrees with the shell but for empty variables. -/
theorem expand_eq_ok_iff (same : SameReading parts) (out : String) :
    expand env (joined parts) = .ok out ↔
      shellExpand env (template parts) = .ok out.toList ∧
        ∀ name ∈ plainNames parts, env name ≠ some "" := by
  rw [Overrides.expand_eq_ok_iff, same.shellExpand_eq]
  refine and_congr_right' (forall_congr' fun name => ?_)
  rw [same.plain_iff]

end SameReading

/-! ## All of them -/

theorem shellOverride_eq_ok_iff
    (env : Env) (parts : List Part) (out : String) :
    shellOverride env parts = .ok out ↔
      shellExpand env (template parts) = .ok out.toList := by
  unfold shellOverride
  cases shellExpand env (template parts) with
  | error error =>
      simp
  | ok text =>
      simp only [Except.ok.injEq]
      constructor
      · rintro rfl
        exact String.toList_ofList.symm
      · rintro rfl
        exact String.ofList_toList

theorem exists_shellOverride_iff (env : Env) (parts : List Part) :
    (∃ out, shellOverride env parts = .ok out) ↔
      ∃ text, shellExpand env (template parts) = .ok text := by
  simp only [shellOverride_eq_ok_iff]
  constructor
  · rintro ⟨out, expanded⟩
    exact ⟨_, expanded⟩
  · rintro ⟨text, expanded⟩
    exact ⟨String.ofList text, by rw [expanded, String.toList_ofList]⟩

theorem truthy_eq_none_iff (got : Option String) :
    truthy got = none ↔ got = none ∨ got = some "" := by
  cases got with
  | none => simp [truthy]
  | some text => simp [truthy]

theorem exists_expand_iff (env : Env) (parts : List Part) :
    (∃ made, expand env (joined parts) = .ok made) ↔ ¬ Raises env parts := by
  have raises : Raises env parts ↔
      ¬ (AllSet env (segmentsFrom 0 (joined parts).toList) ∧
        NoneEmpty env (segmentsFrom 0 (joined parts).toList)) := by
    simp only [Raises, truthy_eq_none_iff, AllSet, NoneEmpty, not_and_or,
      not_forall, exists_prop, not_not, and_or_left, exists_or]
  rw [raises, not_not, ← exists_shellSegments_iff]
  constructor
  · rintro ⟨made, expanded⟩
    obtain ⟨shell, noneEmpty⟩ :=
      (Overrides.expand_eq_ok_iff (joined parts) made).mp expanded
    exact ⟨⟨_, shell⟩, noneEmpty⟩
  · rintro ⟨⟨text, shell⟩, noneEmpty⟩
    refine ⟨String.ofList text, ?_⟩
    rw [Overrides.expand_eq_ok_iff, String.toList_ofList]
    exact ⟨shell, noneEmpty⟩

theorem exists_mapM_shellOverride_iff (env : Env) (list : List (List Part)) :
    (∃ out, list.mapM (shellOverride env) = .ok out) ↔
      ¬ ∃ parts ∈ list, Refuses env parts := by
  simp only [exists_mapM_iff, exists_shellOverride_iff, Refuses, not_exists,
    not_and, not_forall, not_not]

theorem exists_mapM_expand_iff (env : Env) (list : List (List Part)) :
    (∃ out, (list.mapM fun parts => expand env (joined parts)) = .ok out) ↔
      ¬ ∃ parts ∈ list, Raises env parts := by
  simp only [exists_mapM_iff, exists_expand_iff, not_exists, not_and]

/-- The code has the result of the shell, if no plain reference is to an empty
variable, and none otherwise. -/
theorem mapM_expand_eq_ok_iff
    {env : Env} {list : List (List Part)}
    (same : ∀ parts ∈ list, SameReading parts) (out : List String) :
    (list.mapM fun parts => expand env (joined parts)) = .ok out ↔
      (∀ parts ∈ list, ∀ name ∈ plainNames parts, env name ≠ some "") ∧
        list.mapM (shellOverride env) = .ok out := by
  rw [mapM_eq_ok_iff, mapM_eq_ok_iff, ← List.forall₂_and_left]
  constructor
  · intro expanded
    refine ((List.forall₂_and_left _ _).mpr ⟨same, expanded⟩).imp ?_
    rintro parts made ⟨reading, item⟩
    obtain ⟨shell, noneEmpty⟩ := (reading.expand_eq_ok_iff made).mp item
    exact ⟨noneEmpty, (shellOverride_eq_ok_iff env parts made).mpr shell⟩
  · intro expanded
    refine ((List.forall₂_and_left _ _).mpr ⟨same, expanded⟩).imp ?_
    rintro parts made ⟨reading, noneEmpty, item⟩
    exact (reading.expand_eq_ok_iff made).mpr
      ⟨(shellOverride_eq_ok_iff env parts made).mp item, noneEmpty⟩

/-- Where the references are read alike, the code fails with the shell. -/
theorem SameReading.raises_of_refuses {env : Env} {parts : List Part}
    (same : SameReading parts) (refuses : Refuses env parts) :
    Raises env parts := by
  by_contra expands
  obtain ⟨made, expanded⟩ := (exists_expand_iff env parts).mpr expands
  exact refuses _ ((same.expand_eq_ok_iff made).mp expanded).1

theorem not_eq_ok_of_bothFail {env : Env} {list : List (List Part)}
    (fail : BothFail env list) (out : List String) :
    (list.mapM fun parts => expand env (joined parts)) ≠ .ok out ∧
      list.mapM (shellOverride env) ≠ .ok out := by
  obtain ⟨raises, refuses⟩ := fail
  constructor
  · intro expanded
    exact (exists_mapM_expand_iff env list).mp ⟨out, expanded⟩ raises
  · intro shell
    exact (exists_mapM_shellOverride_iff env list).mp ⟨out, shell⟩ refuses

/-- Unless both fail, the overrides are those of the shell if no plain reference
is to an empty variable, as long as the regular expression finds the references
of the templates. -/
theorem overrides_match_shell_iff
    (spec : Spec) (mode : String) (env : Env) (configDir : String)
    (allowManual : Bool)
    (same : ∀ list, args spec mode env configDir allowManual = .ok list →
      BothFail env list ∨ ∀ parts ∈ list, SameReading parts) :
    (∀ out,
      overrides spec mode env configDir allowManual = .ok out ↔
        shellOverrides spec mode env configDir allowManual = .ok out) ↔
    ∀ list, args spec mode env configDir allowManual = .ok list →
      BothFail env list ∨
        ∀ parts ∈ list, ∀ name ∈ plainNames parts, env name ≠ some "" := by
  unfold overrides shellOverrides
  cases listed : args spec mode env configDir allowManual with
  | error error =>
      simp
  | ok list =>
      simp only [Except.ok.injEq, forall_eq']
      by_cases fail : BothFail env list
      · refine iff_of_true (fun out => ?_) (.inl fail)
        obtain ⟨raised, refused⟩ := not_eq_ok_of_bothFail fail out
        exact iff_of_false raised refused
      · have reads := (same list listed).resolve_left fail
        -- what the shell refuses the code would refuse with it
        have shell : ∃ out, list.mapM (shellOverride env) = .ok out := by
          rw [exists_mapM_shellOverride_iff]
          rintro ⟨parts, member, refuses⟩
          have raises := (reads parts member).raises_of_refuses refuses
          exact fail ⟨⟨parts, member, raises⟩, parts, member, refuses⟩
        simp only [mapM_expand_eq_ok_iff reads]
        constructor
        · intro agrees
          obtain ⟨out, made⟩ := shell
          exact .inr ((agrees out).mpr made).1
        · intro noneEmpty out
          exact and_iff_right (noneEmpty.resolve_left fail)

/-! ## Fixed files -/

/-- A modes file with one mode. -/
def oneMode (eppConfig : Option String) (hydra : List String) : Spec where
  modes := .insert .empty "epp"
    { manager := some "M"
      eppConfig := eppConfig
      hydra := .list (hydra.map .item) }

/-- The environment with these variables. -/
def envOf (pairs : List (String × String)) : Env :=
  fun name => pairs.lookup name

/-- Texts that are read differently can still be expanded to the same. -/
example :
    ¬ SameReading [.written "$\x7bA:-$\x7bB\x7d\x7d"] ∧
      (expand (envOf [("B", "$\x7bB\x7d")]) "$\x7bA:-$\x7bB\x7d\x7d").toOption =
        some "$\x7bB\x7d" ∧
      (shellExpand (envOf [("B", "$\x7bB\x7d")])
        (template [.written "$\x7bA:-$\x7bB\x7d\x7d"])).toOption =
        some "$\x7bB\x7d".toList := by
  decide +kernel

/-- A plain reference and one with a default. -/
def usual : Spec :=
  oneMode none ["size=$\x7bSIZE\x7d", "bytes=$\x7bBYTES:-64\x7d"]

def usualList : List String :=
  ["+actor_rollout_ref.rollout.agent.agent_loop_manager_class=M", "size=8",
    "bytes=64"]

/-- The first override fails on both sides; the default of the other one would
be read differently. -/
def unset : Spec :=
  oneMode none ["x=$\x7bUNSET\x7d", "size=$\x7bA:-$\x7bB\x7d\x7d"]

theorem bothFail_unset {list : List (List Part)}
    (listed : args unset "epp" (envOf [("B", "2")]) "/etc" false = .ok list) :
    BothFail (envOf [("B", "2")]) list := by
  obtain rfl := (Except.ok.inj listed).symm
  have member : [.written "x=$\x7bUNSET\x7d"] ∈
      [[Part.written ("+actor_rollout_ref.rollout.agent." ++
          "agent_loop_manager_class=M")],
        [.written "x=$\x7bUNSET\x7d"],
        [.written "size=$\x7bA:-$\x7bB\x7d\x7d"]] := by
    simp
  refine ⟨⟨_, member, "UNSET", by decide +kernel, by decide⟩, _, member, ?_⟩
  intro text shell
  have evaluated : (shellExpand (envOf [("B", "2")])
      (template [.written "x=$\x7bUNSET\x7d"])).toOption = none := by
    decide +kernel
  rw [shell] at evaluated
  cases evaluated

theorem usual_overrides_match_shell :
    (overrides usual "epp" (envOf [("SIZE", "8")]) "/etc" false =
        .ok usualList ∧
      shellOverrides usual "epp" (envOf [("SIZE", "8")]) "/etc" false =
        .ok usualList) ∧
    ∀ out,
      overrides unset "epp" (envOf [("B", "2")]) "/etc" false = .ok out ↔
        shellOverrides unset "epp" (envOf [("B", "2")]) "/etc" false =
          .ok out := by
  constructor
  · have checked :
        (args usual "epp" (envOf [("SIZE", "8")]) "/etc" false).toOption.all
          fun list => list.all fun parts =>
            decide (SameReading parts) && (plainNames parts).all fun name =>
              decide (envOf [("SIZE", "8")] name ≠ some "") := by
      decide +kernel
    have evaluated :
        overrides usual "epp" (envOf [("SIZE", "8")]) "/etc" false =
          .ok usualList := by
      decide +kernel
    refine ⟨evaluated, ?_⟩
    refine ((overrides_match_shell_iff usual "epp" (envOf [("SIZE", "8")])
      "/etc" false ?_).mpr ?_ usualList).mp evaluated
    · refine fun list listed => .inr fun parts member => ?_
      rw [listed] at checked
      have part := List.all_eq_true.mp checked parts member
      exact of_decide_eq_true (Bool.and_eq_true_iff.mp part).1
    · refine fun list listed => .inr fun parts member name inPlain => ?_
      rw [listed] at checked
      have part := List.all_eq_true.mp checked parts member
      exact of_decide_eq_true
        (List.all_eq_true.mp (Bool.and_eq_true_iff.mp part).2 name inPlain)
  · exact (overrides_match_shell_iff unset "epp" (envOf [("B", "2")])
      "/etc" false fun _ listed => .inl (bothFail_unset listed)).mpr
        fun _ listed => .inl (bothFail_unset listed)

/-- An empty variable raises, a default ends at the brace of the reference in
it, and a dollar in `EPP_CONFIG` is expanded. -/
theorem overrides_differ_from_shell :
    ((overrides (oneMode none ["size=$\x7bSIZE\x7d"]) "epp"
        (envOf [("SIZE", "")]) "/etc" false).toOption = none ∧
      (shellOverrides (oneMode none ["size=$\x7bSIZE\x7d"]) "epp"
        (envOf [("SIZE", "")]) "/etc" false).toOption.map
          (fun out => out.contains "size=") = some true) ∧
    ((overrides (oneMode none ["size=$\x7bA:-$\x7bB\x7d\x7d"]) "epp"
        (envOf [("B", "2")]) "/etc" false).toOption.map
          (fun out => out.contains "size=$\x7bB\x7d") = some true ∧
      (shellOverrides (oneMode none ["size=$\x7bA:-$\x7bB\x7d\x7d"]) "epp"
        (envOf [("B", "2")]) "/etc" false).toOption.map
          (fun out => out.contains "size=2") = some true) ∧
    (overrides (oneMode (some "epp") []) "epp"
        (envOf [("EPP_CONFIG", "$\x7bHOME\x7d"), ("HOME", "root")]) "/etc"
        false).toOption ≠
      (shellOverrides (oneMode (some "epp") []) "epp"
        (envOf [("EPP_CONFIG", "$\x7bHOME\x7d"), ("HOME", "root")]) "/etc"
        false).toOption := by
  decide +kernel

end LlmDRl.Overrides
