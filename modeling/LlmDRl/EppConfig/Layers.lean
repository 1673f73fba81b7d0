import LlmDRl.EppConfig.Paths
import LlmDRl.Library.Loops

/-!
# Composing layers

`layers` names the files of a variant and `render` merges them in that order.
Merging is not associative: a layer that puts a scalar over a map hides the map
from the next one, but not from that one merged into it beforehand.  It is where
the later layers conform, that is, hold a map or a list with identities only
where the earlier hold one too, or nothing.
-/

namespace LlmDRl.EppConfig

open LlmDRl.Library

variable {κ σ : Type} [DecidableEq κ]

/-- Wherever both hold a value and the overlay's merges with anything, the two
merge. -/
inductive Conforms (n : Naming κ σ) : Tree κ σ → Tree κ σ → Prop
  | atomic {base overlay : Tree κ σ}
      (atomic : ¬ Mergeable n overlay overlay) : Conforms n base overlay
  | joined {base overlay : Tree κ σ} (together : Mergeable n base overlay)
      (below : ∀ step under laid, child n base step = some under →
        child n overlay step = some laid → Conforms n under laid) :
      Conforms n base overlay

variable {n : Naming κ σ}

/-! ## Kinds of values -/

theorem Mergeable.symm {left right : Tree κ σ}
    (together : Mergeable n left right) : Mergeable n right left := by
  unfold Mergeable at together
  split at together
  · trivial
  · exact ⟨together.2, together.1⟩
  · exact together.elim

theorem Mergeable.trans {left middle right : Tree κ σ}
    (first : Mergeable n left middle) (second : Mergeable n middle right) :
    Mergeable n left right := by
  cases left with
  | scalar _ => exact first.elim
  | map entries =>
      cases middle with
      | scalar _ => exact first.elim
      | seq _ => exact first.elim
      | map _ =>
          cases right with
          | map _ => trivial
          | scalar _ => exact second.elim
          | seq _ => exact second.elim
  | seq items =>
      cases middle with
      | scalar _ => exact first.elim
      | map _ => exact first.elim
      | seq _ =>
          cases right with
          | seq _ => exact ⟨first.1, second.2⟩
          | scalar _ => exact second.elim
          | map _ => exact second.elim

theorem map_snd_entriesOf (items : List (Tree κ σ)) :
    (entriesOf n items).map Prod.snd = items := by
  simp [entriesOf, Function.comp_def]

/-- Values of one kind are given by their children. -/
theorem eq_of_children {left right : Tree κ σ}
    (together : Mergeable n left right)
    (same : children n left = children n right) : left = right := by
  unfold Mergeable at together
  split at together
  · exact congrArg Tree.map (renameKeys_injective key_injective same)
  · next items others =>
      simp only [children, if_pos together.1, if_pos together.2] at same
      rw [← map_snd_entriesOf (n := n) items,
        ← map_snd_entriesOf (n := n) others, same]
  · exact together.elim

/-- A merge leaves a value of the kind both have. -/
theorem Mergeable.merged {base overlay : Tree κ σ}
    (together : Mergeable n base overlay)
    (baseDistinct : Distinct n base) (overDistinct : Distinct n overlay) :
    Mergeable n base (merge n base overlay) :=
  (joined_merge together baseDistinct overDistinct).alike

/-! ## Three layers -/

/-- Merging the second layer into the third beforehand changes nothing, if the
third conforms to the second. -/
theorem merge_assoc {first second third : Tree κ σ}
    (conforms : Conforms n second third) (firstDistinct : Distinct n first)
    (secondDistinct : Distinct n second) (thirdDistinct : Distinct n third) :
    merge n (merge n first second) third =
      merge n first (merge n second third) := by
  induction conforms generalizing first with
  | @atomic second third atomic =>
      have alone : ∀ tree : Tree κ σ, merge n tree third = third :=
        fun tree => merge_of_not_mergeable fun together =>
          atomic together.right
      rw [alone, alone, alone]
  | @joined second third later below inductionHypothesis =>
      have laterMerged := later.merged secondDistinct thirdDistinct
      by_cases earlier : Mergeable n first second
      · have earlierMerged := earlier.merged firstDistinct secondDistinct
        have leftMerges : Mergeable n (merge n first second) third :=
          earlierMerged.symm.trans (earlier.trans later)
        have rightMerges : Mergeable n first (merge n second third) :=
          earlier.trans laterMerged
        have earlierDistinct := firstDistinct.merge secondDistinct
        have laterDistinct := secondDistinct.merge thirdDistinct
        have leftKind := leftMerges.merged earlierDistinct thirdDistinct
        have rightKind := rightMerges.merged firstDistinct laterDistinct
        refine eq_of_children
          (leftKind.symm.trans (earlierMerged.symm.trans rightKind)) ?_
        rw [children_merge leftMerges earlierDistinct thirdDistinct,
          children_merge earlier firstDistinct secondDistinct,
          children_merge rightMerges firstDistinct laterDistinct,
          children_merge later secondDistinct thirdDistinct]
        refine mergeWith_assoc (nodup_steps firstDistinct)
          (nodup_steps secondDistinct) (nodup_steps thirdDistinct) ?_
        intro step one two three isOne isTwo isThree
        exact inductionHypothesis step two three isTwo isThree
          (firstDistinct.child isOne) (secondDistinct.child isTwo)
          (thirdDistinct.child isThree)
      · rw [merge_of_not_mergeable earlier]
        refine (merge_of_not_mergeable fun together => earlier ?_).symm
        exact together.trans laterMerged.symm

theorem mem_children_of_child {tree under : Tree κ σ} {step : Step κ}
    (distinct : Distinct n tree) (found : child n tree step = some under) :
    (step, under) ∈ children n tree :=
  (lookup_eq_some_iff_mem (nodup_steps distinct) step under).mp found

theorem conforms_self {tree : Tree κ σ} (distinct : Distinct n tree) :
    Conforms n tree tree := by
  induction distinct with
  | scalar value =>
      exact .atomic id
  | @map entries keys values inductionHypothesis =>
      refine .joined trivial ?_
      intro step under laid isUnder isLaid
      have member := mem_children_of_child (.map keys values) isUnder
      rw [isUnder, Option.some.injEq] at isLaid
      obtain ⟨entry, entryMember, entryEq⟩ := List.mem_map.mp member
      cases entryEq
      rw [← isLaid]
      exact inductionHypothesis entry entryMember
  | @seq items identities values inductionHypothesis =>
      by_cases keyed : Keyed n items
      · refine .joined ⟨keyed, keyed⟩ ?_
        intro step under laid isUnder isLaid
        have member := mem_children_of_child (.seq identities values) isUnder
        rw [isUnder, Option.some.injEq] at isLaid
        rw [children, if_pos keyed] at member
        rw [← isLaid]
        exact inductionHypothesis under (mem_of_mem_entriesOf member)
      · exact .atomic fun together => keyed together.1

/-- A layer merged twice is as good as merged once. -/
theorem merge_merge_self {base overlay : Tree κ σ}
    (baseDistinct : Distinct n base) (overDistinct : Distinct n overlay) :
    merge n (merge n base overlay) overlay = merge n base overlay := by
  rw [merge_assoc (conforms_self overDistinct) baseDistinct overDistinct
    overDistinct, merge_self overDistinct]

/-- What conforms to two layers conforms to their merge. -/
theorem Conforms.merged {first second overlay : Tree κ σ}
    (toFirst : Conforms n first overlay) (toSecond : Conforms n second overlay)
    (firstDistinct : Distinct n first) (secondDistinct : Distinct n second) :
    Conforms n (merge n first second) overlay := by
  induction toFirst generalizing second with
  | atomic atomic => exact .atomic atomic
  | @joined first overlay together below inductionHypothesis =>
      cases toSecond with
      | atomic atomic => exact absurd together.right atomic
      | joined secondTogether secondBelow =>
          have merges : Mergeable n first second :=
            together.trans secondTogether.symm
          have kind := merges.merged firstDistinct secondDistinct
          refine .joined (kind.symm.trans together) ?_
          intro step under laid isUnder isLaid
          rw [child_merge merges firstDistinct secondDistinct] at isUnder
          cases one : child n first step with
          | none =>
              rw [one, Option.merge_none_left] at isUnder
              exact secondBelow step under laid isUnder isLaid
          | some firstUnder =>
              have fromFirst := below step firstUnder laid one isLaid
              cases two : child n second step with
              | none =>
                  rw [one, two, Option.merge_none_right] at isUnder
                  cases isUnder
                  exact fromFirst
              | some secondUnder =>
                  rw [one, two] at isUnder
                  cases isUnder
                  exact inductionHypothesis step firstUnder laid one isLaid
                    (secondBelow step secondUnder laid two isLaid)
                    (firstDistinct.child one) (secondDistinct.child two)

/-! ## Any number of layers -/

theorem merge_empty {tree : Tree κ σ} (distinct : Distinct n tree) :
    merge n (.map []) tree = tree := by
  by_cases together : Mergeable n (.map []) tree
  · cases tree with
    | scalar _ => exact together.elim
    | seq _ => exact together.elim
    | map entries =>
        rw [merge_map, mergeWith_nil_left _ distinct.keys_nodup]
  · exact merge_of_not_mergeable together

theorem rendered_singleton (layer : Document n) :
    rendered [layer] = layer.tree :=
  merge_empty layer.distinct

theorem conforms_rendered {layers : List (Document n)} {last : Document n}
    (nonempty : layers ≠ [])
    (conform : ∀ layer ∈ layers, Conforms n layer.tree last.tree) :
    Conforms n (rendered layers) last.tree := by
  induction layers using List.reverseRecOn with
  | nil => exact absurd rfl nonempty
  | append_singleton layers layer inductionHypothesis =>
      have toLayer := conform layer (by simp)
      by_cases single : layers = []
      · rw [single, List.nil_append, rendered_singleton]
        exact toLayer
      · rw [rendered_append_singleton]
        refine Conforms.merged (inductionHypothesis single ?_) toLayer
          (distinct_rendered layers) layer.distinct
        exact fun other member => conform other (List.mem_append_left _ member)

/-- Later layers that conform to each other can be merged first. -/
theorem rendered_append {layers more : List (Document n)}
    (nonempty : more ≠ [])
    (conform : more.Pairwise fun earlier later =>
      Conforms n earlier.tree later.tree) :
    rendered (layers ++ more) =
      merge n (rendered layers) (rendered more) := by
  induction more using List.reverseRecOn with
  | nil => exact absurd rfl nonempty
  | append_singleton more last inductionHypothesis =>
      obtain ⟨earlier, _, toLast⟩ := List.pairwise_append.mp conform
      by_cases single : more = []
      · rw [single, List.nil_append, rendered_append_singleton,
          rendered_singleton]
      · rw [← List.append_assoc, rendered_append_singleton,
          rendered_append_singleton, inductionHypothesis single earlier]
        refine merge_assoc (conforms_rendered single ?_)
          (distinct_rendered layers) (distinct_rendered more) last.distinct
        exact fun layer member =>
          toLast layer member last (List.mem_singleton_self last)

/-! ## The variants of a directory -/

/-- The exceptions that leave `render`, by what raises them. -/
inductive RenderError where
  /-- `KeyError` -/
  | unknownVariant (variant : String) (known : List String)
  /-- `FileNotFoundError` -/
  | unknownLayer (variant name : String)
  /-- `FileNotFoundError`, of `open` -/
  | missing (path : String)
  /-- `ValueError` -/
  | empty (path : String)
  deriving DecidableEq, Repr

/-- The texts; `repr` is Python's. -/
def RenderError.message (repr : String → String) : RenderError → String
  | .unknownVariant variant known =>
      s!"unknown variant {repr variant}; known: " ++ ", ".intercalate known
  | .unknownLayer variant name =>
      s!"variant {repr variant} names {repr name}, which is neither " ++
        s!"profiles/{name}.yaml nor modifiers/{name}.yaml"
  | .missing path => s!"No such file or directory: {repr path}"
  | .empty path => s!"{path} is empty"

/-- What `epp_dir` holds: the `variants` of `variants.yaml` and the files by
their paths, of which one may be empty. -/
structure EppDir (n : Naming κ σ) where
  variants : OrderedDict String (List String)
  file : String → Option (Option (Document n))

namespace EppDir

/-- The profile of that name, or else the modifier. -/
def layer? (dir : EppDir n) (name : String) : Option String :=
  let profile := s!"profiles/{name}.yaml"
  let modifier := s!"modifiers/{name}.yaml"
  if (dir.file profile).isSome then some profile
  else if (dir.file modifier).isSome then some modifier
  else none

/-- The body of the loop of `layers`. -/
def layerPath (dir : EppDir n) (variant name : String) :
    Except RenderError String :=
  match dir.layer? name with
  | some path => .ok path
  | none => .error (.unknownLayer variant name)

/-- `layers(variant)` -/
def layers (dir : EppDir n) (variant : String) :
    Except RenderError (List String) :=
  match dir.variants.get? variant with
  | none =>
      .error (.unknownVariant variant
        (dir.variants.keys.mergeSort fun left right => left ≤ right))
  | some names =>
      (names.mapM (dir.layerPath variant)).map fun paths =>
        "base.yaml" :: paths

/-- `_load(path)` -/
def load (dir : EppDir n) (path : String) :
    Except RenderError (Document n) :=
  match dir.file path with
  | none => .error (.missing path)
  | some none => .error (.empty path)
  | some (some document) => .ok document

/-- `render(variant)`, up to the text that it is written as. -/
def renderVariant (dir : EppDir n) (variant : String) :
    Except RenderError (Tree κ σ) := do
  let paths ← dir.layers variant
  let documents ← paths.mapM dir.load
  return rendered documents

/-- The name stands for a profile or a modifier that can be loaded. -/
def Names (dir : EppDir n) (name : String) (document : Document n) : Prop :=
  ∃ path, dir.layer? name = some path ∧ dir.load path = .ok document

variable {dir : EppDir n}

theorem layerPath_eq_ok_iff (variant name path : String) :
    dir.layerPath variant name = .ok path ↔ dir.layer? name = some path := by
  unfold layerPath
  cases dir.layer? name <;> simp

theorem names_of_paths {variant : String} {names paths : List String}
    {documents : List (Document n)}
    (found : List.Forall₂
      (fun name path => dir.layerPath variant name = .ok path) names paths)
    (loaded : List.Forall₂
      (fun path document => dir.load path = .ok document) paths documents) :
    List.Forall₂ dir.Names names documents := by
  induction found generalizing documents with
  | nil =>
      rw [List.forall₂_nil_left_iff.mp loaded]
      exact .nil
  | @cons name path names paths isPath _ inductionHypothesis =>
      obtain ⟨document, others, isLoaded, rest, rfl⟩ :=
        List.forall₂_cons_left_iff.mp loaded
      exact .cons
        ⟨path, (layerPath_eq_ok_iff variant name path).mp isPath, isLoaded⟩
        (inductionHypothesis rest)

theorem exists_paths_of_names (variant : String) {names : List String}
    {documents : List (Document n)}
    (named : List.Forall₂ dir.Names names documents) :
    ∃ paths,
      List.Forall₂ (fun name path => dir.layerPath variant name = .ok path)
          names paths ∧
        List.Forall₂ (fun path document => dir.load path = .ok document)
          paths documents := by
  induction named with
  | nil => exact ⟨[], .nil, .nil⟩
  | @cons name document names documents isNamed _ inductionHypothesis =>
      obtain ⟨paths, found, loaded⟩ := inductionHypothesis
      obtain ⟨path, isPath, isLoaded⟩ := isNamed
      exact ⟨path :: paths,
        .cons ((layerPath_eq_ok_iff variant name path).mpr isPath) found,
        .cons isLoaded loaded⟩

/-- A variant renders if the chassis and all its layers can be loaded. -/
theorem renderVariant_eq_ok_iff (dir : EppDir n) (variant : String)
    (config : Tree κ σ) :
    dir.renderVariant variant = .ok config ↔
      ∃ names base documents,
        dir.variants.get? variant = some names ∧
          dir.load "base.yaml" = .ok base ∧
          List.Forall₂ dir.Names names documents ∧
          rendered (base :: documents) = config := by
  unfold renderVariant layers
  constructor
  · intro renders
    cases listed : dir.variants.get? variant with
    | none =>
        rw [listed] at renders
        cases renders
    | some names =>
        simp only [listed] at renders
        cases found : names.mapM (dir.layerPath variant) with
        | error raised =>
            rw [found] at renders
            cases renders
        | ok paths =>
            rw [found] at renders
            simp only [Except.map, bind, Except.bind] at renders
            split at renders
            · cases renders
            · next documents loaded =>
                cases renders
                obtain ⟨base, others, isBase, rest, rfl⟩ :=
                  List.forall₂_cons_left_iff.mp
                    ((mapM_eq_ok_iff _ _ _).mp loaded)
                exact ⟨names, base, others, rfl, isBase,
                  names_of_paths ((mapM_eq_ok_iff _ _ _).mp found) rest,
                  rfl⟩
  · rintro ⟨names, base, documents, listed, isBase, named, rfl⟩
    obtain ⟨paths, found, loaded⟩ := exists_paths_of_names variant named
    have all : ("base.yaml" :: paths).mapM dir.load =
        .ok (base :: documents) :=
      (mapM_eq_ok_iff _ _ _).mpr (.cons isBase loaded)
    simp only [listed, (mapM_eq_ok_iff _ _ _).mpr found, Except.map, bind,
      Except.bind, all]
    rfl

/-- A variant with more layers renders to what the variant without them
renders to, with those layers, merged with each other first, merged into it:
provided they conform to each other. -/
theorem renderVariant_append (dir : EppDir n) {variant extended : String}
    {names more : List String}
    (listed : dir.variants.get? variant = some names)
    (listedMore : dir.variants.get? extended = some (names ++ more))
    {config : Tree κ σ} (renders : dir.renderVariant variant = .ok config)
    {documents : List (Document n)} (nonempty : documents ≠ [])
    (named : List.Forall₂ dir.Names more documents)
    (conform : documents.Pairwise fun earlier later =>
      Conforms n earlier.tree later.tree) :
    dir.renderVariant extended =
      .ok (merge n config (rendered documents)) := by
  obtain ⟨found, base, layers, isFound, isBase, isNamed, rfl⟩ :=
    (renderVariant_eq_ok_iff dir variant config).mp renders
  rw [listed, Option.some.injEq] at isFound
  subst isFound
  refine (renderVariant_eq_ok_iff dir extended _).mpr
    ⟨names ++ more, base, layers ++ documents, listedMore, isBase,
      List.rel_append isNamed named, ?_⟩
  rw [← List.cons_append]
  exact rendered_append nonempty conform

end EppDir

/-! ## A profile and two modifiers -/

/-- A plugin with a name and one parameter. -/
def plugin (name parameter value : String) : Tree String String :=
  .map [("name", .scalar name), (parameter, .scalar value)]

theorem distinct_plugin (name value : String) {parameter : String}
    (different : parameter ≠ "name") :
    Distinct plain (plugin name parameter value) := by
  refine .map (by simpa using different.symm) fun entry member => ?_
  rcases List.mem_cons.mp member with rfl | last
  · exact .scalar _
  · rw [List.mem_singleton.mp last]
    exact .scalar _

theorem distinct_plugins (name value : String) {parameter : String}
    (different : parameter ≠ "name") :
    Distinct plain (.seq [plugin name parameter value]) := by
  refine .seq (fun _ => List.nodup_singleton _) fun item member => ?_
  rw [List.mem_singleton.mp member]
  exact distinct_plugin name value different

/-- A layer that only holds a plugin. -/
def pluginLayer (name value : String) {parameter : String}
    (different : parameter ≠ "name") : Document plain where
  tree := .map [("plugins", .seq [plugin name parameter value])]
  distinct := by
    refine .map (List.nodup_singleton _) fun entry member => ?_
    rw [List.mem_singleton.mp member]
    exact distinct_plugins name value different

theorem keyed_plugin (name parameter value : String) :
    Keyed plain [plugin name parameter value] := by
  refine ⟨List.cons_ne_nil _ _, fun item member => ?_⟩
  rw [List.mem_singleton.mp member]
  rfl

/-- The items under a step are the plugin. -/
theorem eq_plugin_of_child {name value parameter : String}
    (different : parameter ≠ "name") {step : Step String}
    {under : Tree String String}
    (found : child plain (.seq [plugin name parameter value]) step =
      some under) : under = plugin name parameter value := by
  have member :=
    mem_children_of_child (distinct_plugins name value different) found
  rw [children, if_pos (keyed_plugin name parameter value)] at member
  exact List.mem_singleton.mp (mem_of_mem_entriesOf member)

theorem conforms_pluginLayer (name value other otherValue : String)
    {parameter otherParameter : String} (different : parameter ≠ "name")
    (otherDifferent : otherParameter ≠ "name") :
    Conforms plain (pluginLayer name value different).tree
      (pluginLayer other otherValue otherDifferent).tree := by
  refine .joined trivial ?_
  intro step under laid isUnder isLaid
  have member := mem_children_of_child
    (pluginLayer other otherValue otherDifferent).distinct isLaid
  cases List.mem_singleton.mp member
  cases isUnder
  refine .joined
    ⟨keyed_plugin name parameter value,
      keyed_plugin other otherParameter otherValue⟩ ?_
  intro step under laid isUnder isLaid
  rw [eq_plugin_of_child different isUnder,
    eq_plugin_of_child otherDifferent isLaid]
  refine .joined trivial ?_
  intro step under laid _ isLaid
  have member := mem_children_of_child
    (distinct_plugin other otherValue otherDifferent) isLaid
  rcases List.mem_cons.mp member with same | last
  · cases same
    exact .atomic id
  · cases List.mem_singleton.mp last
    exact .atomic id

def burst : Document plain :=
  pluginLayer "burst-producer" "-1" (show "maxPerReplica" ≠ "name" by decide)

def p2p : Document plain :=
  pluginLayer "p2p-producer" "2048"
    (show "minCachedTokenDelta" ≠ "name" by decide)

def p2pFromBurst : Document plain :=
  pluginLayer "p2p-producer" "burst-producer"
    (show "prefixMatchInfoProducerName" ≠ "name" by decide)

def spread : Document plain :=
  pluginLayer "burst-producer" "1" (show "maxPerReplica" ≠ "name" by decide)

/-- A chassis, a profile and three modifiers. -/
def smallDir : EppDir plain where
  variants :=
    (OrderedDict.empty.insert "epp-config.yaml" ["burst"]).insert
      "epp-config-p2p-spread.yaml" ["burst", "p2p", "p2p-from-burst", "spread"]
  file path :=
    if path = "base.yaml" then
      some (some ⟨.map [("kind", .scalar "EndpointPickerConfig")],
        .map (List.nodup_singleton _) (by simp [Distinct.scalar])⟩)
    else if path = "profiles/burst.yaml" then some (some burst)
    else if path = "modifiers/p2p.yaml" then some (some p2p)
    else if path = "modifiers/p2p-from-burst.yaml" then
      some (some p2pFromBurst)
    else if path = "modifiers/spread.yaml" then some (some spread)
    else none

theorem renderVariant_append_small :
    smallDir.renderVariant "epp-config-p2p-spread.yaml" =
      .ok (.map
        [("kind", .scalar "EndpointPickerConfig"),
          ("plugins", .seq
            [plugin "burst-producer" "maxPerReplica" "1",
              .map [("name", .scalar "p2p-producer"),
                ("minCachedTokenDelta", .scalar "2048"),
                ("prefixMatchInfoProducerName",
                  .scalar "burst-producer")]])]) := by
  have conform : [p2p, p2pFromBurst, spread].Pairwise fun earlier later =>
      Conforms plain earlier.tree later.tree := by
    simp only [List.pairwise_cons, List.mem_cons, List.not_mem_nil, or_false]
    refine ⟨?_, ?_, nofun, .nil⟩
    · rintro later (rfl | rfl) <;> exact conforms_pluginLayer ..
    · rintro later rfl
      exact conforms_pluginLayer ..
  have named : List.Forall₂ smallDir.Names ["p2p", "p2p-from-burst", "spread"]
      [p2p, p2pFromBurst, spread] :=
    .cons ⟨"modifiers/p2p.yaml", by decide, rfl⟩
      (.cons ⟨"modifiers/p2p-from-burst.yaml", by decide, rfl⟩
        (.cons ⟨"modifiers/spread.yaml", by decide, rfl⟩ .nil))
  have extended := EppDir.renderVariant_append smallDir
    (show smallDir.variants.get? "epp-config.yaml" = some ["burst"] by decide)
    (show smallDir.variants.get? "epp-config-p2p-spread.yaml" =
      some (["burst"] ++ ["p2p", "p2p-from-burst", "spread"]) by decide)
    (show smallDir.renderVariant "epp-config.yaml" = .ok _ from rfl)
    (List.cons_ne_nil _ _) named conform
  exact extended

/-- A scalar between two maps hides the first from the second, but not from
the two merged beforehand. -/
theorem merge_not_assoc :
    let first : Tree String String := .map [("detector", plugin "a" "max" "8")]
    let second : Tree String String := .map [("detector", .scalar "off")]
    let third : Tree String String :=
      .map [("detector", .map [("name", .scalar "b")])]
    merge plain (merge plain first second) third = third ∧
      merge plain first (merge plain second third) =
        .map [("detector", plugin "b" "max" "8")] :=
  ⟨rfl, rfl⟩

end LlmDRl.EppConfig
