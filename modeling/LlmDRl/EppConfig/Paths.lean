import LlmDRl.EppConfig.Children
import LlmDRl.EppConfig.Spelling
import LlmDRl.Library.LastTouch

/-!
# What a merged config holds at each path

A path goes down by map keys and item identities.  `valueAt_merge` says what
`_merge` leaves at every path, by recursion on the path with `children_merge`
at each level.  The loop of `render` is a fold of merges, so the value at a
path is decided by the last layer that touched it.
-/

namespace LlmDRl.EppConfig

open LlmDRl.Library

variable {κ σ : Type} [DecidableEq κ]

/-! ## Paths -/

def valueAt (n : Naming κ σ) (tree : Tree κ σ) :
    List (Step κ) → Option (Tree κ σ)
  | [] => some tree
  | step :: rest =>
      match child n tree step with
      | none => none
      | some below => valueAt n below rest

/-- At the path or above it both sides hold values, and these do not merge:
one is a scalar, a list without identities or of another type. -/
def Replaced (n : Naming κ σ) (base overlay : Tree κ σ)
    (path : List (Step κ)) : Prop :=
  ∃ above, above <+: path ∧
    ∃ below laid, valueAt n base above = some below ∧
      valueAt n overlay above = some laid ∧ ¬ Mergeable n below laid

/-- One level of a merge: the same kind of value, with the children of both
sides, those of the base first and each side's in its order. -/
structure Joined (n : Naming κ σ) (base overlay both : Tree κ σ) : Prop where
  merges : Mergeable n base overlay
  alike : Mergeable n base both
  steps : steps n both =
    steps n base ++ (steps n overlay).filter (· ∉ steps n base)
  children : ∀ step, child n both step =
    Option.merge (merge n) (child n base step) (child n overlay step)

variable {n : Naming κ σ}

theorem valueAt_cons
    {tree below : Tree κ σ} {step : Step κ}
    (found : child n tree step = some below) (rest : List (Step κ)) :
    valueAt n tree (step :: rest) = valueAt n below rest := by
  rw [valueAt, found]

theorem valueAt_cons_none
    {tree : Tree κ σ} {step : Step κ}
    (absent : child n tree step = none) (rest : List (Step κ)) :
    valueAt n tree (step :: rest) = none := by
  rw [valueAt, absent]

theorem Distinct.child
    {tree below : Tree κ σ} (distinct : Distinct n tree) {step : Step κ}
    (found : child n tree step = some below) : Distinct n below := by
  have member : (step, below) ∈ children n tree :=
    (lookup_eq_some_iff_mem (nodup_steps distinct) step below).mp found
  cases distinct with
  | scalar value =>
      cases member
  | map keys values =>
      obtain ⟨entry, entryMember, entryEq⟩ := List.mem_map.mp member
      cases entryEq
      exact values entry entryMember
  | seq identities values =>
      rw [EppConfig.children] at member
      split at member
      · exact values below (mem_of_mem_entriesOf member)
      · cases member

theorem child_merge
    {base overlay : Tree κ σ} (together : Mergeable n base overlay)
    (baseDistinct : Distinct n base) (overDistinct : Distinct n overlay)
    (step : Step κ) :
    child n (merge n base overlay) step =
      Option.merge (merge n) (child n base step) (child n overlay step) := by
  rw [child, children_merge together baseDistinct overDistinct]
  exact lookup_mergeWith _ _ (nodup_steps overDistinct) step

theorem joined_merge
    {base overlay : Tree κ σ} (together : Mergeable n base overlay)
    (baseDistinct : Distinct n base) (overDistinct : Distinct n overlay) :
    Joined n base overlay (merge n base overlay) where
  merges := together
  alike := by
    unfold Mergeable at together
    split at together
    · rw [merge_map]
      exact trivial
    · rw [merge_seq together.1 together.2]
      exact ⟨together.1, (mergeItems_keyed baseDistinct overDistinct
        together.1 together.2).2⟩
    · exact together.elim
  steps := by
    rw [steps, children_merge together baseDistinct overDistinct]
    exact map_fst_mergeWith _ _ (nodup_steps overDistinct)
  children := child_merge together baseDistinct overDistinct

/-! ## One merge -/

theorem replaced_of_not_mergeable
    {base overlay : Tree κ σ} (apart : ¬ Mergeable n base overlay)
    (path : List (Step κ)) : Replaced n base overlay path :=
  ⟨[], List.nil_prefix, base, overlay, rfl, rfl, apart⟩

theorem Replaced.cons
    {base overlay below laid : Tree κ σ} {step : Step κ}
    {rest : List (Step κ)}
    (baseChild : child n base step = some below)
    (overChild : child n overlay step = some laid)
    (replaced : Replaced n below laid rest) :
    Replaced n base overlay (step :: rest) := by
  obtain ⟨above, isAbove, here, there, baseValue, overValue, apart⟩ :=
    replaced
  exact ⟨step :: above, List.cons_prefix_cons.mpr ⟨rfl, isAbove⟩, here,
    there, (valueAt_cons baseChild above).trans baseValue,
    (valueAt_cons overChild above).trans overValue, apart⟩

theorem Replaced.of_cons
    {base overlay : Tree κ σ} {step : Step κ} {rest : List (Step κ)}
    (together : Mergeable n base overlay)
    (replaced : Replaced n base overlay (step :: rest)) :
    ∃ below laid, child n base step = some below ∧
      child n overlay step = some laid ∧ Replaced n below laid rest := by
  obtain ⟨above, isAbove, here, there, baseValue, overValue, apart⟩ :=
    replaced
  cases above with
  | nil =>
      cases baseValue
      cases overValue
      exact absurd together apart
  | cons first others =>
      obtain ⟨rfl, othersAbove⟩ := List.cons_prefix_cons.mp isAbove
      cases baseChild : child n base first with
      | none =>
          rw [valueAt_cons_none baseChild] at baseValue
          cases baseValue
      | some below =>
          cases overChild : child n overlay first with
          | none =>
              rw [valueAt_cons_none overChild] at overValue
              cases overValue
          | some laid =>
              rw [valueAt_cons baseChild] at baseValue
              rw [valueAt_cons overChild] at overValue
              exact ⟨below, laid, rfl, rfl, others, othersAbove, here, there,
                baseValue, overValue, apart⟩

theorem valueAt_merge_of_replaced
    {base overlay : Tree κ σ}
    (baseDistinct : Distinct n base) (overDistinct : Distinct n overlay)
    {path : List (Step κ)} (replaced : Replaced n base overlay path) :
    valueAt n (merge n base overlay) path = valueAt n overlay path := by
  induction path generalizing base overlay with
  | nil =>
      obtain ⟨above, isAbove, here, there, baseValue, overValue, apart⟩ :=
        replaced
      cases List.prefix_nil.mp isAbove
      cases baseValue
      cases overValue
      rw [merge_of_not_mergeable apart]
  | cons step rest inductionHypothesis =>
      by_cases together : Mergeable n base overlay
      · obtain ⟨below, laid, baseChild, overChild, restReplaced⟩ :=
          replaced.of_cons together
        have mergedChild := child_merge together baseDistinct overDistinct step
        rw [baseChild, overChild] at mergedChild
        rw [valueAt_cons mergedChild, valueAt_cons overChild]
        exact inductionHypothesis (baseDistinct.child baseChild)
          (overDistinct.child overChild) restReplaced
      · rw [merge_of_not_mergeable together]

theorem valueAt_merge
    {base overlay : Tree κ σ}
    (baseDistinct : Distinct n base) (overDistinct : Distinct n overlay)
    {path : List (Step κ)} (kept : ¬ Replaced n base overlay path) :
    valueAt n (merge n base overlay) path =
      Option.merge (merge n) (valueAt n base path)
        (valueAt n overlay path) := by
  induction path generalizing base overlay with
  | nil =>
      rfl
  | cons step rest inductionHypothesis =>
      by_cases together : Mergeable n base overlay
      · have mergedChild := child_merge together baseDistinct overDistinct step
        cases baseChild : child n base step with
        | none =>
            rw [baseChild, Option.merge_none_left] at mergedChild
            rw [valueAt_cons_none baseChild, Option.merge_none_left]
            simp only [valueAt, mergedChild]
        | some below =>
            cases overChild : child n overlay step with
            | none =>
                rw [baseChild, overChild, Option.merge_none_right]
                  at mergedChild
                rw [valueAt_cons_none overChild, Option.merge_none_right,
                  valueAt_cons mergedChild, valueAt_cons baseChild]
            | some laid =>
                rw [baseChild, overChild] at mergedChild
                rw [valueAt_cons mergedChild, valueAt_cons baseChild,
                  valueAt_cons overChild]
                exact inductionHypothesis (baseDistinct.child baseChild)
                  (overDistinct.child overChild) fun restReplaced =>
                    kept (restReplaced.cons baseChild overChild)
      · exact absurd (replaced_of_not_mergeable together _) kept

theorem mergeable_of_not_replaced
    {base overlay below laid : Tree κ σ} {path : List (Step κ)}
    (kept : ¬ Replaced n base overlay path)
    (baseValue : valueAt n base path = some below)
    (overValue : valueAt n overlay path = some laid) :
    Mergeable n below laid := by
  by_contra apart
  exact kept ⟨path, List.prefix_refl path, below, laid, baseValue, overValue,
    apart⟩

theorem Distinct.valueAt
    {tree below : Tree κ σ} (distinct : Distinct n tree)
    {path : List (Step κ)} (found : valueAt n tree path = some below) :
    Distinct n below := by
  induction path generalizing tree with
  | nil =>
      cases found
      exact distinct
  | cons step rest inductionHypothesis =>
      cases stepped : EppConfig.child n tree step with
      | none =>
          rw [valueAt_cons_none stepped] at found
          cases found
      | some next =>
          rw [valueAt_cons stepped] at found
          exact inductionHypothesis (distinct.child stepped) found

/-- The value of a merge at every path. -/
structure MergedPathwise (n : Naming κ σ) (base overlay both : Tree κ σ) :
    Prop where
  replaced : ∀ path, Replaced n base overlay path →
    valueAt n both path = valueAt n overlay path
  untouched : ∀ path, ¬ Replaced n base overlay path →
    valueAt n overlay path = none → valueAt n both path = valueAt n base path
  added : ∀ path, ¬ Replaced n base overlay path →
    valueAt n base path = none → valueAt n both path = valueAt n overlay path
  joined : ∀ path below laid, ¬ Replaced n base overlay path →
    valueAt n base path = some below → valueAt n overlay path = some laid →
      ∃ value, valueAt n both path = some value ∧ Joined n below laid value
  distinct : Distinct n both

theorem mergedPathwise_merge
    {base overlay : Tree κ σ}
    (baseDistinct : Distinct n base) (overDistinct : Distinct n overlay) :
    MergedPathwise n base overlay (merge n base overlay) where
  replaced path replaced :=
    valueAt_merge_of_replaced baseDistinct overDistinct replaced
  untouched path kept unreached := by
    rw [valueAt_merge baseDistinct overDistinct kept, unreached,
      Option.merge_none_right]
  added path kept absent := by
    rw [valueAt_merge baseDistinct overDistinct kept, absent,
      Option.merge_none_left]
  joined path below laid kept baseValue overValue := by
    refine ⟨merge n below laid, ?_, ?_⟩
    · rw [valueAt_merge baseDistinct overDistinct kept, baseValue, overValue]
      rfl
    · exact joined_merge
        (mergeable_of_not_replaced kept baseValue overValue)
        (baseDistinct.valueAt baseValue) (overDistinct.valueAt overValue)
  distinct := baseDistinct.merge overDistinct

/-! ## The layers of a variant -/

/-- A tree whose identities are distinct at every level. -/
structure Document (n : Naming κ σ) where
  tree : Tree κ σ
  distinct : Distinct n tree

/-- `doc = {}; for p in paths: doc = _merge(doc, _load(p))` -/
def render (n : Naming κ σ) (documents : List (Tree κ σ)) : Tree κ σ :=
  documents.foldl (merge n) (.map [])

/-- The tree that a list of documents renders to. -/
def rendered (layers : List (Document n)) : Tree κ σ :=
  render n (layers.map Document.tree)

theorem rendered_append_singleton
    (layers : List (Document n)) (layer : Document n) :
    rendered (layers ++ [layer]) = merge n (rendered layers) layer.tree := by
  simp [rendered, render]

theorem distinct_rendered (layers : List (Document n)) :
    Distinct n (rendered layers) := by
  induction layers using List.reverseRecOn with
  | nil =>
      exact .map List.nodup_nil fun entry member => by cases member
  | append_singleton layers layer inductionHypothesis =>
      rw [rendered_append_singleton]
      exact inductionHypothesis.merge layer.distinct

/-- A layer sets the value at a path when it replaces it, or reaches a path
that was not there. -/
def Sets (n : Naming κ σ) (path : List (Step κ))
    (past : List (Document n)) (layer : Document n) : Prop :=
  Replaced n (rendered past) layer.tree path ∨
    valueAt n (rendered past) path = none ∧
      valueAt n layer.tree path ≠ none

/-- A layer touches a path when it replaces it or reaches it. -/
def Touches (n : Naming κ σ) (path : List (Step κ))
    (past : List (Document n)) (layer : Document n) : Prop :=
  Replaced n (rendered past) layer.tree path ∨
    valueAt n layer.tree path ≠ none

theorem valueAt_rendered_of_noneTouches
    {path : List (Step κ)} {past layers : List (Document n)}
    (none : NoneTouches (Touches n path) past layers) :
    valueAt n (rendered (past ++ layers)) path =
      valueAt n (rendered past) path := by
  simp only [rendered, render, List.foldl_map]
  refine view_foldl_of_noneTouches (fun tree => valueAt n tree path) ?_ none
  intro before layer missed
  obtain ⟨kept, unreached⟩ := not_or.mp missed
  have same : (before.foldl (fun doc layer => merge n doc layer.tree)
      (.map [])) = rendered before := by
    simp only [rendered, render, List.foldl_map]
  rw [same, valueAt_merge (distinct_rendered before) layer.distinct kept,
    not_not.mp unreached, Option.merge_none_right]

theorem valueAt_of_sets
    {path : List (Step κ)} {past : List (Document n)} {layer : Document n}
    (setting : Sets n path past layer) :
    valueAt n (rendered (past ++ [layer])) path =
      valueAt n layer.tree path := by
  rw [rendered_append_singleton]
  by_cases replaced : Replaced n (rendered past) layer.tree path
  · exact valueAt_merge_of_replaced (distinct_rendered past) layer.distinct
      replaced
  · obtain ⟨absent, _⟩ := setting.resolve_left replaced
    rw [valueAt_merge (distinct_rendered past) layer.distinct replaced,
      absent, Option.merge_none_left]

/-- The value at every path after any number of layers: that of the last
layer that sets it, if no later layer touches it. -/
structure RenderedPathwise (n : Naming κ σ) (layers : List (Document n)) :
    Prop where
  set : ∀ path before layer after, layers = before ++ layer :: after →
    Sets n path before layer →
      NoneTouches (Touches n path) (before ++ [layer]) after →
        valueAt n (rendered layers) path = valueAt n layer.tree path
  untouched : ∀ path, NoneTouches (Touches n path) [] layers →
    valueAt n (rendered layers) path = valueAt n (.map []) path
  lastTouch : ∀ path, NoneTouches (Touches n path) [] layers ∨
    ∃ before layer after, layers = before ++ layer :: after ∧
      NoneTouches (Touches n path) (before ++ [layer]) after ∧
        (Sets n path before layer ∨
          ∃ below laid value, valueAt n (rendered before) path = some below ∧
            valueAt n layer.tree path = some laid ∧
              valueAt n (rendered layers) path = some value ∧
                Joined n below laid value)
  leaf : ∀ path leaf, valueAt n (rendered layers) path = some leaf →
    ¬ Mergeable n leaf leaf →
      ∃ before layer after, layers = before ++ layer :: after ∧
        Sets n path before layer ∧
          NoneTouches (Touches n path) (before ++ [layer]) after ∧
            valueAt n layer.tree path = some leaf
  distinct : Distinct n (rendered layers)

theorem valueAt_rendered_of_split
    {path : List (Step κ)} {before after : List (Document n)}
    {layer : Document n}
    (none : NoneTouches (Touches n path) (before ++ [layer]) after) :
    valueAt n (rendered (before ++ layer :: after)) path =
      valueAt n (merge n (rendered before) layer.tree) path := by
  rw [← rendered_append_singleton, ← valueAt_rendered_of_noneTouches none,
    List.append_assoc, List.singleton_append]

theorem valueAt_rendered_of_set
    {path : List (Step κ)} {before after : List (Document n)}
    {layer : Document n} (setting : Sets n path before layer)
    (none : NoneTouches (Touches n path) (before ++ [layer]) after) :
    valueAt n (rendered (before ++ layer :: after)) path =
      valueAt n layer.tree path := by
  rw [valueAt_rendered_of_split none, ← rendered_append_singleton,
    valueAt_of_sets setting]

/-- A layer that touches a path sets it or merges into what is there. -/
theorem sets_or_joined_of_touches
    {path : List (Step κ)} {past : List (Document n)} {layer : Document n}
    (touched : Touches n path past layer) :
    Sets n path past layer ∨
      ∃ below laid value, valueAt n (rendered past) path = some below ∧
        valueAt n layer.tree path = some laid ∧
          valueAt n (merge n (rendered past) layer.tree) path = some value ∧
            Joined n below laid value := by
  by_cases setting : Sets n path past layer
  · exact Or.inl setting
  · obtain ⟨kept, notNew⟩ := not_or.mp setting
    have reached := touched.resolve_left kept
    obtain ⟨laid, laidValue⟩ := Option.ne_none_iff_exists'.mp reached
    have present : valueAt n (rendered past) path ≠ none :=
      fun absent => notNew ⟨absent, reached⟩
    obtain ⟨below, belowValue⟩ := Option.ne_none_iff_exists'.mp present
    obtain ⟨value, merged, joined⟩ :=
      (mergedPathwise_merge (distinct_rendered past) layer.distinct).joined
        path below laid kept belowValue laidValue
    exact Or.inr ⟨below, laid, value, belowValue, laidValue, merged, joined⟩

theorem last_touch_of_rendered
    (n : Naming κ σ) (path : List (Step κ)) (layers : List (Document n)) :
    NoneTouches (Touches n path) [] layers ∨
      ∃ before layer after, layers = before ++ layer :: after ∧
        NoneTouches (Touches n path) (before ++ [layer]) after ∧
          (Sets n path before layer ∨
            ∃ below laid value,
              valueAt n (rendered before) path = some below ∧
                valueAt n layer.tree path = some laid ∧
                  valueAt n (rendered layers) path = some value ∧
                    Joined n below laid value) := by
  rcases noneTouches_or_last_touch (Touches n path) layers with
    none | ⟨before, layer, after, rfl, touched, none⟩
  · exact Or.inl none
  · refine Or.inr ⟨before, layer, after, rfl, none, ?_⟩
    rw [valueAt_rendered_of_split none]
    exact sets_or_joined_of_touches touched

theorem Mergeable.right
    {base overlay : Tree κ σ} (together : Mergeable n base overlay) :
    Mergeable n overlay overlay := by
  unfold Mergeable at together
  split at together
  · exact trivial
  · exact ⟨together.2, together.2⟩
  · exact together.elim

theorem last_set_of_leaf
    {path : List (Step κ)} {layers : List (Document n)} {leaf : Tree κ σ}
    (found : valueAt n (rendered layers) path = some leaf)
    (atomic : ¬ Mergeable n leaf leaf) :
    ∃ before layer after, layers = before ++ layer :: after ∧
      Sets n path before layer ∧
        NoneTouches (Touches n path) (before ++ [layer]) after ∧
          valueAt n layer.tree path = some leaf := by
  rcases last_touch_of_rendered n path layers with
    none | ⟨before, layer, after, rfl, none, setting | joined⟩
  · have start : valueAt n (.map []) path = some leaf := by
      rw [← found]
      exact (valueAt_rendered_of_noneTouches none).symm
    cases path with
    | nil =>
        cases start
        exact absurd trivial atomic
    | cons step rest =>
        cases start
  · refine ⟨before, layer, after, rfl, setting, none, ?_⟩
    rw [← valueAt_rendered_of_set setting none, found]
  · obtain ⟨below, laid, value, _, _, merged, joined⟩ := joined
    cases found.symm.trans merged
    exact absurd joined.alike.right atomic

/-- A merge keeps what the later layer does not touch and applies what it
does, at every path and over any number of layers. -/
theorem merge_and_render_at_every_path (n : Naming κ σ) :
    (∀ base overlay : Document n,
      MergedPathwise n base.tree overlay.tree
        (merge n base.tree overlay.tree)) ∧
      ∀ layers : List (Document n), RenderedPathwise n layers := by
  refine ⟨fun base overlay =>
    mergedPathwise_merge base.distinct overlay.distinct, fun layers => ?_⟩
  constructor
  · rintro path before layer after rfl setting none
    exact valueAt_rendered_of_set setting none
  · intro path none
    exact valueAt_rendered_of_noneTouches none
  · intro path
    exact last_touch_of_rendered n path layers
  · intro path leaf found atomic
    exact last_set_of_leaf found atomic
  · exact distinct_rendered layers

/-! ## What a replaced value takes along -/

def detector : Document plain where
  tree := .map [("saturationDetector", .map [("pluginRef", .scalar "load")])]
  distinct := by
    refine .map (List.nodup_singleton _) fun entry member => ?_
    cases List.mem_singleton.mp member
    refine .map (List.nodup_singleton _) fun entry member => ?_
    cases List.mem_singleton.mp member
    exact .scalar _

def detectorOff : Document plain where
  tree := .map [("saturationDetector", .scalar "off")]
  distinct := by
    refine .map (List.nodup_singleton _) fun entry member => ?_
    cases List.mem_singleton.mp member
    exact .scalar _

/-- A layer that puts a scalar over a map does not reach the paths inside it,
and they are gone. -/
theorem replaced_map_takes_its_entries_along :
    let path := [Step.key "saturationDetector", Step.key "pluginRef"]
    valueAt plain detectorOff.tree path = none ∧
      valueAt plain detector.tree path = some (.scalar "load") ∧
        valueAt plain (merge plain detector.tree detectorOff.tree) path =
          none := by
  refine ⟨rfl, rfl, rfl⟩

end LlmDRl.EppConfig
