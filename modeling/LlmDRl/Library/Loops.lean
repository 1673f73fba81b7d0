import Mathlib.Data.List.Forall2

/-!
# Loops that may fail

`mapM` over `Except` is a loop that stops at the first item that fails.  It
succeeds if and only if every item does, and a loop over rows that appends what
it makes of each of them is the loop over all their items.
-/

namespace LlmDRl.Library

universe u v w

variable {α : Type u} {β : Type v} {ε : Type w}

theorem mapM_eq_ok_iff (f : α → Except ε β) (items : List α)
    (results : List β) :
    items.mapM f = .ok results ↔
      List.Forall₂ (fun item result => f item = .ok result) items
        results := by
  induction items generalizing results with
  | nil =>
      rw [List.mapM_nil, List.forall₂_nil_left_iff]
      exact ⟨fun same => (Except.ok.inj same).symm, fun same => same ▸ rfl⟩
  | cons item items inductionHypothesis =>
      rw [List.mapM_cons, List.forall₂_cons_left_iff]
      cases first : f item with
      | error raised =>
          refine iff_of_false nofun ?_
          rintro ⟨result, _, same, _⟩
          cases same
      | ok result =>
          cases rest : items.mapM f with
          | error raised =>
              refine iff_of_false nofun ?_
              rintro ⟨_, others, _, related, _⟩
              rw [(inductionHypothesis others).mpr related] at rest
              cases rest
          | ok others =>
              have related := (inductionHypothesis others).mp rest
              constructor
              · intro same
                cases same
                exact ⟨result, others, rfl, related, rfl⟩
              · rintro ⟨other, found, same, isRelated, rfl⟩
                cases same
                rw [(inductionHypothesis found).mpr isRelated] at rest
                cases rest
                rfl

theorem exists_mapM_iff (f : α → Except ε β) (items : List α) :
    (∃ results, items.mapM f = .ok results) ↔
      ∀ item ∈ items, ∃ result, f item = .ok result := by
  simp only [mapM_eq_ok_iff]
  induction items with
  | nil => exact iff_of_true ⟨[], .nil⟩ (List.forall_mem_nil _)
  | cons item rest inductionHypothesis =>
      rw [List.forall_mem_cons, ← inductionHypothesis]
      constructor
      · rintro ⟨_, made⟩
        cases made with
        | cons first others => exact ⟨⟨_, first⟩, _, others⟩
      · rintro ⟨⟨_, first⟩, _, others⟩
        exact ⟨_, .cons first others⟩

theorem mapM_append (f : α → Except ε β) (first second : List α) :
    (first ++ second).mapM f =
      (first.mapM f).bind fun heads =>
        (second.mapM f).map fun tails => heads ++ tails := by
  rw [List.mapM_append]
  rfl

/-- A loop over rows that appends what it makes of each of them. -/
theorem mapM_flatten (f : α → Except ε β) (rows : List (List α)) :
    rows.flatten.mapM f =
      (rows.mapM fun row : List α => row.mapM f).map List.flatten := by
  induction rows with
  | nil => rfl
  | cons row rest inductionHypothesis =>
      rw [List.flatten_cons, mapM_append, inductionHypothesis, List.mapM_cons]
      cases row.mapM f with
      | error error => rfl
      | ok heads =>
          cases rest.mapM fun row : List α => row.mapM f with
          | error error => rfl
          | ok tails => rfl

theorem mapM_congr {f g : α → Except ε β} {items : List α}
    (same : ∀ item ∈ items, f item = g item) :
    items.mapM f = items.mapM g := by
  induction items with
  | nil => rfl
  | cons item rest inductionHypothesis =>
      obtain ⟨head, tail⟩ := List.forall_mem_cons.mp same
      rw [List.mapM_cons, List.mapM_cons, head, inductionHypothesis tail]

theorem forall_of_mapM_ok {f : α → Except ε β} {good : β → Prop}
    {items : List α} {results : List β}
    (each : ∀ item ∈ items, ∀ result, f item = .ok result → good result)
    (succeeds : items.mapM f = .ok results) :
    ∀ result ∈ results, good result := by
  have related := (mapM_eq_ok_iff f items results).mp succeeds
  clear succeeds
  induction related with
  | nil => exact List.forall_mem_nil _
  | cons made related inductionHypothesis =>
      obtain ⟨first, others⟩ := List.forall_mem_cons.mp each
      exact List.forall_mem_cons.mpr
        ⟨first _ made, inductionHypothesis others⟩

theorem length_of_mapM_ok {f : α → Except ε β} {items : List α}
    {results : List β} (succeeds : items.mapM f = .ok results) :
    results.length = items.length :=
  ((mapM_eq_ok_iff f items results).mp succeeds).length_eq.symm

/-- A loop that makes two lists, one of which cannot fail. -/
theorem mapM_unzip {γ : Type*} (f : α → Except ε β) (g : α → γ)
    (items : List α) :
    (items.mapM fun item => (f item).map fun made => (made, g item)).map
        List.unzip =
      (items.mapM f).map fun made => (made, items.map g) := by
  induction items with
  | nil => rfl
  | cons item rest inductionHypothesis =>
      rw [List.mapM_cons, List.mapM_cons]
      cases f item with
      | error error => rfl
      | ok made =>
          cases others : rest.mapM f with
          | error error =>
              rw [others] at inductionHypothesis
              cases paired : rest.mapM fun item =>
                  (f item).map fun made => (made, g item) with
              | error other =>
                  rw [paired] at inductionHypothesis
                  cases inductionHypothesis
                  rfl
              | ok pairs =>
                  rw [paired] at inductionHypothesis
                  cases inductionHypothesis
          | ok rests =>
              rw [others] at inductionHypothesis
              cases paired : rest.mapM fun item =>
                  (f item).map fun made => (made, g item) with
              | error other =>
                  rw [paired] at inductionHypothesis
                  cases inductionHypothesis
              | ok pairs =>
                  rw [paired] at inductionHypothesis
                  have unzipped := Except.ok.inj inductionHypothesis
                  change Except.ok (List.unzip ((made, g item) :: pairs)) = _
                  rw [List.unzip_cons, unzipped]
                  rfl

/-- Two lists made row by row and put together. -/
theorem mapM_flatten_unzip {γ : Type*} (f : α → Except ε (β × γ))
    (rows : List (List α)) :
    (rows.mapM fun row : List α => (row.mapM f).map List.unzip).map
        (fun made => ((made.map Prod.fst).flatten,
          (made.map Prod.snd).flatten)) =
      (rows.flatten.mapM f).map List.unzip := by
  induction rows with
  | nil => rfl
  | cons row rest inductionHypothesis =>
      rw [List.flatten_cons, mapM_append, List.mapM_cons]
      cases row.mapM f with
      | error error => rfl
      | ok heads =>
          cases others : rest.flatten.mapM f with
          | error error =>
              rw [others] at inductionHypothesis
              cases made : rest.mapM fun row : List α =>
                  (row.mapM f).map List.unzip with
              | error other =>
                  rw [made] at inductionHypothesis
                  cases inductionHypothesis
                  simp [bind, Except.bind, Except.map]
              | ok pairs =>
                  rw [made] at inductionHypothesis
                  cases inductionHypothesis
          | ok tails =>
              rw [others] at inductionHypothesis
              cases made : rest.mapM fun row : List α =>
                  (row.mapM f).map List.unzip with
              | error other =>
                  rw [made] at inductionHypothesis
                  cases inductionHypothesis
              | ok pairs =>
                  rw [made] at inductionHypothesis
                  have unzipped := Except.ok.inj inductionHypothesis
                  rw [List.unzip_eq_map, Prod.mk.injEq] at unzipped
                  simp [bind, Except.bind, Except.map, pure, Except.pure,
                    List.unzip_eq_map, unzipped.1, unzipped.2]

end LlmDRl.Library
