import Mathlib.Data.List.Induction

/-!
# The last layer that touches a view

A fold lays one layer after another over a state.  What one looks at in the
final state was decided by the last layer that touched it, given what had
been laid down before.
-/

namespace LlmDRl.Library

universe u v w

variable {α : Type u} {β : Type v} {γ : Type w}

/-- After `past`, no layer of the list touches what it finds. -/
def NoneTouches
    (touches : List α → α → Prop) (past layers : List α) : Prop :=
  ∀ between layer rest,
    layers = between ++ layer :: rest → ¬ touches (past ++ between) layer

variable {touches : List α → α → Prop}

theorem noneTouches_nil (past : List α) : NoneTouches touches past [] := by
  intro between layer rest split
  simp at split

theorem NoneTouches.append_singleton
    {past layers : List α} {layer : α}
    (none : NoneTouches touches past layers)
    (missed : ¬ touches (past ++ layers) layer) :
    NoneTouches touches past (layers ++ [layer]) := by
  intro between other rest split
  rcases List.eq_nil_or_concat rest with rfl | ⟨front, last, rfl⟩
  · obtain ⟨betweenEq, otherEq⟩ := List.append_inj' split rfl
    cases otherEq
    rwa [← betweenEq]
  · rw [List.concat_eq_append, ← List.cons_append, ← List.append_assoc]
      at split
    exact none between other front (List.append_inj' split rfl).1

theorem NoneTouches.front
    {past layers : List α} {layer : α}
    (none : NoneTouches touches past (layers ++ [layer])) :
    NoneTouches touches past layers ∧ ¬ touches (past ++ layers) layer := by
  refine ⟨?_, none layers layer [] rfl⟩
  intro between other rest split
  exact none between other (rest ++ [layer]) (by rw [split]; simp)

theorem noneTouches_or_last_touch
    (touches : List α → α → Prop) (layers : List α) :
    NoneTouches touches [] layers ∨
      ∃ before layer after,
        layers = before ++ layer :: after ∧ touches before layer ∧
          NoneTouches touches (before ++ [layer]) after := by
  induction layers using List.reverseRecOn with
  | nil =>
      exact Or.inl (noneTouches_nil [])
  | append_singleton layers last inductionHypothesis =>
      by_cases hit : touches layers last
      · exact Or.inr ⟨layers, last, [], rfl, hit, noneTouches_nil _⟩
      · rcases inductionHypothesis with
          none | ⟨before, layer, after, rfl, touched, none⟩
        · exact Or.inl (none.append_singleton hit)
        · refine Or.inr ⟨before, layer, after ++ [last], by simp, touched,
            none.append_singleton ?_⟩
          simpa using hit

/-- Layers that do not touch a view of the state leave it as it was. -/
theorem view_foldl_of_noneTouches
    {lay : β → α → β} {start : β} (view : β → γ)
    (missed : ∀ past layer, ¬ touches past layer →
      view (lay (past.foldl lay start) layer) = view (past.foldl lay start))
    {past layers : List α} (none : NoneTouches touches past layers) :
    view ((past ++ layers).foldl lay start) =
      view (past.foldl lay start) := by
  induction layers using List.reverseRecOn with
  | nil =>
      rw [List.append_nil]
  | append_singleton layers last inductionHypothesis =>
      obtain ⟨front, lastMissed⟩ := none.front
      rw [← List.append_assoc, List.foldl_append, List.foldl_cons,
        List.foldl_nil, missed _ _ lastMissed, inductionHypothesis front]

end LlmDRl.Library
