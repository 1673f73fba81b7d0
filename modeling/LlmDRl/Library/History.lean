import Mathlib.Data.List.Basic

/-!
# Histories, newest entry first

A history variable grows at the front.  That one entry is older than another
is the sublist `[newer, older] <+ history`; a longer chain of entries is a
longer list.
-/

namespace LlmDRl.Library

universe u

variable {α : Type u}

/-- Every entry meets the condition with respect to the entries older than
it. -/
def EachWithPast (condition : α → List α → Prop) : List α → Prop
  | [] => True
  | entry :: past => condition entry past ∧ EachWithPast condition past

theorem eachWithPast_iff
    (condition : α → List α → Prop) (history : List α) :
    EachWithPast condition history ↔
      ∀ newer entry past,
        history = newer ++ entry :: past → condition entry past := by
  induction history with
  | nil =>
      simp [EachWithPast]
  | cons head rest inductionHypothesis =>
      constructor
      · intro held newer entry past split
        obtain ⟨here, older⟩ := held
        cases newer with
        | nil =>
            cases split
            exact here
        | cons first others =>
            obtain ⟨_, restEq⟩ := List.cons.inj split
            exact inductionHypothesis.mp older others entry past restEq
      · intro all
        refine ⟨all [] head rest rfl, inductionHypothesis.mpr ?_⟩
        intro newer entry past split
        exact all (head :: newer) entry past (by rw [split]; rfl)

end LlmDRl.Library
