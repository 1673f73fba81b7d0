import Mathlib.Data.Stream.Init

/-!
# Loops that append what a generator makes

A loop that steps a state and appends one value for each step makes the values
of one stream, so its results for different counts are initial segments of
that stream.  Of two initial segments the shorter is a prefix of the longer.
-/

namespace LlmDRl.Library

universe u v w

variable {σ : Type u} {α : Type v} {ε : Type w}

/-! ## Initial segments -/

/-- The list is the beginning of the stream. -/
def IsInitial (stream : Stream' α) (items : List α) : Prop :=
  items = stream.take items.length

theorem isInitial_take (stream : Stream' α) (count : ℕ) :
    IsInitial stream (stream.take count) := by
  unfold IsInitial
  rw [Stream'.length_take]

theorem IsInitial.isPrefix
    {stream : Stream' α} {items longer : List α}
    (initial : IsInitial stream items) (other : IsInitial stream longer)
    (le : items.length ≤ longer.length) : items <+: longer := by
  have taken : longer.take items.length = items := by
    calc longer.take items.length
      _ = (stream.take longer.length).take items.length := by rw [← other]
      _ = stream.take (min longer.length items.length) := Stream'.take_take
      _ = stream.take items.length := by rw [Nat.min_eq_right le]
      _ = items := initial.symm
  rw [← taken]
  exact List.take_prefix items.length longer

theorem IsInitial.of_isPrefix
    {stream : Stream' α} {items longer : List α}
    (pre : items <+: longer) (initial : IsInitial stream longer) :
    IsInitial stream items := by
  have taken := List.prefix_iff_eq_take.mp pre
  have le := pre.length_le
  unfold IsInitial
  calc items
    _ = longer.take items.length := taken
    _ = (stream.take longer.length).take items.length := by rw [← initial]
    _ = stream.take (min longer.length items.length) := Stream'.take_take
    _ = stream.take items.length := by rw [Nat.min_eq_right le]

/-- What every entry of a stream satisfies holds in its initial segments. -/
theorem forall_mem_take
    {property : α → Prop} {stream : Stream' α}
    (holds : ∀ index, property (stream.get index)) (count : ℕ) :
    ∀ item ∈ stream.take count, property item := by
  induction count with
  | zero =>
      intro item member
      cases member
  | succ count inductionHypothesis =>
      intro item member
      rw [Stream'.take_succ'] at member
      rcases List.mem_append.mp member with earlier | last
      · exact inductionHypothesis item earlier
      · rw [List.mem_singleton.mp last]
        exact holds count

/-! ## The loop -/

/-- `for _ in range(count): state = next(state); out.append(emit(state))` -/
def appendLoop (next : σ → σ) (emit : σ → Except ε α) :
    ℕ → σ → List α → Except ε (List α)
  | 0, _, out => .ok out
  | count + 1, state, out =>
      match emit (next state) with
      | .error error => .error error
      | .ok value => appendLoop next emit count (next state) (out ++ [value])

/-- What the loop would append if it never ended. -/
def appended (next : σ → σ) (value : σ → α) (state : σ) : Stream' α :=
  (Stream'.iterate next (next state)).map value

theorem take_succ_appended
    (next : σ → σ) (value : σ → α) (state : σ) (count : ℕ) :
    (appended next value state).take (count + 1) =
      value (next state) :: (appended next value (next state)).take count := by
  unfold appended
  rw [Stream'.take_succ, Stream'.tail_map, Stream'.tail_iterate]
  rfl

/-- A loop whose steps all emit a value ends with the beginning of the
stream. -/
theorem appendLoop_of_emits
    {next : σ → σ} {emit : σ → Except ε α} {value : σ → α}
    (emits : ∀ state, emit state = .ok (value state))
    (count : ℕ) (state : σ) (out : List α) :
    appendLoop next emit count state out =
      .ok (out ++ (appended next value state).take count) := by
  induction count generalizing state out with
  | zero =>
      rw [appendLoop, Stream'.take_zero, List.append_nil]
  | succ count inductionHypothesis =>
      rw [appendLoop, emits]
      dsimp only
      rw [inductionHypothesis, take_succ_appended, List.append_assoc,
        List.singleton_append]

end LlmDRl.Library
