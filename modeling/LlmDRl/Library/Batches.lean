import Mathlib.Data.List.Basic

/-!
# Lists cut into pieces by position

`batches` are the slices at the multiples of a size, `regroup` cuts a flat list
back into rows of one length.
-/

namespace LlmDRl.Library

universe u

variable {α : Type u}

/-- `items[start:stop]` -/
def slice (items : List α) (start stop : Nat) : List α :=
  (items.take stop).drop start

/-- `range(0, stop, size)` -/
def starts (size stop : Nat) : List Nat :=
  (List.range ((stop + size - 1) / size)).map (· * size)

def batches (size : Nat) (items : List α) : List (List α) :=
  (starts size items.length).map fun start => slice items start (start + size)

def regroup (size count : Nat) (flat : List α) : List (List α) :=
  (List.range count).map fun i => slice flat (i * size) ((i + 1) * size)

theorem slice_add (items : List α) (size start stop : Nat) :
    slice items (start + size) (stop + size) =
      slice (items.drop size) start stop := by
  rw [slice, slice, List.take_drop, List.drop_drop, Nat.add_comm size stop,
    Nat.add_comm size start]

theorem starts_zero {size : Nat} (positive : 0 < size) :
    starts size 0 = [] := by
  have none : (0 + size - 1) / size = 0 := Nat.div_eq_of_lt (by omega)
  rw [starts, none]
  rfl

theorem starts_of_pos {size stop : Nat} (positive : 0 < size)
    (some : 0 < stop) :
    starts size stop = 0 :: (starts size (stop - size)).map (· + size) := by
  have count : (stop + size - 1) / size =
      (stop - size + size - 1) / size + 1 := by
    by_cases short : stop ≤ size
    · have one : stop + size - 1 = stop - 1 + size := by omega
      have rest : stop - size + size - 1 = size - 1 := by omega
      rw [one, rest, Nat.add_div_right _ positive,
        Nat.div_eq_of_lt (by omega), Nat.div_eq_of_lt (by omega)]
    · have shift : stop + size - 1 = stop - size + size - 1 + size := by omega
      rw [shift, Nat.add_div_right _ positive]
  rw [starts, count, List.range_succ_eq_map, List.map_cons, Nat.zero_mul,
    List.map_map, starts, List.map_map]
  congr 1
  apply List.map_congr_left
  intro i _
  exact Nat.succ_mul i size

theorem batches_nil {size : Nat} (positive : 0 < size) :
    batches size ([] : List α) = [] := by
  rw [batches, List.length_nil, starts_zero positive]
  rfl

/-- The first batch, and the batches of what is left. -/
theorem batches_eq_cons {size : Nat} {items : List α} (positive : 0 < size)
    (some : items ≠ []) :
    batches size items =
      items.take size :: batches size (items.drop size) := by
  rw [batches, starts_of_pos positive (List.length_pos_of_ne_nil some),
    List.map_cons, List.map_map, batches, List.length_drop]
  congr 1
  · rw [slice, Nat.zero_add, List.drop_zero]
  · apply List.map_congr_left
    intro start _
    exact slice_add items size start (start + size)

theorem regroup_flatten {size : Nat} {rows : List (List α)}
    (full : ∀ row ∈ rows, row.length = size) :
    regroup size rows.length rows.flatten = rows := by
  induction rows with
  | nil => rfl
  | cons row rest inductionHypothesis =>
      obtain ⟨rowFull, restFull⟩ := List.forall_mem_cons.mp full
      have grouped := inductionHypothesis restFull
      rw [regroup] at grouped
      rw [regroup, List.length_cons, List.range_succ_eq_map, List.map_cons,
        List.map_map, List.flatten_cons]
      congr 1
      · rw [slice, Nat.zero_mul, Nat.zero_add, Nat.one_mul, List.drop_zero,
          ← rowFull, List.take_left]
      · refine Eq.trans ?_ grouped
        apply List.map_congr_left
        intro i _
        change slice (row ++ rest.flatten) ((i + 1) * size)
          ((i + 1 + 1) * size) = _
        rw [Nat.succ_mul i, Nat.succ_mul (i + 1), slice_add,
          Nat.succ_mul i, ← rowFull, List.drop_left]

theorem flatten_batches {size : Nat} (positive : 0 < size) (items : List α) :
    (batches size items).flatten = items := by
  induction count : items.length using Nat.strongRecOn
    generalizing items with
  | _ count inductionHypothesis =>
      by_cases none : items = []
      · rw [none, batches_nil positive, List.flatten_nil]
      · have some := List.length_pos_of_ne_nil none
        have fewer : (items.drop size).length < items.length := by
          rw [List.length_drop]
          omega
        rw [batches_eq_cons positive none, List.flatten_cons,
          inductionHypothesis _ (by omega) (items.drop size) rfl,
          List.take_append_drop]

theorem ne_nil_of_mem_batches {size : Nat} (positive : 0 < size)
    {items batch : List α} (member : batch ∈ batches size items) :
    batch ≠ [] := by
  induction count : items.length using Nat.strongRecOn
    generalizing items with
  | _ count inductionHypothesis =>
      by_cases none : items = []
      · rw [none, batches_nil positive] at member
        cases member
      · have some := List.length_pos_of_ne_nil none
        rw [batches_eq_cons positive none] at member
        rcases List.mem_cons.mp member with rfl | later
        · apply List.ne_nil_of_length_pos
          rw [List.length_take]
          omega
        · have fewer : (items.drop size).length < items.length := by
            rw [List.length_drop]
            omega
          exact inductionHypothesis _ (by omega) later rfl

end LlmDRl.Library
