import ClientBridge.Library.Apportion

/-!
# Line helpers: `allocate`

`allocate total weights` splits an amount in whole cents.  The parts are as many as the
weights and add up to the total (`length_allocate`, `sum_allocate`).
-/

namespace ClientBridge

open Apportion

theorem one_quantity_pos : (0 : ℚ) < 1 := one_pos

/-- Places in the order they are topped up: largest remainder first, then the earlier one. -/
def remainderOrder (total : Int) (weights : List Int) : List Nat :=
  let remainder := fun i => total * weights.getD i 0 % weights.sum
  (List.range weights.length).insertionSort fun i j =>
    remainder j < remainder i ∨ (remainder i = remainder j ∧ i ≤ j)

/-- Split `total` in whole cents by weight, largest remainder first, so the parts add up. -/
def allocate (total : Int) (weights : List Int) : List Int :=
  let whole := weights.sum
  if total = 0 ∨ whole ≤ 0 then weights.map fun _ => 0
  else
    let parts := floors total whole weights
    -- the parts rounded down never exceed the total, so the slice bound is not negative
    bumpAll parts ((remainderOrder total weights).take (total - parts.sum).toNat)

example : allocate 100 [1, 1, 1] = [34, 33, 33] := by decide

@[simp] theorem length_allocate (total : Int) (weights : List Int) :
    (allocate total weights).length = weights.length := by
  simp only [allocate]
  split <;> simp

theorem mem_remainderOrder {total : Int} {weights : List Int} {i : Nat} :
    i ∈ remainderOrder total weights ↔ i < weights.length := by
  rw [remainderOrder, (List.perm_insertionSort _ _).mem_iff, List.mem_range]

theorem length_remainderOrder (total : Int) (weights : List Int) :
    (remainderOrder total weights).length = weights.length := by
  rw [remainderOrder, (List.perm_insertionSort _ _).length_eq, List.length_range]

/-- The parts add up to the total. -/
theorem sum_allocate (total : Int) {weights : List Int} (hw : 0 < weights.sum) :
    (allocate total weights).sum = total := by
  simp only [allocate]
  split
  · next h =>
    have ht : total = 0 := h.resolve_right (by omega)
    simp [ht]
  · have h0 := sum_floors_le hw rfl total
    have h1 := sub_sum_floors_le hw rfl total
    rw [sum_bumpAll, List.length_take, length_remainderOrder]
    · omega
    · intro i hi
      rw [length_floors]
      exact mem_remainderOrder.1 (List.mem_of_mem_take hi)

/-- Splitting the whole gives the weights back. -/
theorem allocate_whole {weights : List Int} (hw : 0 < weights.sum) :
    allocate weights.sum weights = weights := by
  have h : ¬(weights.sum = 0 ∨ weights.sum ≤ 0) := by omega
  simp only [allocate, if_neg h, floors_whole hw]
  simp [bumpAll]

theorem allocate_nonneg {total : Int} (ht : 0 ≤ total) {weights : List Int}
    (hw : ∀ w ∈ weights, 0 ≤ w) : ∀ x ∈ allocate total weights, 0 ≤ x := by
  simp only [allocate]
  split
  · intro x hx
    obtain ⟨w, -, rfl⟩ := List.mem_map.1 hx
    exact le_refl 0
  · next h =>
    push Not at h
    exact bumpAll_nonneg (floors_nonneg ht h.2 hw) _

/-- All the weight on the first part leaves it everything. -/
theorem allocate_first (total : Int) {w : Int} (hw : 0 < w) : allocate total [w, 0] = [total, 0] := by
  have hs : [w, 0].sum = w := by simp
  have hd : total * w / w = total := Int.mul_ediv_cancel total (by omega)
  simp only [allocate, hs]
  split
  · next h => simp [h.resolve_right (by omega)]
  · simp [floors, hd, bumpAll]

/-- No weight on the first part leaves it nothing. -/
theorem allocate_last (total w : Int) : (allocate total [0, w]).headD 0 = 0 := by
  have hs : [0, w].sum = w := by simp
  simp only [allocate, hs]
  split
  · rfl
  · next h =>
    have hd : total * w / w = total := Int.mul_ediv_cancel total (by omega)
    simp [floors, hd, bumpAll]

end ClientBridge
