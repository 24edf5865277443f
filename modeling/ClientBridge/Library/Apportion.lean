import Mathlib

/-!
# Splitting a total by weight

Rounding down every share leaves a few units over; they go to chosen places, so that the
parts still add up to the total.

* `floors total whole weights` rounds each share of `total` down, `whole` being the sum of
  the weights; what is left over is at least zero and less than one unit a weight
  (`sum_floors_le`, `sub_sum_floors_le`).
* `bumpAll` hands out one unit at each of a list of places; `addAt` adds an amount at one.
* `largest` is the first place of a largest weight.
-/

namespace Apportion

def floors (total whole : Int) (weights : List Int) : List Int := weights.map fun w => total * w / whole

@[simp] theorem length_floors (total whole : Int) (weights : List Int) :
    (floors total whole weights).length = weights.length := by simp [floors]

theorem sum_map_mul (total : Int) (weights : List Int) :
    (weights.map fun w => total * w).sum = total * weights.sum := by
  induction weights with
  | nil => simp
  | cons w weights ih => simp [ih, Int.mul_add]

/-- Division with remainder, added up over the weights. -/
theorem mul_sum_floors (total whole : Int) (weights : List Int) :
    whole * (floors total whole weights).sum + (weights.map fun w => total * w % whole).sum =
      total * weights.sum := by
  rw [← sum_map_mul]
  induction weights with
  | nil => simp [floors]
  | cons w weights ih =>
    have hd := Int.mul_ediv_add_emod (total * w) whole
    simp only [floors, List.map_cons, List.sum_cons, Int.mul_add] at ih ⊢
    omega

section
variable {whole : Int} (hw : 0 < whole)
include hw

theorem sum_emod_nonneg (total : Int) (weights : List Int) :
    0 ≤ (weights.map fun w => total * w % whole).sum := by
  refine List.sum_nonneg fun x hx => ?_
  obtain ⟨w, -, rfl⟩ := List.mem_map.1 hx
  exact Int.emod_nonneg _ (by omega)

theorem sum_emod_le (total : Int) (weights : List Int) :
    (weights.map fun w => total * w % whole).sum ≤ whole * weights.length := by
  induction weights with
  | nil => simp
  | cons w weights ih =>
    have hl := Int.emod_lt_of_pos (total * w) hw
    simp only [List.map_cons, List.sum_cons, List.length_cons, Nat.cast_add, Nat.cast_one,
      Int.mul_add]
    omega

variable {weights : List Int} (hs : weights.sum = whole)
include hs

/-- The shares rounded down never exceed the total. -/
theorem sum_floors_le (total : Int) : (floors total whole weights).sum ≤ total := by
  have hm := mul_sum_floors total whole weights
  have hr := sum_emod_nonneg hw total weights
  rw [hs, Int.mul_comm total] at hm
  exact Int.le_of_mul_le_mul_left (by omega) hw

theorem sub_sum_floors_le (total : Int) :
    total - (floors total whole weights).sum ≤ weights.length := by
  have hm := mul_sum_floors total whole weights
  have hr := sum_emod_le hw total weights
  rw [hs, Int.mul_comm total] at hm
  refine Int.le_of_mul_le_mul_left ?_ hw
  rw [Int.mul_sub]
  omega

omit hs in
/-- A total that is the whole splits into the weights themselves. -/
theorem floors_whole (weights : List Int) : floors whole whole weights = weights := by
  have h : ∀ w, whole * w / whole = w := fun w => Int.mul_ediv_cancel_left w (by omega)
  simp [floors, h]

end

/-- What the other weight's floor leaves of a total stays within a weight. -/
theorem rest_le {w v total : Int} (hw : 0 ≤ w) (hpos : 0 < w + v) (ht : total ≤ w + v) :
    total - v * total / (w + v) ≤ w := by
  have hdiv : total - w ≤ v * total / (w + v) := by
    refine Int.le_ediv_of_mul_le hpos ?_
    have hm := Int.mul_le_mul_of_nonneg_left ht hw
    nlinarith
  omega

/-- It grows with the total. -/
theorem rest_mono {v whole total total' : Int} (hw : 0 < whole) (hv : v ≤ whole) (ht : total ≤ total') :
    total - v * total / whole ≤ total' - v * total' / whole := by
  have hstep : v * total' ≤ v * total + whole * (total' - total) := by
    have hm := Int.mul_le_mul_of_nonneg_right hv (show 0 ≤ total' - total by omega)
    rw [Int.mul_sub] at hm
    omega
  have hdiv := Int.ediv_le_ediv hw hstep
  rw [Int.add_mul_ediv_left _ _ (by omega)] at hdiv
  omega

theorem floors_nonneg {total whole : Int} (ht : 0 ≤ total) (hw : 0 < whole) {weights : List Int}
    (hs : ∀ w ∈ weights, 0 ≤ w) : ∀ x ∈ floors total whole weights, 0 ≤ x := by
  intro x hx
  obtain ⟨w, hwm, rfl⟩ := List.mem_map.1 hx
  exact Int.ediv_nonneg (Int.mul_nonneg ht (hs w hwm)) (by omega)

/-! ## Handing out what is left -/

def addAt (parts : List Int) (i : Nat) (n : Int) : List Int := parts.modify i (· + n)

@[simp] theorem length_addAt (parts : List Int) (i : Nat) (n : Int) :
    (addAt parts i n).length = parts.length := by simp [addAt]

theorem sum_addAt {parts : List Int} {i : Nat} (h : i < parts.length) (n : Int) :
    (addAt parts i n).sum = parts.sum + n := by
  unfold addAt
  induction parts generalizing i with
  | nil => simp at h
  | cons p parts ih =>
    cases i with
    | zero => simp; omega
    | succ i =>
      rw [List.modify_succ_cons, List.sum_cons, ih (by simpa using h), List.sum_cons]
      omega

theorem addAt_zero (parts : List Int) (i : Nat) : addAt parts i 0 = parts := by
  have h : (fun x : Int => x + 0) = id := funext fun x => Int.add_zero x
  rw [addAt, h, List.modify_id]

/-- One unit more at each of the places. -/
def bumpAll (parts : List Int) (places : List Nat) : List Int :=
  places.foldl (fun ps i => addAt ps i 1) parts

@[simp] theorem length_bumpAll (parts : List Int) (places : List Nat) :
    (bumpAll parts places).length = parts.length := by
  unfold bumpAll
  induction places generalizing parts with
  | nil => rfl
  | cons i places ih => rw [List.foldl_cons, ih, length_addAt]

theorem sum_bumpAll {parts : List Int} {places : List Nat} (h : ∀ i ∈ places, i < parts.length) :
    (bumpAll parts places).sum = parts.sum + places.length := by
  unfold bumpAll
  induction places generalizing parts with
  | nil => simp
  | cons i places ih =>
    have hi := h i List.mem_cons_self
    rw [List.foldl_cons, ih fun j hj => by simpa using h j (List.mem_cons_of_mem _ hj),
      sum_addAt hi, List.length_cons]
    omega

theorem addAt_nonneg {parts : List Int} (h : ∀ x ∈ parts, 0 ≤ x) (i : Nat) {n : Int} (hn : 0 ≤ n) :
    ∀ x ∈ addAt parts i n, 0 ≤ x := by
  unfold addAt
  induction parts generalizing i with
  | nil => simp
  | cons p parts ih =>
    have hp := h p List.mem_cons_self
    have ht := fun x hx => h x (List.mem_cons_of_mem p hx)
    cases i with
    | zero =>
      intro x hx
      rcases List.mem_cons.1 hx with rfl | hx
      · exact Int.add_nonneg hp hn
      · exact ht x hx
    | succ i =>
      intro x hx
      rcases List.mem_cons.1 hx with rfl | hx
      · exact hp
      · exact ih ht i x hx

theorem bumpAll_nonneg {parts : List Int} (h : ∀ x ∈ parts, 0 ≤ x) (places : List Nat) :
    ∀ x ∈ bumpAll parts places, 0 ≤ x := by
  unfold bumpAll
  induction places generalizing parts with
  | nil => exact h
  | cons i places ih => exact ih (addAt_nonneg h i (by omega))

/-! ## The largest weight -/

def largest (weights : List Int) : Nat := weights.findIdx fun w => weights.all fun v => decide (v ≤ w)

theorem exists_largest {weights : List Int} (h : weights ≠ []) : ∃ w ∈ weights, ∀ v ∈ weights, v ≤ w := by
  induction weights with
  | nil => exact absurd rfl h
  | cons w weights ih =>
    by_cases he : weights = []
    · exact ⟨w, List.mem_cons_self, by simp [he]⟩
    · obtain ⟨m, hm, hle⟩ := ih he
      rcases le_total w m with hwm | hmw
      · refine ⟨m, List.mem_cons_of_mem _ hm, fun v hv => ?_⟩
        rcases List.mem_cons.1 hv with rfl | hv
        · exact hwm
        · exact hle v hv
      · refine ⟨w, List.mem_cons_self, fun v hv => ?_⟩
        rcases List.mem_cons.1 hv with rfl | hv
        · exact le_refl v
        · exact (hle v hv).trans hmw

theorem largest_lt {weights : List Int} (h : weights ≠ []) : largest weights < weights.length := by
  obtain ⟨w, hw, hle⟩ := exists_largest h
  exact List.findIdx_lt_length_of_exists ⟨w, hw, by simpa using hle⟩

end Apportion
