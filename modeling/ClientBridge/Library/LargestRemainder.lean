import ClientBridge.Library.Apportion

/-!
# Largest remainders: who is topped up

The units that rounding down leaves over go to the places in order of their keys, larger keys
and then earlier places first.  `deal` says of every place on its own whether it gets one: it
does when fewer places stand before it than units are left (`ahead`, `topUp`).

* `mem_take_iff`: in a list sorted by a strict order, who is among the first `k`.
* `bumpAll_eq_deal`: topping up the first places of the sorted list is dealing to each place.
* `deal_filter`: places whose key is no larger than anyone's, and that get nothing anyway, can be
  left out without changing what the others get.
-/

namespace Apportion

/-! ## The first places of a sorted list -/

section
variable {α : Type} {r : α → α → Prop} [DecidableRel r]

/-- Among the first `k` of a sorted list are those with fewer than `k` before them. -/
theorem mem_take_iff (hirrefl : ∀ a, ¬r a a) (hasymm : ∀ a b, r a b → ¬r b a) {xs : List α}
    (hs : xs.Pairwise r) {x : α} (hx : x ∈ xs) (k : Nat) :
    x ∈ xs.take k ↔ xs.countP (fun y => r y x) < k := by
  induction xs generalizing k with
  | nil => cases hx
  | cons a xs ih =>
    obtain ⟨ha, hxs⟩ := List.pairwise_cons.1 hs
    cases k with
    | zero => simp
    | succ k =>
      rw [List.take_succ_cons]
      by_cases hxa : x = a
      · subst hxa
        have hz : xs.countP (fun y => r y x) = 0 :=
          List.countP_eq_zero.2 fun y hy => by simpa using hasymm x y (ha y hy)
        rw [List.countP_cons_of_neg (by simpa using hirrefl x), hz]
        simp
      · have hm : x ∈ xs := (List.mem_cons.1 hx).resolve_left hxa
        rw [List.countP_cons_of_pos (by simpa using ha x hm), List.mem_cons, ih hxs hm k]
        simp [hxa]

end

theorem getElem?_addAt (parts : List Int) (i : Nat) (n : Int) (j : Nat) :
    (addAt parts i n)[j]? = parts[j]?.map fun x => if i = j then x + n else x := by
  rw [addAt, List.getElem?_modify]
  cases parts[j]? <;> simp

/-- Every place gets as many units as it is named. -/
theorem getElem?_bumpAll (parts : List Int) (places : List Nat) (j : Nat) :
    (bumpAll parts places)[j]? = parts[j]?.map (· + (places.count j : Int)) := by
  unfold bumpAll
  induction places generalizing parts with
  | nil => simp
  | cons i places ih =>
    rw [List.foldl_cons, ih, getElem?_addAt, Option.map_map]
    congr 1
    funext x
    by_cases h : i = j
    · simp [h]
      omega
    · simp [h]

/-! ## Ranks -/

/-- Place `i` is topped up before place `j`. -/
def Before (keys : List Int) (i j : Nat) : Prop :=
  keys.getD j 0 < keys.getD i 0 ∨ (keys.getD i 0 = keys.getD j 0 ∧ i < j)

instance (keys : List Int) : DecidableRel (Before keys) := fun i j => by unfold Before; infer_instance

/-- How many keys stand before one: the larger ones, and the equal ones that come earlier. -/
def ahead (pre : List Int) (k : Int) (post : List Int) : Nat :=
  pre.countP (fun x => decide (k ≤ x)) + post.countP fun x => decide (k < x)

theorem map_getD_range (xs : List Int) : ((List.range xs.length).map fun i => xs.getD i 0) = xs := by
  apply List.ext_getElem
  · simp
  · intro i h1 h2
    simp [h2]

theorem countP_range_getD (xs : List Int) (p : Int → Bool) :
    ((List.range xs.length).countP fun i => p (xs.getD i 0)) = xs.countP p := by
  conv_rhs => rw [← map_getD_range xs, List.countP_map]
  rfl

theorem countP_before (pre : List Int) (k : Int) (post : List Int) :
    (List.range (pre ++ k :: post).length).countP (fun i => Before (pre ++ k :: post) i pre.length) = ahead pre k post := by
  have hk : (pre ++ k :: post).getD pre.length 0 = k := by simp
  rw [List.length_append, List.range_add, List.countP_append, List.length_cons, List.range_succ_eq_map,
    List.map_cons, List.countP_cons_of_neg, List.map_map, List.countP_map, ahead]
  · congr 1
    · rw [← countP_range_getD pre]
      refine List.countP_congr fun i hi => ?_
      have hlt := List.mem_range.1 hi
      have hg : (pre ++ k :: post).getD i 0 = pre.getD i 0 := List.getD_append _ _ _ _ hlt
      simp only [Before, hk, hg, decide_eq_true_eq]
      omega
    · rw [← countP_range_getD post]
      refine List.countP_congr fun i _ => ?_
      have hg : (pre ++ k :: post).getD (pre.length + (i + 1)) 0 = post.getD i 0 := by
        rw [List.getD_append_right _ _ _ _ (Nat.le_add_right _ _), Nat.add_sub_cancel_left, List.getD_cons_succ]
      simp only [Function.comp_apply, Before, hk, Nat.succ_eq_add_one, hg, decide_eq_true_eq]
      omega
  · simp [Before]

/-! ## Dealing the units that are left -/

section
variable (share key : Int → Int) (left : Nat)

/-- One unit if fewer places stand before this one than units are left. -/
def topUp (pre : List Int) (w : Int) (post : List Int) : Int :=
  if ahead (pre.map key) (key w) (post.map key) < left then 1 else 0

/-- Every place its share rounded down and its unit, if it gets one. -/
def deal : List Int → List Int → List Int
  | _, [] => []
  | pre, w :: post => (share w + topUp key left pre w post) :: deal (pre ++ [w]) post

theorem getElem?_deal (pre weights : List Int) (j : Nat) :
    (deal share key left pre weights)[j]? =
      weights[j]?.map fun w => share w + topUp key left (pre ++ weights.take j) w (weights.drop (j + 1)) := by
  induction weights generalizing pre j with
  | nil => simp [deal]
  | cons w weights ih =>
    cases j with
    | zero => simp [deal]
    | succ j =>
      rw [deal, List.getElem?_cons_succ, ih, List.getElem?_cons_succ, List.take_succ_cons, List.drop_succ_cons,
        List.append_assoc, List.singleton_append]

end

/-- Topping up the first places in the order of their keys is dealing to each place. -/
theorem bumpAll_eq_deal (share key : Int → Int) (left : Nat) (weights : List Int) {order : List Nat}
    (hperm : order.Perm (List.range weights.length)) (hsorted : order.Pairwise (Before (weights.map key))) :
    bumpAll (weights.map share) (order.take left) = deal share key left [] weights := by
  have hirrefl : ∀ i, ¬Before (weights.map key) i i := fun i => by simp [Before]
  have hasymm : ∀ i j, Before (weights.map key) i j → ¬Before (weights.map key) j i := fun i j => by
    simp only [Before]
    omega
  apply List.ext_getElem?
  intro j
  rw [getElem?_bumpAll, getElem?_deal, List.getElem?_map, List.nil_append]
  cases hj : weights[j]? with
  | none => rfl
  | some w =>
    obtain ⟨hlt, rfl⟩ := List.getElem?_eq_some_iff.1 hj
    have hmem : j ∈ order := hperm.mem_iff.2 (List.mem_range.2 hlt)
    have hnodup : (order.take left).Nodup := (hperm.nodup_iff.2 List.nodup_range).sublist (List.take_sublist _ _)
    have hcount : order.countP (fun i => Before (weights.map key) i j) =
        ahead ((weights.take j).map key) (key weights[j]) ((weights.drop (j + 1)).map key) := by
      have hsplit : weights.map key =
          (weights.take j).map key ++ key weights[j] :: (weights.drop (j + 1)).map key := by
        rw [← List.map_cons (f := key), ← List.map_append, List.getElem_cons_drop, List.take_append_drop]
      have hlen : ((weights.take j).map key).length = j := by simp; omega
      have h := countP_before ((weights.take j).map key) (key weights[j]) ((weights.drop (j + 1)).map key)
      rw [← hsplit, hlen, List.length_map] at h
      rw [hperm.countP_eq]
      exact h
    simp only [Option.map_some, topUp, ← hcount]
    by_cases h : j ∈ order.take left
    · rw [List.count_eq_one_of_mem hnodup h, if_pos ((mem_take_iff hirrefl hasymm hsorted hmem left).1 h)]
      rfl
    · rw [List.count_eq_zero_of_not_mem h,
        if_neg fun hc => h ((mem_take_iff hirrefl hasymm hsorted hmem left).2 hc)]
      rfl

/-- Keys below a bound add up to at most the bound for every positive one. -/
theorem sum_le_countP {bound : Int} {keys : List Int} (h : ∀ k ∈ keys, k ≤ bound) :
    keys.sum ≤ bound * keys.countP fun k => decide (0 < k) := by
  induction keys with
  | nil => simp
  | cons k keys ih =>
    have ih := ih fun k' hk' => h k' (List.mem_cons_of_mem k hk')
    have hk := h k List.mem_cons_self
    rw [List.sum_cons]
    by_cases hpos : 0 < k
    · rw [List.countP_cons_of_pos (by simpa using hpos), Nat.cast_add, Nat.cast_one, Int.mul_add]
      omega
    · rw [List.countP_cons_of_neg (by simpa using hpos)]
      omega

/-! ## Places with nothing to round -/

section
variable {share key : Int → Int} {left : Nat}

/-- With no more units left than places with a positive key, a place without one gets nothing. -/
theorem topUp_zero {pre post : List Int} {w : Int} (hw : key w = 0)
    (hleft : left ≤ ((pre ++ w :: post).map key).countP fun k => decide (0 < k)) : topUp key left pre w post = 0 := by
  have hpre : (pre.map key).countP (fun k => decide (0 < k)) ≤ (pre.map key).countP fun k => decide (0 ≤ k) :=
    List.countP_mono_left fun k _ h => by
      rw [decide_eq_true_eq] at h ⊢
      omega
  rw [List.map_append, List.map_cons, List.countP_append, List.countP_cons_of_neg (by simp [hw])] at hleft
  rw [topUp, ahead, hw, if_neg]
  omega

variable {α : Type} {f : α → Int} {p : α → Bool} (hkey : ∀ x, p x = false → key (f x) = 0)
include hkey

theorem countP_filter_map {q : Int → Bool} (hq : q 0 = false) (xs : List α) :
    (((xs.filter p).map f).map key).countP q = ((xs.map f).map key).countP q := by
  simp only [List.countP_map, List.countP_filter]
  refine List.countP_congr fun x _ => ?_
  cases hp : p x with
  | true => simp
  | false => simp [hkey x hp, hq]

variable (hnonneg : ∀ w, 0 ≤ key w)
include hnonneg

theorem topUp_filter {pre post : List α} {x : α} (hp : p x = true)
    (hleft : left ≤ (((pre ++ x :: post).map f).map key).countP fun k => decide (0 < k)) :
    topUp key left ((pre.filter p).map f) (f x) ((post.filter p).map f) =
      topUp key left (pre.map f) (f x) (post.map f) := by
  have hsmall := hleft
  rw [← countP_filter_map hkey (by simp), List.filter_append, List.filter_cons_of_pos hp] at hsmall
  by_cases hk : 0 < key (f x)
  · have hle : decide (key (f x) ≤ 0) = false := by simpa using hk
    have hlt : decide (key (f x) < 0) = false := by simpa using hk.le
    rw [topUp, topUp, ahead, ahead, countP_filter_map hkey hle, countP_filter_map hkey hlt]
  · have hz : key (f x) = 0 := le_antisymm (not_lt.1 hk) (hnonneg _)
    rw [List.map_append, List.map_cons] at hleft hsmall
    rw [topUp_zero hz hleft, topUp_zero hz hsmall]

/-- Leaving out places with nothing to round changes no other place's part. -/
theorem deal_filter (pre xs : List α)
    (hleft : left ≤ (((pre ++ xs).map f).map key).countP fun k => decide (0 < k)) :
    ((xs.zip (deal share key left (pre.map f) (xs.map f))).filter fun x => p x.1).map (·.2) =
      deal share key left ((pre.filter p).map f) ((xs.filter p).map f) := by
  induction xs generalizing pre with
  | nil => rfl
  | cons x xs ih =>
    have ih := ih (pre ++ [x]) (by simpa using hleft)
    rw [List.map_append, List.map_singleton] at ih
    rw [List.map_cons, deal, List.zip_cons_cons]
    cases hp : p x with
    | true =>
      rw [List.filter_append, List.filter_singleton, hp, cond_true, List.map_append, List.map_singleton] at ih
      rw [List.filter_cons_of_pos hp, List.filter_cons_of_pos (p := fun y : α × Int => p y.1) hp, List.map_cons, List.map_cons, deal, ih,
        topUp_filter hkey hnonneg hp hleft]
    | false =>
      have hneg : ¬p x = true := by rw [hp]; exact Bool.false_ne_true
      rw [List.filter_append, List.filter_singleton, hp, cond_false, List.append_nil] at ih
      rw [List.filter_cons_of_neg hneg, List.filter_cons_of_neg (p := fun y : α × Int => p y.1) hneg, ih]

end

end Apportion
