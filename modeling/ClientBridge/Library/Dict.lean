import Mathlib

/-!
# Insertion-ordered dictionaries of integers

A dictionary is the list of its keys with their values, in the order the keys came in.
`put` sets a key, `bump` adds to it, and `collect` groups a list of keyed amounts by key:
`get (collect xs) k` is the sum of the amounts of `k` (`get_collect`).  `fromKeys` keeps the
first occurrence of every key.
-/

namespace Dict

variable {κ : Type} [DecidableEq κ]

def get : List (κ × Int) → κ → Int
  | [], _ => 0
  | (k', v) :: d, k => if k' = k then v else get d k

def put : List (κ × Int) → κ → Int → List (κ × Int)
  | [], k, n => [(k, n)]
  | (k', v) :: d, k, n => if k' = k then (k', n) :: d else (k', v) :: put d k n

def bump : List (κ × Int) → κ → Int → List (κ × Int)
  | [], k, n => [(k, n)]
  | (k', v) :: d, k, n => if k' = k then (k', v + n) :: d else (k', v) :: bump d k n

def keys (d : List (κ × Int)) : List κ := d.map (·.1)

omit [DecidableEq κ] in
theorem mem_keys {d : List (κ × Int)} {x : κ × Int} (h : x ∈ d) : x.1 ∈ keys d :=
  List.mem_map_of_mem h

/-- The sum of all values. -/
def total (d : List (κ × Int)) : Int := (d.map (·.2)).sum

def ofList (xs : List (κ × Int)) : List (κ × Int) := xs.foldl (fun d x => put d x.1 x.2) []

def collect (xs : List (κ × Int)) : List (κ × Int) := xs.foldl (fun d x => bump d x.1 x.2) []

/-- What a list of keyed amounts holds for one key. -/
def sumAt (xs : List (κ × Int)) (k : κ) : Int := ((xs.filter fun x => decide (x.1 = k)).map (·.2)).sum

def fromKeys : List κ → List κ
  | [] => []
  | k :: ks => k :: (fromKeys ks).filter fun k' => decide (k' ≠ k)

omit [DecidableEq κ] in
@[simp] theorem total_nil : total ([] : List (κ × Int)) = 0 := rfl

omit [DecidableEq κ] in
@[simp] theorem total_cons (x : κ × Int) (d : List (κ × Int)) : total (x :: d) = x.2 + total d := by
  simp [total]

@[simp] theorem sumAt_nil (k : κ) : sumAt [] k = 0 := rfl

@[simp] theorem sumAt_cons (x : κ × Int) (xs : List (κ × Int)) (k : κ) :
    sumAt (x :: xs) k = (if x.1 = k then x.2 else 0) + sumAt xs k := by
  by_cases h : x.1 = k <;> simp [sumAt, h]

omit [DecidableEq κ] in
theorem total_append (d e : List (κ × Int)) : total (d ++ e) = total d + total e := by simp [total]

theorem sumAt_append (xs ys : List (κ × Int)) (k : κ) : sumAt (xs ++ ys) k = sumAt xs k + sumAt ys k := by
  simp [sumAt]

theorem get_bump (d : List (κ × Int)) (k k' : κ) (n : Int) :
    get (bump d k n) k' = get d k' + if k = k' then n else 0 := by
  induction d with
  | nil => simp [bump, get]
  | cons x d ih =>
    obtain ⟨a, v⟩ := x
    by_cases h : a = k
    · subst h
      by_cases h' : a = k' <;> simp [bump, get, h']
    · by_cases h' : a = k'
      · subst h'
        simp [bump, get, h, Ne.symm h]
      · simp [bump, get, h, h', ih]

theorem total_bump (d : List (κ × Int)) (k : κ) (n : Int) : total (bump d k n) = total d + n := by
  induction d with
  | nil => simp [bump]
  | cons x d ih =>
    obtain ⟨a, v⟩ := x
    by_cases h : a = k
    · simp [bump, h]; omega
    · simp [bump, h, ih]; omega

theorem mem_keys_bump (d : List (κ × Int)) (k k' : κ) (n : Int) :
    k' ∈ keys (bump d k n) ↔ k' ∈ keys d ∨ k' = k := by
  induction d with
  | nil => simp [bump, keys]
  | cons x d ih =>
    obtain ⟨a, v⟩ := x
    by_cases h : a = k
    · subst h
      simp only [bump, if_pos, keys, List.map_cons, List.mem_cons]
      tauto
    · simp only [bump, if_neg h, keys, List.map_cons, List.mem_cons] at ih ⊢
      rw [ih, or_assoc]

theorem nodup_bump {d : List (κ × Int)} (hd : (keys d).Nodup) (k : κ) (n : Int) :
    (keys (bump d k n)).Nodup := by
  induction d with
  | nil => simp [bump, keys]
  | cons x d ih =>
    obtain ⟨a, v⟩ := x
    have hn : a ∉ keys d ∧ (keys d).Nodup := List.nodup_cons.1 hd
    by_cases h : a = k
    · simpa [bump, h, keys] using hd
    · simp only [bump, if_neg h]
      refine List.nodup_cons.2 ⟨fun hm => ?_, ih hn.2⟩
      rcases (mem_keys_bump d k a n).1 hm with hm | hm
      · exact hn.1 hm
      · exact h hm

theorem foldl_bump_get (xs d : List (κ × Int)) (k : κ) :
    get (xs.foldl (fun d x => bump d x.1 x.2) d) k = get d k + sumAt xs k := by
  induction xs generalizing d with
  | nil => simp
  | cons x xs ih => rw [List.foldl_cons, ih, get_bump, sumAt_cons]; omega

theorem get_collect (xs : List (κ × Int)) (k : κ) : get (collect xs) k = sumAt xs k := by
  rw [collect, foldl_bump_get]
  simp [get]

theorem total_collect (xs : List (κ × Int)) : total (collect xs) = total xs := by
  have h : ∀ d, total (xs.foldl (fun d x => bump d x.1 x.2) d) = total d + total xs := by
    induction xs with
    | nil => simp
    | cons x xs ih => intro d; rw [List.foldl_cons, ih, total_bump, total_cons]; omega
  rw [collect, h, total_nil, Int.zero_add]

theorem mem_keys_collect (xs : List (κ × Int)) (k : κ) : k ∈ keys (collect xs) ↔ k ∈ keys xs := by
  have h : ∀ d, k ∈ keys (xs.foldl (fun d x => bump d x.1 x.2) d) ↔ k ∈ keys d ∨ k ∈ keys xs := by
    induction xs with
    | nil => simp [keys]
    | cons x xs ih =>
      intro d
      rw [List.foldl_cons, ih, mem_keys_bump, or_assoc]
      simp [keys]
  rw [collect, h]
  simp [keys]

theorem nodup_collect (xs : List (κ × Int)) : (keys (collect xs)).Nodup := by
  have h : ∀ d, (keys d).Nodup → (keys (xs.foldl (fun d x => bump d x.1 x.2) d)).Nodup := by
    induction xs with
    | nil => exact fun d hd => hd
    | cons x xs ih => exact fun d hd => ih _ (nodup_bump hd x.1 x.2)
  exact h [] (by simp [keys])

/-- With distinct keys an entry is what `get` reads. -/
theorem get_of_mem {d : List (κ × Int)} (hd : (keys d).Nodup) {x : κ × Int} (hx : x ∈ d) :
    get d x.1 = x.2 := by
  induction d with
  | nil => cases hx
  | cons y d ih =>
    obtain ⟨a, v⟩ := y
    have hn : a ∉ keys d ∧ (keys d).Nodup := List.nodup_cons.1 hd
    rcases List.mem_cons.1 hx with rfl | hx
    · simp [get]
    · have hne : a ≠ x.1 := fun e => hn.1 (e ▸ mem_keys hx)
      simp [get, hne, ih hn.2 hx]

theorem get_of_not_mem {d : List (κ × Int)} {k : κ} (h : k ∉ keys d) : get d k = 0 := by
  induction d with
  | nil => rfl
  | cons x d ih =>
    obtain ⟨a, v⟩ := x
    simp only [keys, List.map_cons, List.mem_cons, not_or] at h
    simp only [get, if_neg (Ne.symm h.1)]
    exact ih h.2

/-- What one key holds after every entry was changed on its own. -/
theorem sumAt_map {d : List (κ × Int)} (hd : (keys d).Nodup) (f : κ × Int → Int) (k : κ) :
    sumAt (d.map fun x => (x.1, f x)) k = if k ∈ keys d then f (k, get d k) else 0 := by
  induction d with
  | nil => rfl
  | cons x d ih =>
    obtain ⟨a, v⟩ := x
    have hn : a ∉ keys d ∧ (keys d).Nodup := List.nodup_cons.1 hd
    have hmem : k ∈ keys ((a, v) :: d) ↔ k = a ∨ k ∈ keys d := by simp [keys]
    rw [List.map_cons, sumAt_cons, ih hn.2]
    by_cases h : a = k
    · subst h
      simp [hmem, get, hn.1]
    · simp [hmem, get, h, Ne.symm h]

theorem sumAt_eq_get {d : List (κ × Int)} (hd : (keys d).Nodup) (k : κ) : sumAt d k = get d k := by
  have h := sumAt_map hd (fun x => x.2) k
  rw [List.map_id'' fun x => rfl] at h
  rw [h]
  split
  · rfl
  · next hk => exact (get_of_not_mem hk).symm

theorem total_eq_sum_get {d : List (κ × Int)} (hd : (keys d).Nodup) :
    (d.map fun x => get d x.1).sum = total d := by
  unfold total
  rw [List.map_congr_left fun x hx => get_of_mem hd hx]

theorem keys_put (d : List (κ × Int)) (k : κ) (n : Int) :
    keys (put d k n) = if k ∈ keys d then keys d else keys d ++ [k] := by
  induction d with
  | nil => rfl
  | cons x d ih =>
    obtain ⟨a, v⟩ := x
    by_cases h : a = k
    · simp [put, keys, h]
    · have hne : k ≠ a := fun e => h e.symm
      simp only [put, if_neg h, keys, List.map_cons, List.mem_cons, hne, false_or] at ih ⊢
      by_cases hk : k ∈ d.map (·.1) <;> simp [ih, hk]

theorem nodup_put {d : List (κ × Int)} (hd : (keys d).Nodup) (k : κ) (n : Int) :
    (keys (put d k n)).Nodup := by
  rw [keys_put]
  split
  · exact hd
  · next hk =>
    refine List.nodup_append.2 ⟨hd, List.nodup_singleton k, ?_⟩
    rintro a ha b hb rfl
    rw [List.mem_singleton.1 hb] at ha
    exact hk ha

theorem nodup_ofList (xs : List (κ × Int)) : (keys (ofList xs)).Nodup := by
  have h : ∀ d, (keys d).Nodup → (keys (xs.foldl (fun d x => put d x.1 x.2) d)).Nodup := by
    induction xs with
    | nil => exact fun d hd => hd
    | cons x xs ih => exact fun d hd => ih _ (nodup_put hd x.1 x.2)
  exact h [] (by simp [keys])

theorem mem_keys_ofList {xs : List (κ × Int)} {k : κ} (h : k ∈ keys (ofList xs)) : k ∈ keys xs := by
  have hf : ∀ d, k ∈ keys (xs.foldl (fun d x => put d x.1 x.2) d) → k ∈ keys d ∨ k ∈ keys xs := by
    clear h
    induction xs with
    | nil => exact fun d hd => Or.inl hd
    | cons x xs ih =>
      intro d hd
      have hcons : k ∈ keys (x :: xs) ↔ k = x.1 ∨ k ∈ keys xs := by simp [keys]
      rcases ih _ hd with hd | hd
      · rw [keys_put] at hd
        split at hd
        · exact Or.inl hd
        · rcases List.mem_append.1 hd with hd | hd
          · exact Or.inl hd
          · exact Or.inr (hcons.2 (Or.inl (List.mem_singleton.1 hd)))
      · exact Or.inr (hcons.2 (Or.inr hd))
  exact (hf [] h).resolve_left (by simp [keys])

theorem mem_put {d : List (κ × Int)} {k : κ} {n : Int} {x : κ × Int} (h : x ∈ put d k n) : x = (k, n) ∨ x ∈ d := by
  induction d with
  | nil => exact .inl (List.mem_singleton.1 h)
  | cons y d ih =>
    obtain ⟨a, v⟩ := y
    rw [put] at h
    split at h
    · next hk =>
      obtain rfl | h := List.mem_cons.1 h
      · exact .inl (by rw [hk])
      · exact .inr (List.mem_cons_of_mem _ h)
    · obtain rfl | h := List.mem_cons.1 h
      · exact .inr List.mem_cons_self
      · exact (ih h).imp_right (List.mem_cons_of_mem _)

theorem mem_ofList {xs : List (κ × Int)} {x : κ × Int} (h : x ∈ ofList xs) : x ∈ xs := by
  have hf : ∀ d, x ∈ xs.foldl (fun d y => put d y.1 y.2) d → x ∈ d ∨ x ∈ xs := by
    clear h
    induction xs with
    | nil => exact fun d hd => .inl hd
    | cons y xs ih =>
      intro d hd
      obtain hd | hd := ih _ hd
      · obtain rfl | hd := mem_put hd
        · exact .inr List.mem_cons_self
        · exact .inl hd
      · exact .inr (List.mem_cons_of_mem _ hd)
  exact (hf [] h).resolve_left List.not_mem_nil

/-! ## Values of one sign -/

/-- No two values of a dictionary have opposite signs. -/
def OneSign (d : List (κ × Int)) : Prop := (∀ x ∈ d, 0 ≤ x.2) ∨ ∀ x ∈ d, x.2 ≤ 0

omit [DecidableEq κ] in
theorem le_total {d : List (κ × Int)} (h : ∀ x ∈ d, 0 ≤ x.2) : ∀ x ∈ d, x.2 ≤ total d := by
  induction d with
  | nil => exact fun x hx => absurd hx List.not_mem_nil
  | cons y d ih =>
    have ht : 0 ≤ total d := by
      refine List.sum_nonneg fun n hn => ?_
      obtain ⟨x, hx, rfl⟩ := List.mem_map.1 hn
      exact h x (List.mem_cons_of_mem y hx)
    have hy := h y List.mem_cons_self
    intro x hx
    rw [total_cons]
    obtain rfl | hx := List.mem_cons.1 hx
    · omega
    · have := ih (fun z hz => h z (List.mem_cons_of_mem y hz)) x hx
      omega

omit [DecidableEq κ] in
theorem total_neg (d : List (κ × Int)) : total (d.map fun x => (x.1, -x.2)) = -total d := by
  induction d with
  | nil => rfl
  | cons x d ih =>
    rw [List.map_cons, total_cons, total_cons, ih]
    show -x.2 + _ = _
    omega

omit [DecidableEq κ] in
/-- Each value has the sign of the total, or is zero. -/
theorem OneSign.part {d : List (κ × Int)} (h : OneSign d) {x : κ × Int} (hx : x ∈ d) :
    (0 ≤ total d → 0 ≤ x.2) ∧ (total d ≤ 0 → x.2 ≤ 0) := by
  obtain h | h := h
  · have hle := le_total h x hx
    exact ⟨fun _ => h x hx, fun ht => hle.trans ht⟩
  · have hneg : ∀ y ∈ d.map (fun x => (x.1, -x.2)), 0 ≤ y.2 := by
      intro y hy
      obtain ⟨z, hz, rfl⟩ := List.mem_map.1 hy
      have := h z hz
      show 0 ≤ -z.2
      omega
    have hle := le_total hneg (x.1, -x.2) (List.mem_map_of_mem hx)
    rw [total_neg] at hle
    have hz := h x hx
    dsimp only at hle
    constructor <;> omega

/-- Values of one sign that add up to nothing are nothing. -/
theorem OneSign.get_zero {d : List (κ × Int)} (h : OneSign d) (ht : total d = 0) (k : κ) : get d k = 0 := by
  have hz : ∀ x ∈ d, x.2 = 0 := fun x hx => le_antisymm ((h.part hx).2 ht.le) ((h.part hx).1 ht.ge)
  clear h ht
  induction d with
  | nil => rfl
  | cons x d ih =>
    obtain ⟨a, v⟩ := x
    rw [get]
    split
    · exact hz (a, v) List.mem_cons_self
    · exact ih fun x hx => hz x (List.mem_cons_of_mem _ hx)

/-- A total counted key by key, over any keys that hold all of the dictionary's. -/
theorem sum_get_of_subset {d : List (κ × Int)} (hd : (keys d).Nodup) {ks : List κ}
    (hks : ks.Nodup) (hsub : ∀ k ∈ keys d, k ∈ ks) : (ks.map (get d)).sum = total d := by
  induction d with
  | nil => simp [get]
  | cons x d ih =>
    obtain ⟨a, v⟩ := x
    have hn : a ∉ keys d ∧ (keys d).Nodup := List.nodup_cons.1 hd
    have hg : ∀ k, get ((a, v) :: d) k = get d k + if k = a then v else 0 := by
      intro k
      by_cases h : a = k
      · subst h
        simp [get, get_of_not_mem hn.1]
      · simp [get, h, Ne.symm h]
    have ha : a ∈ ks := hsub a (by simp [keys])
    have hone : (ks.map fun k => if k = a then v else 0).sum = v := by
      have h := List.sum_map_ite_eq ks (fun _ => v) (fun _ => (0 : Int)) a
      rw [h, List.count_eq_one_of_mem hks ha]
      simp
    rw [List.map_congr_left fun k _ => hg k, List.sum_map_add, hone,
      ih hn.2 fun k hk => hsub k (List.mem_cons_of_mem a hk), total_cons]
    omega

theorem mem_fromKeys {ks : List κ} {k : κ} : k ∈ fromKeys ks ↔ k ∈ ks := by
  induction ks with
  | nil => simp [fromKeys]
  | cons k' ks ih =>
    simp only [fromKeys, List.mem_cons, List.mem_filter, decide_eq_true_eq, ih]
    by_cases h : k = k' <;> simp [h]

theorem nodup_fromKeys (ks : List κ) : (fromKeys ks).Nodup := by
  induction ks with
  | nil => simp [fromKeys]
  | cons k ks ih => exact List.nodup_cons.2 ⟨by simp [List.mem_filter], ih.filter _⟩

end Dict
