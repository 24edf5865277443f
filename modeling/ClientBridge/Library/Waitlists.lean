import Mathlib

/-!
# Places and a line for them

Some rows of a list hold a place, some wait for one in turn.  `Desk.fill` gives the first in line a place while there
is room.  It leaves nobody waiting beside a free place (`Desk.fill_full`), never exceeds the room (`Desk.fill_le`), and
gives nobody a place while an earlier row still waits (`Desk.fill_turn`): whoever gets one is told by how many wait
before them (`Desk.seat_mem_fill`).
-/

namespace Waitlists

variable {α ι κ : Type*}

theorem countP_of_map {p : α → Bool} {xs ys : List α} (h : ys.map p = xs.map p) : ys.countP p = xs.countP p := by
  have hcount := congrArg (List.countP id) h
  rwa [List.countP_map, List.countP_map] at hcount

/-! ### A change of one row -/

section
variable [DecidableEq ι]

/-- The row with the key, changed. -/
def amend (key : α → ι) (i : ι) (f : α → α) (xs : List α) : List α := xs.map fun x => if key x = i then f x else x

variable {key : α → ι} {f : α → α} {xs : List α} {i : ι}

theorem map_amend {β : Type*} (g : α → β) (h : ∀ x ∈ xs, key x = i → g (f x) = g x) :
    (amend key i f xs).map g = xs.map g := by
  rw [amend, List.map_map]
  refine List.map_congr_left fun x hx => ?_
  show g (if key x = i then f x else x) = g x
  split
  · next hi => exact h x hx hi
  · rfl

theorem mem_amend {y : α} : y ∈ amend key i f xs ↔ ∃ x ∈ xs, (if key x = i then f x else x) = y := List.mem_map

theorem amend_of_absent (h : i ∉ xs.map key) : amend key i f xs = xs := by
  rw [amend, List.map_congr_left (g := id), List.map_id]
  intro x hx
  rw [if_neg fun hi => h (List.mem_map.2 ⟨x, hx, hi⟩)]
  rfl

/-- The rows counted change by the changed row. -/
theorem countP_amend (p : α → Bool) (hnodup : (xs.map key).Nodup) {a : α} (ha : a ∈ xs) (hi : key a = i) :
    (amend key i f xs).countP p + (p a).toNat = xs.countP p + (p (f a)).toNat := by
  induction xs with
  | nil => cases ha
  | cons x xs ih =>
    obtain ⟨hx, hnodup⟩ := List.nodup_cons.1 hnodup
    show ((if key x = i then f x else x) :: amend key i f xs).countP p + _ = _
    rw [List.countP_cons, List.countP_cons]
    rcases List.mem_cons.1 ha with rfl | ha
    · rw [amend_of_absent (hi ▸ hx), if_pos hi]
      cases p (f a) <;> cases p a <;> simp
    · have hne : key x ≠ i := by
        intro he
        exact hx (he.trans hi.symm ▸ List.mem_map_of_mem ha)
      have h := ih hnodup ha
      rw [if_neg hne]
      omega

end

/-! ### Filling -/

/-- Which rows hold a place, which wait for one and in what turn, and a row that was given a place. -/
structure Desk (α κ : Type*) where
  taken : α → Bool
  waits : α → Bool
  turn : α → κ
  seat : α → α
  taken_seat : ∀ a, waits a = true → taken (seat a) = true
  waits_seat : ∀ a, waits (seat a) = false
  turn_seat : ∀ a, turn (seat a) = turn a
  not_both : ∀ a, waits a = true → taken a = false

namespace Desk

variable [LinearOrder κ] (d : Desk α κ)

/-- Who waits with the earliest turn. -/
def first (xs : List α) : Option α := (xs.filter d.waits).argmin d.turn

/-- While there is room, the first in line gets a place. -/
def fill (room : Int) : Nat → List α → List α
  | 0, xs => xs
  | n + 1, xs =>
    if xs.countP d.taken < room then
      match d.first xs with
      | none => xs
      | some a => fill room n (amend d.turn (d.turn a) d.seat xs)
    else xs


variable {d} {xs : List α} {a : α} {room : Int} {n : Nat}

theorem first_mem (h : d.first xs = some a) : a ∈ xs ∧ d.waits a = true :=
  List.mem_filter.1 (List.argmin_mem (Option.mem_def.2 h))

theorem first_le (h : d.first xs = some a) {x : α} (hx : x ∈ xs) (hw : d.waits x = true) : d.turn a ≤ d.turn x :=
  List.le_of_mem_argmin (List.mem_filter.2 ⟨hx, hw⟩) (Option.mem_def.2 h)

theorem first_none (h : d.first xs = none) : xs.countP d.waits = 0 := by
  rw [List.countP_eq_zero]
  intro x hx hw
  have hnil := List.argmin_eq_none.1 h
  exact absurd (hnil ▸ List.mem_filter.2 ⟨hx, hw⟩) List.not_mem_nil

/-- What a place given does not change is the same of every row. -/
theorem map_fill {β : Type*} (g : α → β) (hg : ∀ x, d.waits x = true → g (d.seat x) = g x)
    (hnodup : (xs.map d.turn).Nodup) : (d.fill room n xs).map g = xs.map g := by
  induction n generalizing xs with
  | zero => rfl
  | succ n ih =>
    unfold fill
    split
    · cases hf : d.first xs with
      | none => rfl
      | some a =>
        obtain ⟨ha, hw⟩ := first_mem hf
        have hsame : ∀ x ∈ xs, d.turn x = d.turn a → g (d.seat x) = g x := by
          intro x hx ht
          rw [List.inj_on_of_nodup_map hnodup hx ha ht]
          exact hg a hw
        show (d.fill room n (amend d.turn (d.turn a) d.seat xs)).map g = xs.map g
        rw [ih, map_amend g hsame]
        rwa [map_amend d.turn fun x _ _ => d.turn_seat x]
    · rfl

theorem countP_fill (p : α → Bool) (hp : ∀ x, d.waits x = true → p (d.seat x) = p x)
    (hnodup : (xs.map d.turn).Nodup) : (d.fill room n xs).countP p = xs.countP p :=
  countP_of_map (map_fill p hp hnodup)

/-- Each row is as it was, or waited and was given a place. -/
theorem mem_fill {y : α} (hnodup : (xs.map d.turn).Nodup) (hy : y ∈ d.fill room n xs) :
    y ∈ xs ∨ ∃ x ∈ xs, d.waits x = true ∧ y = d.seat x := by
  induction n generalizing xs with
  | zero => exact .inl hy
  | succ n ih =>
    unfold fill at hy
    split at hy
    · cases hf : d.first xs with
      | none =>
        rw [hf] at hy
        exact .inl hy
      | some a =>
        rw [hf] at hy
        obtain ⟨ha, hw⟩ := first_mem hf
        have hnodup' : ((amend d.turn (d.turn a) d.seat xs).map d.turn).Nodup := by
          rwa [map_amend d.turn fun x _ _ => d.turn_seat x]
        have hrow : ∀ x ∈ amend d.turn (d.turn a) d.seat xs, x ∈ xs ∨ x = d.seat a := by
          intro x hx
          obtain ⟨z, hz, rfl⟩ := mem_amend.1 hx
          split
          · next ht => exact .inr (congrArg d.seat (List.inj_on_of_nodup_map hnodup hz ha ht))
          · exact .inl hz
        rcases ih hnodup' hy with hx | ⟨x, hx, hwx, rfl⟩
        · exact (hrow y hx).imp_right fun he => ⟨a, ha, hw, he⟩
        · rcases hrow x hx with hx | rfl
          · exact .inr ⟨x, hx, hwx, rfl⟩
          · rw [d.waits_seat] at hwx
            cases hwx
    · exact .inl hy

/-- A place given is one more taken and one less waiting. -/
theorem counts_seat (hnodup : (xs.map d.turn).Nodup) (h : d.first xs = some a) :
    (amend d.turn (d.turn a) d.seat xs).countP d.taken = xs.countP d.taken + 1 ∧
      (amend d.turn (d.turn a) d.seat xs).countP d.waits + 1 = xs.countP d.waits := by
  obtain ⟨ha, hw⟩ := first_mem h
  have htaken := countP_amend (f := d.seat) d.taken hnodup ha rfl
  have hwaits := countP_amend (f := d.seat) d.waits hnodup ha rfl
  rw [d.not_both a hw, d.taken_seat a hw] at htaken
  rw [hw, d.waits_seat] at hwaits
  exact ⟨htaken, hwaits⟩

theorem nodup_seat (hnodup : (xs.map d.turn).Nodup) : ((amend d.turn (d.turn a) d.seat xs).map d.turn).Nodup := by
  rwa [map_amend d.turn fun x _ _ => d.turn_seat x]

theorem fill_le (hnodup : (xs.map d.turn).Nodup) (h : xs.countP d.taken ≤ room) :
    (d.fill room n xs).countP d.taken ≤ room := by
  induction n generalizing xs with
  | zero => exact h
  | succ n ih =>
    unfold fill
    split
    · next hroom =>
      cases hf : d.first xs with
      | none => exact h
      | some a =>
        refine ih (nodup_seat hnodup) ?_
        have hcount := (counts_seat hnodup hf).1
        omega
    · exact h

/-- Nobody waits beside a free place. -/
theorem fill_full (hnodup : (xs.map d.turn).Nodup) (h : xs.countP d.waits ≤ n) :
    room ≤ (d.fill room n xs).countP d.taken ∨ (d.fill room n xs).countP d.waits = 0 := by
  induction n generalizing xs with
  | zero => exact .inr (Nat.le_zero.1 h)
  | succ n ih =>
    unfold fill
    split
    · cases hf : d.first xs with
      | none => exact .inr (first_none hf)
      | some a =>
        refine ih (nodup_seat hnodup) ?_
        have hcount := (counts_seat hnodup hf).2
        omega
    · next hroom => exact .inl (by omega)

/-- Nobody is given a place while an earlier row waits. -/
theorem fill_turn (hnodup : (xs.map d.turn).Nodup) {x y : α} (hx : x ∈ xs) (hwx : d.waits x = true)
    (hseat : d.seat x ∈ d.fill room n xs) (hy : y ∈ d.fill room n xs) (hwy : d.waits y = true) :
    d.turn x < d.turn y := by
  have hstill : d.seat x ∉ xs := by
    intro hmem
    have he := List.inj_on_of_nodup_map hnodup hmem hx (d.turn_seat x)
    rw [← he, d.waits_seat] at hwx
    cases hwx
  induction n generalizing xs with
  | zero => exact absurd hseat hstill
  | succ n ih =>
    unfold fill at hseat hy
    split at hseat
    · next hroom =>
      rw [if_pos hroom] at hy
      cases hf : d.first xs with
      | none =>
        rw [hf] at hseat
        exact absurd hseat hstill
      | some a =>
        rw [hf] at hseat hy
        have hother : ∀ z ∈ amend d.turn (d.turn a) d.seat xs, d.waits z = true → z ∈ xs ∧ d.turn z ≠ d.turn a := by
          intro z hz hwz
          obtain ⟨w, hw, rfl⟩ := mem_amend.1 hz
          split at hwz
          · rw [d.waits_seat] at hwz
            cases hwz
          · next hne =>
            rw [if_neg hne]
            exact ⟨hw, hne⟩
        have hyrow : y ∈ amend d.turn (d.turn a) d.seat xs := by
          rcases mem_fill (nodup_seat hnodup) hy with hy | ⟨w, -, -, rfl⟩
          · exact hy
          · rw [d.waits_seat] at hwy
            cases hwy
        by_cases ht : d.turn x = d.turn a
        · -- `x` is the first in line
          obtain ⟨hyxs, hne⟩ := hother y hyrow hwy
          rw [ht]
          exact lt_of_le_of_ne (first_le hf hyxs hwy) (Ne.symm hne)
        · have hxrow : x ∈ amend d.turn (d.turn a) d.seat xs := mem_amend.2 ⟨x, hx, if_neg ht⟩
          refine ih (nodup_seat hnodup) hxrow hseat hy fun hmem => ?_
          have he := List.inj_on_of_nodup_map (nodup_seat hnodup) hmem hxrow (d.turn_seat x)
          rw [← he, d.waits_seat] at hwx
          cases hwx
    · exact absurd hseat hstill

/-- Who has a place keeps it. -/
theorem taken_mem_fill (hnodup : (xs.map d.turn).Nodup) {x : α} (hx : x ∈ xs) (hw : d.waits x = false) :
    x ∈ d.fill room n xs := by
  induction n generalizing xs with
  | zero => exact hx
  | succ n ih =>
    unfold fill
    split
    · cases hf : d.first xs with
      | none => exact hx
      | some a =>
        obtain ⟨ha, hwa⟩ := first_mem hf
        refine ih (nodup_seat hnodup) (mem_amend.2 ⟨x, hx, if_neg fun ht => ?_⟩)
        rw [List.inj_on_of_nodup_map hnodup hx ha ht, hwa] at hw
        cases hw
    · exact hx

/-- How many wait before a row. -/
def before (d : Desk α κ) (x : α) (xs : List α) : Nat := xs.countP fun y => d.waits y && decide (d.turn y < d.turn x)

/-- A row that waits is given a place just when there is room for it after those before it. -/
theorem seat_mem_fill (hnodup : (xs.map d.turn).Nodup) (hn : xs.countP d.waits ≤ n) {x : α} (hx : x ∈ xs)
    (hw : d.waits x = true) : d.seat x ∈ d.fill room n xs ↔ xs.countP d.taken + d.before x xs < room := by
  have hstill : d.seat x ∉ xs := by
    intro hmem
    have he := List.inj_on_of_nodup_map hnodup hmem hx (d.turn_seat x)
    rw [← he, d.waits_seat] at hw
    cases hw
  induction n generalizing xs with
  | zero =>
    have hpos := List.countP_pos_iff.2 ⟨x, hx, hw⟩
    omega
  | succ n ih =>
    unfold fill
    split
    · next hroom =>
      cases hf : d.first xs with
      | none =>
        have hpos := List.countP_pos_iff.2 ⟨x, hx, hw⟩
        rw [first_none hf] at hpos
        exact absurd hpos (Nat.lt_irrefl 0)
      | some a =>
        obtain ⟨ha, hwa⟩ := first_mem hf
        obtain ⟨htaken, hwaits⟩ := counts_seat hnodup hf
        have hle := first_le hf hx hw
        by_cases ht : d.turn x = d.turn a
        · -- the first in line
          obtain rfl := List.inj_on_of_nodup_map hnodup hx ha ht
          have hzero : d.before x xs = 0 := by
            refine List.countP_eq_zero.2 fun y hy hp => ?_
            rw [Bool.and_eq_true, decide_eq_true_eq] at hp
            exact absurd hp.2 (not_lt.2 (first_le hf hy hp.1))
          have hseat : d.seat x ∈ amend d.turn (d.turn x) d.seat xs := mem_amend.2 ⟨x, hx, if_pos rfl⟩
          rw [hzero]
          exact iff_of_true (taken_mem_fill (nodup_seat hnodup) hseat (d.waits_seat x)) (by omega)
        · have hxrow : x ∈ amend d.turn (d.turn a) d.seat xs := mem_amend.2 ⟨x, hx, if_neg ht⟩
          have hbefore := countP_amend (f := d.seat) (fun y => d.waits y && decide (d.turn y < d.turn x)) hnodup ha rfl
          have hlt : d.turn a < d.turn x := lt_of_le_of_ne hle (Ne.symm ht)
          simp only [hwa, d.waits_seat, hlt, decide_true, Bool.and_self, Bool.false_and, Bool.toNat_true,
            Bool.toNat_false, Nat.add_zero] at hbefore
          have hgone : d.seat x ∉ amend d.turn (d.turn a) d.seat xs := by
            intro hmem
            have he := List.inj_on_of_nodup_map (nodup_seat hnodup) hmem hxrow (d.turn_seat x)
            rw [← he, d.waits_seat] at hw
            cases hw
          have hline : (amend d.turn (d.turn a) d.seat xs).countP d.waits ≤ n := by omega
          refine (ih (nodup_seat hnodup) hline hxrow hgone).trans ?_
          unfold before
          omega
    · next hroom => exact iff_of_false hstill (by omega)

end Desk
end Waitlists
