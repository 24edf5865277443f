import Mathlib

/-!
# Double-entry books

A book is an append-only list of journals, each written once under its reference.
A journal carries signed lines; `κ` is the type of accounts, `τ` what a line is tagged
with, `ρ` the references and `ι` whatever else a journal records.

* `sumOf p lines` adds up the cents of the lines that satisfy `p`; `Book.sum` does the
  same over every line of a book.
* `Book.write` appends a journal unless its reference is taken or it has no lines.
* `negate` turns the lines of a journal around, which is how a journal is undone.
* `Extends P B B'` says that `B'` only adds journals in `P`, and `Grows P B B'` that it only
  adds journals under references in `P`; whatever does not look at those is unchanged
  (`Extends.sum_eq`, `Grows.sum_eq`, `Grows.has_eq`).
-/

namespace Bookkeeping

/-- One signed line of a journal. -/
structure Entry (κ τ : Type) where
  key : κ
  cents : Int
  tag : τ
  deriving DecidableEq, Repr

structure Journal (ρ κ τ ι : Type) where
  id : Nat
  ref : ρ
  info : ι
  legs : List (Entry κ τ)
  deriving DecidableEq, Repr

abbrev Book (ρ κ τ ι : Type) := List (Journal ρ κ τ ι)

variable {ρ κ τ ι : Type}

/-! ## Sums over lines -/

def sumOf (p : Entry κ τ → Bool) (legs : List (Entry κ τ)) : Int :=
  ((legs.filter p).map (·.cents)).sum

/-- What a list of lines adds up to; a journal balances when it is zero. -/
def net (legs : List (Entry κ τ)) : Int := (legs.map (·.cents)).sum

@[simp] theorem sumOf_nil (p : Entry κ τ → Bool) : sumOf p [] = 0 := rfl

@[simp] theorem sumOf_cons (p : Entry κ τ → Bool) (e : Entry κ τ) (legs : List (Entry κ τ)) :
    sumOf p (e :: legs) = (if p e then e.cents else 0) + sumOf p legs := by
  unfold sumOf
  cases h : p e <;> simp [h]

@[simp] theorem sumOf_append (p : Entry κ τ → Bool) (xs ys : List (Entry κ τ)) :
    sumOf p (xs ++ ys) = sumOf p xs + sumOf p ys := by
  simp [sumOf]

@[simp] theorem net_nil : net ([] : List (Entry κ τ)) = 0 := rfl

@[simp] theorem net_cons (e : Entry κ τ) (legs : List (Entry κ τ)) :
    net (e :: legs) = e.cents + net legs := by simp [net]

@[simp] theorem net_append (xs ys : List (Entry κ τ)) : net (xs ++ ys) = net xs + net ys := by
  simp [net]

theorem sumOf_true (legs : List (Entry κ τ)) : sumOf (fun _ => true) legs = net legs := by
  simp [sumOf, net]

theorem sumOf_congr {p q : Entry κ τ → Bool} {legs : List (Entry κ τ)}
    (h : ∀ e ∈ legs, p e = q e) : sumOf p legs = sumOf q legs := by
  unfold sumOf
  rw [List.filter_congr h]

theorem sumOf_eq_zero {p : Entry κ τ → Bool} {legs : List (Entry κ τ)}
    (h : ∀ e ∈ legs, p e = true → e.cents = 0) : sumOf p legs = 0 := by
  induction legs with
  | nil => rfl
  | cons e legs ih =>
    rw [sumOf_cons, ih fun e' he' => h e' (List.mem_cons_of_mem _ he')]
    split
    · next hp => rw [h e List.mem_cons_self hp]; rfl
    · rfl

theorem sumOf_false (legs : List (Entry κ τ)) : sumOf (fun _ => false) legs = 0 :=
  sumOf_eq_zero fun _ _ h => by cases h

theorem sumOf_or_of_disjoint (p q : Entry κ τ → Bool) (legs : List (Entry κ τ))
    (h : ∀ e ∈ legs, ¬(p e = true ∧ q e = true)) :
    sumOf (fun e => p e || q e) legs = sumOf p legs + sumOf q legs := by
  induction legs with
  | nil => rfl
  | cons e legs ih =>
    have hd := h e List.mem_cons_self
    simp only [sumOf_cons, ih fun e' he' => h e' (List.mem_cons_of_mem _ he')]
    cases hp : p e <;> cases hq : q e <;> simp_all <;> omega

/-- The same lines with every sign turned. -/
def negate (legs : List (Entry κ τ)) : List (Entry κ τ) :=
  legs.map fun e => { e with cents := -e.cents }

theorem sumOf_negate (p : Entry κ τ → Bool) (hp : ∀ e c, p { e with cents := c } = p e)
    (legs : List (Entry κ τ)) : sumOf p (negate legs) = -sumOf p legs := by
  induction legs with
  | nil => rfl
  | cons e legs ih =>
    have hc : negate (e :: legs) = { e with cents := -e.cents } :: negate legs := rfl
    rw [hc, sumOf_cons, sumOf_cons, ih, hp]
    split <;> simp; omega

@[simp] theorem net_negate (legs : List (Entry κ τ)) : net (negate legs) = -net legs := by
  rw [← sumOf_true, ← sumOf_true, sumOf_negate _ (fun _ _ => rfl)]

/-- The lines that are not zero. -/
def nonzero (legs : List (Entry κ τ)) : List (Entry κ τ) := legs.filter fun e => e.cents != 0

@[simp] theorem sumOf_nonzero (p : Entry κ τ → Bool) (legs : List (Entry κ τ)) :
    sumOf p (nonzero legs) = sumOf p legs := by
  induction legs with
  | nil => rfl
  | cons e legs ih =>
    unfold nonzero at ih ⊢
    by_cases h : e.cents = 0
    · simp [h, ih]
    · simp [h, ih]

@[simp] theorem net_nonzero (legs : List (Entry κ τ)) : net (nonzero legs) = net legs := by
  rw [← sumOf_true, ← sumOf_true, sumOf_nonzero]

theorem nonzero_negate (legs : List (Entry κ τ)) : nonzero (negate legs) = negate (nonzero legs) := by
  induction legs with
  | nil => rfl
  | cons e legs ih =>
    unfold nonzero negate at ih ⊢
    by_cases h : e.cents = 0
    · simp [h, ih]
    · simp [h, ih]

theorem nonzero_eq_nil_iff (legs : List (Entry κ τ)) :
    nonzero legs = [] ↔ ∀ e ∈ legs, e.cents = 0 := by
  simp [nonzero, List.filter_eq_nil_iff]

/-! ## Journals of a book -/

variable [DecidableEq ρ]

/-- The journal written under a reference. -/
def Book.find (B : Book ρ κ τ ι) (r : ρ) : Option (Journal ρ κ τ ι) :=
  B.find? fun j => decide (j.ref = r)

def Book.has (B : Book ρ κ τ ι) (r : ρ) : Bool := B.any fun j => decide (j.ref = r)

/-- The sum of the lines that satisfy `p` in their journal. -/
def Book.sum (B : Book ρ κ τ ι) (p : Journal ρ κ τ ι → Entry κ τ → Bool) : Int :=
  (B.map fun j => sumOf (p j) j.legs).sum

/-- Append a journal, unless its reference is taken or nothing is left to write. -/
def Book.write (B : Book ρ κ τ ι) (r : ρ) (i : ι) (legs : List (Entry κ τ)) : Book ρ κ τ ι :=
  if B.has r || legs.isEmpty then B else B ++ [⟨B.length, r, i, legs⟩]

theorem Book.has_iff (B : Book ρ κ τ ι) (r : ρ) : B.has r = true ↔ ∃ j ∈ B, j.ref = r := by
  simp [Book.has]

theorem Book.has_false_iff (B : Book ρ κ τ ι) (r : ρ) :
    B.has r = false ↔ ∀ j ∈ B, j.ref ≠ r := by
  simp [Book.has]

theorem Book.find_isSome (B : Book ρ κ τ ι) (r : ρ) : (B.find r).isSome = B.has r := by
  rw [Bool.eq_iff_iff, Book.has_iff, Book.find, List.find?_isSome]
  simp

theorem Book.find_eq_none_iff (B : Book ρ κ τ ι) (r : ρ) : B.find r = none ↔ B.has r = false := by
  rw [← Book.find_isSome]
  cases B.find r <;> simp

theorem Book.find_mem {B : Book ρ κ τ ι} {r : ρ} {j : Journal ρ κ τ ι} (h : B.find r = some j) :
    j ∈ B ∧ j.ref = r :=
  ⟨List.mem_of_find?_eq_some h, by simpa using List.find?_some h⟩

/-- What `write` does: nothing, or one journal at the end under a new reference. -/
theorem Book.write_cases (B : Book ρ κ τ ι) (r : ρ) (i : ι) (legs : List (Entry κ τ)) :
    ((B.has r = true ∨ legs = []) ∧ B.write r i legs = B) ∨
    (B.has r = false ∧ legs ≠ [] ∧ B.write r i legs = B ++ [⟨B.length, r, i, legs⟩]) := by
  unfold Book.write
  cases h : B.has r with
  | true => left; simp
  | false =>
    cases legs with
    | nil => left; simp
    | cons e legs => right; simp

theorem Book.write_of_has {B : Book ρ κ τ ι} {r : ρ} (h : B.has r = true) (i : ι)
    (legs : List (Entry κ τ)) : B.write r i legs = B := by
  simp [Book.write, h]

theorem Book.write_of_new {B : Book ρ κ τ ι} {r : ρ} (h : B.has r = false) (i : ι)
    {legs : List (Entry κ τ)} (hl : legs ≠ []) :
    B.write r i legs = B ++ [⟨B.length, r, i, legs⟩] := by
  simp [Book.write, h, hl]

/-- A journal of a written book was there before, or is the one written. -/
theorem Book.mem_write {B : Book ρ κ τ ι} {r : ρ} {i : ι} {legs : List (Entry κ τ)}
    {j : Journal ρ κ τ ι} (h : j ∈ B.write r i legs) :
    j ∈ B ∨ (B.has r = false ∧ legs ≠ [] ∧ j = ⟨B.length, r, i, legs⟩) := by
  rcases B.write_cases r i legs with ⟨-, he⟩ | ⟨hr, hl, he⟩
  · left; rwa [he] at h
  · rw [he, List.mem_append, List.mem_singleton] at h
    exact h.imp_right fun h => ⟨hr, hl, h⟩

theorem Book.mem_write_of_mem {B : Book ρ κ τ ι} {j : Journal ρ κ τ ι} (h : j ∈ B) (r : ρ) (i : ι)
    (legs : List (Entry κ τ)) : j ∈ B.write r i legs := by
  rcases B.write_cases r i legs with ⟨-, he⟩ | ⟨-, -, he⟩ <;> rw [he]
  · exact h
  · exact List.mem_append_left _ h

theorem Book.has_write (B : Book ρ κ τ ι) (r r' : ρ) (i : ι) (legs : List (Entry κ τ)) :
    (B.write r i legs).has r' = (B.has r' || (decide (r = r') && !legs.isEmpty)) := by
  rcases B.write_cases r i legs with ⟨h, he⟩ | ⟨hr, hl, he⟩
  · rw [he]
    rcases h with h | rfl
    · by_cases e : r = r'
      · subst e; simp [h]
      · simp [e]
    · simp
  · rw [he]
    simp [Book.has, List.isEmpty_eq_false_iff.2 hl]

theorem Book.has_write_of_ne {r r' : ρ} (h : r ≠ r') (B : Book ρ κ τ ι) (i : ι)
    (legs : List (Entry κ τ)) : (B.write r i legs).has r' = B.has r' := by
  rw [Book.has_write, decide_eq_false h, Bool.false_and, Bool.or_false]

theorem Book.has_append (B C : Book ρ κ τ ι) (r : ρ) : Book.has (B ++ C) r = (B.has r || C.has r) := by
  simp [Book.has]

theorem Book.find_append_of_not_has {B : Book ρ κ τ ι} {r : ρ} (h : B.has r = false)
    (C : Book ρ κ τ ι) : Book.find (B ++ C) r = C.find r := by
  have hn := (B.find_eq_none_iff r).2 h
  simp only [Book.find] at hn ⊢
  rw [List.find?_append, hn, Option.none_or]

/-! ## Sums over a book -/

section
omit [DecidableEq ρ]

@[simp] theorem Book.sum_nil (p : Journal ρ κ τ ι → Entry κ τ → Bool) :
    Book.sum ([] : Book ρ κ τ ι) p = 0 := rfl

@[simp] theorem Book.sum_append (B C : Book ρ κ τ ι) (p : Journal ρ κ τ ι → Entry κ τ → Bool) :
    Book.sum (B ++ C) p = Book.sum B p + Book.sum C p := by
  simp [Book.sum]

@[simp] theorem Book.sum_cons (j : Journal ρ κ τ ι) (B : Book ρ κ τ ι)
    (p : Journal ρ κ τ ι → Entry κ τ → Bool) :
    Book.sum (j :: B) p = sumOf (p j) j.legs + Book.sum B p := by
  simp [Book.sum]

theorem Book.sum_congr {B : Book ρ κ τ ι} {p q : Journal ρ κ τ ι → Entry κ τ → Bool}
    (h : ∀ j ∈ B, ∀ e ∈ j.legs, p j e = q j e) : B.sum p = B.sum q := by
  unfold Book.sum
  rw [List.map_congr_left fun j hj => sumOf_congr (h j hj)]

theorem Book.sum_eq_zero {B : Book ρ κ τ ι} {p : Journal ρ κ τ ι → Entry κ τ → Bool}
    (h : ∀ j ∈ B, ∀ e ∈ j.legs, p j e = true → e.cents = 0) : B.sum p = 0 := by
  induction B with
  | nil => rfl
  | cons j B ih =>
    rw [Book.sum_cons, sumOf_eq_zero (h j List.mem_cons_self),
      ih fun j' hj' => h j' (List.mem_cons_of_mem _ hj'), Int.zero_add]

theorem Book.sum_nonneg {B : Book ρ κ τ ι} {p : Journal ρ κ τ ι → Entry κ τ → Bool}
    (h : ∀ j ∈ B, ∀ e ∈ j.legs, p j e = true → 0 ≤ e.cents) : 0 ≤ B.sum p := by
  refine List.sum_nonneg fun x hx => ?_
  obtain ⟨j, hj, rfl⟩ := List.mem_map.1 hx
  refine List.sum_nonneg fun y hy => ?_
  obtain ⟨e, he, rfl⟩ := List.mem_map.1 hy
  obtain ⟨he, hp⟩ := List.mem_filter.1 he
  exact h j hj e he hp

theorem Book.sum_nonpos {B : Book ρ κ τ ι} {p : Journal ρ κ τ ι → Entry κ τ → Bool}
    (h : ∀ j ∈ B, ∀ e ∈ j.legs, p j e = true → e.cents ≤ 0) : B.sum p ≤ 0 := by
  induction B with
  | nil => exact le_refl 0
  | cons j B ih =>
    have hrest := ih fun j' hj' => h j' (List.mem_cons_of_mem _ hj')
    have hsum : sumOf (p j) j.legs ≤ _ := List.sum_le_card_nsmul _ 0 fun x hx => by
      obtain ⟨e, he, rfl⟩ := List.mem_map.1 hx
      obtain ⟨he, hp⟩ := List.mem_filter.1 he
      exact h j List.mem_cons_self e he hp
    rw [smul_zero] at hsum
    rw [Book.sum_cons]
    omega

/-- A predicate that no journal meets selects nothing. -/
theorem Book.sum_eq_zero_of_no_journal {B : Book ρ κ τ ι}
    {p : Journal ρ κ τ ι → Entry κ τ → Bool} (h : ∀ j ∈ B, ∀ e, p j e = false) : B.sum p = 0 :=
  Book.sum_eq_zero fun j hj e _ hp => by rw [h j hj e] at hp; cases hp

theorem Book.sum_or_of_disjoint (B : Book ρ κ τ ι) (p q : Journal ρ κ τ ι → Entry κ τ → Bool)
    (h : ∀ j ∈ B, ∀ e ∈ j.legs, ¬(p j e = true ∧ q j e = true)) :
    B.sum (fun j e => p j e || q j e) = B.sum p + B.sum q := by
  induction B with
  | nil => rfl
  | cons j B ih =>
    rw [Book.sum_cons, Book.sum_cons, Book.sum_cons, sumOf_or_of_disjoint _ _ _ (h j List.mem_cons_self),
      ih fun j' hj' => h j' (List.mem_cons_of_mem _ hj')]
    omega

end

theorem Book.sum_write_of_has {B : Book ρ κ τ ι} {r : ρ} (h : B.has r = true) (i : ι)
    (legs : List (Entry κ τ)) (p : Journal ρ κ τ ι → Entry κ τ → Bool) :
    (B.write r i legs).sum p = B.sum p := by
  rw [Book.write_of_has h]

/-- A new journal adds its own lines to every sum. -/
theorem Book.sum_write_new {B : Book ρ κ τ ι} {r : ρ} (h : B.has r = false) (i : ι)
    (legs : List (Entry κ τ)) (p : Journal ρ κ τ ι → Entry κ τ → Bool) :
    (B.write r i legs).sum p = B.sum p + sumOf (p ⟨B.length, r, i, legs⟩) legs := by
  cases legs with
  | nil => simp [Book.write]
  | cons e legs =>
    rw [Book.write_of_new h i (List.cons_ne_nil e legs), Book.sum_append]
    simp [Book.sum]

theorem Book.sum_write (B : Book ρ κ τ ι) (r : ρ) (i : ι) (legs : List (Entry κ τ))
    (p : Journal ρ κ τ ι → Entry κ τ → Bool) :
    (B.write r i legs).sum p =
      B.sum p + if B.has r then 0 else sumOf (p ⟨B.length, r, i, legs⟩) legs := by
  cases h : B.has r with
  | true => rw [Book.sum_write_of_has h]; simp
  | false => rw [Book.sum_write_new h]; simp

/-- Writing a journal that a predicate does not select leaves its sum unchanged. -/
theorem Book.sum_write_of_not {B : Book ρ κ τ ι} {r : ρ} {i : ι} {legs : List (Entry κ τ)}
    {p : Journal ρ κ τ ι → Entry κ τ → Bool}
    (h : ∀ e ∈ legs, p ⟨B.length, r, i, legs⟩ e = false) :
    (B.write r i legs).sum p = B.sum p := by
  cases hr : B.has r with
  | true => exact Book.sum_write_of_has hr i legs p
  | false =>
    have hz : sumOf (p ⟨B.length, r, i, legs⟩) legs = 0 :=
      sumOf_eq_zero fun e he hp => by rw [h e he] at hp; cases hp
    rw [Book.sum_write_new hr, hz, Int.add_zero]

/-! ## Growing books -/

/-- `B'` is `B` followed by journals that all satisfy `P`. -/
def Extends (P : Journal ρ κ τ ι → Prop) (B B' : Book ρ κ τ ι) : Prop :=
  ∃ C, B' = B ++ C ∧ ∀ j ∈ C, P j

/-- `B'` is `B` followed by journals whose references all satisfy `P`. -/
def Grows (P : ρ → Prop) (B B' : Book ρ κ τ ι) : Prop := Extends (fun j => P j.ref) B B'

section
omit [DecidableEq ρ]

theorem Extends.refl (P : Journal ρ κ τ ι → Prop) (B : Book ρ κ τ ι) : Extends P B B :=
  ⟨[], by simp, by simp⟩

theorem Extends.trans {P : Journal ρ κ τ ι → Prop} {B B' B'' : Book ρ κ τ ι} (h : Extends P B B')
    (h' : Extends P B' B'') : Extends P B B'' := by
  obtain ⟨C, rfl, hC⟩ := h
  obtain ⟨D, rfl, hD⟩ := h'
  exact ⟨C ++ D, List.append_assoc B C D, fun j hj => (List.mem_append.1 hj).elim (hC j) (hD j)⟩

theorem Extends.mono {P Q : Journal ρ κ τ ι → Prop} (hPQ : ∀ j, P j → Q j) {B B' : Book ρ κ τ ι}
    (h : Extends P B B') : Extends Q B B' := by
  obtain ⟨C, rfl, hC⟩ := h
  exact ⟨C, rfl, fun j hj => hPQ _ (hC j hj)⟩

theorem Extends.and {P Q : Journal ρ κ τ ι → Prop} {B B' : Book ρ κ τ ι} (h : Extends P B B')
    (h' : Extends Q B B') : Extends (fun j => P j ∧ Q j) B B' := by
  obtain ⟨C, rfl, hC⟩ := h
  obtain ⟨D, he, hD⟩ := h'
  obtain rfl : C = D := List.append_cancel_left he
  exact ⟨C, rfl, fun j hj => ⟨hC j hj, hD j hj⟩⟩

theorem Extends.mem {P : Journal ρ κ τ ι → Prop} {B B' : Book ρ κ τ ι} (h : Extends P B B')
    {j : Journal ρ κ τ ι} (hj : j ∈ B) : j ∈ B' := by
  obtain ⟨C, rfl, -⟩ := h
  exact List.mem_append_left C hj

theorem Extends.mem_or {P : Journal ρ κ τ ι → Prop} {B B' : Book ρ κ τ ι} (h : Extends P B B')
    {j : Journal ρ κ τ ι} (hj : j ∈ B') : j ∈ B ∨ P j := by
  obtain ⟨C, rfl, hC⟩ := h
  exact (List.mem_append.1 hj).imp_right (hC j)

/-- Journals a predicate does not select leave its sum unchanged. -/
theorem Extends.sum_eq {P : Journal ρ κ τ ι → Prop} {B B' : Book ρ κ τ ι} (h : Extends P B B')
    {p : Journal ρ κ τ ι → Entry κ τ → Bool} (hp : ∀ j, P j → ∀ e ∈ j.legs, p j e = false) :
    B'.sum p = B.sum p := by
  obtain ⟨C, rfl, hC⟩ := h
  have hz : Book.sum C p = 0 := Book.sum_eq_zero fun j hj e he hq => by
    rw [hp j (hC j hj) e he] at hq
    cases hq
  rw [Book.sum_append, hz, Int.add_zero]

theorem Grows.refl (P : ρ → Prop) (B : Book ρ κ τ ι) : Grows P B B := Extends.refl _ B

theorem Grows.trans {P : ρ → Prop} {B B' B'' : Book ρ κ τ ι} (h : Grows P B B')
    (h' : Grows P B' B'') : Grows P B B'' := Extends.trans h h'

theorem Grows.mono {P Q : ρ → Prop} (hPQ : ∀ r, P r → Q r) {B B' : Book ρ κ τ ι}
    (h : Grows P B B') : Grows Q B B' := Extends.mono (fun j => hPQ j.ref) h

theorem Grows.mem {P : ρ → Prop} {B B' : Book ρ κ τ ι} (h : Grows P B B') {j : Journal ρ κ τ ι}
    (hj : j ∈ B) : j ∈ B' := Extends.mem h hj

theorem Grows.mem_or {P : ρ → Prop} {B B' : Book ρ κ τ ι} (h : Grows P B B')
    {j : Journal ρ κ τ ι} (hj : j ∈ B') : j ∈ B ∨ P j.ref := Extends.mem_or h hj

theorem Grows.sum_eq {P : ρ → Prop} {B B' : Book ρ κ τ ι} (h : Grows P B B')
    {p : Journal ρ κ τ ι → Entry κ τ → Bool} (hp : ∀ j, P j.ref → ∀ e, p j e = false) :
    B'.sum p = B.sum p := Extends.sum_eq h fun j hj e _ => hp j hj e

end

/-- Writing a journal extends a book by it, or not at all. -/
theorem extends_write {P : Journal ρ κ τ ι → Prop} (B : Book ρ κ τ ι) (r : ρ) (i : ι)
    (legs : List (Entry κ τ)) (h : B.has r = false → P ⟨B.length, r, i, legs⟩) :
    Extends P B (B.write r i legs) := by
  rcases B.write_cases r i legs with ⟨-, he⟩ | ⟨hr, -, he⟩ <;> rw [he]
  · exact Extends.refl P B
  · exact ⟨_, rfl, by simpa using h hr⟩

theorem grows_write {P : ρ → Prop} {r : ρ} (hr : P r) (B : Book ρ κ τ ι) (i : ι)
    (legs : List (Entry κ τ)) : Grows P B (B.write r i legs) := extends_write B r i legs fun _ => hr

theorem Grows.has_eq {P : ρ → Prop} {B B' : Book ρ κ τ ι} (h : Grows P B B') {r : ρ}
    (hr : ¬P r) : B'.has r = B.has r := by
  obtain ⟨C, rfl, hC⟩ := h
  have hn : Book.has C r = false := (C.has_false_iff r).2 fun j hj e => hr (e ▸ hC j hj)
  rw [Book.has_append, hn, Bool.or_false]

theorem Grows.has {P : ρ → Prop} {B B' : Book ρ κ τ ι} (h : Grows P B B') {r : ρ}
    (hr : B.has r = true) : B'.has r = true := by
  obtain ⟨C, rfl, -⟩ := h
  rw [Book.has_append, hr, Bool.true_or]

/-! ## Well-kept books -/

/-- Every journal balances, is numbered by its place, and has a reference of its own. -/
structure WellKept (B : Book ρ κ τ ι) : Prop where
  balanced : ∀ j ∈ B, net j.legs = 0
  numbered : ∀ (n : Nat) (j : Journal ρ κ τ ι), B[n]? = some j → j.id = n
  refs : (B.map (·.ref)).Nodup

omit [DecidableEq ρ] in
theorem wellKept_nil : WellKept ([] : Book ρ κ τ ι) :=
  ⟨fun j h => by simp at h, fun n j h => by simp at h, by simp⟩

theorem WellKept.write {B : Book ρ κ τ ι} (hB : WellKept B) (r : ρ) (i : ι)
    {legs : List (Entry κ τ)} (hl : net legs = 0) : WellKept (B.write r i legs) := by
  rcases B.write_cases r i legs with ⟨-, he⟩ | ⟨hr, -, he⟩
  · rwa [he]
  · rw [he]
    refine ⟨fun j hj => ?_, fun n j hn => ?_, ?_⟩
    · rcases List.mem_append.1 hj with hj | hj
      · exact hB.balanced j hj
      · rw [List.mem_singleton.1 hj]; exact hl
    · rw [List.getElem?_append] at hn
      split at hn
      · exact hB.numbered n j hn
      · next hlt =>
        obtain ⟨hz, rfl⟩ : n - B.length = 0 ∧ j = ⟨B.length, r, i, legs⟩ := by
          rcases hd : n - B.length with _ | m
          · rw [hd] at hn; simp at hn; exact ⟨rfl, hn.symm⟩
          · rw [hd] at hn; simp at hn
        simp only
        omega
    · rw [List.map_append, List.nodup_append]
      refine ⟨hB.refs, by simp, ?_⟩
      intro a ha b hb
      obtain ⟨j, hj, rfl⟩ := List.mem_map.1 ha
      simp only [List.map_cons, List.map_nil, List.mem_singleton] at hb
      rw [hb]
      exact (B.has_false_iff r).1 hr j hj

omit [DecidableEq ρ] in
theorem WellKept.eq_of_ref {B : Book ρ κ τ ι} (hB : WellKept B) {j j' : Journal ρ κ τ ι}
    (hj : j ∈ B) (hj' : j' ∈ B) (h : j.ref = j'.ref) : j = j' :=
  List.inj_on_of_nodup_map hB.refs hj hj' h

omit [DecidableEq ρ] in
theorem WellKept.nodup {B : Book ρ κ τ ι} (hB : WellKept B) : B.Nodup := List.Nodup.of_map _ hB.refs

omit [DecidableEq ρ] in
theorem WellKept.id_lt {B : Book ρ κ τ ι} (hB : WellKept B) {j : Journal ρ κ τ ι} (hj : j ∈ B) :
    j.id < B.length := by
  obtain ⟨n, hn⟩ := List.mem_iff_getElem?.1 hj
  rw [hB.numbered n j hn]
  exact (List.getElem?_eq_some_iff.1 hn).1

omit [DecidableEq ρ] in
theorem WellKept.eq_of_id {B : Book ρ κ τ ι} (hB : WellKept B) {j j' : Journal ρ κ τ ι}
    (hj : j ∈ B) (hj' : j' ∈ B) (h : j.id = j'.id) : j = j' := by
  obtain ⟨n, hn⟩ := List.mem_iff_getElem?.1 hj
  obtain ⟨m, hm⟩ := List.mem_iff_getElem?.1 hj'
  have hnm : n = m := by
    rw [← hB.numbered n j hn, ← hB.numbered m j' hm, h]
  rw [hnm] at hn
  exact Option.some.inj (hn.symm.trans hm)

/-- In a well-kept book a reference names at most one journal. -/
theorem WellKept.find_eq_some {B : Book ρ κ τ ι} (hB : WellKept B) {j : Journal ρ κ τ ι}
    (hj : j ∈ B) : B.find j.ref = some j := by
  obtain ⟨j', hf⟩ := Option.isSome_iff_exists.1
    ((B.find_isSome j.ref).trans ((B.has_iff j.ref).2 ⟨j, hj, rfl⟩))
  have hm := Book.find_mem hf
  rw [hf, hB.eq_of_ref hm.1 hj hm.2]

end Bookkeeping
