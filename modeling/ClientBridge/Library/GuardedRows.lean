import Mathlib

/-!
# Rows guarded by keys

Writers prepare rows over a common store and commit them together.  Rows may clash at the keys they use, and a writer
holds every key of a row it writes, unless the row is no wider than the one the store has.  When nothing clashes in
what each writer sees, a commit leaves nothing clashing in the store, nor in what the others see
(`Free.overlay_overlay`).
-/

namespace GuardedRows

variable {ι ρ κ : Type*}

/-- What a writer sees: its own rows over the store's. -/
def overlay (rows dirty : ι → Option ρ) (i : ι) : Option ρ := (dirty i).or (rows i)

/-- No two rows clash at any key. -/
def Free (clash : κ → ρ → ρ → Prop) (rows : ι → Option ρ) : Prop :=
  ∀ i j, i ≠ j → ∀ a ∈ rows i, ∀ b ∈ rows j, ∀ k, ¬clash k a b

/-- Each row written is one whose keys are held, or the store's own row made no wider. -/
def Guarded (uses : κ → ρ → Prop) (covers : ρ → ρ → Prop) (held : κ → Prop) (rows dirty : ι → Option ρ) : Prop :=
  ∀ i, ∀ a ∈ dirty i, (∀ k, uses k a → held k) ∨ ∃ c ∈ rows i, covers c a

/-- How rows clash: both ways, at keys they use, and with whatever a narrower row clashes with. -/
structure Clashing (clash : κ → ρ → ρ → Prop) (uses : κ → ρ → Prop) (covers : ρ → ρ → Prop) : Prop where
  symm : ∀ {k a b}, clash k a b → clash k b a
  uses : ∀ {k a b}, clash k a b → uses k a
  covers : ∀ {k a b c}, covers c a → clash k a b → clash k c b

section
variable {clash : κ → ρ → ρ → Prop} {uses : κ → ρ → Prop} {covers : ρ → ρ → Prop} {held held' : κ → Prop}
  {rows dirty dirty' : ι → Option ρ}

@[simp] theorem overlay_none (rows : ι → Option ρ) : overlay rows (fun _ => none) = rows := rfl

theorem overlay_of_none {i : ι} (h : dirty i = none) : overlay rows dirty i = rows i := by
  rw [overlay, h, Option.none_or]

theorem overlay_of_some {i : ι} {a : ρ} (h : dirty i = some a) : overlay rows dirty i = some a := by
  rw [overlay, h, Option.some_or]

theorem Guarded.nothing : Guarded uses covers held rows fun _ : ι => none := by
  intro i a ha
  cases ha

/-- What is held may grow. -/
theorem Guarded.mono (h : Guarded uses covers held rows dirty)
    (hheld : ∀ i, ∀ a ∈ dirty i, ∀ k, uses k a → held k → held' k) : Guarded uses covers held' rows dirty :=
  fun i a ha => (h i a ha).imp_left fun hk k hu => hheld i a ha k hu (hk k hu)

/-- Another's commit of other rows leaves a writer's rows guarded. -/
theorem Guarded.overlay (h : Guarded uses covers held rows dirty) (hids : ∀ i, dirty i = none ∨ dirty' i = none) :
    Guarded uses covers held (overlay rows dirty') dirty := by
  intro i a ha
  have hnone : dirty' i = none := (hids i).resolve_left fun h => by
    rw [h] at ha
    cases ha
  rw [overlay_of_none hnone]
  exact h i a ha

/-- What the others see stays free of clashes when a writer commits. -/
theorem Free.overlay_overlay (hc : Clashing clash uses covers) (hp : Free clash (overlay rows dirty))
    (hq : Free clash (overlay rows dirty')) (gp : Guarded uses covers held rows dirty)
    (gq : Guarded uses covers held' rows dirty') (hkeys : ∀ k, held k → ¬held' k)
    (hids : ∀ i, dirty i = none ∨ dirty' i = none) : Free clash (overlay (overlay rows dirty) dirty') := by
  -- a row of one writer and a row of the other
  have hcross : ∀ i j, i ≠ j → ∀ a ∈ dirty i, ∀ b ∈ dirty' j, ∀ k, ¬clash k a b := by
    intro i j hij a ha b hb k hclash
    rcases gp i a ha with hheld | ⟨c, hrow, hcov⟩
    · rcases gq j b hb with hheld' | ⟨c, hrow, hcov⟩
      · exact hkeys k (hheld k (hc.uses hclash)) (hheld' k (hc.uses (hc.symm hclash)))
      · have hnone : dirty j = none := (hids j).resolve_right fun h => by
          rw [h] at hb
          cases hb
        refine hp i j hij a ?_ c ?_ k (hc.symm (hc.covers hcov (hc.symm hclash)))
        · rw [overlay_of_some ha]
          rfl
        · rw [overlay_of_none hnone]
          exact hrow
    · have hnone : dirty' i = none := (hids i).resolve_left fun h => by
        rw [h] at ha
        cases ha
      refine hq i j hij c ?_ b ?_ k (hc.covers hcov hclash)
      · rw [overlay_of_none hnone]
        exact hrow
      · rw [overlay_of_some hb]
        rfl
  intro i j hij a ha b hb k hclash
  cases hi : dirty' i with
  | some x =>
    rw [overlay_of_some hi] at ha
    obtain rfl := Option.some.inj ha
    cases hj : dirty' j with
    | some y =>
      rw [overlay_of_some hj] at hb
      exact hq i j hij x (overlay_of_some hi) b ((overlay_of_some hj).trans hb) k hclash
    | none =>
      rw [overlay_of_none hj] at hb
      cases hd : dirty j with
      | some y =>
        rw [overlay_of_some hd] at hb
        obtain rfl := Option.some.inj hb
        exact hcross j i hij.symm y hd x hi k (hc.symm hclash)
      | none =>
        rw [overlay_of_none hd] at hb
        exact hq i j hij x (overlay_of_some hi) b ((overlay_of_none hj).trans hb) k hclash
  | none =>
    rw [overlay_of_none hi] at ha
    cases hj : dirty' j with
    | some y =>
      rw [overlay_of_some hj] at hb
      obtain rfl := Option.some.inj hb
      cases hd : dirty i with
      | some x =>
        rw [overlay_of_some hd] at ha
        obtain rfl := Option.some.inj ha
        exact hcross i j hij x hd y hj k hclash
      | none =>
        rw [overlay_of_none hd] at ha
        exact hq i j hij a ((overlay_of_none hi).trans ha) y (overlay_of_some hj) k hclash
    | none =>
      rw [overlay_of_none hj] at hb
      exact hp i j hij a ha b hb k hclash

variable [DecidableEq ι]

/-- A row that clashes with nothing the writer sees may be written. -/
theorem Free.update (hc : Clashing clash uses covers) (h : Free clash (GuardedRows.overlay rows dirty)) {i : ι} {a : ρ}
    (ha : ∀ j, j ≠ i → ∀ b ∈ GuardedRows.overlay rows dirty j, ∀ k, ¬clash k a b) :
    Free clash (GuardedRows.overlay rows (Function.update dirty i (some a))) := by
  have hself : GuardedRows.overlay rows (Function.update dirty i (some a)) i = some a :=
    overlay_of_some (Function.update_self i (some a) dirty)
  have hother : ∀ j, j ≠ i → GuardedRows.overlay rows (Function.update dirty i (some a)) j =
      GuardedRows.overlay rows dirty j := by
    intro j hj
    rw [GuardedRows.overlay, GuardedRows.overlay, Function.update_of_ne hj]
  intro j l hjl x hx y hy k hclash
  by_cases hj : j = i
  · subst hj
    rw [hself] at hx
    obtain rfl := Option.some.inj hx
    rw [hother l hjl.symm] at hy
    exact ha l hjl.symm y hy k hclash
  · rw [hother j hj] at hx
    by_cases hl : l = i
    · subst hl
      rw [hself] at hy
      obtain rfl := Option.some.inj hy
      exact ha j hj x hx k (hc.symm hclash)
    · rw [hother l hl] at hy
      exact h j l hjl x hx y hy k hclash

/-- A row seen after a write is the one written or was there before. -/
theorem update_eq_some {i j : ι} {a b : ρ} (h : Function.update dirty i (some a) j = some b) :
    j = i ∧ b = a ∨ j ≠ i ∧ dirty j = some b := by
  by_cases hj : j = i
  · subst hj
    rw [Function.update_self] at h
    exact .inl ⟨rfl, (Option.some.inj h).symm⟩
  · rw [Function.update_of_ne hj] at h
    exact .inr ⟨hj, h⟩

theorem Guarded.update (h : Guarded uses covers held rows dirty) {i : ι} {a : ρ}
    (ha : (∀ k, uses k a → held k) ∨ ∃ c ∈ rows i, covers c a) :
    Guarded uses covers held rows (Function.update dirty i (some a)) := by
  intro j b hb
  rcases update_eq_some hb with ⟨rfl, rfl⟩ | ⟨-, hb⟩
  · exact ha
  · exact h j b hb

end

end GuardedRows
