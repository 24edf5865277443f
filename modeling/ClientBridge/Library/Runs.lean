import Mathlib

/-!
# Runs of a step relation

`Run step s as t` says that the actions `as`, taken one after the other, lead from `s`
to `t`.  A property of a whole run is proved from what one step preserves
(`Run.invariant`); restricting the steps restricts the runs (`Run.mono`).
-/

namespace Runs

variable {σ α : Type}

inductive Run (step : σ → α → σ → Prop) (s : σ) : List α → σ → Prop
  | nil : Run step s [] s
  | snoc {as : List α} {t u : σ} {a : α} : Run step s as t → step t a u → Run step s (as ++ [a]) u

/-- What holds at the start and is kept by every step holds wherever a run leads. -/
theorem Run.invariant {step : σ → α → σ → Prop} {I : σ → Prop}
    (hstep : ∀ t a u, I t → step t a u → I u) {s t : σ} {as : List α} (h : Run step s as t)
    (h0 : I s) : I t := by
  induction h with
  | nil => exact h0
  | snoc _ hs ih => exact hstep _ _ _ ih hs

theorem Run.mono {step step' : σ → α → σ → Prop} (h : ∀ t a u, step t a u → step' t a u)
    {s t : σ} {as : List α} (hr : Run step s as t) : Run step' s as t := by
  induction hr with
  | nil => exact .nil
  | snoc _ hs ih => exact .snoc ih (h _ _ _ hs)

/-- One more action at the front of a run. -/
theorem Run.cons {step : σ → α → σ → Prop} {s t u : σ} {a : α} {as : List α} (h : step s a t)
    (hr : Run step t as u) : Run step s (a :: as) u := by
  induction hr with
  | nil =>
    have h1 : Run step s ([] ++ [a]) t := .snoc .nil h
    exact h1
  | snoc _ hs ih => exact .snoc ih hs

theorem Run.append {step : σ → α → σ → Prop} {s t u : σ} {as bs : List α} (hr : Run step s as t)
    (hr' : Run step t bs u) : Run step s (as ++ bs) u := by
  induction hr' with
  | nil => rwa [List.append_nil]
  | snoc _ hs ih =>
    rw [← List.append_assoc]
    exact .snoc ih hs

theorem Run.nil_inv {step : σ → α → σ → Prop} {s u : σ} (hr : Run step s [] u) : u = s := by
  generalize h : ([] : List α) = cs at hr
  cases hr with
  | nil => rfl
  | snoc _ _ => simp at h

/-- The last action of a run. -/
theorem Run.snoc_inv {step : σ → α → σ → Prop} {s u : σ} {a : α} {as : List α} (hr : Run step s (as ++ [a]) u) :
    ∃ t, Run step s as t ∧ step t a u := by
  generalize h : as ++ [a] = cs at hr
  cases hr with
  | nil => simp at h
  | @snoc as' t _ a' hr' hs =>
    obtain ⟨rfl, ha⟩ := List.append_inj' h rfl
    cases ha
    exact ⟨t, hr', hs⟩

/-- Where a run is after some of its actions. -/
theorem Run.split {step : σ → α → σ → Prop} {s u : σ} {as bs : List α} (hr : Run step s (as ++ bs) u) :
    ∃ t, Run step s as t ∧ Run step t bs u := by
  induction bs using List.reverseRecOn generalizing u with
  | nil => exact ⟨u, by rwa [List.append_nil] at hr, .nil⟩
  | append_singleton bs b ih =>
    rw [← List.append_assoc] at hr
    obtain ⟨u', hr', hs⟩ := hr.snoc_inv
    obtain ⟨t, ht, hu'⟩ := ih hr'
    exact ⟨t, ht, .snoc hu' hs⟩

/-- The first action of a run. -/
theorem Run.head {step : σ → α → σ → Prop} {s u : σ} {a : α} {as : List α} (hr : Run step s (a :: as) u) :
    ∃ t, step s a t := by
  obtain ⟨t, hr₁, -⟩ := @Run.split _ _ _ _ _ [a] _ hr
  obtain ⟨s', hr₀, hs⟩ := @Run.snoc_inv _ _ _ _ _ _ [] hr₁
  rw [hr₀.nil_inv] at hs
  exact ⟨t, hs⟩

/-- Where an entry of a history stands that got one more. -/
theorem snoc_eq_append_cons {α : Type} {l pre post : List α} {e x : α} (h : l ++ [e] = pre ++ x :: post) :
    (l = pre ∧ e = x ∧ post = []) ∨ ∃ post', l = pre ++ x :: post' ∧ post = post' ++ [e] := by
  rcases post.eq_nil_or_concat with rfl | ⟨post', y, rfl⟩
  · obtain ⟨hl, he⟩ := List.append_inj' h rfl
    cases he
    exact .inl ⟨hl, rfl, rfl⟩
  · rw [List.concat_eq_append, ← List.cons_append, ← List.append_assoc] at h
    obtain ⟨hl, he⟩ := List.append_inj' h rfl
    cases he
    exact .inr ⟨post', hl, List.concat_eq_append⟩

/-- Where an entry of a history stands that got more entries. -/
theorem append_eq_append_cons {α : Type} {l es pre post : List α} {x : α} (h : l ++ es = pre ++ x :: post) :
    (∃ post', l = pre ++ x :: post') ∨ l ⊆ pre ∧ x ∈ es := by
  obtain ⟨k, rfl, hk⟩ | ⟨k, rfl, hk⟩ := List.append_eq_append_iff.1 h
  · exact .inr ⟨List.subset_append_left _ _, hk ▸ List.mem_append_right _ List.mem_cons_self⟩
  · cases k with
    | nil =>
      rw [List.nil_append] at hk
      refine .inr ⟨?_, hk ▸ List.mem_cons_self⟩
      rw [List.append_nil]
      exact List.Subset.refl _
    | cons y k =>
      obtain ⟨rfl, -⟩ := List.cons_eq_cons.1 hk
      exact .inl ⟨k, rfl⟩

/-- What holds of an entry and of each one before it. -/
theorem pairwise_iff_split {α : Type} {R : α → α → Prop} {l : List α} :
    l.Pairwise R ↔ ∀ pre b post, l = pre ++ b :: post → ∀ a ∈ pre, R a b := by
  constructor
  · rintro h pre b post rfl a ha
    exact (List.pairwise_append.1 h).2.2 a ha b List.mem_cons_self
  · intro h
    induction l with
    | nil => exact .nil
    | cons x l ih =>
      refine .cons (fun y hy => ?_) (ih fun pre b post hl a ha => ?_)
      · obtain ⟨pre, post, rfl⟩ := List.append_of_mem hy
        exact h (x :: pre) y post rfl x List.mem_cons_self
      · exact h (x :: pre) b post (by rw [hl, List.cons_append]) a (List.mem_cons_of_mem _ ha)

/-- A fold keeps what every one of its steps keeps. -/
theorem foldl_invariant {f : σ → α → σ} {I : σ → Prop} (hstep : ∀ s a, I s → I (f s a)) (s : σ)
    (as : List α) (h : I s) : I (as.foldl f s) := by
  induction as generalizing s with
  | nil => exact h
  | cons a as ih => exact ih (f s a) (hstep s a h)

theorem foldlM_invariant {ε : Type} {f : σ → α → Except ε σ} {I : σ → Prop}
    (hstep : ∀ s a s', I s → f s a = .ok s' → I s') {s s' : σ} {as : List α}
    (hr : as.foldlM f s = .ok s') (h : I s) : I s' := by
  induction as generalizing s with
  | nil => cases hr; exact h
  | cons a as ih =>
    rw [List.foldlM_cons] at hr
    cases hf : f s a with
    | error e => rw [hf] at hr; cases hr
    | ok s₁ => rw [hf] at hr; exact ih hr (hstep s a s₁ h hf)

end Runs
