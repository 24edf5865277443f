import ClientBridge.Library.Runs

/-!
# Processes over a shared store

Each process takes its own steps on a store that all of them see, one step of one process at a
time and in any order (`Interleaved`).  What every process knows about the store is proved from
its own steps and from the steps of the others leaving it true (`Kept`); a run of any length
then keeps it (`Kept.run`).
-/

namespace Runs

variable {π σ l : Type} [DecidableEq π]

/-- A store and where each process is. -/
structure World (π σ l : Type) where
  store : σ
  place : π → l

/-- One process takes one of its steps. -/
inductive Interleaved (step : π → σ → l → σ → l → Prop) (w : World π σ l) : π → World π σ l → Prop
  | step {p : π} {s : σ} {x : l} (h : step p w.store (w.place p) s x) :
      Interleaved step w p ⟨s, Function.update w.place p x⟩

theorem Interleaved.from {step : π → σ → l → σ → l → Prop} {w : World π σ l} {p : π} {s : σ} {x x' : l}
    (hp : w.place p = x) (h : step p w.store x s x') : Interleaved step w p ⟨s, Function.update w.place p x'⟩ := by
  subst hp
  exact .step h

/-- One process takes several of its steps. -/
theorem Interleaved.block {step : π → σ → l → σ → l → Prop} {w : World π σ l} {p : π}
    {x : l} {b : σ × l} (hp : w.place p = x)
    (h : Relation.ReflTransGen (fun a b => step p a.1 a.2 b.1 b.2) (w.store, x) b) :
    ∃ ps, Run (Interleaved step) w ps ⟨b.1, Function.update w.place p b.2⟩ := by
  induction h with
  | refl =>
    refine ⟨[], ?_⟩
    rw [← hp, Function.update_eq_self]
    exact .nil
  | @tail a b _ hstep ih =>
    obtain ⟨ps, hrun⟩ := ih
    have hnext : Interleaved step ⟨a.1, Function.update w.place p a.2⟩ p ⟨b.1, _⟩ :=
      Interleaved.from (Function.update_self p a.2 w.place) hstep
    rw [Function.update_idem] at hnext
    exact ⟨ps ++ [p], .snoc hrun hnext⟩

/-- `I` holds of the store, and `J p` of the store and the place of `p`; no step breaks either. -/
structure Kept (step : π → σ → l → σ → l → Prop) (I : σ → Prop) (J : π → σ → l → Prop) : Prop where
  store : ∀ {p s x s' x'}, step p s x s' x' → I s → J p s x → I s'
  own : ∀ {p s x s' x'}, step p s x s' x' → I s → J p s x → J p s' x'
  others : ∀ {p s x s' x' q y}, step p s x s' x' → q ≠ p → I s → J p s x → J q s y → J q s' y

/-- What a world knows: the store's invariant and each process's own. -/
def Knows (I : σ → Prop) (J : π → σ → l → Prop) (w : World π σ l) : Prop :=
  I w.store ∧ ∀ p, J p w.store (w.place p)

section
variable {step : π → σ → l → σ → l → Prop} {I : σ → Prop} {J : π → σ → l → Prop}

theorem Kept.preserved (h : Kept step I J) {w w' : World π σ l} {p : π} (hs : Interleaved step w p w')
    (hw : Knows I J w) : Knows I J w' := by
  obtain ⟨hI, hJ⟩ := hw
  cases hs with
  | step hs =>
    refine ⟨h.store hs hI (hJ p), fun q => ?_⟩
    by_cases hq : q = p
    · subst hq
      show J q _ (Function.update w.place q _ q)
      rw [Function.update_self]
      exact h.own hs hI (hJ q)
    · show J q _ (Function.update w.place p _ q)
      rw [Function.update_of_ne hq]
      exact h.others hs hq hI (hJ p) (hJ q)

/-- Whatever steps the processes take, in whatever order. -/
theorem Kept.run (h : Kept step I J) {w w' : World π σ l} {ps : List π}
    (hr : Run (Interleaved step) w ps w') (hw : Knows I J w) : Knows I J w' :=
  hr.invariant (fun _ _ _ hw hs => h.preserved hs hw) hw

end

end Runs
