import Mathlib

/-!
# Events that join

Where each event joins what is seen of a state with a part of its own, events may come in any order and any
number of times: what is seen in the end is the join of the parts of all of them (`Joins.run`), and depends
on which events came only (`joinAll_congr`).
-/

namespace Runs

variable {σ ε β α : Type} [SemilatticeSup α]

/-- `x` joined with the parts of the events. -/
def joinAll (effect : ε → α) (x : α) (es : List ε) : α := es.foldl (fun x e => x ⊔ effect e) x

theorem joinAll_cons (effect : ε → α) (x : α) (e : ε) (es : List ε) :
    joinAll effect x (e :: es) = joinAll effect (x ⊔ effect e) es := rfl

/-- The join of all parts is the least that is above each of them. -/
theorem isLUB_joinAll (effect : ε → α) (x : α) (es : List ε) :
    IsLUB (insert x {y | ∃ e ∈ es, effect e = y}) (joinAll effect x es) := by
  induction es generalizing x with
  | nil =>
    have hset : insert x {y | ∃ e ∈ ([] : List ε), effect e = y} = {x} := by
      ext y
      simp
    rw [hset]
    exact isLUB_singleton
  | cons e es ih =>
    obtain ⟨hub, hleast⟩ := ih (x ⊔ effect e)
    have hstart : x ⊔ effect e ≤ joinAll effect (x ⊔ effect e) es := hub (Set.mem_insert _ _)
    rw [joinAll_cons]
    constructor
    · rintro y (rfl | ⟨e', he', rfl⟩)
      · exact le_sup_left.trans hstart
      · rcases List.mem_cons.1 he' with rfl | he'
        · exact le_sup_right.trans hstart
        · exact hub (Set.mem_insert_of_mem _ ⟨e', he', rfl⟩)
    · intro z hz
      refine hleast ?_
      rintro y (rfl | ⟨e', he', rfl⟩)
      · exact sup_le (hz (Set.mem_insert _ _)) (hz (Set.mem_insert_of_mem _ ⟨e, List.mem_cons_self, rfl⟩))
      · exact hz (Set.mem_insert_of_mem _ ⟨e', List.mem_cons_of_mem _ he', rfl⟩)

theorem le_joinAll (effect : ε → α) (x : α) (es : List ε) : x ≤ joinAll effect x es :=
  (isLUB_joinAll effect x es).1 (Set.mem_insert _ _)

/-- Events that add something are all that count. -/
theorem joinAll_le {effect : ε → α} {x : α} {es es' : List ε} (h : ∀ e ∈ es, effect e ≤ x ∨ e ∈ es') :
    joinAll effect x es ≤ joinAll effect x es' := by
  refine (isLUB_joinAll effect x es).2 ?_
  rintro y (rfl | ⟨e, he, rfl⟩)
  · exact le_joinAll effect y es'
  · rcases h e he with hle | he'
    · exact hle.trans (le_joinAll effect x es')
    · exact (isLUB_joinAll effect x es').1 (Set.mem_insert_of_mem _ ⟨e, he', rfl⟩)

theorem joinAll_congr {effect : ε → α} {x : α} {es es' : List ε} (h : ∀ e ∈ es, effect e ≤ x ∨ e ∈ es')
    (h' : ∀ e ∈ es', effect e ≤ x ∨ e ∈ es) : joinAll effect x es = joinAll effect x es' :=
  (joinAll_le h).antisymm (joinAll_le h')

/-- An event that is valid goes through, keeps what holds of the state, and joins what is seen of it with
the event's part. -/
def Joins (f : σ → ε → Except β σ) (I : σ → Prop) (V : ε → Prop) (view : σ → α) (effect : ε → α) : Prop :=
  ∀ s e, I s → V e → ∃ s', f s e = .ok s' ∧ I s' ∧ view s' = view s ⊔ effect e

theorem Joins.run {f : σ → ε → Except β σ} {I : σ → Prop} {V : ε → Prop} {view : σ → α} {effect : ε → α}
    (h : Joins f I V view effect) {es : List ε} {s : σ} (hI : I s) (hV : ∀ e ∈ es, V e) :
    ∃ s', es.foldlM f s = .ok s' ∧ I s' ∧ view s' = joinAll effect (view s) es := by
  induction es generalizing s with
  | nil => exact ⟨s, rfl, hI, rfl⟩
  | cons e es ih =>
    obtain ⟨s₁, h₁, hI₁, hv₁⟩ := h s e hI (hV e List.mem_cons_self)
    obtain ⟨s₂, h₂, hI₂, hv₂⟩ := ih hI₁ fun e' he' => hV e' (List.mem_cons_of_mem _ he')
    refine ⟨s₂, ?_, hI₂, ?_⟩
    · rw [List.foldlM_cons, h₁]
      exact h₂
    · rw [hv₂, hv₁, joinAll_cons]

end Runs
