import Mathlib

/-!
# Sweeping a list of spans

A cursor moves through spans of whole days, taken by their first days, and stops at every day they leave
out.  `runsBetween` lists the runs of days it passes over, and these are the maximal runs that no span
covers (`mem_runsBetween`).
-/

namespace Sweeps

/-- A first and a last day. -/
abbrev Span := Int × Int

def Covered (spans : List Span) (d : Int) : Prop := ∃ s ∈ spans, s.1 ≤ d ∧ d ≤ s.2

/-- A longest run of days between two days that no span covers. -/
structure FreeRun (spans : List Span) (lo hi a b : Int) : Prop where
  from_lo : lo ≤ a
  nonempty : a ≤ b
  to_hi : b ≤ hi
  free : ∀ d, a ≤ d → d ≤ b → ¬Covered spans d
  left : a = lo ∨ Covered spans (a - 1)
  right : b = hi ∨ Covered spans (b + 1)

/-- The days the cursor passes over before each span. -/
def runsBetween : Int → List Span → List Span
  | _, [] => []
  | cursor, (first, last) :: spans =>
    (if cursor < first then [(cursor, first - 1)] else []) ++ runsBetween (max cursor (last + 1)) spans

section
variable {spans : List Span} {lo hi a b : Int}

theorem covered_cons {s : Span} {d : Int} : Covered (s :: spans) d ↔ (s.1 ≤ d ∧ d ≤ s.2) ∨ Covered spans d := by
  simp [Covered]

theorem Covered.first_le {s d : Int} (h : Covered spans d) (hs : ∀ t ∈ spans, s ≤ t.1) : s ≤ d := by
  obtain ⟨t, ht, hfirst, -⟩ := h
  exact (hs t ht).trans hfirst

/-- A free run lies before the first span, or past it. -/
theorem freeRun_cons {s : Span} (hs : s.1 ≤ s.2) (hhi : s.2 ≤ hi) (hlater : ∀ t ∈ spans, s.1 ≤ t.1) :
    FreeRun (s :: spans) lo hi a b ↔ (lo < s.1 ∧ a = lo ∧ b = s.1 - 1) ∨ FreeRun spans (max lo (s.2 + 1)) hi a b := by
  have hall : ∀ t ∈ s :: spans, s.1 ≤ t.1 := by
    intro t ht
    rcases List.mem_cons.1 ht with rfl | ht
    · exact le_refl _
    · exact hlater t ht
  constructor
  · intro h
    have hlo := h.from_lo
    have hab := h.nonempty
    have hb := h.to_hi
    rcases lt_or_ge a s.1 with hbefore | hpast
    · -- the run ends where the span starts
      have hfree : ¬s.1 ≤ b := fun hle => h.free s.1 hbefore.le hle (covered_cons.2 (.inl ⟨le_refl _, hs⟩))
      have hend : b = s.1 - 1 := by
        rcases h.right with hbhi | hcov
        · omega
        · have := hcov.first_le hall
          omega
      have hstart : a = lo := by
        rcases h.left with hal | hcov
        · exact hal
        · have := hcov.first_le hall
          omega
      exact .inl ⟨by omega, hstart, hend⟩
    · have hafter : s.2 < a := by
        by_contra hle
        exact h.free a (le_refl _) hab (covered_cons.2 (.inl ⟨hpast, by omega⟩))
      refine .inr ⟨by omega, hab, hb, fun d had hdb hcov => h.free d had hdb (covered_cons.2 (.inr hcov)), ?_, ?_⟩
      · rcases h.left with hal | hcov
        · exact .inl (by omega)
        · rcases covered_cons.1 hcov with hin | hcov
          · exact .inl (by omega)
          · exact .inr hcov
      · rcases h.right with hbhi | hcov
        · exact .inl hbhi
        · rcases covered_cons.1 hcov with hin | hcov
          · omega
          · exact .inr hcov
  · rintro (⟨hlt, rfl, rfl⟩ | h)
    · refine ⟨le_refl _, by omega, by omega, fun d _ hd hcov => ?_, .inl rfl, .inr ?_⟩
      · have := hcov.first_le hall
        omega
      · rw [sub_add_cancel]
        exact covered_cons.2 (.inl ⟨le_refl _, hs⟩)
    · have hlo := h.from_lo
      have hab := h.nonempty
      refine ⟨by omega, hab, h.to_hi, fun d had hdb hcov => ?_, ?_, h.right.imp_right fun hcov => covered_cons.2 (.inr hcov)⟩
      · rcases covered_cons.1 hcov with hin | hcov
        · omega
        · exact h.free d had hdb hcov
      · rcases h.left with hal | hcov
        · by_cases hkept : s.2 + 1 ≤ lo
          · exact .inl (by omega)
          · exact .inr (covered_cons.2 (.inl (by omega)))
        · exact .inr (covered_cons.2 (.inr hcov))

theorem freeRun_nil : FreeRun [] lo hi a b ↔ lo ≤ hi ∧ a = lo ∧ b = hi := by
  constructor
  · intro h
    have hleft : a = lo := h.left.resolve_right fun ⟨_, hs, _⟩ => by cases hs
    have hright : b = hi := h.right.resolve_right fun ⟨_, hs, _⟩ => by cases hs
    exact ⟨by have := h.nonempty; omega, hleft, hright⟩
  · rintro ⟨hle, rfl, rfl⟩
    refine ⟨le_refl _, hle, le_refl _, fun d _ _ hcov => ?_, .inl rfl, .inl rfl⟩
    obtain ⟨_, hs, _⟩ := hcov
    cases hs

/-- Closed by an empty span right after the last day, the sweep passes over the maximal free runs. -/
theorem mem_runsBetween (hspans : ∀ s ∈ spans, s.1 ≤ s.2 ∧ s.2 ≤ hi) (hsorted : spans.Pairwise fun s t => s.1 ≤ t.1) :
    (a, b) ∈ runsBetween lo (spans ++ [(hi + 1, hi)]) ↔ FreeRun spans lo hi a b := by
  induction spans generalizing lo with
  | nil =>
    rw [freeRun_nil]
    simp only [List.nil_append, runsBetween, List.append_nil]
    split
    · rw [List.mem_singleton, Prod.mk.injEq]
      constructor
      · rintro ⟨rfl, rfl⟩
        exact ⟨by omega, rfl, by omega⟩
      · rintro ⟨-, rfl, rfl⟩
        exact ⟨rfl, by omega⟩
    · constructor
      · intro h
        cases h
      · omega
  | cons s spans ih =>
    obtain ⟨hfirst, hrest⟩ := List.pairwise_cons.1 hsorted
    obtain ⟨hs, hhi⟩ := hspans s List.mem_cons_self
    rw [freeRun_cons hs hhi hfirst, ← ih (fun t ht => hspans t (List.mem_cons_of_mem _ ht)) hrest]
    rw [List.cons_append, runsBetween, List.mem_append]
    refine or_congr_left ?_
    split
    · next hlt => simp [hlt]
    · next hlt => simp [hlt]

end

end Sweeps
