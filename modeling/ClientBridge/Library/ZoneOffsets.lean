import Mathlib

/-!
# Offsets of a time zone

A zone has an offset before its first change and another from each change on; a clock in it shows an
instant plus its offset.  Where a wall-clock time occurs once, and changes are further apart than two
offsets can be, two lookups of the offset find its instant (`twoStep_eq`), as does the search of the
changes by wall time (`sub_wallOffset_eq`), and such instants are in the order of their times
(`lt_of_wall_lt`).
-/

namespace ZoneOffsets

/-- When the offset changes, and to what. -/
abbrev Change := Int × Int

/-- The offset at an instant. -/
def offsetFrom (o : Int) : List Change → Int → Int
  | [], _ => o
  | (s, o') :: cs, t => if s ≤ t then offsetFrom o' cs t else o

/-- The offset a wall-clock time is read with: a change counts from the later of the two times it
shows. -/
def wallOffset (o : Int) : List Change → Int → Int
  | [], _ => o
  | (s, o') :: cs, wall => if s + max o o' ≤ wall then wallOffset o' cs wall else o

/-- The instant of a wall-clock time, looking the offset up first as if the time were an instant. -/
def twoStep (offset : Int → Int) (wall : Int) : Int := wall - offset (wall - offset wall)

/-- Offsets of at most `d`, whose changes are at least `2 * d` apart. -/
structure Spaced (d o : Int) (cs : List Change) : Prop where
  first : -d ≤ o ∧ o ≤ d
  offsets : ∀ c ∈ cs, -d ≤ c.2 ∧ c.2 ≤ d
  apart : cs.Pairwise fun a b => a.1 + 2 * d ≤ b.1

/-- The wall-clock time is that of one instant only. -/
def OccursOnce (offset : Int → Int) (wall : Int) : Prop := ∃! t, t + offset t = wall

/-- Around one change a wall time occurs once when both offsets put it on the same side of the change. -/
theorem occursOnce_of_change {offset : Int → Int} {change before after wall : Int}
    (h : ∀ t, offset t = if change ≤ t then after else before) (hside : change ≤ wall - after ↔ change ≤ wall - before) :
    OccursOnce offset wall := by
  by_cases hafter : change ≤ wall - after
  · refine ⟨wall - after, ?_, fun t ht => ?_⟩
    · show wall - after + offset (wall - after) = wall
      rw [h, if_pos hafter, Int.sub_add_cancel]
    · have ht : t + offset t = wall := ht
      rw [h] at ht
      split at ht <;> omega
  · refine ⟨wall - before, ?_, fun t ht => ?_⟩
    · show wall - before + offset (wall - before) = wall
      rw [h, if_neg (hside.not.1 hafter), Int.sub_add_cancel]
    · have ht : t + offset t = wall := ht
      rw [h] at ht
      split at ht <;> omega

section
variable {d o : Int} {cs : List Change}

theorem Spaced.tail {c : Change} (h : Spaced d o (c :: cs)) : Spaced d c.2 cs :=
  ⟨h.offsets c List.mem_cons_self, fun x hx => h.offsets x (List.mem_cons_of_mem _ hx), h.apart.of_cons⟩

theorem Spaced.bounds (h : Spaced d o cs) (t : Int) : -d ≤ offsetFrom o cs t ∧ offsetFrom o cs t ≤ d := by
  induction cs generalizing o with
  | nil => exact h.first
  | cons c cs ih =>
    rw [offsetFrom]
    split
    · exact ih h.tail
    · exact h.first

theorem offsetFrom_of_lt {t : Int} (h : ∀ c ∈ cs, t < c.1) : offsetFrom o cs t = o := by
  cases cs with
  | nil => rfl
  | cons c cs => exact if_neg (not_le.2 (h c List.mem_cons_self))

/-- Between two instants close to each other the offset changes once at most. -/
theorem Spaced.two_offsets (h : Spaced d o cs) {x y z : Int} (hxy : x ≤ y) (hyz : y ≤ z) (hxz : z - x ≤ 2 * d) :
    offsetFrom o cs x = offsetFrom o cs y ∨ offsetFrom o cs y = offsetFrom o cs z := by
  induction cs generalizing o with
  | nil => exact .inl rfl
  | cons c cs ih =>
    have hfar := (List.pairwise_cons.1 h.apart).1
    simp only [offsetFrom]
    by_cases hx : c.1 ≤ x
    · rw [if_pos hx, if_pos (hx.trans hxy), if_pos (hx.trans (hxy.trans hyz))]
      exact ih h.tail
    · rw [if_neg hx]
      by_cases hy : c.1 ≤ y
      · -- the change is between the first two, so no other one is near
        rw [if_pos hy, if_pos (hy.trans hyz), offsetFrom_of_lt fun e he => ?_, offsetFrom_of_lt fun e he => ?_]
        · exact .inr rfl
        · have := hfar e he
          omega
        · have := hfar e he
          omega
      · rw [if_neg hy]
        exact .inl rfl

/-- Of three instants close to each other two have the same offset. -/
theorem Spaced.two_of_three (h : Spaced d o cs) {x y z a : Int} (hx : a ≤ x ∧ x ≤ a + 2 * d) (hy : a ≤ y ∧ y ≤ a + 2 * d)
    (hz : a ≤ z ∧ z ≤ a + 2 * d) : offsetFrom o cs x = offsetFrom o cs y ∨ offsetFrom o cs y = offsetFrom o cs z ∨
      offsetFrom o cs x = offsetFrom o cs z := by
  rcases le_total x y with hxy | hxy <;> rcases le_total y z with hyz | hyz <;> rcases le_total x z with hxz | hxz
  · exact (h.two_offsets hxy hyz (by omega)).imp_right .inl
  · exact (h.two_offsets hxy hyz (by omega)).imp_right .inl
  · rcases h.two_offsets hxz hyz (by omega) with he | he
    · exact .inr (.inr he)
    · exact .inr (.inl he.symm)
  · rcases h.two_offsets hxz hxy (by omega) with he | he
    · exact .inr (.inr he.symm)
    · exact .inl he
  · rcases h.two_offsets hxy hxz (by omega) with he | he
    · exact .inl he.symm
    · exact .inr (.inr he)
  · rcases h.two_offsets hyz hxz (by omega) with he | he
    · exact .inr (.inl he)
    · exact .inr (.inr he.symm)
  · rcases h.two_offsets hyz hxy (by omega) with he | he
    · exact .inr (.inl he.symm)
    · exact .inl he.symm
  · rcases h.two_offsets hyz hxy (by omega) with he | he
    · exact .inr (.inl he.symm)
    · exact .inl he.symm

/-- Two lookups find the instant of a time that occurs once. -/
theorem twoStep_eq (h : Spaced d o cs) {t wall : Int} (ht : t + offsetFrom o cs t = wall)
    (honce : ∀ t', t' + offsetFrom o cs t' = wall → t' = t) : twoStep (offsetFrom o cs) wall = t := by
  have hbt := h.bounds t
  have hbw := h.bounds wall
  have hthree := @Spaced.two_of_three d o cs h t (wall - offsetFrom o cs wall) wall (wall - d) (by omega) (by omega) (by omega)
  have hfound : offsetFrom o cs (wall - offsetFrom o cs wall) = offsetFrom o cs t := by
    rcases hthree with he | he | he
    · exact he.symm
    · rw [honce (wall - offsetFrom o cs wall) (by omega)]
    · rw [show wall - offsetFrom o cs wall = t by omega]
  rw [twoStep, hfound]
  omega

/-- Times that occur once are in the order of their instants. -/
theorem lt_of_wall_lt (h : Spaced d o cs) {s t v w : Int} (hs : s + offsetFrom o cs s = v) (ht : t + offsetFrom o cs t = w)
    (honce : ∀ t', t' + offsetFrom o cs t' = v → t' = s) (hvw : v < w) : s < t := by
  by_contra hts
  have hbs := h.bounds s
  have hbt := h.bounds t
  -- the earlier time with the offset of the later one
  rcases h.two_offsets (show v - offsetFrom o cs t ≤ t by omega) (not_lt.1 hts) (by omega) with he | he
  · have := honce (v - offsetFrom o cs t) (by omega)
    omega
  · omega

theorem wallOffset_eq {t wall lo : Int} (h : Spaced d o cs) (hlo : ∀ c ∈ cs, lo + 2 * d ≤ c.1) (hlot : lo ≤ t)
    (ht : t + offsetFrom o cs t = wall) (honce : ∀ t', lo ≤ t' → t' + offsetFrom o cs t' = wall → t' = t) :
    wallOffset o cs wall = offsetFrom o cs t := by
  induction cs generalizing o lo with
  | nil => rfl
  | cons c cs ih =>
    have hfar := (List.pairwise_cons.1 h.apart).1
    have ho := h.first
    have hc := h.offsets c List.mem_cons_self
    have hloc := hlo c List.mem_cons_self
    rw [wallOffset]
    by_cases hst : c.1 ≤ t
    · have hoff : offsetFrom o (c :: cs) t = offsetFrom c.2 cs t := if_pos hst
      have hbt := h.tail.bounds t
      rw [hoff] at ht ⊢
      have hreached : c.1 + max o c.2 ≤ wall := by
        by_contra hbefore
        have hnear : offsetFrom c.2 cs t = c.2 := offsetFrom_of_lt fun e he => by
          have := hfar e he
          omega
        -- the time also occurred before the change
        have hback := honce (wall - o) (by omega) (by
          rw [offsetFrom, if_neg (by omega)]
          omega)
        omega
      rw [if_pos hreached]
      refine ih h.tail hfar hst ht fun t' ht' he => honce t' (by omega) ?_
      rw [offsetFrom, if_pos ht']
      exact he
    · have hoff : offsetFrom o (c :: cs) t = o := if_neg hst
      rw [hoff] at ht ⊢
      exact if_neg (by omega)

/-- The search by wall time finds the instant of a time that occurs once. -/
theorem sub_wallOffset_eq (h : Spaced d o cs) {t wall : Int} (ht : t + offsetFrom o cs t = wall)
    (honce : ∀ t', t' + offsetFrom o cs t' = wall → t' = t) : wall - wallOffset o cs wall = t := by
  obtain ⟨lo, hlot, hlo⟩ : ∃ lo, lo ≤ t ∧ ∀ c ∈ cs, lo + 2 * d ≤ c.1 := by
    cases cs with
    | nil => exact ⟨t, le_refl t, fun c hc => by cases hc⟩
    | cons c cs =>
      refine ⟨min t (c.1 - 2 * d), min_le_left _ _, fun e he => ?_⟩
      rcases List.mem_cons.1 he with rfl | he
      · omega
      · have := (List.pairwise_cons.1 h.apart).1 e he
        have := h.first
        omega
  rw [wallOffset_eq h hlo hlot ht fun t' _ he => honce t' he]
  omega

end

end ZoneOffsets
