import Mathlib

/-!
# Division of whole numbers in binary floating point

A quotient is rounded to the nearest number of `p` significant bits, ties to even.  Below
`2 ^ p` the rounding never carries a quotient over a whole number, so rounding down after it
is exact division:

    0 ≤ a → a < 2 ^ p → 0 < b → ⌊round p (a / b)⌋ = a / b     (floor_round_div)

Exponents are not bounded here: no number in use overflows or is subnormal.
-/

namespace Doubles

/-- The nearest whole number, ties to even. -/
def nearest (x : ℚ) : ℤ :=
  let below := ⌊x⌋
  if x - below < 1 / 2 then below
  else if 1 / 2 < x - below then below + 1
  else if below % 2 = 0 then below
  else below + 1

/-- The distance between two neighbours of `p` bits where `x` lies. -/
def spacing (p : ℕ) (x : ℚ) : ℚ := 2 ^ (Int.log 2 |x| - p + 1)

def round (p : ℕ) (x : ℚ) : ℚ := spacing p x * nearest (x / spacing p x)

theorem nearest_intCast (n : ℤ) : nearest n = n := by
  simp [nearest]

theorem abs_nearest_sub_le (x : ℚ) : |(nearest x : ℚ) - x| ≤ 1 / 2 := by
  have h0 := Int.floor_le x
  have h1 := Int.lt_floor_add_one x
  simp only [nearest]
  split
  · rw [abs_le]
    constructor <;> linarith
  · split
    · rw [abs_le]
      push_cast
      constructor <;> linarith
    · split
      · rw [abs_le]
        constructor <;> linarith
      · rw [abs_le]
        push_cast
        constructor <;> linarith

theorem spacing_pos (p : ℕ) (x : ℚ) : 0 < spacing p x := by
  unfold spacing
  positivity

/-- A number spans at least `2 ^ (p - 1)` of its own spacings. -/
theorem spacing_mul_le {x : ℚ} (hx : 0 < x) (p : ℕ) : spacing p x * 2 ^ p ≤ 2 * x := by
  have hl : ((2 : ℕ) : ℚ) ^ Int.log 2 x ≤ x := Int.zpow_log_le_self (by omega) hx
  have he : spacing p x * 2 ^ p = 2 * 2 ^ Int.log 2 x := by
    rw [spacing, abs_of_pos hx, ← zpow_natCast, ← zpow_add₀ (by norm_num), mul_comm,
      ← zpow_add_one₀ (by norm_num)]
    congr 1
    ring
  rw [he]
  push_cast at hl
  linarith

theorem abs_round_sub_le {x : ℚ} (hx : 0 < x) (p : ℕ) : |round p x - x| * 2 ^ p ≤ x := by
  have hs := spacing_pos p x
  have hn := abs_nearest_sub_le (x / spacing p x)
  have he : round p x - x = spacing p x * (nearest (x / spacing p x) - x / spacing p x) := by
    rw [mul_sub, mul_div_cancel₀ _ hs.ne', round]
  rw [he, abs_mul, abs_of_pos hs]
  have hm := spacing_mul_le hx p
  have hp : (0 : ℚ) < 2 ^ p := by positivity
  calc spacing p x * |(nearest (x / spacing p x) : ℚ) - x / spacing p x| * 2 ^ p
      ≤ spacing p x * (1 / 2) * 2 ^ p := by gcongr
    _ = spacing p x * 2 ^ p / 2 := by ring
    _ ≤ x := by linarith

theorem round_pos {x : ℚ} (hx : 0 < x) {p : ℕ} (hp : p ≠ 0) : 0 < round p x := by
  by_contra hle
  have hfar : x ≤ |round p x - x| := by
    rw [abs_sub_comm]
    exact (by linarith : x ≤ x - round p x).trans (le_abs_self _)
  have h2 : (2 : ℚ) ≤ 2 ^ p := le_self_pow₀ (by norm_num) hp
  have : x * 2 ≤ |round p x - x| * 2 ^ p := by gcongr
  linarith [abs_round_sub_le hx p]

@[simp] theorem round_zero (p : ℕ) : round p 0 = 0 := by
  simp [round, nearest]

theorem round_nonneg {x : ℚ} (hx : 0 ≤ x) {p : ℕ} (hp : p ≠ 0) : 0 ≤ round p x := by
  rcases hx.lt_or_eq with hpos | rfl
  · exact (round_pos hpos hp).le
  · rw [round_zero]

/-- A whole number below `2 ^ p` is a whole number of its spacings. -/
theorem exists_div_spacing {p n : ℕ} (hn : n < 2 ^ p) : ∃ m : ℤ, (n : ℚ) / spacing p n = m := by
  rcases Nat.eq_zero_or_pos n with rfl | hpos
  · exact ⟨0, by simp⟩
  · have hl : Int.log 2 |(n : ℚ)| = Nat.log 2 n := by
      rw [abs_of_nonneg (by positivity), Int.log_natCast]
    have hlog : Nat.log 2 n < p := Nat.log_lt_of_lt_pow hpos.ne' hn
    have hs : spacing p (n : ℚ) * (2 : ℚ) ^ (p - 1 - Nat.log 2 n) = 1 := by
      rw [spacing, hl, ← zpow_natCast, ← zpow_add₀ (by norm_num)]
      have hz : (Nat.log 2 n : ℤ) - p + 1 + ((p - 1 - Nat.log 2 n : ℕ) : ℤ) = 0 := by omega
      rw [hz, zpow_zero]
    refine ⟨(n * 2 ^ (p - 1 - Nat.log 2 n) : ℕ), ?_⟩
    rw [div_eq_iff (spacing_pos p (n : ℚ)).ne']
    push_cast
    rw [mul_assoc, mul_comm ((2 : ℚ) ^ _), hs, mul_one]

/-- Whole numbers below `2 ^ p` are kept. -/
theorem round_intCast {p : ℕ} {n : ℤ} (hn : |n| < 2 ^ p) : round p n = n := by
  have habs : |(n : ℚ)| = n.natAbs := by rw [Nat.cast_natAbs, Int.cast_abs]
  have hs : spacing p n = spacing p n.natAbs := by rw [spacing, spacing, habs, abs_of_nonneg (by positivity)]
  obtain ⟨m, hm⟩ := exists_div_spacing (p := p) (n := n.natAbs) (by zify; exact hn)
  rw [← hs] at hm
  have hpos := (spacing_pos p (n : ℚ)).ne'
  obtain ⟨k, hk⟩ : ∃ k : ℤ, (n : ℚ) / spacing p n = k := by
    rcases Int.natAbs_eq n with he | he
    · exact ⟨m, by rw [← hm, ← Int.cast_natCast, ← he]⟩
    · refine ⟨-m, ?_⟩
      rw [Int.cast_neg, ← hm, ← neg_div, ← Int.cast_natCast, ← Int.cast_neg, ← he]
  rw [round, hk, nearest_intCast, ← hk, mul_div_cancel₀ _ hpos]

theorem round_natCast {p n : ℕ} (hn : n < 2 ^ p) : round p n = n := by
  have := @round_intCast p n (by rw [Nat.abs_cast]; exact_mod_cast hn)
  exact_mod_cast this

/-- Rounding a quotient down after rounding it to `p` bits is exact below `2 ^ p`. -/
theorem floor_round_div {p : ℕ} {a b : ℤ} (ha : 0 ≤ a) (hlt : a < 2 ^ p) (hb : 0 < b) :
    ⌊round p (a / b)⌋ = a / b := by
  have hbq : (0 : ℚ) < b := by exact_mod_cast hb
  have hp : (0 : ℚ) < 2 ^ p := by positivity
  have hm := Int.mul_ediv_add_emod a b
  have hr0 := Int.emod_nonneg a hb.ne'
  have hr1 := Int.emod_lt_of_pos a hb
  by_cases hr : a % b = 0
  · -- the quotient is whole
    have hq0 : 0 ≤ a / b := Int.ediv_nonneg ha hb.le
    have hqa : a / b ≤ a := Int.ediv_le_self b ha
    have hw : (a : ℚ) / b = ((a / b).toNat : ℕ) := by
      rw [div_eq_iff hbq.ne']
      have hz : a = ((a / b).toNat : ℤ) * b := by
        rw [Int.toNat_of_nonneg hq0, mul_comm]
        omega
      exact_mod_cast hz
    rw [hw, round_natCast (by zify; omega), Int.floor_natCast]
    omega
  · -- it keeps at least one part of `b` from the whole numbers on both sides
    have hpos : (0 : ℚ) < a / b := by
      have : a ≠ 0 := fun h0 => hr (by rw [h0, Int.zero_emod])
      have haq : (0 : ℚ) < a := by exact_mod_cast (by omega : 0 < a)
      positivity
    have hlow : ((a / b : ℤ) : ℚ) + 1 / b ≤ a / b := by
      rw [← sub_nonneg]
      have : (0 : ℚ) ≤ ((a % b - 1 : ℤ) : ℚ) := by exact_mod_cast (by omega : 0 ≤ a % b - 1)
      have he : (a : ℚ) / b - ((a / b : ℤ) + 1 / b) = ((a % b - 1 : ℤ) : ℚ) / b := by
        have hc : (a : ℚ) = b * (a / b : ℤ) + (a % b : ℤ) := by exact_mod_cast hm.symm
        push_cast
        rw [hc]
        field_simp
        ring
      rw [he]
      positivity
    have hhigh : (a : ℚ) / b + 1 / b ≤ ((a / b : ℤ) : ℚ) + 1 := by
      rw [← sub_nonneg]
      have : (0 : ℚ) ≤ ((b - 1 - a % b : ℤ) : ℚ) := by exact_mod_cast (by omega : 0 ≤ b - 1 - a % b)
      have he : ((a / b : ℤ) : ℚ) + 1 - (a / b + 1 / b) = ((b - 1 - a % b : ℤ) : ℚ) / b := by
        have hc : (a : ℚ) = b * (a / b : ℤ) + (a % b : ℤ) := by exact_mod_cast hm.symm
        push_cast
        rw [hc]
        field_simp
        ring
      rw [he]
      positivity
    have herr : |round p ((a : ℚ) / b) - a / b| < 1 / b := by
      have h := abs_round_sub_le hpos p
      have haq : (a : ℚ) < 2 ^ p := by exact_mod_cast hlt
      have hs : (a : ℚ) / b < 1 / b * 2 ^ p := by
        rw [div_lt_iff₀ hbq]
        field_simp
        exact haq
      exact lt_of_mul_lt_mul_right (h.trans_lt hs) hp.le
    obtain ⟨h1, h2⟩ := abs_lt.1 herr
    rw [Int.floor_eq_iff]
    constructor <;> linarith

/-- Halving both sides of a quotient doubles the room. -/
theorem floor_round_div_two_mul {p : ℕ} {a b : ℤ} (ha : 0 ≤ a) (hlt : a < 2 ^ p) (hb : 0 < b) :
    ⌊round p (((2 * a : ℤ) : ℚ) / ((2 * b : ℤ) : ℚ))⌋ = 2 * a / (2 * b) := by
  have he : ((2 * a : ℤ) : ℚ) / ((2 * b : ℤ) : ℚ) = a / b := by
    push_cast
    rw [mul_div_mul_left _ _ (by norm_num)]
  rw [he, floor_round_div ha hlt hb, Int.mul_ediv_mul_of_pos _ _ (by omega)]

end Doubles
