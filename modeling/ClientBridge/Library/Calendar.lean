import Mathlib

/-!
# The proleptic Gregorian calendar

Months are counted through (`12 * year + month - 1`), so a date is a month and a day that the month
has.  `ordinal` numbers the days, day 1 being the first of January of year 1, and dates are ordered
as their ordinals are, which is by month and then by day.
-/

namespace Calendar

def isLeap (year : Int) : Bool := year % 4 = 0 && (year % 100 ≠ 0 || year % 400 = 0)

/-- How many days a month has. -/
def monthLength (month : Int) : Int :=
  if month % 12 = 1 then (if isLeap (month / 12) then 29 else 28)
  else if month % 12 = 3 ∨ month % 12 = 5 ∨ month % 12 = 8 ∨ month % 12 = 10 then 30
  else 31

/-- The days before the first of January. -/
def yearStart (year : Int) : Int := 365 * (year - 1) + (year - 1) / 4 - (year - 1) / 100 + (year - 1) / 400

/-- The days of a year before a month of it, January being 0. -/
def daysBefore (leap : Bool) : Int → Int
  | 0 => 0
  | 1 => 31
  | m => (if leap then 60 else 59) + (153 * (m - 2) + 2) / 5

/-- The days before the first of a month. -/
def monthStart (month : Int) : Int := yearStart (month / 12) + daysBefore (isLeap (month / 12)) (month % 12)

theorem monthLength_bounds (month : Int) : 28 ≤ monthLength month ∧ monthLength month ≤ 31 := by
  unfold monthLength
  split
  · split <;> omega
  · split <;> omega

theorem yearStart_succ (year : Int) : yearStart (year + 1) = yearStart year + (if isLeap year then 366 else 365) := by
  simp only [yearStart, isLeap]
  by_cases h4 : year % 4 = 0 <;> by_cases h100 : year % 100 = 0 <;> by_cases h400 : year % 400 = 0 <;>
    simp [h4, h100, h400] <;> omega

/-- A month starts right after the last day of the one before. -/
theorem monthStart_succ (month : Int) : monthStart (month + 1) = monthStart month + monthLength month := by
  obtain ⟨year, m, rfl, h0, h12⟩ : ∃ year m, month = 12 * year + m ∧ 0 ≤ m ∧ m < 12 :=
    ⟨month / 12, month % 12, by omega, by omega, by omega⟩
  have hm : (12 * year + m) % 12 = m := by omega
  have hy : (12 * year + m) / 12 = year := by omega
  by_cases hlast : m = 11
  · subst hlast
    have hm' : (12 * year + 11 + 1) % 12 = 0 := by omega
    have hy' : (12 * year + 11 + 1) / 12 = year + 1 := by omega
    simp only [monthStart, monthLength, hm, hy, hm', hy', yearStart_succ, daysBefore]
    cases isLeap year <;> simp
    all_goals omega
  · have hm' : (12 * year + m + 1) % 12 = m + 1 := by omega
    have hy' : (12 * year + m + 1) / 12 = year := by omega
    simp only [monthStart, monthLength, hm, hy, hm', hy']
    interval_cases m <;> cases isLeap year <;> simp [daysBefore] at * <;> omega

/-- Months later start later, by at least 28 days a month. -/
theorem monthStart_add_le (month : Int) (n : Nat) : monthStart month + 28 * n ≤ monthStart (month + n) := by
  induction n with
  | zero => simp
  | succ n ih =>
    have hsucc := monthStart_succ (month + n)
    have hlen := monthLength_bounds (month + n)
    push_cast
    rw [← add_assoc]
    omega

theorem monthStart_lt {a b : Int} (h : a < b) : monthStart a + monthLength a ≤ monthStart b := by
  have hle := monthStart_add_le (a + 1) (b - (a + 1)).toNat
  rw [show a + 1 + ((b - (a + 1)).toNat : Int) = b by omega, monthStart_succ] at hle
  omega

/-! ## Dates -/

@[ext]
structure CivilDate where
  month : Int
  day : Int
  one_le : 1 ≤ day
  le_length : day ≤ monthLength month
  deriving DecidableEq

namespace CivilDate

def year (d : CivilDate) : Int := d.month / 12

def ordinal (d : CivilDate) : Int := monthStart d.month + d.day

/-- Monday is 0. -/
def weekday (d : CivilDate) : Int := (d.ordinal + 6) % 7

theorem ordinal_lt_of_month_lt {a b : CivilDate} (h : a.month < b.month) : a.ordinal < b.ordinal := by
  have := monthStart_lt h
  have ha := a.le_length
  have hb := b.one_le
  unfold ordinal
  omega

theorem ordinal_lt_iff {a b : CivilDate} :
    a.ordinal < b.ordinal ↔ a.month < b.month ∨ a.month = b.month ∧ a.day < b.day := by
  rcases lt_trichotomy a.month b.month with hlt | heq | hgt
  · exact ⟨fun _ => .inl hlt, fun _ => ordinal_lt_of_month_lt hlt⟩
  · unfold ordinal
    rw [heq]
    omega
  · have := ordinal_lt_of_month_lt hgt
    omega

theorem ordinal_injective : Function.Injective ordinal := by
  intro a b h
  have hab : ¬(a.month < b.month ∨ a.month = b.month ∧ a.day < b.day) := fun hlt => (ordinal_lt_iff.2 hlt).ne h
  have hba : ¬(b.month < a.month ∨ b.month = a.month ∧ b.day < a.day) := fun hlt => (ordinal_lt_iff.2 hlt).ne h.symm
  ext <;> omega

instance : LinearOrder CivilDate := LinearOrder.lift' ordinal ordinal_injective

theorem lt_iff {a b : CivilDate} : a < b ↔ a.ordinal < b.ordinal := Iff.rfl

theorem le_iff {a b : CivilDate} : a ≤ b ↔ a.ordinal ≤ b.ordinal := Iff.rfl

/-! ## Days later and earlier -/

/-- The first of a month. -/
def first (month : Int) : CivilDate := ⟨month, 1, le_refl 1, by have := monthLength_bounds month; omega⟩

/-- The last of a month. -/
def last (month : Int) : CivilDate :=
  ⟨month, monthLength month, by have := monthLength_bounds month; omega, le_refl _⟩

def next (d : CivilDate) : CivilDate :=
  if h : d.day < monthLength d.month then ⟨d.month, d.day + 1, by have := d.one_le; omega, h⟩ else first (d.month + 1)

def prev (d : CivilDate) : CivilDate :=
  if h : 1 < d.day then ⟨d.month, d.day - 1, by omega, by have := d.le_length; omega⟩ else last (d.month - 1)

@[simp] theorem ordinal_first (month : Int) : (first month).ordinal = monthStart month + 1 := rfl

@[simp] theorem ordinal_last (month : Int) : (last month).ordinal = monthStart month + monthLength month := rfl

@[simp] theorem ordinal_next (d : CivilDate) : d.next.ordinal = d.ordinal + 1 := by
  unfold next
  split
  · exact (add_assoc _ _ _).symm
  · next h =>
    have := d.le_length
    rw [ordinal_first, monthStart_succ, ordinal]
    omega

@[simp] theorem ordinal_prev (d : CivilDate) : d.prev.ordinal = d.ordinal - 1 := by
  unfold prev
  split
  · exact Int.add_sub_assoc _ _ _ |>.symm
  · next h =>
    have hone := d.one_le
    have hsucc := monthStart_succ (d.month - 1)
    rw [sub_add_cancel] at hsucc
    rw [ordinal_last, ordinal, hsucc]
    omega

/-- The date a number of days later. -/
def addDays (d : CivilDate) : Int → CivilDate
  | .ofNat n => next^[n] d
  | .negSucc n => prev^[n + 1] d

@[simp] theorem ordinal_addDays (d : CivilDate) (n : Int) : (d.addDays n).ordinal = d.ordinal + n := by
  have hnext : ∀ n : Nat, (next^[n] d).ordinal = d.ordinal + n := by
    intro n
    induction n with
    | zero => simp
    | succ n ih => rw [Function.iterate_succ_apply', ordinal_next, ih]; push_cast; omega
  have hprev : ∀ n : Nat, (prev^[n] d).ordinal = d.ordinal - n := by
    intro n
    induction n with
    | zero => simp
    | succ n ih => rw [Function.iterate_succ_apply', ordinal_prev, ih]; push_cast; omega
  cases n with
  | ofNat n => exact hnext n
  | negSucc n => rw [addDays, hprev, Int.negSucc_eq]; push_cast; omega

theorem addDays_addDays (d : CivilDate) (m n : Int) : (d.addDays m).addDays n = d.addDays (m + n) :=
  ordinal_injective (by simp only [ordinal_addDays]; omega)

@[simp] theorem addDays_zero (d : CivilDate) : d.addDays 0 = d := rfl

/-- The date of an ordinal, found from the first of a month that is near. -/
def ofOrdinal (n : Int) : CivilDate :=
  let near := first (n * 4800 / 146097 + 12)
  near.addDays (n - near.ordinal)

@[simp] theorem ordinal_ofOrdinal (n : Int) : (ofOrdinal n).ordinal = n := by
  rw [ofOrdinal, ordinal_addDays]
  omega

/-! ## Months later and earlier -/

/-- The date a number of months later, on the last day of a month that is too short. -/
def addMonths (d : CivilDate) (n : Int) : CivilDate where
  month := d.month + n
  day := min d.day (monthLength (d.month + n))
  one_le := le_min d.one_le (by have := monthLength_bounds (d.month + n); omega)
  le_length := min_le_right _ _

@[simp] theorem month_addMonths (d : CivilDate) (n : Int) : (d.addMonths n).month = d.month + n := rfl

@[simp] theorem day_addMonths (d : CivilDate) (n : Int) :
    (d.addMonths n).day = min d.day (monthLength (d.month + n)) := rfl

@[simp] theorem addMonths_zero (d : CivilDate) : d.addMonths 0 = d := by
  ext
  · simp
  · have := d.le_length
    simp [this]

theorem lt_of_month_lt {a b : CivilDate} (h : a.month < b.month) : a < b := ordinal_lt_of_month_lt h

end CivilDate

end Calendar
