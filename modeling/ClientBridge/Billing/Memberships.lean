import ClientBridge.Library.Calendar

/-!
# Membership periods

Stripe sets a period's end to the membership's anchor a number of intervals later, on the last day of
a month that is too short.  The start of a period is taken to be its end one interval earlier, which is
the end before only if the earlier day still exists in the later month (`periodStart_boundary_iff`).
-/

namespace ClientBridge

open Calendar

inductive Frequency where
  | day | week | month | year
  deriving DecidableEq, Repr

def dayMicros : Int := 86400000000

/-- A UTC datetime: the date and the microseconds since its midnight. -/
@[ext]
structure Timestamp where
  date : CivilDate
  micros : Int
  nonneg : 0 ≤ micros
  lt_day : micros < dayMicros

namespace Timestamp

instance : DecidableEq Timestamp := fun s t =>
  decidable_of_iff (s.date = t.date ∧ s.micros = t.micros) Timestamp.ext_iff.symm

/-- The microseconds from the day before year 1. -/
def instant (t : Timestamp) : Int := t.date.ordinal * dayMicros + t.micros

def onDate (t : Timestamp) (d : CivilDate) : Timestamp := { t with date := d }

@[simp] theorem date_onDate (t : Timestamp) (d : CivilDate) : (t.onDate d).date = d := rfl

@[simp] theorem onDate_onDate (t : Timestamp) (d e : CivilDate) : (t.onDate d).onDate e = t.onDate e := rfl

end Timestamp

/-- `_shift` -/
def shift (t : Timestamp) (interval : Int) (frequency : Frequency) (sign : Int) : Timestamp :=
  match frequency with
  | .day => t.onDate (t.date.addDays (sign * interval))
  | .week => t.onDate (t.date.addDays (sign * (7 * interval)))
  | .month => t.onDate (t.date.addMonths (sign * interval * 1))
  | .year => t.onDate (t.date.addMonths (sign * interval * 12))

/-- The start of the billing period that ends at `ends`. -/
def periodStart (ends : Timestamp) (interval : Int) (frequency : Frequency) : Timestamp :=
  shift ends interval frequency (-1)

/-- The loop of `current_period_start`: a period end rolled past now, or none if the fuel ran out. -/
def rollEnd (interval : Int) (frequency : Frequency) (now : Timestamp) : Nat → Timestamp → Option Timestamp
  | 0, _ => none
  | fuel + 1, ends =>
    if ends.instant ≤ now.instant then rollEnd interval frequency now fuel (shift ends interval frequency 1) else some ends

/-- The start of the period in force now, rolling a period end a late renewal left behind. -/
def currentPeriodStart (fuel : Nat) (ends : Timestamp) (interval : Int) (frequency : Frequency) (now : Timestamp) :
    Option Timestamp :=
  (rollEnd interval frequency now fuel ends).map fun e => periodStart e interval frequency

/-- The membership's completed visits that count against the period (`SubscriptionService.cover_visit`). -/
def periodVisits (completedAt : List Timestamp) (start : Timestamp) : Nat :=
  (completedAt.filter fun t => decide (start.instant ≤ t.instant)).length

/-- The period ends as the biller sets them: the anchor and a number of intervals. -/
def boundary (anchor : Timestamp) (interval : Int) (frequency : Frequency) (k : Int) : Timestamp :=
  shift anchor (k * interval) frequency 1

/-! ## What is claimed, and when -/

def byDays : Frequency → Bool
  | .day => true
  | .week => true
  | _ => false

/-- The day a boundary falls on is in every month up to the next boundary's, from the stored end on, and
that next day is still to come. -/
def KeepsDay (anchor : Timestamp) (interval : Int) (frequency : Frequency) (k K : Int) (now : Timestamp) : Prop :=
  byDays frequency = true ∨
    (∀ j, k ≤ j → j ≤ K + 1 → (boundary anchor interval frequency K).date.day ≤
      monthLength (boundary anchor interval frequency j).date.month) ∧
    now.instant < (shift (boundary anchor interval frequency K) interval frequency 1).instant

/-! ## Steps of an interval -/

section
variable {interval : Int} {frequency : Frequency}

/-- The days or months of an interval. -/
def span (interval : Int) : Frequency → Int
  | .day => interval
  | .week => 7 * interval
  | .month => interval
  | .year => 12 * interval

theorem shift_byDays (hdays : byDays frequency = true) (t : Timestamp) (n sign : Int) :
    shift t n frequency sign = t.onDate (t.date.addDays (sign * span n frequency)) := by
  cases frequency with
  | day => rfl
  | week => rfl
  | month => cases hdays
  | year => cases hdays

theorem shift_byMonths (hdays : byDays frequency = false) (t : Timestamp) (n sign : Int) :
    shift t n frequency sign = t.onDate (t.date.addMonths (sign * span n frequency)) := by
  cases frequency with
  | day => cases hdays
  | week => cases hdays
  | month => rw [shift, span, mul_one]
  | year => rw [shift, span, mul_assoc, mul_comm n 12]

theorem span_mul (k n : Int) : span (k * n) frequency = k * span n frequency := by
  cases frequency <;> simp only [span] <;> ring

theorem span_pos (h : 0 < interval) : 0 < span interval frequency := by
  cases frequency <;> simp only [span] <;> omega

theorem instant_lt_of_date_lt {s t : Timestamp} (h : s.date < t.date) : s.instant < t.instant := by
  have hord : s.date.ordinal + 1 ≤ t.date.ordinal := CivilDate.lt_iff.1 h
  have hs := s.lt_day
  have ht := t.nonneg
  unfold Timestamp.instant
  unfold dayMicros at *
  omega

theorem instant_le_of_day_le {s t : Timestamp} (hmicros : s.micros = t.micros) (hmonth : s.date.month = t.date.month)
    (hday : s.date.day ≤ t.date.day) : s.instant ≤ t.instant := by
  unfold Timestamp.instant CivilDate.ordinal dayMicros
  rw [hmonth, hmicros]
  omega

theorem date_shift_lt (h : 0 < interval) (t : Timestamp) : t.date < (shift t interval frequency 1).date := by
  have hspan : 0 < span interval frequency := span_pos h
  by_cases hdays : byDays frequency = true
  · rw [shift_byDays hdays, Timestamp.date_onDate, CivilDate.lt_iff, CivilDate.ordinal_addDays]
    omega
  · rw [shift_byMonths (Bool.eq_false_iff.2 hdays)]
    refine CivilDate.lt_of_month_lt ?_
    rw [Timestamp.date_onDate, CivilDate.month_addMonths]
    omega

theorem instant_shift_lt (h : 0 < interval) (t : Timestamp) : t.instant < (shift t interval frequency 1).instant :=
  instant_lt_of_date_lt (date_shift_lt h t)

/-- The loop ends at the first end that is past now. -/
theorem rollEnd_eq {now ends : Timestamp} {J : Nat}
    (hbefore : ∀ j < J, ((shift · interval frequency 1)^[j] ends).instant ≤ now.instant)
    (hpast : now.instant < ((shift · interval frequency 1)^[J] ends).instant) {fuel : Nat} (hfuel : J < fuel) :
    rollEnd interval frequency now fuel ends = some ((shift · interval frequency 1)^[J] ends) := by
  induction J generalizing ends fuel with
  | zero =>
    obtain ⟨fuel, rfl⟩ : ∃ n, fuel = n + 1 := ⟨fuel - 1, by omega⟩
    exact if_neg (not_le.2 hpast)
  | succ J ih =>
    obtain ⟨fuel, rfl⟩ : ∃ n, fuel = n + 1 := ⟨fuel - 1, by omega⟩
    rw [Function.iterate_succ_apply] at hpast ⊢
    refine (if_pos (hbefore 0 (Nat.succ_pos J))).trans (ih (fun j hj => ?_) hpast (by omega))
    have := hbefore (j + 1) (by omega)
    rwa [Function.iterate_succ_apply] at this

/-- Rolled often enough, an end is past now. -/
theorem exists_past (h : 0 < interval) (now ends : Timestamp) :
    ∃ J, now.instant < ((shift · interval frequency 1)^[J] ends).instant := by
  have hgrows : ∀ j : Nat, ends.instant + j ≤ ((shift · interval frequency 1)^[j] ends).instant := by
    intro j
    induction j with
    | zero => simp
    | succ j ih =>
      have := @instant_shift_lt interval frequency h ((shift · interval frequency 1)^[j] ends)
      rw [Function.iterate_succ_apply']
      push_cast
      omega
  have := hgrows (now.instant - ends.instant + 1).toNat
  exact ⟨(now.instant - ends.instant + 1).toNat, by omega⟩

/-- The period in force starts one interval before the first end past now. -/
theorem currentPeriodStart_eq (h : 0 < interval) (now ends : Timestamp) : ∃ J,
    (∀ j < J, ((shift · interval frequency 1)^[j] ends).instant ≤ now.instant) ∧
    now.instant < ((shift · interval frequency 1)^[J] ends).instant ∧
    ∀ fuel > J, currentPeriodStart fuel ends interval frequency now =
      some (periodStart ((shift · interval frequency 1)^[J] ends) interval frequency) := by
  have hex := @exists_past interval frequency h now ends
  have hbefore : ∀ j < Nat.find hex, ((shift · interval frequency 1)^[j] ends).instant ≤ now.instant :=
    fun j hj => not_lt.1 (Nat.find_min hex hj)
  refine ⟨Nat.find hex, hbefore, Nat.find_spec hex, fun fuel hfuel => ?_⟩
  rw [currentPeriodStart, rollEnd_eq hbefore (Nat.find_spec hex) hfuel]
  rfl

/-! ## Boundaries -/

section
variable {anchor : Timestamp}

theorem boundary_byDays (hdays : byDays frequency = true) (k : Int) : boundary anchor interval frequency k =
    anchor.onDate (anchor.date.addDays (k * span interval frequency)) := by
  rw [boundary, shift_byDays hdays, span_mul, one_mul]

theorem boundary_byMonths (hdays : byDays frequency = false) (k : Int) : boundary anchor interval frequency k =
    anchor.onDate (anchor.date.addMonths (k * span interval frequency)) := by
  rw [boundary, shift_byMonths hdays, span_mul, one_mul]

theorem boundary_date_lt (h : 0 < interval) (k : Int) :
    (boundary anchor interval frequency k).date < (boundary anchor interval frequency (k + 1)).date := by
  have hspan : 0 < span interval frequency := span_pos h
  by_cases hdays : byDays frequency = true
  · rw [boundary_byDays hdays, boundary_byDays hdays, Timestamp.date_onDate, Timestamp.date_onDate, CivilDate.lt_iff,
      CivilDate.ordinal_addDays, CivilDate.ordinal_addDays, add_mul]
    omega
  · rw [boundary_byMonths (Bool.eq_false_iff.2 hdays), boundary_byMonths (Bool.eq_false_iff.2 hdays)]
    refine CivilDate.lt_of_month_lt ?_
    rw [Timestamp.date_onDate, Timestamp.date_onDate, CivilDate.month_addMonths, CivilDate.month_addMonths, add_mul]
    omega

/-- Shifting a boundary by days gives the next or the one before. -/
theorem shift_boundary (hdays : byDays frequency = true) (k sign : Int) :
    shift (boundary anchor interval frequency k) interval frequency sign = boundary anchor interval frequency (k + sign) := by
  rw [boundary_byDays hdays, boundary_byDays hdays, shift_byDays hdays, Timestamp.onDate_onDate, Timestamp.date_onDate,
    CivilDate.addDays_addDays, ← add_mul]

theorem iterate_boundary (hdays : byDays frequency = true) (k : Int) (j : Nat) :
    (shift · interval frequency 1)^[j] (boundary anchor interval frequency k) =
      boundary anchor interval frequency (k + j) := by
  induction j with
  | zero => simp
  | succ j ih =>
    rw [Function.iterate_succ_apply', ih, shift_boundary hdays]
    push_cast
    rw [add_assoc]

theorem boundary_instant_lt (h : 0 < interval) {i j : Int} (hij : i < j) :
    (boundary anchor interval frequency i).instant < (boundary anchor interval frequency j).instant := by
  obtain ⟨n, rfl⟩ : ∃ n : Nat, j = i + 1 + n := ⟨(j - (i + 1)).toNat, by omega⟩
  have hnext := fun k => instant_lt_of_date_lt (@boundary_date_lt interval frequency anchor h k)
  induction n with
  | zero => simpa using hnext i
  | succ n ih =>
    refine (ih (by omega)).trans ?_
    have := hnext (i + 1 + n)
    rwa [add_assoc (i + 1)] at this

/-! ## Months: the day that is left -/

section
variable (hmonths : byDays frequency = false)
include hmonths

theorem month_boundary (k : Int) :
    (boundary anchor interval frequency k).date.month = anchor.date.month + k * span interval frequency := by
  rw [boundary_byMonths hmonths]
  rfl

theorem day_boundary (k : Int) : (boundary anchor interval frequency k).date.day =
    min anchor.date.day (monthLength (boundary anchor interval frequency k).date.month) := by
  rw [boundary_byMonths hmonths]
  rfl

theorem micros_boundary (k : Int) : (boundary anchor interval frequency k).micros = anchor.micros := by
  rw [boundary_byMonths hmonths]
  rfl

theorem month_shift (t : Timestamp) (sign : Int) :
    (shift t interval frequency sign).date.month = t.date.month + sign * span interval frequency := by
  rw [shift_byMonths hmonths]
  rfl

theorem day_shift (t : Timestamp) (sign : Int) : (shift t interval frequency sign).date.day =
    min t.date.day (monthLength (shift t interval frequency sign).date.month) := by
  rw [shift_byMonths hmonths]
  rfl

theorem micros_shift (t : Timestamp) (sign : Int) : (shift t interval frequency sign).micros = t.micros := by
  rw [shift_byMonths hmonths]
  rfl

/-- The start of a boundary's period is the boundary before exactly if that one's day is in the later
month. -/
theorem periodStart_boundary_iff (k : Int) :
    periodStart (boundary anchor interval frequency (k + 1)) interval frequency = boundary anchor interval frequency k ↔
      (boundary anchor interval frequency k).date.day ≤
        monthLength (boundary anchor interval frequency (k + 1)).date.month := by
  have hmonth : (periodStart (boundary anchor interval frequency (k + 1)) interval frequency).date.month =
      (boundary anchor interval frequency k).date.month := by
    rw [periodStart, month_shift hmonths, month_boundary hmonths, month_boundary hmonths, add_mul]
    omega
  have hday : (periodStart (boundary anchor interval frequency (k + 1)) interval frequency).date.day =
      min (boundary anchor interval frequency (k + 1)).date.day
        (monthLength (boundary anchor interval frequency k).date.month) := by
    rw [← hmonth]
    exact day_shift hmonths _ _
  have hk := @day_boundary interval frequency anchor hmonths k
  have hk1 := @day_boundary interval frequency anchor hmonths (k + 1)
  constructor
  · intro heq
    rw [heq] at hday
    omega
  · intro hle
    have hmicros : (periodStart (boundary anchor interval frequency (k + 1)) interval frequency).micros =
        (boundary anchor interval frequency k).micros := by
      rw [periodStart, micros_shift hmonths, micros_boundary hmonths, micros_boundary hmonths]
    refine Timestamp.ext (CivilDate.ext hmonth ?_) hmicros
    omega

/-- The month of an end that was rolled, and its day: the least of those passed on the way. -/
theorem iterate_month (k : Int) (j : Nat) :
    ((shift · interval frequency 1)^[j] (boundary anchor interval frequency k)).date.month =
      (boundary anchor interval frequency (k + j)).date.month := by
  induction j with
  | zero => simp
  | succ j ih =>
    rw [Function.iterate_succ_apply', month_shift hmonths, ih, month_boundary hmonths, month_boundary hmonths]
    push_cast
    ring

theorem iterate_micros (k : Int) (j : Nat) :
    ((shift · interval frequency 1)^[j] (boundary anchor interval frequency k)).micros = anchor.micros := by
  induction j with
  | zero => exact micros_boundary hmonths k
  | succ j ih => rw [Function.iterate_succ_apply', micros_shift hmonths, ih]

theorem le_iterate_day (k : Int) (j : Nat) (day : Int) :
    day ≤ ((shift · interval frequency 1)^[j] (boundary anchor interval frequency k)).date.day ↔
      ∀ i, k ≤ i → i ≤ k + j → day ≤ (boundary anchor interval frequency i).date.day := by
  induction j with
  | zero =>
    constructor
    · intro hle i hk hi
      obtain rfl : i = k := by omega
      exact hle
    · intro hall
      exact hall k (le_refl k) (by omega)
  | succ j ih =>
    have hmonth := @iterate_month interval frequency anchor hmonths k (j + 1)
    rw [Function.iterate_succ_apply'] at hmonth ⊢
    rw [day_shift hmonths, hmonth, le_min_iff, ih]
    have hnext := @day_boundary interval frequency anchor hmonths (k + (j + 1 : Nat))
    have hfirst := @day_boundary interval frequency anchor hmonths k
    constructor
    · rintro ⟨hall, hlen⟩ i hk hi
      by_cases hlast : i = k + (j + 1 : Nat)
      · have := hall k (le_refl k) (by omega)
        rw [hlast]
        omega
      · push_cast at hi hlast
        exact hall i hk (by omega)
    · intro hall
      refine ⟨fun i hk hi => hall i hk (by push_cast; omega), ?_⟩
      have := hall (k + (j + 1 : Nat)) (by push_cast; omega) (le_refl _)
      omega

end

end

/-! ## The period in force -/

/-- The period in force starts at the last boundary not after now exactly if that one's day is kept. -/
theorem currentPeriodStart_iff (h : 0 < interval) {k K : Int} (hk : k ≤ K) {now : Timestamp}
    (hle : (boundary anchor interval frequency K).instant ≤ now.instant)
    (hlt : now.instant < (boundary anchor interval frequency (K + 1)).instant) : ∃ J s,
    (∀ fuel > J, currentPeriodStart fuel (boundary anchor interval frequency k) interval frequency now = some s) ∧
      (s = boundary anchor interval frequency K ↔ KeepsDay anchor interval frequency k K now) := by
  obtain ⟨J, hbefore, hpast, hcps⟩ := 
    @currentPeriodStart_eq interval frequency h now (boundary anchor interval frequency k)
  refine ⟨J, _, hcps, ?_⟩
  by_cases hdays : byDays frequency = true
  · -- the end rolled past now is the boundary after
    simp only [iterate_boundary hdays] at hbefore hpast ⊢
    have hJ : k + J = K + 1 := by
      by_contra hne
      rcases lt_or_gt_of_ne hne with hlow | hhigh
      · have : (boundary anchor interval frequency (k + J)).instant ≤ (boundary anchor interval frequency K).instant := by
          rcases (show k + J ≤ K by omega).lt_or_eq with hkJ | hkJ
          · exact (boundary_instant_lt h hkJ).le
          · rw [hkJ]
        omega
      · have hlast := hbefore (J - 1) (by omega)
        have : (boundary anchor interval frequency (K + 1)).instant ≤
            (boundary anchor interval frequency (k + (J - 1 : Nat))).instant := by
          rcases (show K + 1 ≤ k + (J - 1 : Nat) by omega).lt_or_eq with hkJ | hkJ
          · exact (boundary_instant_lt h hkJ).le
          · rw [hkJ]
        omega
    rw [hJ, periodStart, shift_boundary hdays, add_neg_cancel_right]
    exact ⟨fun _ => .inl hdays, fun _ => rfl⟩
  have hmonths : byDays frequency = false := Bool.eq_false_iff.2 hdays
  have hspan : 0 < span interval frequency := span_pos h
  set c := fun j : Nat => (shift · interval frequency 1)^[j] (boundary anchor interval frequency k) with hc
  have hcday : ∀ j, (c j).date.day ≤ (boundary anchor interval frequency (k + j)).date.day := fun j =>
    (le_iterate_day hmonths k j _).1 (le_refl _) _ (by omega) (le_refl _)
  have hcle : ∀ j, (c j).instant ≤ (boundary anchor interval frequency (k + j)).instant := fun j =>
    instant_le_of_day_le ((iterate_micros hmonths k j).trans (micros_boundary hmonths _).symm)
      (iterate_month hmonths k j) (hcday j)
  obtain ⟨m, rfl⟩ : ∃ m : Nat, K = k + m := ⟨(K - k).toNat, by omega⟩
  have hcmonth : ∀ j, (c j).date.month = anchor.date.month + (k + j) * span interval frequency := fun j =>
    (iterate_month hmonths k j).trans (month_boundary hmonths _)
  have hnext : (c (m + 1)).date.month =
      (shift (boundary anchor interval frequency (k + m)) interval frequency 1).date.month := by
    rw [hcmonth, month_shift hmonths, month_boundary hmonths]
    push_cast
    ring
  have hnextmicros : (c (m + 1)).micros =
      (shift (boundary anchor interval frequency (k + m)) interval frequency 1).micros := by
    rw [micros_shift hmonths, micros_boundary hmonths]
    exact iterate_micros hmonths k _
  have hcnext : (c (m + 1)).date.day = min (c m).date.day (monthLength (c (m + 1)).date.month) := by
    simp only [hc]
    rw [Function.iterate_succ_apply']
    exact day_shift hmonths _ _
  have hshift : (shift (boundary anchor interval frequency (k + m)) interval frequency 1).date.day =
      min (boundary anchor interval frequency (k + m)).date.day (monthLength (c (m + 1)).date.month) := by
    rw [hnext]
    exact day_shift hmonths _ _
  have hbday := fun i => @day_boundary interval frequency anchor hmonths i
  have hstart : (periodStart (c J) interval frequency).date.month =
      anchor.date.month + (k + J - 1) * span interval frequency := by
    rw [periodStart, month_shift hmonths, hcmonth]
    ring
  have hstartday : (periodStart (c J) interval frequency).date.day =
      min (c J).date.day (monthLength (periodStart (c J) interval frequency).date.month) := day_shift hmonths _ _
  have hm := hcday m
  constructor
  · intro heq
    obtain rfl : J = m + 1 := by
      rw [heq, month_boundary hmonths] at hstart
      have hmul := mul_right_cancel₀ hspan.ne' (add_left_cancel hstart)
      omega
    rw [heq] at hstartday
    have hday : (boundary anchor interval frequency (k + m)).date.day ≤ (c (m + 1)).date.day := by omega
    have hkept := (le_iterate_day hmonths k (m + 1) _).1 hday
    refine .inr ⟨fun j hj hjK => ?_, hpast.trans_le (instant_le_of_day_le hnextmicros hnext ?_)⟩
    · have := hkept j hj (by push_cast; omega)
      have := hbday j
      omega
    · rw [hshift]
      exact hcnext ▸ min_le_min_right _ hm
  · rintro (hd | ⟨hkept, hsoon⟩)
    · exact absurd hd hdays
    have hall : ∀ i, k ≤ i → i ≤ k + m + 1 →
        (boundary anchor interval frequency (k + m)).date.day ≤ (boundary anchor interval frequency i).date.day := by
      intro i hki hi
      have := hkept i hki hi
      have := hbday i
      have := hbday (k + m)
      omega
    have hcm : (boundary anchor interval frequency (k + m)).date.day ≤ (c m).date.day :=
      (le_iterate_day hmonths k m _).2 fun i hki hi => hall i hki (by omega)
    have hcm1 : (boundary anchor interval frequency (k + m)).date.day ≤ (c (m + 1)).date.day :=
      (le_iterate_day hmonths k (m + 1) _).2 fun i hki hi => hall i hki (by push_cast at hi; omega)
    have hpast' : now.instant < (c (m + 1)).instant := by
      refine hsoon.trans_le (instant_le_of_day_le hnextmicros.symm hnext.symm ?_)
      rw [hshift, hcnext]
      exact min_le_min_right _ hcm
    obtain rfl : J = m + 1 := by
      by_contra hne
      rcases lt_or_gt_of_ne hne with hlow | hhigh
      · have hlast : now.instant < (boundary anchor interval frequency (k + J)).instant := hpast.trans_le (hcle J)
        have : (boundary anchor interval frequency (k + J)).instant ≤
            (boundary anchor interval frequency (k + m)).instant := by
          rcases (show k + (J : Int) ≤ k + m by omega).lt_or_eq with hkJ | hkJ
          · exact (boundary_instant_lt h hkJ).le
          · rw [hkJ]
        omega
      · exact absurd (hbefore (m + 1) hhigh) (not_le.2 hpast')
    have hmonth : (periodStart (c (m + 1)) interval frequency).date.month =
        (boundary anchor interval frequency (k + m)).date.month := by
      rw [hstart, month_boundary hmonths]
      push_cast
      ring
    refine Timestamp.ext (CivilDate.ext hmonth ?_) ?_
    · rw [hstartday, hmonth]
      have := (boundary anchor interval frequency (k + m)).date.le_length
      omega
    · rw [periodStart, micros_shift hmonths, micros_boundary hmonths]
      exact iterate_micros hmonths k _

end

/-- The last boundary not after now. -/
def LatestBoundary (anchor : Timestamp) (interval : Int) (frequency : Frequency) (now : Timestamp) (K : Int) : Prop :=
  (boundary anchor interval frequency K).instant ≤ now.instant ∧
    ∀ i, (boundary anchor interval frequency i).instant ≤ now.instant → i ≤ K

theorem LatestBoundary.lt_next {anchor now : Timestamp} {interval K : Int} {frequency : Frequency}
    (h : LatestBoundary anchor interval frequency now K) :
    now.instant < (boundary anchor interval frequency (K + 1)).instant := by
  by_contra hge
  have := h.2 (K + 1) (not_lt.1 hge)
  omega

theorem exists_latestBoundary {anchor now : Timestamp} {interval k : Int} {frequency : Frequency} (h : 0 < interval)
    (hle : (boundary anchor interval frequency k).instant ≤ now.instant) :
    ∃ K, k ≤ K ∧ LatestBoundary anchor interval frequency now K := by
  have hgrows : ∀ n : Nat, (boundary anchor interval frequency k).instant + n ≤
      (boundary anchor interval frequency (k + n)).instant := by
    intro n
    induction n with
    | zero => simp
    | succ n ih =>
      have := @boundary_instant_lt interval frequency anchor h (k + n) (k + n + 1) (by omega)
      push_cast
      rw [← add_assoc k]
      omega
  have hbound : ∀ i, (boundary anchor interval frequency i).instant ≤ now.instant →
      i ≤ k + (now.instant - (boundary anchor interval frequency k).instant) := by
    intro i hi
    by_contra hgt
    have := hgrows (i - k).toNat
    rw [show k + ((i - k).toNat : Int) = i by omega] at this
    omega
  obtain ⟨K, hK, hmax⟩ := Int.exists_greatest_of_bdd ⟨_, hbound⟩ ⟨k, hle⟩
  exact ⟨K, hmax k hle, hK, hmax⟩

/-- **Periods tile time where their day is kept.**  For memberships by days always, and by months and
years exactly where the months are long enough: the start of a boundary's period is the boundary before,
and the loop ends and finds the last boundary not after now, before which no visit counts. -/
theorem periods_tile (anchor : Timestamp) (interval : Int) (frequency : Frequency) (h : 0 < interval) :
    (∀ k, periodStart (boundary anchor interval frequency (k + 1)) interval frequency =
        boundary anchor interval frequency k ↔
      byDays frequency = true ∨ (boundary anchor interval frequency k).date.day ≤
        monthLength (boundary anchor interval frequency (k + 1)).date.month) ∧
    ∀ k now, (boundary anchor interval frequency k).instant ≤ now.instant →
      ∃ K, k ≤ K ∧ LatestBoundary anchor interval frequency now K ∧
        ∃ J s, (∀ fuel > J,
            currentPeriodStart fuel (boundary anchor interval frequency k) interval frequency now = some s) ∧
          (s = boundary anchor interval frequency K ↔ KeepsDay anchor interval frequency k K now) ∧
          (KeepsDay anchor interval frequency k K now → ∀ completedAt : List Timestamp,
            (∀ t ∈ completedAt, t.instant < (boundary anchor interval frequency K).instant) →
              periodVisits completedAt s = 0) := by
  refine ⟨fun k => ?_, fun k now hle => ?_⟩
  · by_cases hdays : byDays frequency = true
    · rw [periodStart, shift_boundary hdays, add_neg_cancel_right]
      exact ⟨fun _ => .inl hdays, fun _ => rfl⟩
    · rw [periodStart_boundary_iff (Bool.eq_false_iff.2 hdays)]
      exact ⟨.inr, fun hor => hor.resolve_left hdays⟩
  · obtain ⟨K, hkK, hK⟩ := exists_latestBoundary h hle
    obtain ⟨J, s, hcps, hiff⟩ := currentPeriodStart_iff h hkK hK.1 hK.lt_next
    refine ⟨K, hkK, hK, J, s, hcps, hiff, fun hkeeps completedAt hbefore => ?_⟩
    rw [periodVisits, List.length_eq_zero_iff, List.filter_eq_nil_iff, hiff.2 hkeeps]
    exact fun t ht hcount => absurd (of_decide_eq_true hcount) (not_le.2 (hbefore t ht))

/-! ## A membership that began on the 31st -/

def januaryDate (day : Int) (h : 1 ≤ day ∧ day ≤ 31) : CivilDate := ⟨2026 * 12, day, h.1, by
  rw [show monthLength (2026 * 12) = 31 by decide]
  exact h.2⟩

def noonOn (d : CivilDate) : Timestamp := ⟨d, 43200000000, by decide, by decide⟩

/-- A monthly membership from January 15. -/
theorem fifteenths_tile :
    (∀ k, periodStart (boundary (noonOn (januaryDate 15 (by decide))) 1 .month (k + 1)) 1 .month =
        boundary (noonOn (januaryDate 15 (by decide))) 1 .month k) ∧
      currentPeriodStart 3 (boundary (noonOn (januaryDate 15 (by decide))) 1 .month 0) 1 .month
        (noonOn ((januaryDate 20 (by decide)).addMonths 1)) =
          some (boundary (noonOn (januaryDate 15 (by decide))) 1 .month 1) := by
  refine ⟨fun k => ((periods_tile (noonOn (januaryDate 15 (by decide))) 1 .month (by decide)).1 k).2 (.inr ?_), by decide⟩
  have hday : (boundary (noonOn (januaryDate 15 (by decide))) 1 .month k).date.day ≤ 15 := min_le_left _ _
  have := monthLength_bounds (boundary (noonOn (januaryDate 15 (by decide))) 1 .month (k + 1)).date.month
  omega

/-- From January 31, the period that ends on February 28 starts on the 28th of January and counts a
visit of the 29th, which the period before counted; with the end of January stored on March 30, the
period in force is said to have started on March 28. -/
theorem thirty_firsts_overlap :
    let anchor := noonOn (januaryDate 31 (by decide))
    let visit := noonOn (januaryDate 29 (by decide))
    boundary anchor 1 .month 1 = noonOn ((januaryDate 28 (by decide)).addMonths 1) ∧
      periodStart (boundary anchor 1 .month 1) 1 .month = noonOn (januaryDate 28 (by decide)) ∧
      periodStart (boundary anchor 1 .month 1) 1 .month ≠ boundary anchor 1 .month 0 ∧
      periodVisits [visit] (periodStart (boundary anchor 1 .month 0) 1 .month) = 1 ∧
      periodVisits [visit] (periodStart (boundary anchor 1 .month 1) 1 .month) = 1 ∧
      LatestBoundary anchor 1 .month (noonOn ((januaryDate 30 (by decide)).addMonths 2)) 1 ∧
      currentPeriodStart 4 (boundary anchor 1 .month 0) 1 .month (noonOn ((januaryDate 30 (by decide)).addMonths 2)) =
        some (noonOn ((januaryDate 28 (by decide)).addMonths 2)) := by
  refine ⟨by decide, by decide, by decide, by decide, by decide, ⟨by decide, fun i hi => ?_⟩, by decide⟩
  by_contra hgt
  have hlt : (boundary (noonOn (januaryDate 31 (by decide))) 1 .month 2).instant ≤
      (boundary (noonOn (januaryDate 31 (by decide))) 1 .month i).instant := by
    rcases (show 2 ≤ i by omega).lt_or_eq with h2 | h2
    · exact (boundary_instant_lt (by decide) h2).le
    · rw [h2]
  exact absurd (hlt.trans hi) (by decide)

end ClientBridge
