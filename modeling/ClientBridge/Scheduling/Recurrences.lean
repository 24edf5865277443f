import ClientBridge.Library.Calendar

/-!
# The dates of a repeating visit

`expand_occurrences` lays a rule out: days and months step from the first date, weeks from the Monday of
its week, each with the rule's weekdays.  However a rule is laid out, its dates are those of the pattern
from the first one on, the first `limit` of them, up to the first past `until` (`expandOccurrences_eq`).
-/

namespace ClientBridge

open Calendar

inductive RecurrenceFrequency where
  | day | week | month
  deriving DecidableEq, Repr

inductive MonthlyBy where
  | date | weekday
  deriving DecidableEq, Repr

inductive Weekday where
  | mo | tu | we | th | fr | sa | su
  deriving DecidableEq, Repr

def Weekday.code : Weekday → Nat
  | .mo => 0
  | .tu => 1
  | .we => 2
  | .th => 3
  | .fr => 4
  | .sa => 5
  | .su => 6

/-! ## Dates of a month -/

/-- Weeks back until the month has the day: `while day > days: day -= 7`. -/
def fallBack (days : Int) : Nat → Int → Int
  | 0, day => day
  | fuel + 1, day => if days < day then fallBack days fuel (day - 7) else day

/-- The same nth weekday `months` later (2nd Tuesday stays 2nd Tuesday); a 5th falls back. -/
def sameWeekday (start : CivilDate) (months : Int) : CivilDate :=
  let nth := (start.day - 1) / 7
  let first := (CivilDate.first start.month).addMonths months
  let shift := (start.weekday - first.weekday) % 7
  let day := 1 + shift + nth * 7
  first.addDays (fallBack (monthLength first.month) day.toNat day - 1)

/-! ## The loops -/

/-- Week after week, weekday after weekday: what comes before the start is left out, and the series
ends past `until` or at its limit. -/
def weekDates (start : CivilDate) (until? : Option CivilDate) (limit : Int) : List CivilDate → List CivilDate → List CivilDate
  | [], dates => dates
  | d :: ds, dates =>
    if d < start then weekDates start until? limit ds dates
    else if until?.any fun u => decide (u < d) then dates
    else if limit ≤ (dates ++ [d]).length then dates ++ [d]
    else weekDates start until? limit ds (dates ++ [d])

/-- Step after step, up to the first past `until`. -/
def stepDates (until? : Option CivilDate) : List CivilDate → List CivilDate → List CivilDate
  | [], dates => dates
  | cur :: ds, dates => if until?.any fun u => decide (u < cur) then dates else stepDates until? ds (dates ++ [cur])

/-- `sorted({_WEEKDAY_CODES[d] for d in byday})`, or the start's own weekday. -/
def ruleWeekdays (start : CivilDate) (byday : Option (List Weekday)) : List Int :=
  match byday with
  | some (d :: ds) => ((List.range 7).filter fun code => decide (code ∈ (d :: ds).map Weekday.code)).map Int.ofNat
  | _ => [start.weekday]

/-- The dates of the weeks, every `interval` of them from the start's own. -/
def weekGrid (start : CivilDate) (interval : Int) (byday : Option (List Weekday)) (weeks : Nat) : List CivilDate :=
  (List.range weeks).flatMap fun week : Nat => (ruleWeekdays start byday).map fun wd =>
    ((start.addDays (-start.weekday)).addDays (7 * (week * interval))).addDays wd

/-- The date of a step of the other rules. -/
def stepOf (start : CivilDate) (frequency : RecurrenceFrequency) (interval : Int) (monthlyBy : MonthlyBy) (step : Nat) :
    CivilDate :=
  if frequency = .day then start.addDays (step * interval)
  else if monthlyBy = .weekday then sameWeekday start (step * interval)
  else start.addMonths (step * interval)

/-- Occurrence dates for a rule, bounded by count, until and a hard cap. -/
def expandOccurrences (start : CivilDate) (frequency : RecurrenceFrequency) (interval : Int) (byday : Option (List Weekday))
    (count : Option Int) (until? : Option CivilDate) (monthlyBy : MonthlyBy) (cap : Int) : List CivilDate :=
  let interval := max 1 interval
  let limit := min (count.getD cap) cap
  match frequency with
  | .week => weekDates start until? limit (weekGrid start interval byday (limit * interval + 8).toNat) []
  | _ => stepDates until? ((List.range limit.toNat).map (stepOf start frequency interval monthlyBy)) []

/-! ## What the loops do -/

section
variable {start : CivilDate} {until? : Option CivilDate}

/-- A date the series may still hold. -/
def inUntil (until? : Option CivilDate) (d : CivilDate) : Bool := until?.all fun u => decide (d ≤ u)

theorem not_past {until? : Option CivilDate} {d : CivilDate} :
    (until?.any fun u => decide (u < d)) = !inUntil until? d := by
  cases until? with
  | none => rfl
  | some u => simp [inUntil, ← not_le]

theorem stepDates_eq (ds dates : List CivilDate) : stepDates until? ds dates = dates ++ ds.takeWhile (inUntil until?) := by
  induction ds generalizing dates with
  | nil => simp [stepDates]
  | cons d ds ih =>
    rw [stepDates, not_past, List.takeWhile_cons]
    cases inUntil until? d with
    | true => simp [ih]
    | false => simp

theorem weekDates_eq {limit : Int} (ds dates : List CivilDate) (hroom : dates.length < limit) :
    weekDates start until? limit ds dates = dates ++
      ((ds.filter fun d => decide (start ≤ d)).take (limit.toNat - dates.length)).takeWhile (inUntil until?) := by
  induction ds generalizing dates with
  | nil => simp [weekDates]
  | cons d ds ih =>
    rw [weekDates, not_past]
    by_cases hstart : d < start
    · rw [if_pos hstart, ih dates hroom, List.filter_cons_of_neg (by simpa using hstart)]
    · obtain ⟨n, hn⟩ : ∃ n, limit.toNat - dates.length = n + 1 := ⟨limit.toNat - dates.length - 1, by omega⟩
      rw [if_neg hstart, List.filter_cons_of_pos (by simpa using hstart), hn, List.take_succ_cons, List.takeWhile_cons]
      cases hin : inUntil until? d with
      | false => simp
      | true =>
        by_cases hfull : limit ≤ (dates ++ [d]).length
        · have hzero : n = 0 := by
            rw [List.length_append, List.length_singleton] at hfull
            omega
          rw [if_neg (by simp), if_pos hfull, hzero]
          simp
        · rw [if_neg (by simp), if_neg hfull, ih (dates ++ [d]) (not_le.1 hfull)]
          have hleft : limit.toNat - (dates ++ [d]).length = n := by
            rw [List.length_append, List.length_singleton]
            omega
          rw [hleft]
          simp

end

/-! ## Weekdays -/

theorem weekday_bounds (d : CivilDate) : 0 ≤ d.weekday ∧ d.weekday ≤ 6 := by
  unfold CivilDate.weekday
  omega

theorem ruleWeekdays_bounds {start : CivilDate} {byday : Option (List Weekday)} {wd : Int}
    (h : wd ∈ ruleWeekdays start byday) : 0 ≤ wd ∧ wd ≤ 6 := by
  unfold ruleWeekdays at h
  split at h
  · obtain ⟨code, hcode, rfl⟩ := List.mem_map.1 h
    have := List.mem_range.1 (List.mem_of_mem_filter hcode)
    exact ⟨Int.natCast_nonneg code, by rw [Int.ofNat_eq_natCast]; omega⟩
  · rw [List.mem_singleton.1 h]
    exact weekday_bounds start

theorem ruleWeekdays_sorted (start : CivilDate) (byday : Option (List Weekday)) :
    (ruleWeekdays start byday).Pairwise (· < ·) := by
  unfold ruleWeekdays
  split
  · rw [List.pairwise_map]
    exact (List.pairwise_lt_range.filter _).imp fun hlt => Int.ofNat_lt.2 hlt
  · exact List.pairwise_singleton _ _

theorem ruleWeekdays_ne_nil (start : CivilDate) (byday : Option (List Weekday)) : ruleWeekdays start byday ≠ [] := by
  unfold ruleWeekdays
  split
  · next d ds =>
    refine List.ne_nil_of_mem (List.mem_map_of_mem (List.mem_filter.2 ⟨List.mem_range.2 ?_, ?_⟩)) (a := Int.ofNat d.code)
    · cases d <;> decide
    · simp
  · exact List.cons_ne_nil _ _

/-! ## The weeks -/

section
variable {start : CivilDate} {interval : Int} {byday : Option (List Weekday)}

theorem weekGrid_sorted (hinterval : 1 ≤ interval) (weeks : Nat) :
    (weekGrid start interval byday weeks).Pairwise (· < ·) := by
  unfold weekGrid
  rw [List.pairwise_flatMap]
  refine ⟨fun week _ => ?_, List.pairwise_lt_range.imp fun {week week'} hlt d hd d' hd' => ?_⟩
  · rw [List.pairwise_map]
    refine (ruleWeekdays_sorted start byday).imp fun {wd wd'} hlt => ?_
    rw [CivilDate.lt_iff]
    simp only [CivilDate.ordinal_addDays]
    omega
  · obtain ⟨wd, hwd, rfl⟩ := List.mem_map.1 hd
    obtain ⟨wd', hwd', rfl⟩ := List.mem_map.1 hd'
    have h6 := (ruleWeekdays_bounds hwd).2
    have h0 := (ruleWeekdays_bounds hwd').1
    have hstep : (week : Int) * interval + 1 ≤ week' * interval := by nlinarith
    rw [CivilDate.lt_iff]
    simp only [CivilDate.ordinal_addDays]
    omega

omit start interval byday in
theorem length_le_flatMap {α β : Type} {f : α → List β} {xs : List α} (h : ∀ x ∈ xs, f x ≠ []) :
    xs.length ≤ (xs.flatMap f).length := by
  induction xs with
  | nil => exact Nat.zero_le _
  | cons x xs ih =>
    have hx := List.length_pos_iff.2 (h x List.mem_cons_self)
    have hxs := ih fun y hy => h y (List.mem_cons_of_mem _ hy)
    rw [List.flatMap_cons, List.length_append, List.length_cons]
    omega

/-- Every week after the first has a date of the series. -/
theorem weekGrid_length (hinterval : 1 ≤ interval) (weeks : Nat) :
    weeks ≤ ((weekGrid start interval byday (weeks + 1)).filter fun d => decide (start ≤ d)).length := by
  unfold weekGrid
  rw [List.range_succ_eq_map, List.flatMap_cons, List.filter_append, List.length_append]
  set later := ((List.range weeks).map Nat.succ).flatMap fun week : Nat => (ruleWeekdays start byday).map fun wd =>
    ((start.addDays (-start.weekday)).addDays (7 * (week * interval))).addDays wd with hlater
  have hall : later.filter (fun d => decide (start ≤ d)) = later := by
    refine List.filter_eq_self.2 fun d hd => ?_
    obtain ⟨week, hweek, hd⟩ := List.mem_flatMap.1 hd
    obtain ⟨n, hn, rfl⟩ := List.mem_map.1 hweek
    obtain ⟨wd, hwd, rfl⟩ := List.mem_map.1 hd
    have h0 := (ruleWeekdays_bounds hwd).1
    have hstart := (weekday_bounds start).2
    have hstep : 1 ≤ ((n.succ : Nat) : Int) * interval := by push_cast; nlinarith
    rw [decide_eq_true_eq, CivilDate.le_iff]
    simp only [CivilDate.ordinal_addDays]
    omega
  have hlength : weeks ≤ later.length := by
    have : ((List.range weeks).map Nat.succ).length ≤ later.length := length_le_flatMap
      fun week _ hnil => ruleWeekdays_ne_nil start byday (List.map_eq_nil_iff.1 hnil)
    rwa [List.length_map, List.length_range] at this
  rw [hall]
  omega

end

/-! ## The nth weekday of a month -/

theorem fallBack_eq {days day : Int} (hlen : 28 ≤ days) (hone : 1 ≤ day) (hday : day ≤ 35) :
    fallBack days day.toNat day = if day ≤ days then day else day - 7 := by
  obtain ⟨n, hn⟩ : ∃ n, day.toNat = n + 1 := ⟨day.toNat - 1, by omega⟩
  rw [hn, fallBack]
  by_cases hle : day ≤ days
  · rw [if_pos hle, if_neg (not_lt.2 hle)]
  · rw [if_neg hle, if_pos (not_le.1 hle)]
    cases n with
    | zero => rfl
    | succ n => exact if_neg (by omega)

theorem first_addDays {month day : Int} (hone : 1 ≤ day) (hle : day ≤ monthLength month) :
    (CivilDate.first month).addDays (day - 1) = ⟨month, day, hone, hle⟩ := by
  refine CivilDate.ordinal_injective ?_
  rw [CivilDate.ordinal_addDays, CivilDate.ordinal_first]
  show monthStart month + 1 + (day - 1) = monthStart month + day
  omega

theorem first_addMonths (month n : Int) : (CivilDate.first month).addMonths n = CivilDate.first (month + n) := by
  have := monthLength_bounds (month + n)
  refine CivilDate.ext rfl ?_
  show min 1 (monthLength (month + n)) = 1
  omega

section
variable (start : CivilDate) (months : Int)

/-- The day of the nth weekday before it falls back. -/
def nthDay : Int :=
  1 + (start.weekday - (CivilDate.first (start.month + months)).weekday) % 7 + (start.day - 1) / 7 * 7

theorem nthDay_bounds : 1 ≤ nthDay start months ∧ nthDay start months ≤ 35 := by
  have hone := start.one_le
  have hlen := start.le_length
  have := monthLength_bounds start.month
  unfold nthDay
  omega

theorem sameWeekday_eq : sameWeekday start months = (CivilDate.first (start.month + months)).addDays
    ((if nthDay start months ≤ monthLength (start.month + months) then nthDay start months
      else nthDay start months - 7) - 1) := by
  obtain ⟨h1, h35⟩ := nthDay_bounds start months
  rw [← fallBack_eq (monthLength_bounds _).1 h1 h35]
  simp only [sameWeekday, first_addMonths]
  rfl

theorem month_sameWeekday : (sameWeekday start months).month = start.month + months := by
  obtain ⟨h1, h35⟩ := nthDay_bounds start months
  have hlen := monthLength_bounds (start.month + months)
  rw [sameWeekday_eq]
  split
  · next hle => rw [first_addDays h1 hle]
  · next hgt => rw [first_addDays (by omega) (by omega)]

theorem sameWeekday_zero : sameWeekday start 0 = start := by
  have hone := start.one_le
  have hlen := start.le_length
  have hday : nthDay start 0 = start.day := by
    unfold nthDay CivilDate.weekday
    rw [add_zero, CivilDate.ordinal_first, CivilDate.ordinal]
    omega
  rw [sameWeekday_eq, add_zero, hday, if_pos hlen, first_addDays hone hlen]

end

/-! ## Dates of a series -/

section
variable {start : CivilDate} {frequency : RecurrenceFrequency} {interval : Int} {monthlyBy : MonthlyBy}

theorem stepOf_zero : stepOf start frequency interval monthlyBy 0 = start := by
  rw [stepOf, Nat.cast_zero, zero_mul, CivilDate.addDays_zero, sameWeekday_zero, CivilDate.addMonths_zero]
  simp

theorem stepOf_lt (hinterval : 1 ≤ interval) {i j : Nat} (h : i < j) :
    stepOf start frequency interval monthlyBy i < stepOf start frequency interval monthlyBy j := by
  have hstep : (i : Int) * interval < j * interval := by
    have : (i : Int) < j := Int.ofNat_lt.2 h
    nlinarith
  unfold stepOf
  split
  · rw [CivilDate.lt_iff, CivilDate.ordinal_addDays, CivilDate.ordinal_addDays]
    omega
  split
  · refine CivilDate.lt_of_month_lt ?_
    rw [month_sameWeekday, month_sameWeekday]
    omega
  · refine CivilDate.lt_of_month_lt ?_
    rw [CivilDate.month_addMonths, CivilDate.month_addMonths]
    omega

end

section
variable {start : CivilDate} {frequency : RecurrenceFrequency} {interval : Int} {byday : Option (List Weekday)}
  {count : Option Int} {until? : Option CivilDate} {monthlyBy : MonthlyBy} {cap : Int}

/-- The rule's dates without an end date. -/
def ruleDates (start : CivilDate) (frequency : RecurrenceFrequency) (interval : Int) (byday : Option (List Weekday))
    (count : Option Int) (monthlyBy : MonthlyBy) (cap : Int) : List CivilDate :=
  let interval := max 1 interval
  let limit := min (count.getD cap) cap
  if frequency = .week then
    ((weekGrid start interval byday (limit * interval + 8).toNat).filter fun d => decide (start ≤ d)).take limit.toNat
  else (List.range limit.toNat).map (stepOf start frequency interval monthlyBy)

theorem expandOccurrences_eq (hlimit : 1 ≤ min (count.getD cap) cap) :
    expandOccurrences start frequency interval byday count until? monthlyBy cap =
      (ruleDates start frequency interval byday count monthlyBy cap).takeWhile (inUntil until?) := by
  have hweek := fun grid => @weekDates_eq start until? (min (count.getD cap) cap) grid []
    (by rw [List.length_nil]; omega)
  cases frequency with
  | week => exact (hweek _).trans (by simp [ruleDates])
  | day => exact (stepDates_eq _ _).trans (by simp [ruleDates])
  | month => exact (stepDates_eq _ _).trans (by simp [ruleDates])

theorem ruleDates_sorted : (ruleDates start frequency interval byday count monthlyBy cap).Pairwise (· < ·) := by
  unfold ruleDates
  dsimp only
  split
  · exact ((weekGrid_sorted (le_max_left 1 interval) _).filter _).sublist (List.take_sublist _ _)
  · rw [List.pairwise_map]
    exact List.pairwise_lt_range.imp fun hlt => stepOf_lt (le_max_left 1 interval) hlt

theorem start_le_ruleDates {d : CivilDate} (h : d ∈ ruleDates start frequency interval byday count monthlyBy cap) :
    start ≤ d := by
  unfold ruleDates at h
  dsimp only at h
  split at h
  · exact of_decide_eq_true (List.mem_filter.1 (List.mem_of_mem_take h)).2
  · obtain ⟨step, -, rfl⟩ := List.mem_map.1 h
    rcases Nat.eq_zero_or_pos step with rfl | hpos
    · rw [stepOf_zero]
    · have hlt := @stepOf_lt start frequency _ monthlyBy (le_max_left 1 interval) 0 step hpos
      rw [stepOf_zero] at hlt
      exact hlt.le

theorem ruleDates_length (hlimit : 1 ≤ min (count.getD cap) cap) :
    ((ruleDates start frequency interval byday count monthlyBy cap).length : Int) = min (count.getD cap) cap := by
  unfold ruleDates
  dsimp only
  set limit := min (count.getD cap) cap with hlim
  split
  · have hinterval : 1 ≤ max 1 interval := le_max_left 1 interval
    have hweeks : limit ≤ limit * max 1 interval := by nlinarith
    obtain ⟨weeks, hw⟩ : ∃ weeks, (limit * max 1 interval + 8).toNat = weeks + 1 :=
      ⟨(limit * max 1 interval + 8).toNat - 1, by omega⟩
    have := @weekGrid_length start _ byday hinterval weeks
    rw [hw, List.length_take]
    omega
  · rw [List.length_map, List.length_range]
    omega

/-- The series is in order, within its bounds, and as long as it was asked to be unless its end date
cut it. -/
structure WellLaidOut (start : CivilDate) (until? : Option CivilDate) (limit : Int) (rule dates : List CivilDate) : Prop where
  sorted : dates.Pairwise (· < ·)
  starts : ∀ d ∈ dates, start ≤ d
  ends : ∀ u, until? = some u → ∀ d ∈ dates, d ≤ u
  length : (dates.length : Int) = limit ∨ ∃ u, until? = some u ∧ ∃ d ∈ rule, u < d

theorem expandOccurrences_laidOut (hlimit : 1 ≤ min (count.getD cap) cap) :
    WellLaidOut start until? (min (count.getD cap) cap)
      (expandOccurrences start frequency interval byday count none monthlyBy cap)
      (expandOccurrences start frequency interval byday count until? monthlyBy cap) := by
  have hrule : expandOccurrences start frequency interval byday count none monthlyBy cap =
      ruleDates start frequency interval byday count monthlyBy cap := by
    rw [expandOccurrences_eq hlimit]
    exact List.takeWhile_eq_self_iff.2 fun d _ => rfl
  rw [hrule, expandOccurrences_eq hlimit]
  refine ⟨ruleDates_sorted.sublist (List.takeWhile_sublist _), fun d hd =>
    start_le_ruleDates ((List.takeWhile_sublist _).mem hd), fun u hu d hd => ?_, ?_⟩
  · have hin := List.mem_takeWhile_imp hd
    rw [hu] at hin
    exact of_decide_eq_true hin
  · by_cases hall : ∀ d ∈ ruleDates start frequency interval byday count monthlyBy cap, inUntil until? d = true
    · rw [List.takeWhile_eq_self_iff.2 hall]
      exact .inl (ruleDates_length hlimit)
    · simp only [not_forall] at hall
      obtain ⟨d, hd, hpast⟩ := hall
      cases until? with
      | none => exact absurd rfl hpast
      | some u => exact .inr ⟨u, rfl, d, hd, not_le.1 fun hle => hpast (decide_eq_true hle)⟩

end

end ClientBridge
