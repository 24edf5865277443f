import ClientBridge.Library.ZoneOffsets
import ClientBridge.Scheduling.Recurrences

/-!
# A series as the device previews it

The device steps the first visit's wall-clock time through the calendar and looks every instant up in
its zone table; the server expands the rule into dates and puts the local time on each.  They agree where
the time occurs once on each date and the day after the last one begins once (`previewed_as_booked`).
-/

namespace ClientBridge

open Calendar ZoneOffsets

/-! ## Clocks -/

def msPerMin : Int := 60000

def msPerDay : Int := 86400000

/-- The first of January 1970. -/
def epochDay : Int := 719163

/-- A zone as the server sends it: when each of its offsets starts, in seconds, and its minutes. -/
structure ZoneRules where
  first : Change
  rest : List Change
  sorted : (first :: rest).Pairwise fun a b => a.1 < b.1
  within : ∀ r ∈ first :: rest, -1440 < r.2 ∧ r.2 < 1440

namespace ZoneRules

def all (rules : ZoneRules) : List Change := rules.first :: rules.rest

def initial (rules : ZoneRules) : Int := rules.first.2 * msPerMin

def changes (rules : ZoneRules) : List Change := rules.rest.map fun r => (r.1 * 1000, r.2 * msPerMin)

/-- The offset of the zone at an instant, as zoneinfo reads the same rules. -/
def utcoffset (rules : ZoneRules) : Int → Int := offsetFrom rules.initial rules.changes

/-- Its offset never changes twice within two days. -/
def TwoDaysApart (rules : ZoneRules) : Prop := rules.rest.Pairwise fun a b => a.1 + 172800 ≤ b.1

end ZoneRules

/-- The search for the last rule that has started, between two of them. -/
def searchRule (rules : List Change) (second : Int) : Nat → Nat → Nat → Nat
  | 0, lo, _ => lo
  | fuel + 1, lo, hi =>
    if lo < hi then
      let mid := (lo + hi + 1) / 2
      if (rules[mid]?.map (·.1)).getD 0 ≤ second then searchRule rules second fuel mid hi
      else searchRule rules second fuel lo (mid - 1)
    else lo

/-- The offset a zone has at a time. -/
def offsetAt (rules : ZoneRules) (time : Int) : Int :=
  let lo := searchRule rules.all (time / 1000) rules.all.length 0 (rules.all.length - 1)
  (rules.all[lo]?.map (·.2)).getD 0 * msPerMin

/-- The date and the milliseconds of the day a UTC clock shows. -/
def utcDate (time : Int) : CivilDate := CivilDate.ofOrdinal (time / msPerDay + epochDay)

/-- `Date.UTC`: months count from 0, and months and days roll over. -/
def dateUTC (year month day hour minute : Int) : Int :=
  (monthStart (12 * year + month) + day - epochDay) * msPerDay + hour * (60 * msPerMin) + minute * msPerMin

structure WallTime where
  year : Int
  month : Int
  day : Int
  hour : Int
  minute : Int
  weekday : Int

/-- The calendar fields of an instant as a clock in the zone reads them; Sunday is 0. -/
def wallTime (rules : ZoneRules) (d : Int) : WallTime :=
  let wall := d + offsetAt rules d
  let date := utcDate wall
  { year := date.month / 12
    month := date.month % 12 + 1
    day := date.day
    hour := wall % msPerDay / (60 * msPerMin)
    minute := wall % msPerDay / msPerMin % 60
    weekday := (date.weekday + 1) % 7 }

/-- The instant a clock in the zone shows the given fields; out-of-range days and months roll over. -/
def zonedDate (rules : ZoneRules) (year month day hour minute : Int) : Int :=
  twoStep (offsetAt rules) (dateUTC year (month - 1) day hour minute)

/-- Midnight in the zone, `n` calendar days after the day of `d`. -/
def addDays (rules : ZoneRules) (d n : Int) : Int :=
  let w := wallTime rules d
  zonedDate rules w.year w.month (w.day + n) 0 0

/-! ## The preview -/

inductive SeriesFrequency where
  | week | month
  deriving DecidableEq, Repr

inductive SeriesEnd where
  | count (count : Int)
  | untilDay (day : Int)
  deriving DecidableEq, Repr

structure PatternInput where
  first : Int
  frequency : SeriesFrequency
  interval : Int
  ends : SeriesEnd

def nthWeekday (rules : ZoneRules) (d : Int) : Int := ((wallTime rules d).day + 6) / 7

def stepDate (rules : ZoneRules) (start : Int) (frequency : SeriesFrequency) (interval : Int) (i : Nat) : Int :=
  let w := wallTime rules start
  match frequency with
  | .week => zonedDate rules w.year w.month (w.day + 7 * interval * i) w.hour w.minute
  | .month =>
    -- monthly keeps the weekday: the 2nd Tuesday stays the 2nd Tuesday, as the server books it
    let first := CivilDate.first (12 * w.year + (w.month - 1 + interval * i))
    let shift := (w.weekday - (first.weekday + 1) % 7 + 7) % 7
    let day := 1 + shift + (nthWeekday rules start - 1) * 7
    let day := fallBack (monthLength first.month) day.toNat day
    zonedDate rules (first.month / 12) (first.month % 12 + 1) day w.hour w.minute

def maxVisits : Int := 60

/-- The loop of `occurrenceStarts` over the steps left. -/
def layOut (rules : ZoneRules) (p : PatternInput) : List Nat → List Int → List Int
  | [], out => out
  | i :: steps, out =>
    let start := stepDate rules p.first p.frequency p.interval i
    match p.ends with
    | .untilDay day => if addDays rules day 1 ≤ start then out else layOut rules p steps (out ++ [start])
    | .count _ => layOut rules p steps (out ++ [start])

def occurrenceStarts (rules : ZoneRules) (p : PatternInput) : List Int :=
  let limit := match p.ends with
    | .count count => min count maxVisits
    | .untilDay _ => maxVisits
  layOut rules p (List.range limit.toNat) []

/-! ## The booking -/

/-- The date and the time of day of an instant on the business's clock. -/
def localDate (rules : ZoneRules) (d : Int) : CivilDate := utcDate (d + rules.utcoffset d)

def localTime (rules : ZoneRules) (d : Int) : Int := (d + rules.utcoffset d) % msPerDay

/-- A date and a time of day, in milliseconds on a clock. -/
def wallAt (date : CivilDate) (time : Int) : Int := (date.ordinal - epochDay) * msPerDay + time

/-- `datetime.combine(d, local_time, tzinfo=tz).astimezone(UTC)` -/
def combine (rules : ZoneRules) (date : CivilDate) (time : Int) : Int :=
  wallAt date time - wallOffset rules.initial rules.changes (wallAt date time)

/-- The dates `create` books for what the device sends: a count or the day a series ends on, no extra
weekdays, months by weekday. -/
def occurrenceDates (rules : ZoneRules) (p : PatternInput) : List CivilDate :=
  let frequency := match p.frequency with
    | .week => .week
    | .month => .month
  match p.ends with
  | .count count =>
    expandOccurrences (localDate rules p.first) frequency p.interval none (some count) none .weekday (maxVisits + 1)
  | .untilDay day => expandOccurrences (localDate rules p.first) frequency p.interval none none
      (some (localDate rules day)) .weekday (maxVisits + 1)

def createStarts (rules : ZoneRules) (p : PatternInput) : Except String (List Int) :=
  let dates := occurrenceDates rules p
  if maxVisits < dates.length then .error "a series can hold at most 60 visits; end it sooner"
  else .ok (dates.map fun d => combine rules d (localTime rules p.first))

/-! ## The search finds the offset -/

/-- The last rule that has started, if it is not the first. -/
structure Started (rules : List Change) (second : Int) (i : Nat) : Prop where
  started : i = 0 ∨ ∃ r, rules[i]? = some r ∧ r.1 ≤ second
  later : ∀ j r, i < j → rules[j]? = some r → second < r.1

theorem searchRule_started {rules : List Change} (hsorted : rules.Pairwise fun a b => a.1 < b.1) {second : Int}
    {fuel lo hi : Nat} (hfuel : hi ≤ lo + fuel) (hle : lo ≤ hi) (hlt : hi < rules.length)
    (hlo : lo = 0 ∨ ∃ r, rules[lo]? = some r ∧ r.1 ≤ second) (hhi : ∀ j r, hi < j → rules[j]? = some r → second < r.1) :
    Started rules second (searchRule rules second fuel lo hi) := by
  induction fuel generalizing lo hi with
  | zero =>
    obtain rfl : lo = hi := by omega
    exact ⟨hlo, hhi⟩
  | succ fuel ih =>
    rw [searchRule]
    by_cases hwide : lo < hi
    · rw [if_pos hwide]
      dsimp only
      have hmid : (lo + hi + 1) / 2 < rules.length := by omega
      have hget := List.getElem?_eq_getElem hmid
      rw [hget]
      simp only [Option.map_some, Option.getD_some]
      split
      · next hstarted => exact ih (by omega) (by omega) hlt (.inr ⟨_, hget, hstarted⟩) hhi
      · next hlater =>
        refine ih (by omega) (by omega) (by omega) hlo fun j r hj hr => ?_
        rcases (show (lo + hi + 1) / 2 ≤ j by omega).lt_or_eq with hafter | rfl
        · obtain ⟨hlen, hr'⟩ := List.getElem?_eq_some_iff.1 hr
          have := List.pairwise_iff_getElem.1 hsorted _ _ hmid hlen hafter
          rw [hr'] at this
          omega
        · rw [hget] at hr
          rw [← Option.some.inj hr]
          exact not_le.1 hlater
    · rw [if_neg hwide]
      obtain rfl : lo = hi := by omega
      exact ⟨hlo, hhi⟩

theorem offsetFrom_of_started {o t : Int} {cs : List Change} (hsorted : cs.Pairwise fun a b => a.1 < b.1) {i : Nat} {c : Change}
    (hc : cs[i]? = some c) (hstarted : c.1 ≤ t) (hlater : ∀ j e, i < j → cs[j]? = some e → t < e.1) :
    offsetFrom o cs t = c.2 := by
  induction cs generalizing o i with
  | nil => cases hc
  | cons e cs ih =>
    obtain ⟨hfirst, hsorted⟩ := List.pairwise_cons.1 hsorted
    cases i with
    | zero =>
      cases hc
      rw [offsetFrom, if_pos hstarted]
      refine offsetFrom_of_lt fun x hx => ?_
      obtain ⟨j, hj⟩ := List.mem_iff_getElem?.1 hx
      exact hlater (j + 1) x (Nat.succ_pos j) hj
    | succ i =>
      have hbefore := hfirst c (List.mem_of_getElem? hc)
      rw [offsetFrom, if_pos (by omega)]
      exact ih hsorted hc fun j x hj hx => hlater (j + 1) x (by omega) hx

section
variable (rules : ZoneRules)

theorem ZoneRules.changes_sorted : rules.changes.Pairwise fun a b => a.1 < b.1 := by
  unfold ZoneRules.changes
  rw [List.pairwise_map]
  refine (List.pairwise_cons.1 rules.sorted).2.imp fun {a b} hlt => ?_
  show a.1 * 1000 < b.1 * 1000
  omega

/-- The device's search and the server's clock read the same offset. -/
theorem offsetAt_eq : offsetAt rules = rules.utcoffset := by
  funext t
  have hs : Started rules.all (t / 1000) (searchRule rules.all (t / 1000) rules.all.length 0 (rules.all.length - 1)) := by
    have hlen : rules.all.length = rules.rest.length + 1 := rfl
    have hall : rules.all.Pairwise fun a b => a.1 < b.1 := rules.sorted
    refine searchRule_started hall (by omega) (by omega) (by omega) (.inl rfl) fun j r hj hr => ?_
    have := (List.getElem?_eq_some_iff.1 hr).1
    omega
  unfold offsetAt ZoneRules.utcoffset
  dsimp only
  generalize searchRule rules.all (t / 1000) rules.all.length 0 (rules.all.length - 1) = i at hs ⊢
  have hlater : ∀ j (e : Change), i ≤ j → rules.changes[j]? = some e → t < e.1 := by
    intro j e hj he
    unfold ZoneRules.changes at he
    rw [List.getElem?_map] at he
    obtain ⟨r, hr, rfl⟩ := Option.map_eq_some_iff.1 he
    have := hs.later (j + 1) r (by omega) hr
    show t < r.1 * 1000
    omega
  cases i with
  | zero =>
    rw [offsetFrom_of_lt fun e he => ?_]
    · rfl
    · obtain ⟨j, hj⟩ := List.mem_iff_getElem?.1 he
      exact hlater j e (by omega) hj
  | succ k =>
    obtain hzero | ⟨r, hr, hstarted⟩ := hs.started
    · omega
    have hk : rules.changes[k]? = some (r.1 * 1000, r.2 * msPerMin) := by
      unfold ZoneRules.changes
      rw [List.getElem?_map]
      exact congrArg _ hr
    rw [offsetFrom_of_started rules.changes_sorted hk (by show r.1 * 1000 ≤ t; omega) fun j e hj he =>
      hlater j e (by omega) he, hr]
    rfl

variable {rules}

theorem ZoneRules.TwoDaysApart.spaced (h : rules.TwoDaysApart) : Spaced msPerDay rules.initial rules.changes := by
  have hwithin : ∀ r ∈ rules.all, -msPerDay ≤ r.2 * msPerMin ∧ r.2 * msPerMin ≤ msPerDay := by
    intro r hr
    have := rules.within r hr
    unfold msPerDay msPerMin
    omega
  refine ⟨hwithin _ List.mem_cons_self, fun c hc => ?_, ?_⟩
  · obtain ⟨r, hr, rfl⟩ := List.mem_map.1 hc
    exact hwithin r (List.mem_cons_of_mem _ hr)
  · unfold ZoneRules.changes msPerDay
    rw [List.pairwise_map]
    refine List.Pairwise.imp (fun {a b} hab => ?_) h
    show a.1 * 1000 + 2 * 86400000 ≤ b.1 * 1000
    omega

/-- Offsets are whole minutes. -/
theorem utcoffset_minutes (t : Int) : rules.utcoffset t % msPerMin = 0 := by
  rw [← offsetAt_eq]
  unfold offsetAt
  exact Int.mul_emod_left _ _

end

/-! ## Fields and clock times -/

theorem ordinal_utcDate (t : Int) : (utcDate t).ordinal = t / msPerDay + epochDay := CivilDate.ordinal_ofOrdinal _

theorem hour_minute {t : Int} (h : t % msPerMin = 0) :
    t % msPerDay / (60 * msPerMin) * (60 * msPerMin) + t % msPerDay / msPerMin % 60 * msPerMin = t % msPerDay := by
  unfold msPerDay msPerMin at *
  omega

/-- The fields of a date, put back with days more. -/
theorem dateUTC_eq (month day hour minute : Int) : dateUTC (month / 12) (month % 12) day hour minute =
    (monthStart month + day - epochDay) * msPerDay + (hour * (60 * msPerMin) + minute * msPerMin) := by
  rw [dateUTC, Int.mul_ediv_add_emod]
  omega

/-! ## One step -/

/-- The date of a step of the series. -/
def patternDate (rules : ZoneRules) (p : PatternInput) (i : Nat) : CivilDate :=
  match p.frequency with
  | .week => (localDate rules p.first).addDays (7 * (i * p.interval))
  | .month => sameWeekday (localDate rules p.first) (i * p.interval)

section
variable {rules : ZoneRules} {p : PatternInput}

theorem wallTime_eq (d : Int) : wallTime rules d =
    { year := (localDate rules d).month / 12
      month := (localDate rules d).month % 12 + 1
      day := (localDate rules d).day
      hour := localTime rules d / (60 * msPerMin)
      minute := localTime rules d / msPerMin % 60
      weekday := ((localDate rules d).weekday + 1) % 7 } := by
  rw [wallTime, offsetAt_eq]
  rfl

theorem localTime_fields (h : p.first % msPerMin = 0) : localTime rules p.first / (60 * msPerMin) * (60 * msPerMin) +
    localTime rules p.first / msPerMin % 60 * msPerMin = localTime rules p.first := by
  refine hour_minute ?_
  rw [Int.add_emod, h, utcoffset_minutes]
  rfl

/-- The device puts the time of day on the date of the step. -/
theorem stepDate_eq (h : p.first % msPerMin = 0) (i : Nat) : stepDate rules p.first p.frequency p.interval i =
    twoStep rules.utcoffset (wallAt (patternDate rules p i) (localTime rules p.first)) := by
  have hfields := @localTime_fields rules p h
  unfold stepDate patternDate nthWeekday zonedDate
  rw [wallTime_eq, offsetAt_eq]
  dsimp only
  cases p.frequency with
  | week =>
    dsimp only
    rw [add_sub_cancel_right, dateUTC_eq, hfields, wallAt, CivilDate.ordinal_addDays, CivilDate.ordinal,
      show 7 * p.interval * (i : Int) = 7 * (i * p.interval) by ring, ← add_assoc]
  | month =>
    dsimp only
    rw [add_sub_cancel_right, add_sub_cancel_right, dateUTC_eq, hfields, ← add_assoc, Int.mul_ediv_add_emod,
      mul_comm p.interval]
    congr 1
    set d := localDate rules p.first with hd
    have hone := d.one_le
    have hweekday := weekday_bounds d
    have hfirst := weekday_bounds (CivilDate.first (d.month + i * p.interval))
    have hday : 1 + ((d.weekday + 1) % 7 - ((CivilDate.first (d.month + i * p.interval)).weekday + 1) % 7 + 7) % 7 +
        ((d.day + 6) / 7 - 1) * 7 = nthDay d (i * p.interval) := by
      unfold nthDay
      omega
    obtain ⟨h1, h35⟩ := nthDay_bounds d (i * p.interval)
    rw [hday, sameWeekday_eq, wallAt, CivilDate.ordinal_addDays, CivilDate.ordinal_first]
    show (monthStart (d.month + i * p.interval) + fallBack (monthLength (d.month + i * p.interval)) _ _ - epochDay) *
      msPerDay + _ = _
    rw [fallBack_eq (monthLength_bounds _).1 h1 h35]
    congr 2
    omega

/-! ## The dates -/

theorem ruleDates_week {start : CivilDate} {interval cap : Int} {count : Option Int} {monthlyBy : MonthlyBy}
    (hinterval : 1 ≤ interval) (hlimit : 1 ≤ min (count.getD cap) cap) :
    ruleDates start .week interval none count monthlyBy cap =
      (List.range (min (count.getD cap) cap).toNat).map fun i : Nat => start.addDays (7 * (i * interval)) := by
  have hmax : max 1 interval = interval := max_eq_right hinterval
  unfold ruleDates
  dsimp only
  rw [if_pos rfl, hmax]
  set limit := min (count.getD cap) cap with hlim
  have hgrid : ∀ weeks, weekGrid start interval none weeks =
      (List.range weeks).map fun i : Nat => start.addDays (7 * (i * interval)) := by
    intro weeks
    unfold weekGrid ruleWeekdays
    rw [List.map_eq_flatMap]
    refine List.flatMap_congr fun week _ => ?_
    rw [List.map_singleton, CivilDate.addDays_addDays, CivilDate.addDays_addDays]
    congr 2
    omega
  have hall : ∀ weeks, (weekGrid start interval none weeks).filter (fun d => decide (start ≤ d)) =
      weekGrid start interval none weeks := by
    intro weeks
    refine List.filter_eq_self.2 fun d hd => ?_
    rw [hgrid] at hd
    obtain ⟨week, -, rfl⟩ := List.mem_map.1 hd
    have hstep : 0 ≤ (week : Int) * interval := by positivity
    rw [decide_eq_true_eq, CivilDate.le_iff, CivilDate.ordinal_addDays]
    omega
  have hweeks : limit ≤ limit * interval := by nlinarith
  rw [hall, hgrid, ← List.map_take, List.take_range, min_eq_left (by omega)]

theorem ruleDates_eq {cap : Int} {count : Option Int} (hinterval : 1 ≤ p.interval)
    (hlimit : 1 ≤ min (count.getD cap) cap) :
    ruleDates (localDate rules p.first) (match p.frequency with | .week => .week | .month => .month) p.interval none count
      .weekday cap = (List.range (min (count.getD cap) cap).toNat).map (patternDate rules p) := by
  have hmax : max 1 p.interval = p.interval := max_eq_right hinterval
  unfold patternDate
  cases p.frequency with
  | week => exact ruleDates_week hinterval hlimit
  | month =>
    unfold ruleDates
    dsimp only
    rw [if_neg (by decide), hmax]
    rfl

/-! ## The loop -/

theorem layOut_count {count : Int} (h : p.ends = .count count) (steps : List Nat) (out : List Int) :
    layOut rules p steps out = out ++ steps.map (stepDate rules p.first p.frequency p.interval) := by
  induction steps generalizing out with
  | nil => simp [layOut]
  | cons i steps ih =>
    rw [layOut, h]
    dsimp only
    rw [ih]
    simp

theorem layOut_until {day : Int} (h : p.ends = .untilDay day) (steps : List Nat) (out : List Int) :
    layOut rules p steps out = out ++ (steps.map (stepDate rules p.first p.frequency p.interval)).takeWhile
      fun start => decide (start < addDays rules day 1) := by
  induction steps generalizing out with
  | nil => simp [layOut]
  | cons i steps ih =>
    rw [layOut, h]
    dsimp only
    rw [List.map_cons, List.takeWhile_cons]
    by_cases hpast : addDays rules day 1 ≤ stepDate rules p.first p.frequency p.interval i
    · rw [if_pos hpast, if_neg (by simpa using hpast), List.append_nil]
    · rw [if_neg hpast, if_pos (by simpa using hpast), ih]
      simp

theorem takeWhile_range {α : Type} {P : α → Bool} {f : Nat → α} {n m : Nat} (hall : ∀ i < n, P (f i) = true)
    (hstop : m = 0 ∨ P (f n) = false) : ((List.range (n + m)).map f).takeWhile P = (List.range n).map f := by
  rw [List.range_add, List.map_append, List.takeWhile_append_of_pos]
  · cases m with
    | zero => simp
    | succ m =>
      have hfalse := hstop.resolve_left (Nat.succ_ne_zero m)
      rw [List.range_succ_eq_map, List.map_cons, List.map_cons, Nat.add_zero, List.takeWhile_cons_of_neg (by simp [hfalse]),
        List.append_nil]
  · intro x hx
    obtain ⟨i, hi, rfl⟩ := List.mem_map.1 hx
    exact hall i (List.mem_range.1 hi)

theorem exists_takeWhile_range {α : Type} (P : α → Bool) (f : Nat → α) (N : Nat) :
    ∃ n m, N = n + m ∧ (∀ i < n, P (f i) = true) ∧ (m = 0 ∨ P (f n) = false) := by
  by_cases hstop : ∃ i, i < N ∧ P (f i) = false
  · obtain ⟨hlt, hfalse⟩ := Nat.find_spec hstop
    refine ⟨Nat.find hstop, N - Nat.find hstop, by omega, fun i hi => ?_, .inr hfalse⟩
    have := Nat.find_min hstop hi
    rw [← Bool.not_eq_false]
    exact fun hf => this ⟨by omega, hf⟩
  · refine ⟨N, 0, rfl, fun i hi => ?_, .inl rfl⟩
    rw [← Bool.not_eq_false]
    exact fun hf => hstop ⟨i, hi, hf⟩

/-! ## What is previewed is booked -/

/-- The device and the server find the same instant of a time that occurs once. -/
theorem combine_eq (hspaced : rules.TwoDaysApart) {date : CivilDate} {time : Int}
    (h : OccursOnce rules.utcoffset (wallAt date time)) :
    combine rules date time + rules.utcoffset (combine rules date time) = wallAt date time ∧
      (∀ t, t + rules.utcoffset t = wallAt date time → t = combine rules date time) ∧
      twoStep rules.utcoffset (wallAt date time) = combine rules date time := by
  obtain ⟨t, ht, honce⟩ := h
  have hcombine : combine rules date time = t := sub_wallOffset_eq hspaced.spaced ht honce
  exact ⟨hcombine ▸ ht, fun t' ht' => hcombine ▸ honce t' ht', (twoStep_eq hspaced.spaced ht honce).trans hcombine.symm⟩

theorem addDays_eq (day n : Int) :
    addDays rules day n = twoStep rules.utcoffset (wallAt ((localDate rules day).addDays n) 0) := by
  unfold addDays zonedDate
  rw [wallTime_eq, offsetAt_eq]
  dsimp only
  rw [add_sub_cancel_right, dateUTC_eq, wallAt, CivilDate.ordinal_addDays, CivilDate.ordinal]
  congr 1
  ring

/-- Whether a step is past the day a series ends on is the same by instants and by dates. -/
theorem step_until (hspaced : rules.TwoDaysApart) (hmin : p.first % msPerMin = 0) {day : Int} {i : Nat}
    (hstep : OccursOnce rules.utcoffset (wallAt (patternDate rules p i) (localTime rules p.first)))
    (hmidnight : OccursOnce rules.utcoffset (wallAt ((localDate rules day).addDays 1) 0)) :
    stepDate rules p.first p.frequency p.interval i < addDays rules day 1 ↔ patternDate rules p i ≤ localDate rules day := by
  rw [stepDate_eq hmin, addDays_eq, (combine_eq hspaced hstep).2.2, (combine_eq hspaced hmidnight).2.2]
  obtain ⟨hs, honce, -⟩ := combine_eq hspaced hstep
  obtain ⟨hm, honce', -⟩ := combine_eq hspaced hmidnight
  have htime : 0 ≤ localTime rules p.first ∧ localTime rules p.first < msPerDay := by
    unfold localTime msPerDay
    omega
  have hmid : wallAt ((localDate rules day).addDays 1) 0 = wallAt (localDate rules day) 0 + msPerDay := by
    rw [wallAt, wallAt, CivilDate.ordinal_addDays]
    unfold msPerDay
    omega
  rw [CivilDate.le_iff]
  constructor
  · intro hlt
    by_contra hpast
    have hle : wallAt ((localDate rules day).addDays 1) 0 ≤ wallAt (patternDate rules p i) (localTime rules p.first) := by
      rw [hmid]
      unfold wallAt msPerDay at *
      omega
    rcases hle.lt_or_eq with hwall | hwall
    · have := lt_of_wall_lt hspaced.spaced hm hs honce' hwall
      omega
    · have := honce _ (hm.trans hwall)
      omega
  · intro hle
    refine lt_of_wall_lt hspaced.spaced hs hm honce ?_
    rw [hmid]
    unfold wallAt msPerDay at *
    omega

/-- The device's steps are what the server books, date by date. -/
theorem preview_eq (hspaced : rules.TwoDaysApart) (hmin : p.first % msPerMin = 0) (hinterval : 1 ≤ p.interval)
    (hcount : ∀ count, p.ends = .count count → 1 ≤ count) (hlength : ((occurrenceDates rules p).length : Int) ≤ maxVisits)
    (honce : ∀ i, i < (occurrenceDates rules p).length ∨ i = (occurrenceDates rules p).length ∧ (∃ day, p.ends = .untilDay day) →
      OccursOnce rules.utcoffset (wallAt (patternDate rules p i) (localTime rules p.first)))
    (hmidnight : ∀ day, p.ends = .untilDay day → OccursOnce rules.utcoffset (wallAt ((localDate rules day).addDays 1) 0)) :
    createStarts rules p = .ok (occurrenceStarts rules p) := by
  have hsteps : ∀ n, n ≤ (occurrenceDates rules p).length →
      ((List.range n).map (patternDate rules p)).map (fun d => combine rules d (localTime rules p.first)) =
        (List.range n).map (stepDate rules p.first p.frequency p.interval) := by
    intro n hn
    rw [List.map_map]
    refine List.map_congr_left fun i hi => ?_
    have hi := List.mem_range.1 hi
    rw [stepDate_eq hmin, (combine_eq hspaced (honce i (.inl (by omega)))).2.2]
    rfl
  suffices hstarts : (occurrenceDates rules p).map (fun d => combine rules d (localTime rules p.first)) =
      occurrenceStarts rules p by
    rw [createStarts, if_neg (not_lt.2 hlength), hstarts]
  cases hends : p.ends with
  | count count =>
    have hc := hcount count hends
    have hlimit : 1 ≤ min ((some count).getD (maxVisits + 1)) (maxVisits + 1) := by
      unfold maxVisits
      simp only [Option.getD_some]
      omega
    have hdates : occurrenceDates rules p = (List.range (min count (maxVisits + 1)).toNat).map (patternDate rules p) := by
      rw [occurrenceDates, hends]
      dsimp only
      rw [expandOccurrences_eq hlimit, ruleDates_eq hinterval hlimit]
      exact List.takeWhile_eq_self_iff.2 fun d _ => rfl
    have hfits : (min count (maxVisits + 1)).toNat = (min count maxVisits).toNat := by
      rw [hdates, List.length_map, List.length_range] at hlength
      unfold maxVisits at *
      omega
    rw [hdates, hsteps _ (by rw [hdates, List.length_map, List.length_range]), hfits, occurrenceStarts, hends]
    dsimp only
    rw [layOut_count hends, List.nil_append]
  | untilDay day =>
    have hlimit : 1 ≤ min ((none : Option Int).getD (maxVisits + 1)) (maxVisits + 1) := by decide
    obtain ⟨n, m, hN, hall, hstop⟩ := exists_takeWhile_range (inUntil (some (localDate rules day))) (patternDate rules p) 61
    have hdates : occurrenceDates rules p = (List.range n).map (patternDate rules p) := by
      rw [occurrenceDates, hends]
      dsimp only
      rw [expandOccurrences_eq hlimit, ruleDates_eq hinterval hlimit]
      show ((List.range 61).map (patternDate rules p)).takeWhile _ = _
      rw [hN, takeWhile_range hall hstop]
    have hlen : (occurrenceDates rules p).length = n := by rw [hdates, List.length_map, List.length_range]
    obtain ⟨k, hk⟩ : ∃ k, 60 = n + k := ⟨60 - n, by unfold maxVisits at hlength; omega⟩
    have hiff : ∀ i ≤ n, (stepDate rules p.first p.frequency p.interval i < addDays rules day 1 ↔
        patternDate rules p i ≤ localDate rules day) := fun i hi =>
      step_until hspaced hmin (honce i (by rw [hlen]; exact (Nat.lt_or_eq_of_le hi).imp_right fun he => ⟨he, day, hends⟩))
        (hmidnight day hends)
    rw [hdates, hsteps n hlen.ge, occurrenceStarts, hends]
    dsimp only
    rw [layOut_until hends, List.nil_append, show maxVisits.toNat = 60 from rfl, hk, takeWhile_range]
    · intro i hi
      exact decide_eq_true ((hiff i hi.le).2 (of_decide_eq_true (hall i hi)))
    · rcases hstop with rfl | hpast
      · omega
      · refine .inr (decide_eq_false fun hlt => ?_)
        have hin := (hiff n (le_refl n)).1 hlt
        rw [show inUntil (some (localDate rules day)) (patternDate rules p n) = true from decide_eq_true hin] at hpast
        cases hpast

end

/-- **A previewed series is the series booked.**  For a first visit on a whole minute in a zone whose
changes are two days apart, with a time of day that occurs once on each date of the series (and on the
first date past the day it ends on) and an end day whose next midnight occurs once; and the dates of any
rule are in order, within their bounds and as many as asked for. -/
theorem previewed_as_booked :
    (∀ (rules : ZoneRules) (p : PatternInput), rules.TwoDaysApart → p.first % msPerMin = 0 → 1 ≤ p.interval →
      (∀ count, p.ends = .count count → 1 ≤ count) → ((occurrenceDates rules p).length : Int) ≤ maxVisits →
      (∀ i, i < (occurrenceDates rules p).length ∨ i = (occurrenceDates rules p).length ∧ (∃ day, p.ends = .untilDay day) →
        OccursOnce rules.utcoffset (wallAt (patternDate rules p i) (localTime rules p.first))) →
      (∀ day, p.ends = .untilDay day → OccursOnce rules.utcoffset (wallAt ((localDate rules day).addDays 1) 0)) →
      createStarts rules p = .ok (occurrenceStarts rules p)) ∧
    ∀ (start : CivilDate) (frequency : RecurrenceFrequency) (interval : Int) (byday : Option (List Weekday))
      (count : Option Int) (until? : Option CivilDate) (monthlyBy : MonthlyBy) (cap : Int),
      (∀ c, count = some c → 1 ≤ c) → 1 ≤ cap →
      WellLaidOut start until? (min (count.getD cap) cap)
        (expandOccurrences start frequency interval byday count none monthlyBy cap)
        (expandOccurrences start frequency interval byday count until? monthlyBy cap) := by
  refine ⟨fun rules p hspaced hmin hinterval hcount hlength honce hmidnight =>
    preview_eq hspaced hmin hinterval hcount hlength honce hmidnight,
    fun start frequency interval byday count until? monthlyBy cap hcount hcap => expandOccurrences_laidOut ?_⟩
  cases count with
  | none => exact le_min hcap hcap
  | some c => exact le_min (hcount c rfl) hcap

/-! ## Zones with one offset and with two -/

def reginaRules : ZoneRules := ⟨(946684800, -360), [], by decide, by decide⟩

theorem occursOnce_regina (wall : Int) : OccursOnce reginaRules.utcoffset wall :=
  ⟨wall + 21600000, by show wall + 21600000 + -21600000 = wall; omega, fun t ht => by
    have : t + -21600000 = wall := ht
    omega⟩

/-- Every other Monday at 14:00 until April 20, 2026, from March 23. -/
def mondaySeries : PatternInput := ⟨1774296000000, .week, 2, .untilDay 1776664800000⟩

set_option maxRecDepth 2000 in
/-- Three visits are previewed and booked. -/
theorem mondays_as_booked :
    createStarts reginaRules mondaySeries = .ok (occurrenceStarts reginaRules mondaySeries) ∧
      occurrenceStarts reginaRules mondaySeries = [1774296000000, 1775505600000, 1776715200000] ∧
      WellLaidOut (CivilDate.ofOrdinal 739700) none 3
        (expandOccurrences (CivilDate.ofOrdinal 739700) .week 1 (some [.mo, .we]) (some 3) none .date 61)
        (expandOccurrences (CivilDate.ofOrdinal 739700) .week 1 (some [.mo, .we]) (some 3) none .date 61) :=
  ⟨previewed_as_booked.1 reginaRules mondaySeries (by unfold ZoneRules.TwoDaysApart; decide) (by decide) (by decide)
    (fun count h => by cases h) (by decide) (fun i _ => occursOnce_regina _) fun day _ => occursOnce_regina _,
    by decide, previewed_as_booked.2 _ .week 1 _ (some 3) none .date 61 (fun c h => by cases h; decide) (by decide)⟩

/-- Clocks go forward at midnight on March 8, 2026. -/
def havanaRules : ZoneRules := ⟨(946684800, -300), [(1772946000, -240)], by decide, by decide⟩

/-- Weekly at 23:30 until March 7, 2026, from that day. -/
def lateSeries : PatternInput := ⟨1772944200000, .week, 1, .untilDay 1772900000000⟩

/-- Clocks go forward twice within six hours. -/
def crowdedRules : ZoneRules := ⟨(946684800, 600), [(1772956800, 660), (1772978400, 720)], by decide, by decide⟩

def crowdedSeries : PatternInput := ⟨1772956800000, .week, 1, .count 1⟩

/-- Clocks go forward a minute past midnight on April 2, 2006. -/
def johnsRules : ZoneRules := ⟨(1130639460, -210), [(1143948660, -150)], by decide, by decide⟩

/-- Weekly at 0:30 until April 1, 2006, from March 26. -/
def earlySeries : PatternInput := ⟨1143345600000, .week, 1, .untilDay 1143905400000⟩

/-- Weekly, twice, from half a minute past the minute. -/
def unevenSeries : PatternInput := ⟨1774296030500, .week, 1, .count 2⟩

/-- Weekly, never. -/
def emptySeries : PatternInput := ⟨1774296000000, .week, 1, .count 0⟩

set_option maxRecDepth 2000 in
/-- A visit at 23:30 on the last day is booked but not previewed where the next day begins at 1:00; one
more than is booked is previewed, before midnight, where the first date past the last day has no 0:30;
and one is booked an hour before it is previewed where the offset changes twice within a day.  In any zone
the preview drops the seconds of the first visit, and a weekly rule for no visit is booked once. -/
theorem previews_differ :
    (∀ i ≤ 1, OccursOnce havanaRules.utcoffset (wallAt (patternDate havanaRules lateSeries i)
        (localTime havanaRules lateSeries.first))) ∧
      createStarts havanaRules lateSeries = .ok [1772944200000] ∧ occurrenceStarts havanaRules lateSeries = [] ∧
      OccursOnce johnsRules.utcoffset (wallAt (patternDate johnsRules earlySeries 0)
        (localTime johnsRules earlySeries.first)) ∧
      createStarts johnsRules earlySeries = .ok [1143345600000] ∧
      occurrenceStarts johnsRules earlySeries = [1143345600000, 1143946800000] ∧
      OccursOnce crowdedRules.utcoffset (wallAt (patternDate crowdedRules crowdedSeries 0)
        (localTime crowdedRules crowdedSeries.first)) ∧
      createStarts crowdedRules crowdedSeries = .ok [1772956800000] ∧
      occurrenceStarts crowdedRules crowdedSeries = [1772960400000] ∧
      (∀ wall, OccursOnce reginaRules.utcoffset wall) ∧
      createStarts reginaRules unevenSeries = .ok [1774296030500, 1774900830500] ∧
      occurrenceStarts reginaRules unevenSeries = [1774296000000, 1774900800000] ∧
      createStarts reginaRules emptySeries = .ok [1774296000000] ∧ occurrenceStarts reginaRules emptySeries = [] ∧
      (expandOccurrences (CivilDate.ofOrdinal 739700) .week 1 none (some 0) none .date 61).length = 1 := by
  have hcrowded : ∀ t, crowdedRules.utcoffset t =
      if 1772956800000 ≤ t then if 1772978400000 ≤ t then 43200000 else 39600000 else 36000000 := fun t => rfl
  refine ⟨fun i hi => ?_, by decide, by decide, ?_, by decide, by decide, ?_, by decide, by decide, occursOnce_regina,
    by decide, by decide, by decide, by decide, by decide⟩
  · refine @occursOnce_of_change _ 1772946000000 (-18000000) (-14400000) _ (fun t => rfl) ?_
    obtain rfl | rfl : i = 0 ∨ i = 1 := by omega
    · decide
    · decide
  · exact @occursOnce_of_change _ 1143948660000 (-12600000) (-9000000) _ (fun t => rfl) (by decide)
  · rw [show wallAt (patternDate crowdedRules crowdedSeries 0) (localTime crowdedRules crowdedSeries.first) =
      1772996400000 by decide]
    refine ⟨1772956800000, by decide, fun t ht => ?_⟩
    have ht : t + crowdedRules.utcoffset t = 1772996400000 := ht
    rw [hcrowded] at ht
    split at ht
    · split at ht <;> omega
    · omega

end ClientBridge
