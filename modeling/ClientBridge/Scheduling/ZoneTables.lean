import ClientBridge.Library.OffsetChanges
import ClientBridge.Scheduling.RecurrencePreviews

/-!
# The zone table the server sends

The server samples a zone's offset once a day from 2000 to 2060 and bisects each day it changed in; the
device looks its instants up in the list.  The list is exact, and a minute of the calendar is read as
the first instant that shows it (`zone_lookups`).
-/

namespace ClientBridge

open Calendar ZoneOffsets

/-! ## The server's list -/

def firstYear : Int := 2000

def lastYear : Int := 2060

def secondsPerDay : Int := 86400

/-- Midnight UTC of the first of January, in seconds since 1970. -/
def yearSecond (year : Int) : Int := ((CivilDate.first (12 * year)).ordinal - epochDay) * secondsPerDay

/-- The offset a zone has at each UTC second, in seconds. -/
structure Zone where
  utcoffset : Int → Int

namespace Zone

/-- The offset in whole minutes, rounded down. -/
def offset (tz : Zone) (second : Int) : Int := tz.utcoffset second / 60

/-- The halving between a second that has the offset `current` and a later one that has not. -/
def bisect (tz : Zone) (current : Int) : Nat → Int → Int → Int
  | 0, _, hi => hi
  | fuel + 1, lo, hi =>
    if 1 < hi - lo then
      let mid := (lo + hi) / 2
      if tz.offset mid = current then tz.bisect current fuel mid hi else tz.bisect current fuel lo mid
    else hi

/-- The changes found from `second` on, when the last offset found is `current`. -/
def scan (tz : Zone) (stop : Int) : Nat → Int → Int → List Change
  | 0, _, _ => []
  | fuel + 1, second, current =>
    if second < stop then
      let later := min (second + secondsPerDay) stop
      if tz.offset later ≠ current then
        let hi := tz.bisect current (later - second).toNat second later
        (hi, tz.offset hi) :: tz.scan stop fuel later (tz.offset hi)
      else tz.scan stop fuel later current
    else []

/-- Each UTC offset the zone takes from 2000 to 2060, as the UTC second it starts and its minutes. -/
def transitions (tz : Zone) : List Change :=
  let second := yearSecond firstYear
  let stop := yearSecond (lastYear + 1)
  (second, tz.offset second) :: tz.scan stop ((stop - second) / secondsPerDay + 1).toNat second (tz.offset second)

/-- A zone west of Greenwich that keeps whole minutes and rarely changes. -/
structure Regular (tz : Zone) : Prop where
  minutes : ∀ t, tz.utcoffset t % 60 = 0
  negative : ∀ t, tz.utcoffset t < 0
  bounded : ∀ t, -50400 ≤ tz.utcoffset t
  small : ∀ s, |tz.utcoffset s - tz.utcoffset (s - 1)| ≤ 10800
  apart : ChangesApart 172800 tz.utcoffset

/-! ## What clocks show -/

/-- What a clock in the zone shows at an instant; both in milliseconds. -/
def wall (tz : Zone) (t : Int) : Int := t + tz.utcoffset (t / 1000) * 1000

/-- A clock in the zone shows a date and a minute of it. -/
def Shows (tz : Zone) (date : CivilDate) (hour minute t : Int) : Prop :=
  utcDate (tz.wall t) = date ∧ tz.wall t % msPerDay / (60 * msPerMin) = hour ∧
    tz.wall t % msPerDay / msPerMin % 60 = minute

end Zone

/-- The first moment of a minute, on a clock. -/
def minuteStart (date : CivilDate) (hour minute : Int) : Int :=
  wallAt date (hour * (60 * msPerMin) + minute * msPerMin)

/-- What the server gets from a date and a minute with fold 0. -/
def Zone.ReadsAs (tz : Zone) (date : CivilDate) (hour minute t : Int) : Prop :=
  ∃ second, ReadAs tz.utcoffset (minuteStart date hour minute / 1000) second ∧ t = second * 1000

/-- The seconds of the table. -/
def InTable (second : Int) : Prop := yearSecond firstYear ≤ second ∧ second < yearSecond (lastYear + 1)

theorem yearSecond_first : yearSecond firstYear = 946684800 := by decide

/-! ## The list is exact -/

section
variable {tz : Zone} {current lo hi second stop : Int} {fuel : Nat}

/-- The halving keeps a second with the offset and one without; it ends at a change. -/
theorem Zone.bisect_spec (hlt : lo < hi) (hfuel : hi - lo ≤ fuel) (hlo : tz.offset lo = current)
    (hhi : tz.offset hi ≠ current) : (lo < tz.bisect current fuel lo hi ∧ tz.bisect current fuel lo hi ≤ hi) ∧
      ChangesAt tz.offset (tz.bisect current fuel lo hi) := by
  induction fuel generalizing lo hi with
  | zero => omega
  | succ fuel ih =>
    rw [bisect]
    by_cases hwide : 1 < hi - lo
    · rw [if_pos hwide]
      dsimp only
      split
      · next hmid =>
        obtain ⟨hbetween, hchange⟩ := ih (by omega) (by omega) hmid hhi
        exact ⟨by omega, hchange⟩
      · next hmid =>
        obtain ⟨hbetween, hchange⟩ := ih (by omega) (by omega) hlo hmid
        exact ⟨by omega, hchange⟩
    · rw [if_neg hwide]
      refine ⟨by omega, ?_⟩
      rw [ChangesAt, show hi - 1 = lo by omega, hlo]
      exact hhi.symm

/-- The days from `second` on list the changes from there. -/
theorem Zone.scan_listed (hapart : ChangesApart secondsPerDay tz.offset) (hle : second ≤ stop)
    (hfuel : stop - second ≤ fuel * secondsPerDay) :
    Listed tz.offset second stop (tz.scan stop fuel second (tz.offset second)) := by
  have hday : secondsPerDay = 86400 := rfl
  rw [hday] at hapart hfuel
  induction fuel generalizing second with
  | zero =>
    obtain rfl : second = stop := by omega
    exact Listed.nil second
  | succ fuel ih =>
    rw [scan]
    by_cases hmore : second < stop
    · rw [if_pos hmore, hday]
      dsimp only
      obtain ⟨later, hlater⟩ : ∃ later, later = min (second + 86400) stop := ⟨_, rfl⟩
      rw [← hlater]
      have hnext := @ih later (by omega) (by omega)
      split
      · next hne =>
        obtain ⟨hbetween, hchange⟩ := Zone.bisect_spec (show second < later by omega)
          (show later - second ≤ ((later - second).toNat : Nat) by omega) rfl hne
        generalize tz.bisect (tz.offset second) (later - second).toNat second later = s at hbetween hchange ⊢
        rw [hapart.after hchange hbetween.2 (by omega)] at hnext
        refine Listed.cons (by omega) hchange (fun s' hlt hlt' hs' => ?_)
          (Listed.of_steady hbetween.2 (fun s' hlt hle hs' => ?_) hnext)
        · have := hapart s' s hs' hchange hlt'
          omega
        · have := hapart s s' hchange hs' hlt
          omega
      · next heq =>
        rw [not_not] at heq
        rw [heq] at hnext
        refine Listed.of_steady (by omega) (fun s hlt hle hs => ?_) hnext
        -- a change would last until the next sample
        have hb := hapart.before hs hlt (by omega)
        have ha := hapart.after hs hle (by omega)
        rw [ChangesAt] at hs
        omega
    · rw [if_neg hmore]
      obtain rfl : second = stop := by omega
      exact Listed.nil second

end

section
variable {tz : Zone} (h : tz.Regular)

include h

theorem Zone.Regular.offset_mul (t : Int) : tz.offset t * 60 = tz.utcoffset t := by
  have := h.minutes t
  rw [offset]
  omega

theorem Zone.Regular.changesAt_iff (s : Int) : ChangesAt tz.offset s ↔ ChangesAt tz.utcoffset s := by
  have hbefore := h.offset_mul (s - 1)
  have hafter := h.offset_mul s
  unfold ChangesAt
  omega

theorem Zone.Regular.bounds (t : Int) : -50400 ≤ tz.utcoffset t ∧ tz.utcoffset t < 0 := ⟨h.bounded t, h.negative t⟩

/-- The list after its first entry is that of the changes. -/
theorem Zone.Regular.listed : ∃ rest, tz.transitions = (yearSecond firstYear, tz.offset (yearSecond firstYear)) :: rest ∧
    Listed tz.offset (yearSecond firstYear) (yearSecond (lastYear + 1)) rest := by
  refine ⟨_, rfl, Zone.scan_listed (fun s s' hs hs' hlt => ?_) (by decide) (by decide)⟩
  have := h.apart s s' ((h.changesAt_iff s).1 hs) ((h.changesAt_iff s').1 hs') hlt
  rw [secondsPerDay]
  omega

end

/-- The table of a zone as the device gets it. -/
def Zone.table (tz : Zone) (h : tz.Regular) : ZoneRules where
  first := (yearSecond firstYear, tz.offset (yearSecond firstYear))
  rest := tz.transitions.tail
  sorted := by
    obtain ⟨rest, heq, hlisted⟩ := h.listed
    rw [heq, List.tail_cons]
    exact List.pairwise_cons.2 ⟨fun c hc => ((hlisted.mem_iff c).1 hc).1.1, hlisted.sorted⟩
  within := by
    have hoffset : ∀ t, -1440 < tz.offset t ∧ tz.offset t < 1440 := fun t => by
      have := h.offset_mul t
      have := h.bounds t
      omega
    obtain ⟨rest, heq, hlisted⟩ := h.listed
    rw [heq, List.tail_cons]
    intro c hc
    rcases List.mem_cons.1 hc with rfl | hc
    · exact hoffset _
    · rw [((hlisted.mem_iff c).1 hc).2.2]
      exact hoffset _

/-! ## Lookups in the table -/

theorem offsetFrom_scaled (o : Int) (cs : List Change) (t : Int) :
    offsetFrom (o * msPerMin) (cs.map fun r => (r.1 * 1000, r.2 * msPerMin)) t = offsetFrom o cs (t / 1000) * msPerMin := by
  induction cs generalizing o with
  | nil => rfl
  | cons c cs ih =>
    rw [List.map_cons, offsetFrom, offsetFrom, ih, ite_mul]
    exact if_congr (by omega) rfl rfl

/-- The offsets of a zone over the span of its table; before and after, that of the nearer end. -/
def Zone.spanned (tz : Zone) (second : Int) : Int :=
  tz.utcoffset (max (yearSecond firstYear) (min second (yearSecond (lastYear + 1))))

section
variable {tz : Zone} (h : tz.Regular)

include h

theorem offsetAt_table (t : Int) : offsetAt (tz.table h) t = tz.spanned (t / 1000) * 1000 := by
  obtain ⟨rest, heq, hlisted⟩ := h.listed
  have hrest : (tz.table h).rest = rest := by
    show tz.transitions.tail = rest
    rw [heq, List.tail_cons]
  rw [offsetAt_eq, ZoneRules.utcoffset, ZoneRules.initial, ZoneRules.changes, offsetFrom_scaled, hrest, Zone.spanned,
    ← h.offset_mul]
  show offsetFrom (tz.offset (yearSecond firstYear)) rest (t / 1000) * msPerMin = _
  rw [hlisted.offsetFrom_eq (by decide), msPerMin]
  omega

theorem offsetAt_span {t : Int} (hspan : InTable (t / 1000)) :
    offsetAt (tz.table h) t = tz.utcoffset (t / 1000) * 1000 := by
  obtain ⟨hfirst, hstop⟩ := hspan
  rw [offsetAt_table h, Zone.spanned, min_eq_left hstop.le, max_eq_right hfirst]

/-- The two lookups of the device, in seconds. -/
theorem zonedDate_table (date : CivilDate) (hour minute : Int) :
    zonedDate (tz.table h) (date.month / 12) (date.month % 12 + 1) date.day hour minute =
      twoStep tz.spanned (minuteStart date hour minute / 1000) * 1000 := by
  have hwhole : minuteStart date hour minute = minuteStart date hour minute / 1000 * 1000 := by
    unfold minuteStart wallAt msPerDay msPerMin
    omega
  rw [zonedDate, add_sub_cancel_right, dateUTC_eq]
  show twoStep _ (minuteStart date hour minute) = _
  obtain ⟨second, hsecond⟩ : ∃ second, second = minuteStart date hour minute / 1000 := ⟨_, rfl⟩
  rw [← hsecond] at hwhole ⊢
  have hoffset : ∀ x, offsetAt (tz.table h) (x * 1000) = tz.spanned x * 1000 := fun x => by
    rw [offsetAt_table h, Int.mul_ediv_cancel x (by decide)]
  rw [hwhole, twoStep, twoStep, hoffset, ← sub_mul, hoffset, sub_mul]

end

/-! ## Minutes of the calendar -/

section
variable {tz : Zone} {date : CivilDate} {hour minute : Int}

theorem minuteStart_fields (hhour : 0 ≤ hour ∧ hour < 24) (hminute : 0 ≤ minute ∧ minute < 60) :
    utcDate (minuteStart date hour minute) = date ∧ minuteStart date hour minute % msPerDay / (60 * msPerMin) = hour ∧
      minuteStart date hour minute % msPerDay / msPerMin % 60 = minute := by
  refine ⟨CivilDate.ordinal_injective ?_, ?_, ?_⟩
  · rw [ordinal_utcDate]
    unfold minuteStart wallAt msPerDay msPerMin
    omega
  · unfold minuteStart wallAt msPerDay msPerMin
    omega
  · unfold minuteStart wallAt msPerDay msPerMin
    omega

/-- A clock shows a minute from its first moment to the next one's. -/
theorem shows_iff (hhour : 0 ≤ hour ∧ hour < 24) (hminute : 0 ≤ minute ∧ minute < 60) (t : Int) :
    tz.Shows date hour minute t ↔
      minuteStart date hour minute ≤ tz.wall t ∧ tz.wall t < minuteStart date hour minute + msPerMin := by
  have hdate := ordinal_utcDate (tz.wall t)
  constructor
  · rintro ⟨rfl, rfl, rfl⟩
    unfold minuteStart wallAt
    rw [hdate]
    unfold msPerDay msPerMin
    omega
  · rintro ⟨hfrom, hbefore⟩
    unfold minuteStart wallAt at hfrom hbefore
    refine ⟨CivilDate.ordinal_injective ?_, ?_, ?_⟩
    · rw [hdate]
      unfold msPerDay msPerMin at *
      omega
    · unfold msPerDay msPerMin at *
      omega
    · unfold msPerDay msPerMin at *
      omega

end

section
variable {tz : Zone} (h : tz.Regular) {date : CivilDate} {hour minute second : Int}

theorem minuteStart_seconds : minuteStart date hour minute / 1000 * 1000 = minuteStart date hour minute ∧
    minuteStart date hour minute / 1000 % 60 = 0 := by
  unfold minuteStart wallAt msPerDay msPerMin
  omega

theorem wall_eq_iff (t : Int) : tz.wall t = minuteStart date hour minute ↔
    t % 1000 = 0 ∧ t / 1000 + tz.utcoffset (t / 1000) = minuteStart date hour minute / 1000 := by
  have := @minuteStart_seconds date hour minute
  unfold Zone.wall
  omega

/-- The first second that shows a minute's first moment has the offset the table gives it. -/
theorem spanned_first (hstop : second < yearSecond (lastYear + 1))
    (hstart : yearSecond firstYear ≤ second ∨ tz.utcoffset second = tz.utcoffset (yearSecond firstYear)) :
    tz.spanned second = tz.utcoffset second := by
  rw [Zone.spanned, min_eq_left hstop.le]
  rcases le_total (yearSecond firstYear) second with hle | hle
  · rw [max_eq_right hle]
  · rw [max_eq_left hle]
    rcases hstart with hge | hsame
    · rw [le_antisymm hle hge]
    · exact hsame.symm

include h

/-- A minute whose first moment is first shown at a second of the table is read as it, by the device and
by the server, and nothing shows the minute before. -/
theorem minute_read (hhour : 0 ≤ hour ∧ hour < 24) (hminute : 0 ≤ minute ∧ minute < 60)
    (hleast : IsLeast {t | t + tz.utcoffset t = minuteStart date hour minute / 1000} second)
    (hstop : second < yearSecond (lastYear + 1))
    (hstart : yearSecond firstYear ≤ second ∨ tz.utcoffset second = tz.utcoffset (yearSecond firstYear)) :
    zonedDate (tz.table h) (date.month / 12) (date.month % 12 + 1) date.day hour minute = second * 1000 ∧
      IsLeast {t | tz.Shows date hour minute t} (second * 1000) ∧
      wallTime (tz.table h) (second * 1000) =
        { year := date.month / 12
          month := date.month % 12 + 1
          day := date.day
          hour := hour
          minute := minute
          weekday := (date.weekday + 1) % 7 } ∧
      ∀ t, tz.ReadsAs date hour minute t ↔ t = second * 1000 := by
  obtain ⟨hwhole, hsixty⟩ := @minuteStart_seconds date hour minute
  have hshown : second + tz.utcoffset second = minuteStart date hour minute / 1000 := hleast.1
  have hwall : tz.wall (second * 1000) = minuteStart date hour minute := by
    rw [wall_eq_iff, Int.mul_ediv_cancel second (by decide)]
    exact ⟨by omega, hshown⟩
  refine ⟨?_, ⟨?_, ?_⟩, ?_, fun t => ⟨?_, ?_⟩⟩
  · rw [zonedDate_table h]
    congr 1
    exact twoStep_of_isLeast h.bounds h.apart hleast (by decide) (by decide) hstop hstart
  · show tz.Shows date hour minute (second * 1000)
    rw [shows_iff hhour hminute, hwall, msPerMin]
    omega
  · intro t ht
    have hfrom := (shows_iff hhour hminute t).1 ht
    have hlater : second ≤ t / 1000 := by
      refine le_of_shown h.bounds h.apart hleast (m := 60) (by decide) ?_
      unfold Zone.wall msPerMin at hfrom
      omega
    omega
  · have hoffset := offsetAt_table h (second * 1000)
    rw [Int.mul_ediv_cancel second (by decide), spanned_first hstop hstart] at hoffset
    obtain ⟨hdate, hhour, hminute⟩ := @minuteStart_fields date hour minute hhour hminute
    have hmoment : second * 1000 + tz.utcoffset second * 1000 = minuteStart date hour minute := by omega
    rw [wallTime, hoffset, hmoment, hdate, hhour, hminute]
  · rintro ⟨t', hread, rfl⟩
    rw [(readAs_iff h.bounds h.apart hleast (by decide) t').1 hread]
  · rintro rfl
    exact ⟨second, (readAs_iff h.bounds h.apart hleast (by decide) second).2 rfl, rfl⟩

end

/-- **The table and its lookups are exact.**  For a zone west of Greenwich that keeps whole minutes and
changes more than two days apart: the list has the first offset and then each change to the end of 2060,
in order and with its offset; a lookup gives the zone's offset in every millisecond of those years; and
a minute of the calendar whose first moment is shown in those years, and not before them at another
offset than theirs begin with, is read as the first instant that shows it, which shows it in the table
too and is what the server reads. -/
theorem zone_lookups (tz : Zone) (h : tz.Regular) :
    ((tz.table h).all = tz.transitions ∧
      ∃ rest, tz.transitions = (yearSecond firstYear, tz.offset (yearSecond firstYear)) :: rest ∧
        Listed tz.offset (yearSecond firstYear) (yearSecond (lastYear + 1)) rest) ∧
    (∀ t, InTable (t / 1000) → offsetAt (tz.table h) t = tz.utcoffset (t / 1000) * 1000) ∧
    ∀ (date : CivilDate) (hour minute : Int), 0 ≤ hour ∧ hour < 24 → 0 ≤ minute ∧ minute < 60 →
      (∃ t, InTable (t / 1000) ∧ tz.wall t = minuteStart date hour minute) →
      (∀ t, t / 1000 < yearSecond firstYear → tz.wall t = minuteStart date hour minute →
        tz.utcoffset (t / 1000) = tz.utcoffset (yearSecond firstYear)) →
      ∃ found, zonedDate (tz.table h) (date.month / 12) (date.month % 12 + 1) date.day hour minute = found ∧
        IsLeast {t | tz.Shows date hour minute t} found ∧
        wallTime (tz.table h) found =
          { year := date.month / 12
            month := date.month % 12 + 1
            day := date.day
            hour := hour
            minute := minute
            weekday := (date.weekday + 1) % 7 } ∧
        ∀ t, tz.ReadsAs date hour minute t ↔ t = found := by
  refine ⟨⟨?_, h.listed⟩, fun t => offsetAt_span h, fun date hour minute hhour hminute hshown hbefore => ?_⟩
  · obtain ⟨rest, heq, -⟩ := h.listed
    show _ :: tz.transitions.tail = tz.transitions
    rw [heq, List.tail_cons]
    rfl
  · obtain ⟨t, ⟨-, hstop⟩, hwall⟩ := hshown
    have hsecond := (wall_eq_iff t).1 hwall
    obtain ⟨second, hleast⟩ := exists_isLeast h.bounds hsecond.2
    have hfirst : second ≤ t / 1000 := hleast.2 hsecond.2
    refine ⟨_, rfl, ?_⟩
    have hstart : yearSecond firstYear ≤ second ∨ tz.utcoffset second = tz.utcoffset (yearSecond firstYear) := by
      by_contra hlate
      rw [not_or] at hlate
      have := hbefore (second * 1000) (by rw [Int.mul_ediv_cancel second (by decide)]; exact not_le.1 hlate.1)
        ((wall_eq_iff _).2 ⟨by omega, by rw [Int.mul_ediv_cancel second (by decide)]; exact hleast.1⟩)
      rw [Int.mul_ediv_cancel second (by decide)] at this
      exact hlate.2 this
    obtain ⟨hfound, hrest⟩ := minute_read h hhour hminute hleast (by omega) hstart
    rw [hfound]
    exact hrest

/-! ## One zone that is read and two that are not -/

/-- A zone whose clocks go back or forward once. -/
def changedOnce (s before after : Int) : Zone := ⟨fun t => if t < s then before else after⟩

theorem changedOnce_regular {s before after : Int} (hbefore : before % 60 = 0 ∧ -50400 ≤ before ∧ before < 0)
    (hafter : after % 60 = 0 ∧ -50400 ≤ after ∧ after < 0) (hsmall : |after - before| ≤ 10800) :
    (changedOnce s before after).Regular := by
  have hoffset : ∀ t, (changedOnce s before after).utcoffset t = if t < s then before else after := fun t => rfl
  have honly : ∀ t, ChangesAt (changedOnce s before after).utcoffset t → t = s := by
    intro t ht
    rw [ChangesAt, hoffset, hoffset] at ht
    split at ht <;> split at ht <;> omega
  refine ⟨fun t => ?_, fun t => ?_, fun t => ?_, fun t => ?_, fun t t' ht ht' hlt => ?_⟩
  · rw [hoffset]
    split <;> omega
  · rw [hoffset]
    split <;> omega
  · rw [hoffset]
    split <;> omega
  · rw [hoffset, hoffset]
    rcases abs_le.1 hsmall with ⟨hlow, hhigh⟩
    rw [abs_le]
    split <;> split <;> omega
  · have := honly t ht
    have := honly t' ht'
    omega

/-- Clocks went forward for good in March 2015, as in Fort Nelson. -/
theorem fortNelson_regular : (changedOnce 1425808800 (-28800) (-25200)).Regular :=
  changedOnce_regular (by decide) (by decide) (by decide)

/-- Half past nine on the first of July 2026 there. -/
theorem fortNelson_minute_read :
    ∃ found, zonedDate ((changedOnce 1425808800 (-28800) (-25200)).table fortNelson_regular) 2026 7 1 9 30 = found ∧
      IsLeast {t | (changedOnce 1425808800 (-28800) (-25200)).Shows ⟨24318, 1, by decide, by decide⟩ 9 30 t} found := by
  obtain ⟨found, hfound, hleast, -⟩ := (zone_lookups _ fortNelson_regular).2.2 ⟨24318, 1, by decide, by decide⟩ 9 30
    (by decide) (by decide) ⟨1782923400000, ⟨by decide, by decide⟩, by decide⟩ fun t ht _ => by
      rw [yearSecond_first] at ht ⊢
      show (if t / 1000 < 1425808800 then (-28800 : Int) else -25200) = if 946684800 < 1425808800 then -28800 else -25200
      rw [if_pos (by omega), if_pos (by decide)]
  exact ⟨found, hfound, hleast⟩

/-- Clocks that went back half an hour before the table starts: seven in the evening is read as its
second time.  Clocks that go forward within a minute: its first moment is skipped, and what is read
shows another minute. -/
theorem minute_misread : (∃ h : (changedOnce 946683000 (-14400) (-18000)).Regular,
      (∃ t, InTable (t / 1000) ∧ (changedOnce 946683000 (-14400) (-18000)).Shows ⟨23999, 31, by decide, by decide⟩ 19 0 t) ∧
      ¬ IsLeast {t | (changedOnce 946683000 (-14400) (-18000)).Shows ⟨23999, 31, by decide, by decide⟩ 19 0 t}
        (zonedDate ((changedOnce 946683000 (-14400) (-18000)).table h) 1999 12 31 19 0)) ∧
    ∃ h : (changedOnce 946728030 (-18000) (-14400)).Regular,
      (∃ t, InTable (t / 1000) ∧ (changedOnce 946728030 (-18000) (-14400)).Shows ⟨24000, 1, by decide, by decide⟩ 8 0 t) ∧
      ¬ (changedOnce 946728030 (-18000) (-14400)).Shows ⟨24000, 1, by decide, by decide⟩ 8 0
        (zonedDate ((changedOnce 946728030 (-18000) (-14400)).table h) 2000 1 1 8 0) := by
  have hback : (changedOnce 946683000 (-14400) (-18000)).Regular :=
    changedOnce_regular (by decide) (by decide) (by decide)
  have hforward : (changedOnce 946728030 (-18000) (-14400)).Regular :=
    changedOnce_regular (by decide) (by decide) (by decide)
  refine ⟨⟨hback, ⟨946684800000, ⟨by decide, by decide⟩, ?_⟩, fun hleast => ?_⟩,
    hforward, ⟨946728030000, ⟨by decide, by decide⟩, ?_⟩, fun hshows => ?_⟩
  · rw [shows_iff (by decide) (by decide)]
    decide
  · have hfound := zonedDate_table hback ⟨23999, 31, by decide, by decide⟩ 19 0
    have hearlier := hleast.2 (show _ from (shows_iff (by decide) (by decide) 946681200000).2 (by decide))
    rw [show zonedDate (Zone.table _ hback) 1999 12 31 19 0 = 946684800000 from hfound.trans (by decide)] at hearlier
    omega
  · rw [shows_iff (by decide) (by decide)]
    decide
  · have hfound := zonedDate_table hforward ⟨24000, 1, by decide, by decide⟩ 8 0
    rw [show zonedDate (Zone.table _ hforward) 2000 1 1 8 0 = 946728000000 from hfound.trans (by decide),
      shows_iff (by decide) (by decide)] at hshows
    revert hshows
    decide

end ClientBridge
