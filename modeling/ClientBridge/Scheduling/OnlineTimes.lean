import ClientBridge.Scheduling.OfferedTimes

/-!
# The booking page's times

The page lists a day's times (`openTimes`), how many of them each day of a strip has (`openDays`), and the next few
of each service (`nextOpenings`).  The last two read many days at once, and skip those that are closed or out of
range.  They agree with the day's own list (`openDays_agree`, `nextOpenings_eq`).
-/

namespace ClientBridge

open Calendar ZoneOffsets

/-! ## The page -/

/-- How soon and how far ahead a visit is booked online, and the step between starts. -/
structure BookingPolicy where
  leadHours : Nat
  horizonDays : Nat
  stepMin : Option Nat
  deriving DecidableEq, Repr

def BookingPolicy.earliest (policy : BookingPolicy) (now : Int) : Int := now + minutesOf (60 * policy.leadHours)

def BookingPolicy.latest (policy : BookingPolicy) (now : Int) : Int := now + policy.horizonDays * microsPerDay

/-- Neither too soon nor too far ahead to book online. -/
def BookingPolicy.inRange (policy : BookingPolicy) (now start : Int) : Bool :=
  decide (policy.earliest now ≤ start) && decide (start ≤ policy.latest now)

structure PublicSlot where
  startsAt : Int
  endsAt : Int
  staffId : Id
  waitlist : Bool
  deriving DecidableEq, Repr

structure PublicDay where
  date : CivilDate
  count : Nat
  waitlist : Nat
  closed : Bool
  reason : Option String
  deriving DecidableEq

/-- A dictionary of starts, where the first member to have a start keeps it. -/
def firstOf (pairs : List (Int × Id)) : List (Int × Id) :=
  pairs.foldl (fun seen p => if seen.any fun q => decide (q.1 = p.1) then seen else seen ++ [p]) []

/-- A full session of the class on the date, which a client can wait for a seat in. -/
def Availability.waits (a : Availability) (policy : BookingPolicy) (now : Int) (item : ServiceItem)
    (onDate : CivilDate) (b : Busy) : Bool :=
  decide (b.itemId = item.id) && b.full && policy.inRange now b.startsAt &&
    decide (dateOf (a.tz.localTime b.startsAt) = onDate)

/-- The full sessions of a class on the date, by start. -/
def waitlists (a : Availability) (policy : BookingPolicy) (now : Int) (item : ServiceItem) (staff : List Id)
    (onDate : CivilDate) : List (Int × Id) :=
  if item.isClass then
    firstOf (staff.flatMap fun member =>
      ((a.busy member).filter (a.waits policy now item onDate)).map fun b => (b.startsAt, member))
  else []

/-- The times of a day by start, each with the first member who has it. -/
def openTimes (policy : BookingPolicy) (now : Int) (a : Availability) (item : ServiceItem) (staff : List Id)
    (onDate : CivilDate) (minutes : Option Nat) : List PublicSlot :=
  if item.isProgram then []
  else
    let delta := Availability.lengthOf item minutes
    let seen := firstOf (staff.flatMap fun member =>
      ((a.openStarts item member onDate policy.stepMin none minutes [] none).filter (policy.inRange now)).map
        fun start => (start, member))
    let full := (waitlists a policy now item staff onDate).filter fun p => !seen.any fun q => decide (q.1 = p.1)
    ((seen ++ full).mergeSort fun p q => decide (p.1 ≤ q.1)).map fun p =>
      ⟨p.1, p.1 + delta, p.2, full.any fun q => decide (q.1 = p.1)⟩

/-- A day's times, read for the day alone. -/
def dayTimes (db : ScheduleDb) (policy : BookingPolicy) (now : Int) (item : ServiceItem) (staff : List Id)
    (onDate : CivilDate) (minutes : Option Nat) : List PublicSlot :=
  openTimes policy now (loadAvailability db staff onDate onDate [item] []) item staff onDate minutes

/-- The most days of a strip. -/
def maxDays : Int := 14

/-- A day of the strip, on what was read for all of them. -/
def stripDay (policy : BookingPolicy) (now : Int) (found : Availability) (item : ServiceItem) (staff : List Id)
    (minutes : Option Nat) (crew : List HoursRow) (exclude hold : Option Id) (day : CivilDate) : PublicDay :=
  let opens := (localDay found.tz day).1
  let closes := (localDay found.tz day).2
  let closure := found.closures.find? fun w => decide (w.startsAt ≤ opens) && decide (closes ≤ w.endsAt)
  if closure.isNone ∧ policy.earliest now < closes ∧ opens ≤ policy.latest now ∧ item.isProgram = false then
    let starts := (staff.flatMap fun member =>
      (found.openStarts item member day policy.stepMin exclude minutes crew hold).filter (policy.inRange now)).toFinset
    let full := ((waitlists found policy now item staff day).map (·.1)).toFinset \ starts
    ⟨day, starts.card, full.card, closure.isSome, closure.bind (·.reason)⟩
  else ⟨day, 0, 0, closure.isSome, closure.bind (·.reason)⟩

/-- Open start times per day for one service, across the members. -/
def openDays (db : ScheduleDb) (policy : BookingPolicy) (now : Int) (item : ServiceItem) (staff : List Id)
    (start : CivilDate) (count : Int) (minutes : Option Nat) (crew : List HoursRow) (exclude hold : Option Id) :
    List PublicDay :=
  let days := (min (max count 1) maxDays).toNat
  let found := loadAvailability db (staff ++ crew.filterMap (·.staffId)) start (start.addDays (days - 1)) [item]
    hold.toList
  (List.range days).map fun k : Nat => stripDay policy now found item staff minutes crew exclude hold (start.addDays k)

/-- The days' times one after another, until there are three. -/
def firstThree (times : CivilDate → List PublicSlot) : List CivilDate → List PublicSlot → List PublicSlot
  | [], slots => slots
  | day :: days, slots =>
    if 3 ≤ (slots ++ times day).length then slots ++ times day else firstThree times days (slots ++ times day)

/-- The next openings of each service within a week. -/
def nextOpenings (db : ScheduleDb) (policy : BookingPolicy) (now : Int) (today : CivilDate) (items : List ServiceItem)
    (staff : List Id) : List (Id × List PublicSlot) :=
  let found := loadAvailability db staff today (today.addDays 6) items []
  items.map fun item => (item.id, (firstThree (fun day => openTimes policy now found item
    (staff.filter fun m => item.offers m) day none) ((List.range 7).map fun k : Nat => today.addDays k) []).take 3)

/-! ## Dictionaries of starts -/

theorem firstOf_keys (pairs : List (Int × Id)) :
    ((firstOf pairs).map (·.1)).Nodup ∧ ∀ x, x ∈ (firstOf pairs).map (·.1) ↔ x ∈ pairs.map (·.1) := by
  have hfold : ∀ (pairs seen : List (Int × Id)), (seen.map (·.1)).Nodup →
      ((pairs.foldl (fun seen p => if seen.any fun q => decide (q.1 = p.1) then seen else seen ++ [p]) seen).map
        (·.1)).Nodup ∧ ∀ x, x ∈ (pairs.foldl (fun seen p => if seen.any fun q => decide (q.1 = p.1) then seen
          else seen ++ [p]) seen).map (·.1) ↔ x ∈ seen.map (·.1) ∨ x ∈ pairs.map (·.1) := by
    intro pairs
    induction pairs with
    | nil => exact fun seen hseen => ⟨hseen, fun x => by simp⟩
    | cons p pairs ih =>
      intro seen hseen
      rw [List.foldl_cons]
      have hany : (seen.any fun q => decide (q.1 = p.1)) = true ↔ p.1 ∈ seen.map (·.1) := by
        simp only [List.any_eq_true, decide_eq_true_eq, List.mem_map]
      split
      · next h =>
        refine ⟨(ih seen hseen).1, fun x => ?_⟩
        rw [(ih seen hseen).2, List.map_cons, List.mem_cons]
        constructor
        · rintro (hx | hx)
          · exact .inl hx
          · exact .inr (.inr hx)
        · rintro (hx | rfl | hx)
          · exact .inl hx
          · exact .inl (hany.1 h)
          · exact .inr hx
      · next h =>
        have hnext : ((seen ++ [p]).map (·.1)).Nodup := by
          rw [List.map_append, List.map_cons, List.map_nil, List.nodup_append]
          refine ⟨hseen, List.nodup_singleton _, ?_⟩
          rintro x hx y hy rfl
          obtain rfl := List.mem_singleton.1 hy
          exact h (hany.2 hx)
        refine ⟨(ih _ hnext).1, fun x => ?_⟩
        rw [(ih _ hnext).2, List.map_append, List.mem_append, List.map_cons, List.map_nil, List.mem_singleton,
          List.map_cons, List.mem_cons, or_assoc]
  have h := hfold pairs [] List.nodup_nil
  refine ⟨h.1, fun x => (h.2 x).trans ?_⟩
  simp

/-! ## Whole days -/

/-- The times of a date, and the instants that show it, are between its midnight and the next. -/
structure WholeDay (tz : BusinessZone) (date : CivilDate) : Prop where
  reads : ∀ time, 0 ≤ time → time < microsPerDay → (localDay tz date).1 ≤ tz.instant (clockAt date time) ∧
    tz.instant (clockAt date time) ≤ (localDay tz date).2
  shows : ∀ t, dateOf (tz.localTime t) = date → (localDay tz date).1 ≤ t ∧ t < (localDay tz date).2

theorem dateOf_bounds {wall : Int} {date : CivilDate} (h : dateOf wall = date) :
    daySecond date * microsPerSecond ≤ wall ∧ wall < (daySecond date + 86400) * microsPerSecond := by
  have ho : wall / microsPerDay + epochDay = date.ordinal := by
    rw [← h, dateOf, CivilDate.ordinal_ofOrdinal]
  unfold daySecond
  unfold microsPerDay microsPerSecond at *
  omega

section
variable {db : ScheduleDb} {staffIds staffIds' : List Id} {first last first' last' onDate : CivilDate}
  {items items' : List ServiceItem} {held held' : List Id} {item : ServiceItem} {staffId : Id} {crew : List HoursRow}
  {hold : Option Id}

theorem WholeDay.inDay (hday : WholeDay db.tz onDate) {stepMin minutes : Option Nat} {s : Int}
    (hs : s ∈ db.gridStarts item staffId onDate stepMin minutes) :
    InDay db.tz onDate s (s + Availability.lengthOf item minutes) := by
  unfold ScheduleDb.gridStarts at hs
  split at hs
  · cases hs
  · next hlength =>
    obtain ⟨w, hw, hs⟩ := List.mem_flatMap.1 hs
    have hpos : 0 < Availability.lengthOf item minutes := by omega
    have hstep := stepOf_pos hpos stepMin
    obtain ⟨k, hk, hlim⟩ := (mem_gridOf hpos hstep).1 hs
    have hnn : 0 ≤ (k : Int) * Availability.stepOf item stepMin minutes :=
      Int.mul_nonneg (Int.natCast_nonneg k) hstep.le
    cases hws : windowsOn (db.hoursOf staffId) onDate with
    | none =>
      rw [hws] at hw
      cases hw
    | some ws =>
      rw [hws] at hw
      obtain ⟨h1, h12, h2⟩ := windowsOn_bounds hws hw
      have hopens := (hday.reads w.1 h1 (h12.trans h2)).1
      have hcloses := (hday.reads w.2 (h1.trans h12.le) h2).2
      exact ⟨by omega, by omega, by omega⟩

/-- Two reads that cover the visit list the same times. -/
theorem openStarts_congr (hday : WholeDay db.tz onDate)
    (hc : Covers staffIds first last items held onDate item staffId crew hold)
    (hc' : Covers staffIds' first' last' items' held' onDate item staffId crew hold)
    (stepMin minutes : Option Nat) (exclude : Option Id) :
    (loadAvailability db staffIds first last items held).openStarts item staffId onDate stepMin exclude minutes crew
      hold = (loadAvailability db staffIds' first' last' items' held').openStarts item staffId onDate stepMin exclude
        minutes crew hold := by
  rw [openStarts_eq_filter hc.staff, openStarts_eq_filter hc'.staff]
  refine List.filter_congr fun s hs => ?_
  have hin := hday.inDay hs
  rw [(hc.inSpan hin).passes_eq hc hin.lt, (hc'.inSpan hin).passes_eq hc' hin.lt]

theorem marginOf_nonneg (items : List ServiceItem) : 0 ≤ marginOf items := by
  unfold marginOf minutesOf microsPerMin microsPerSecond
  omega

/-- A slot that starts in the span was read. -/
theorem filter_busyOver {opens closes margin : Int} {full : VisitSlot → Bool} {s : VisitSlot} {p : Busy → Bool}
    (hmargin : 0 ≤ margin) (hlasts : s.startsAt < s.endsAt)
    (hp : ∀ b, p b = true → b.startsAt = s.startsAt → opens ≤ s.startsAt ∧ s.startsAt < closes) :
    (db.busyOver opens closes margin full s).filter p =
      if s.live then (db.item? s.itemId).bind fun b =>
        (some ⟨s.id, s.itemId, s.startsAt, s.endsAt, b.before, b.after, full s⟩ : Option Busy).filter p
      else none := by
  unfold ScheduleDb.busyOver
  split
  · cases db.item? s.itemId with
    | none => rfl
    | some b =>
      have hb := before_nonneg b
      simp only [Option.bind_some]
      cases hpb : p ⟨s.id, s.itemId, s.startsAt, s.endsAt, b.before, b.after, full s⟩ with
      | false =>
        split
        · rfl
        · rw [Option.filter_none, Option.filter_some, if_neg (by simp [hpb])]
      | true =>
        have := hp _ hpb rfl
        rw [if_pos ⟨by omega, by omega⟩]
  · rfl

/-- Two reads that cover the day hold the same full sessions. -/
theorem waits_congr (hlasts : ∀ s ∈ db.slots, s.startsAt < s.endsAt) (hday : WholeDay db.tz onDate)
    (hc : Covers staffIds first last items held onDate item staffId crew hold)
    (hc' : Covers staffIds' first' last' items' held' onDate item staffId crew hold)
    (policy : BookingPolicy) (now : Int) :
    ((loadAvailability db staffIds first last items held).busy staffId).filter
      ((loadAvailability db staffIds first last items held).waits policy now item onDate) =
    ((loadAvailability db staffIds' first' last' items' held').busy staffId).filter
      ((loadAvailability db staffIds' first' last' items' held').waits policy now item onDate) := by
  have hread : ∀ {m : List Id} {f l : CivilDate} {is : List ServiceItem} {h : List Id},
      Covers m f l is h onDate item staffId crew hold →
      ((loadAvailability db m f l is h).busy staffId).filter ((loadAvailability db m f l is h).waits policy now item onDate) =
      (db.slots.filter fun s => decide (s.staffId = staffId)).filterMap fun s =>
        if s.live then (db.item? s.itemId).bind fun b =>
          (some ⟨s.id, s.itemId, s.startsAt, s.endsAt, b.before, b.after, db.seatsClosed s⟩ : Option Busy).filter fun b =>
            decide (b.itemId = item.id) && b.full && policy.inRange now b.startsAt &&
              decide (dateOf (db.tz.localTime b.startsAt) = onDate)
        else none := by
    intro m f l is h hcov
    have hbusy : (loadAvailability db m f l is h).busy staffId =
        (db.slots.filter fun s => decide (s.staffId = staffId)).filterMap
          (db.busyOver (localDay db.tz f).1 (localDay db.tz l).2 (marginOf is) db.seatsClosed) := if_pos hcov.staff
    rw [hbusy, List.filter_filterMap]
    refine List.filterMap_congr fun s hs => ?_
    refine filter_busyOver (marginOf_nonneg is) (hlasts s (List.mem_filter.1 hs).1) fun b hb hstart => ?_
    simp only [Availability.waits, Bool.and_eq_true, decide_eq_true_eq] at hb
    have hin := hday.shows b.startsAt hb.2
    rw [hstart] at hin
    exact ⟨(opens_le hcov.first).trans hin.1, hin.2.trans_le (le_closes hcov.last)⟩
  rw [hread hc, hread hc']

/-! ## A day's times -/

/-- The starts in range that any of the members has. -/
def startsOf (policy : BookingPolicy) (now : Int) (a : Availability) (item : ServiceItem) (staff : List Id)
    (onDate : CivilDate) (minutes : Option Nat) : List Int :=
  staff.flatMap fun member =>
    (a.openStarts item member onDate policy.stepMin none minutes [] none).filter (policy.inRange now)

/-- A day lists each start some member has once, and besides them each full session. -/
theorem openTimes_counts (onDate : CivilDate) (policy : BookingPolicy) (now : Int) (a : Availability) (staff : List Id)
    (minutes : Option Nat) (hprogram : item.isProgram = false) :
    ((openTimes policy now a item staff onDate minutes).filter fun t => !t.waitlist).length =
      (startsOf policy now a item staff onDate minutes).toFinset.card ∧
    ((openTimes policy now a item staff onDate minutes).filter fun t => t.waitlist).length =
      (((waitlists a policy now item staff onDate).map (·.1)).toFinset \
        (startsOf policy now a item staff onDate minutes).toFinset).card := by
  set pairs := staff.flatMap fun member =>
    ((a.openStarts item member onDate policy.stepMin none minutes [] none).filter (policy.inRange now)).map
      fun start => (start, member) with hpairs
  set seen := firstOf pairs with hseen
  set full := (waitlists a policy now item staff onDate).filter fun p => !seen.any fun q => decide (q.1 = p.1)
    with hfull
  have hkeys : ∀ x, x ∈ seen.map (·.1) ↔ x ∈ startsOf policy now a item staff onDate minutes := by
    intro x
    rw [hseen, (firstOf_keys pairs).2, hpairs, List.map_flatMap, startsOf]
    simp only [List.mem_flatMap, List.map_map, List.mem_map, List.mem_filter, Function.comp_apply, exists_eq_right]
  have hnotSeen : ∀ p ∈ full, p.1 ∉ seen.map (·.1) := by
    intro p hp hmem
    obtain ⟨q, hq, he⟩ := List.mem_map.1 hmem
    have := (List.mem_filter.1 hp).2
    rw [Bool.not_eq_true', List.any_eq_false] at this
    exact this q hq (decide_eq_true he)
  have hlist : openTimes policy now a item staff onDate minutes =
      ((seen ++ full).mergeSort fun p q => decide (p.1 ≤ q.1)).map fun p =>
        ⟨p.1, p.1 + Availability.lengthOf item minutes, p.2, full.any fun q => decide (q.1 = p.1)⟩ := by
    rw [openTimes, hprogram]
    rfl
  have hlength : ∀ f : Bool → Bool, ((openTimes policy now a item staff onDate minutes).filter fun t => f t.waitlist).length =
      seen.countP (fun _ => f false) + full.countP fun _ => f true := by
    intro f
    rw [hlist, ← List.countP_eq_length_filter, List.countP_map, (List.mergeSort_perm _ _).countP_eq, List.countP_append]
    congr 1
    · refine List.countP_congr fun p hp => ?_
      have : (full.any fun q => decide (q.1 = p.1)) = false := by
        rw [List.any_eq_false]
        intro q hq he
        exact hnotSeen q hq (of_decide_eq_true he ▸ List.mem_map_of_mem hp)
      simp only [Function.comp_apply, this]
    · refine List.countP_congr fun p hp => ?_
      have : (full.any fun q => decide (q.1 = p.1)) = true :=
        List.any_eq_true.2 ⟨p, hp, decide_eq_true rfl⟩
      simp only [Function.comp_apply, this]
  refine ⟨?_, ?_⟩
  · have hset : (startsOf policy now a item staff onDate minutes).toFinset = (seen.map (·.1)).toFinset := by
      ext x
      rw [List.mem_toFinset, List.mem_toFinset, hkeys]
    rw [hlength (fun b => !b), hset, List.toFinset_card_of_nodup (firstOf_keys pairs).1, List.length_map,
      ← hseen]
    simp
  · have hset : ((waitlists a policy now item staff onDate).map (·.1)).toFinset \
        (startsOf policy now a item staff onDate minutes).toFinset = (full.map (·.1)).toFinset := by
      ext x
      rw [Finset.mem_sdiff, List.mem_toFinset, List.mem_toFinset, List.mem_toFinset, ← hkeys]
      constructor
      · rintro ⟨hx, hnot⟩
        obtain ⟨p, hp, rfl⟩ := List.mem_map.1 hx
        refine List.mem_map_of_mem (List.mem_filter.2 ⟨hp, ?_⟩)
        rw [Bool.not_eq_true', List.any_eq_false]
        exact fun q hq he => hnot (of_decide_eq_true he ▸ List.mem_map_of_mem hq)
      · intro hx
        obtain ⟨p, hp, rfl⟩ := List.mem_map.1 hx
        exact ⟨List.mem_map_of_mem (List.mem_filter.1 hp).1, hnotSeen p hp⟩
    have hnodup : (full.map (·.1)).Nodup := by
      have hw : ((waitlists a policy now item staff onDate).map (·.1)).Nodup := by
        unfold waitlists
        split
        · exact (firstOf_keys _).1
        · exact List.nodup_nil
      exact hw.sublist (List.filter_sublist.map _)
    rw [hlength (fun b => b), hset, List.toFinset_card_of_nodup hnodup, List.length_map]
    simp

/-- Two reads that cover the day list the same times and the same full sessions. -/
theorem openTimes_congr (hlasts : ∀ s ∈ db.slots, s.startsAt < s.endsAt) (hday : WholeDay db.tz onDate)
    {staff : List Id} (hc : ∀ m ∈ staff, Covers staffIds first last items held onDate item m [] none)
    (hc' : ∀ m ∈ staff, Covers staffIds' first' last' items' held' onDate item m [] none)
    (policy : BookingPolicy) (now : Int) (minutes : Option Nat) :
    startsOf policy now (loadAvailability db staffIds first last items held) item staff onDate minutes =
      startsOf policy now (loadAvailability db staffIds' first' last' items' held') item staff onDate minutes ∧
    waitlists (loadAvailability db staffIds first last items held) policy now item staff onDate =
      waitlists (loadAvailability db staffIds' first' last' items' held') policy now item staff onDate ∧
    openTimes policy now (loadAvailability db staffIds first last items held) item staff onDate minutes =
      openTimes policy now (loadAvailability db staffIds' first' last' items' held') item staff onDate minutes := by
  have hstarts : ∀ m ∈ staff,
      (loadAvailability db staffIds first last items held).openStarts item m onDate policy.stepMin none minutes [] none =
      (loadAvailability db staffIds' first' last' items' held').openStarts item m onDate policy.stepMin none minutes []
        none := fun m hm => openStarts_congr hday (hc m hm) (hc' m hm) _ _ _
  have hwaits : waitlists (loadAvailability db staffIds first last items held) policy now item staff onDate =
      waitlists (loadAvailability db staffIds' first' last' items' held') policy now item staff onDate := by
    unfold waitlists
    rw [List.flatMap_congr fun m hm => by rw [waits_congr hlasts hday (hc m hm) (hc' m hm)]]
  refine ⟨List.flatMap_congr fun m hm => by rw [hstarts m hm], hwaits, ?_⟩
  unfold openTimes
  dsimp only
  rw [hwaits, List.flatMap_congr fun m hm => by rw [hstarts m hm]]

/-! ## The strip -/

/-- A closure of the whole day leaves no start. -/
theorem openStarts_closed (hday : WholeDay db.tz onDate)
    (hc : Covers staffIds first last items held onDate item staffId crew hold) {w : Away}
    (hw : w ∈ (loadAvailability db staffIds first last items held).closures) (hopens : w.startsAt ≤ (localDay db.tz onDate).1)
    (hcloses : (localDay db.tz onDate).2 ≤ w.endsAt) (stepMin minutes : Option Nat) (exclude : Option Id) :
    (loadAvailability db staffIds first last items held).openStarts item staffId onDate stepMin exclude minutes crew
      hold = [] := by
  rw [openStarts_eq_filter hc.staff, List.filter_eq_nil_iff]
  intro s hs hpass
  have hin := hday.inDay hs
  have hov : w.over s (s + Availability.lengthOf item minutes) = true := by
    have h1 := hin.opens
    have h2 := hin.closes
    have h3 := hin.lt
    simp only [Away.over, Bool.and_eq_true, decide_eq_true_eq]
    omega
  unfold Availability.passes at hpass
  simp only [Bool.and_eq_true, Bool.not_eq_true', List.any_eq_false] at hpass
  exact hpass.1.1.1 w (List.mem_append_left _ hw) hov

/-- No start of a day out of range can be booked online. -/
theorem startsOf_outOfRange (hday : WholeDay db.tz onDate) {staff : List Id}
    (hc : ∀ m ∈ staff, Covers staffIds first last items held onDate item m [] none) {policy : BookingPolicy} {now : Int}
    (hout : ¬(policy.earliest now < (localDay db.tz onDate).2 ∧ (localDay db.tz onDate).1 ≤ policy.latest now))
    (minutes : Option Nat) :
    startsOf policy now (loadAvailability db staffIds first last items held) item staff onDate minutes = [] ∧
      waitlists (loadAvailability db staffIds first last items held) policy now item staff onDate = [] := by
  have hrange : ∀ s, (localDay db.tz onDate).1 ≤ s → s < (localDay db.tz onDate).2 → policy.inRange now s = false := by
    intro s h1 h2
    simp only [BookingPolicy.inRange, Bool.and_eq_false_iff, decide_eq_false_iff_not]
    omega
  constructor
  · rw [startsOf, List.flatMap_eq_nil_iff]
    intro m hm
    rw [List.filter_eq_nil_iff]
    intro s hs
    rw [openStarts_eq_filter (hc m hm).staff] at hs
    have hin := hday.inDay (List.mem_filter.1 hs).1
    rw [hrange s hin.opens (hin.lt.trans_le hin.closes)]
    simp
  · have hnone : ∀ m : Id, ((loadAvailability db staffIds first last items held).busy m).filter
        ((loadAvailability db staffIds first last items held).waits policy now item onDate) = [] := by
      intro m
      rw [List.filter_eq_nil_iff]
      intro b _ hb
      simp only [Availability.waits, Bool.and_eq_true, decide_eq_true_eq] at hb
      have hin := hday.shows b.startsAt hb.2
      rw [hrange _ hin.1 hin.2] at hb
      simp at hb
    unfold waitlists
    split
    · have hempty : (staff.flatMap fun member => (((loadAvailability db staffIds first last items held).busy member).filter
          ((loadAvailability db staffIds first last items held).waits policy now item onDate)).map fun b =>
            (b.startsAt, member)) = [] := List.flatMap_eq_nil_iff.2 fun m _ => by rw [hnone m, List.map_nil]
      rw [hempty]
      rfl
    · rfl

theorem addDays_mono {date : CivilDate} {m n : Int} (h : m ≤ n) : date.addDays m ≤ date.addDays n := by
  rw [CivilDate.le_iff, CivilDate.ordinal_addDays, CivilDate.ordinal_addDays]
  omega

theorem le_addDays {date : CivilDate} {n : Int} (h : 0 ≤ n) : date ≤ date.addDays n := by
  rw [CivilDate.le_iff, CivilDate.ordinal_addDays]
  omega

theorem stripDay_closed {found : Availability} {policy : BookingPolicy} {now : Int} {staff : List Id}
    {minutes : Option Nat} {exclude : Option Id} {w : Away}
    (hclosure : found.closures.find? (fun w => decide (w.startsAt ≤ (localDay found.tz onDate).1) &&
      decide ((localDay found.tz onDate).2 ≤ w.endsAt)) = some w) :
    stripDay policy now found item staff minutes crew exclude hold onDate = ⟨onDate, 0, 0, true, w.reason⟩ := by
  unfold stripDay
  dsimp only
  rw [hclosure, if_neg (by simp)]
  rfl

theorem stripDay_open {found : Availability} {policy : BookingPolicy} {now : Int} {staff : List Id}
    {minutes : Option Nat} (hclosure : found.closures.find? (fun w => decide (w.startsAt ≤ (localDay found.tz onDate).1) &&
      decide ((localDay found.tz onDate).2 ≤ w.endsAt)) = none)
    (hrange : policy.earliest now < (localDay found.tz onDate).2 ∧ (localDay found.tz onDate).1 ≤ policy.latest now)
    (hprogram : item.isProgram = false) :
    stripDay policy now found item staff minutes [] none none onDate =
      ⟨onDate, (startsOf policy now found item staff onDate minutes).toFinset.card,
        (((waitlists found policy now item staff onDate).map (·.1)).toFinset \
          (startsOf policy now found item staff onDate minutes).toFinset).card, false, none⟩ := by
  unfold stripDay
  dsimp only
  rw [hclosure, if_pos ⟨rfl, hrange.1, hrange.2, hprogram⟩]
  rfl

theorem stripDay_pruned {found : Availability} {policy : BookingPolicy} {now : Int} {staff : List Id}
    {minutes : Option Nat} (hclosure : found.closures.find? (fun w => decide (w.startsAt ≤ (localDay found.tz onDate).1) &&
      decide ((localDay found.tz onDate).2 ≤ w.endsAt)) = none)
    (hpruned : ¬(policy.earliest now < (localDay found.tz onDate).2 ∧ (localDay found.tz onDate).1 ≤ policy.latest now ∧
      item.isProgram = false)) :
    stripDay policy now found item staff minutes [] none none onDate = ⟨onDate, 0, 0, false, none⟩ := by
  unfold stripDay
  dsimp only
  rw [hclosure, if_neg fun h => hpruned h.2]
  rfl

/-- Each day of the strip counts the times and the full sessions the day lists, unless the business is closed
throughout.  Then it counts none, and the day lists no time to book. -/
theorem openDays_agree (db : ScheduleDb) (policy : BookingPolicy) (now : Int) (item : ServiceItem) (staff : List Id)
    (start : CivilDate) (count : Int) (minutes : Option Nat) (hlasts : ∀ s ∈ db.slots, s.startsAt < s.endsAt)
    {day : PublicDay} (hmem : day ∈ openDays db policy now item staff start count minutes [] none none)
    (hday : WholeDay db.tz day.date) :
    (day.closed = false →
      day.count = ((dayTimes db policy now item staff day.date minutes).filter fun t => !t.waitlist).length ∧
        day.waitlist = ((dayTimes db policy now item staff day.date minutes).filter fun t => t.waitlist).length) ∧
    (day.closed = true → day.count = 0 ∧ day.waitlist = 0 ∧
      ∀ t ∈ dayTimes db policy now item staff day.date minutes, t.waitlist = true) := by
  unfold openDays at hmem
  dsimp only at hmem
  rw [List.filterMap_nil, List.append_nil, Option.toList_none] at hmem
  obtain ⟨k, hk, rfl⟩ := List.mem_map.1 hmem
  set n := (min (max count 1) maxDays).toNat with hn
  have hlt := List.mem_range.1 hk
  set found := loadAvailability db staff start (start.addDays (n - 1)) [item] [] with hfound
  have hdate : (stripDay policy now found item staff minutes [] none none (start.addDays k)).date = start.addDays k := by
    unfold stripDay
    dsimp only
    split <;> rfl
  rw [hdate] at hday ⊢
  have hitem : [item].find? (fun i => decide (i.id = item.id)) = some item := by simp
  have hwide : ∀ m ∈ staff, Covers staff start (start.addDays (n - 1)) [item] [] (start.addDays k) item m [] none :=
    fun m hm => ⟨le_addDays (Int.natCast_nonneg k), addDays_mono (by omega), hitem, hm, by simp, by simp⟩
  have hone : ∀ m ∈ staff, Covers staff (start.addDays k) (start.addDays k) [item] [] (start.addDays k) item m [] none :=
    fun m hm => ⟨le_rfl, le_rfl, hitem, hm, by simp, by simp⟩
  obtain ⟨hstarts, hwaits, -⟩ := openTimes_congr hlasts hday hwide hone policy now minutes
  have htimes : item.isProgram = true → dayTimes db policy now item staff (start.addDays k) minutes = [] :=
    fun hp => if_pos hp
  cases hclosure : found.closures.find? (fun w => decide (w.startsAt ≤ (localDay found.tz (start.addDays k)).1) &&
      decide ((localDay found.tz (start.addDays k)).2 ≤ w.endsAt)) with
  | some w =>
    rw [stripDay_closed hclosure]
    refine ⟨fun h => absurd h (by simp), fun _ => ⟨rfl, rfl, ?_⟩⟩
    cases hp : item.isProgram with
    | true =>
      rw [htimes hp]
      simp
    | false =>
      have hw := List.find?_some hclosure
      simp only [Bool.and_eq_true, decide_eq_true_eq] at hw
      have hnone : startsOf policy now found item staff (start.addDays k) minutes = [] := by
        refine List.flatMap_eq_nil_iff.2 fun m hm => ?_
        rw [hfound, openStarts_closed hday (hwide m hm) (List.mem_of_find?_eq_some hclosure) hw.1 hw.2, List.filter_nil]
      have hcount := (openTimes_counts (start.addDays k) policy now
        (loadAvailability db staff (start.addDays k) (start.addDays k) [item] []) staff minutes hp).1
      rw [← hstarts, hnone] at hcount
      have hnil := List.filter_eq_nil_iff.1 (List.length_eq_zero_iff.1 hcount)
      exact fun t ht => by simpa using hnil t ht
  | none =>
    by_cases hrange : policy.earliest now < (localDay db.tz (start.addDays k)).2 ∧
        (localDay db.tz (start.addDays k)).1 ≤ policy.latest now
    · cases hp : item.isProgram with
      | true =>
        rw [stripDay_pruned hclosure (by simp [hp]), htimes hp]
        simp
      | false =>
        have hcounts := openTimes_counts (start.addDays k) policy now
          (loadAvailability db staff (start.addDays k) (start.addDays k) [item] []) staff minutes hp
        rw [← hstarts, ← hwaits] at hcounts
        rw [stripDay_open hclosure hrange hp]
        exact ⟨fun _ => ⟨hcounts.1.symm, hcounts.2.symm⟩, fun h => absurd h (by simp)⟩
    · rw [stripDay_pruned hclosure fun h => hrange ⟨h.1, h.2.1⟩]
      refine ⟨fun _ => ?_, fun h => absurd h (by simp)⟩
      cases hp : item.isProgram with
      | true =>
        rw [htimes hp]
        simp
      | false =>
        have hcounts := openTimes_counts (start.addDays k) policy now
          (loadAvailability db staff (start.addDays k) (start.addDays k) [item] []) staff minutes hp
        obtain ⟨hno, hnow⟩ := startsOf_outOfRange hday hone hrange minutes
        rw [hno, hnow] at hcounts
        exact ⟨hcounts.1.symm, hcounts.2.symm⟩

end

/-! ### A class on the day the clocks change -/

/-- A class of two, an hour long. -/
def yogaItem : ServiceItem where
  id := "item_yoga"
  isClassKind := true
  durationMin := some 60
  bufferBeforeMin := 0
  bufferAfterMin := 0
  capacity := some 2
  sessionCount := none
  resourceIds := []
  staffIds := []

/-- A full session from ten to eleven. -/
def yogaDb : ScheduleDb where
  tz := studioZone
  hours := [⟨"hours_ana", some "staff_ana", .recurring 6, some studioMorning, true, none⟩]
  items := [yogaItem]
  resources := []
  slots := [⟨"slot_yoga", "item_yoga", "staff_ana", none, 1772978400 * microsPerSecond, 1772982000 * microsPerSecond, 2,
    .scheduled⟩]
  bookings := [⟨"booking_1", "slot_yoga", "client_1", none, .confirmed, false, 0⟩,
    ⟨"booking_2", "slot_yoga", "client_2", none, .confirmed, false, 1⟩]

/-- A start each half hour, as far ahead as a year. -/
def halfHours : BookingPolicy := ⟨0, 365, some 30⟩

theorem springNight_whole : WholeDay studioZone springNight := by
  have hday : daySecond springNight = 1772928000 := by decide
  have hopens : (localDay studioZone springNight).1 = 1772946000 * microsPerSecond := by decide
  have hcloses : (localDay studioZone springNight).2 = 1773028800 * microsPerSecond := by decide
  refine ⟨fun time h0 hlt => ?_, fun t ht => ?_⟩
  · have hsec := clockAt_second springNight time
    have hwall : clockAt springNight time = 1772928000 * microsPerSecond + time := by
      unfold clockAt microsPerSecond
      rw [show (springNight.ordinal - epochDay) * microsPerDay = 1772928000 * 1000000 by decide]
    rw [hopens, hcloses, BusinessZone.instant, hwall]
    simp only [studioZone, wallOffset]
    unfold microsPerDay microsPerSecond at *
    split
    · split <;> omega
    · omega
  · have hb := dateOf_bounds ht
    rw [hday] at hb
    rw [hopens, hcloses]
    simp only [BusinessZone.localTime, BusinessZone.utcoffset, studioZone, offsetFrom] at hb
    unfold microsPerSecond at *
    split at hb
    · split at hb <;> omega
    · omega

/-- On the day the clocks change, the strip counts four times and one full session. -/
theorem yoga_strip :
    (⟨springNight, 4, 1, false, none⟩ : PublicDay) ∈ openDays yogaDb halfHours (1772900000 * microsPerSecond) yogaItem
      ["staff_ana"] (springNight.addDays (-1)) 2 none [] none none ∧
    ((dayTimes yogaDb halfHours (1772900000 * microsPerSecond) yogaItem ["staff_ana"] springNight none).filter
      fun t => !t.waitlist).length = 4 := by
  have hmem : (⟨springNight, 4, 1, false, none⟩ : PublicDay) ∈ openDays yogaDb halfHours
      (1772900000 * microsPerSecond) yogaItem ["staff_ana"] (springNight.addDays (-1)) 2 none [] none none := by
    decide +kernel
  have hagree := openDays_agree yogaDb halfHours (1772900000 * microsPerSecond) yogaItem ["staff_ana"]
    (springNight.addDays (-1)) 2 none (by decide) hmem springNight_whole
  exact ⟨hmem, (hagree.1 rfl).1.symm⟩

/-! ## The next openings -/

section
variable {onDate : CivilDate} {item : ServiceItem}

theorem firstThree_take (times : CivilDate → List PublicSlot) (days : List CivilDate) (slots : List PublicSlot) :
    (firstThree times days slots).take 3 = (slots ++ days.flatMap times).take 3 := by
  induction days generalizing slots with
  | nil => rw [firstThree, List.flatMap_nil, List.append_nil]
  | cons day days ih =>
    rw [firstThree, List.flatMap_cons, ← List.append_assoc]
    split
    · next h => rw [List.take_append_of_le_length h]
    · exact ih _

/-- Without add-ons a visit has its service's own length. -/
theorem openTimes_minutes (policy : BookingPolicy) (now : Int) (a : Availability) (staff : List Id) :
    openTimes policy now a item staff onDate (some (item.visitMinutes 0)) = openTimes policy now a item staff onDate none := by
  have hlength : Availability.lengthOf item (some (item.visitMinutes 0)) = Availability.lengthOf item none := by
    unfold Availability.lengthOf ServiceItem.visitMinutes
    simp
  have hstep : ∀ stepMin, Availability.stepOf item stepMin (some (item.visitMinutes 0)) =
      Availability.stepOf item stepMin none := by
    intro stepMin
    unfold Availability.stepOf
    rw [hlength]
  unfold openTimes Availability.openStarts
  simp only [hlength, hstep]

/-- The next openings of a service are the first three the days of the week list, read for each day alone. -/
theorem nextOpenings_eq (db : ScheduleDb) (policy : BookingPolicy) (now : Int) (today : CivilDate)
    {items : List ServiceItem} (staff : List Id) (hitems : (items.map (·.id)).Nodup)
    (hlasts : ∀ s ∈ db.slots, s.startsAt < s.endsAt) (hdays : ∀ k : Nat, k < 7 → WholeDay db.tz (today.addDays k)) :
    nextOpenings db policy now today items staff = items.map fun item =>
      (item.id, (((List.range 7).map fun k : Nat => today.addDays k).flatMap fun day =>
        dayTimes db policy now item (staff.filter fun m => item.offers m) day (some (item.visitMinutes 0))).take 3) := by
  unfold nextOpenings
  refine List.map_congr_left fun item hitem => ?_
  rw [firstThree_take, List.nil_append]
  refine congrArg (fun slots => (item.id, List.take 3 slots)) ?_
  refine List.flatMap_congr fun day hday => ?_
  obtain ⟨k, hk, rfl⟩ := List.mem_map.1 hday
  have hlt := List.mem_range.1 hk
  rw [dayTimes, openTimes_minutes]
  have hfind : items.find? (fun i => decide (i.id = item.id)) = some item := by
    cases hi : items.find? (fun i => decide (i.id = item.id)) with
    | none => simpa using List.find?_eq_none.1 hi item hitem
    | some i =>
      have hid : i.id = item.id := by simpa using List.find?_some hi
      rw [List.inj_on_of_nodup_map hitems (List.mem_of_find?_eq_some hi) hitem hid]
  refine (openTimes_congr hlasts (hdays k hlt) (fun m hm => ?_) (fun m hm => ?_) policy now none).2.2
  · exact ⟨le_addDays (Int.natCast_nonneg k), addDays_mono (show (k : Int) ≤ 6 by omega), hfind, (List.mem_filter.1 hm).1, by simp, by simp⟩
  · exact ⟨le_rfl, le_rfl, by simp, hm, by simp, by simp⟩
end
/-! ### A week in summer -/

theorem clockAt_eq (date : CivilDate) (time : Int) : clockAt date time = daySecond date * microsPerSecond + time := by
  unfold clockAt daySecond microsPerDay microsPerSecond
  omega

theorem studio_whole {k : Nat} (h : k < 7) : WholeDay studioZone (studioDay.addDays k) := by
  have hday : daySecond (studioDay.addDays k) = 1782864000 + 86400 * k := by
    have hfirst : studioDay.ordinal - epochDay = 20635 := by decide
    rw [daySecond, CivilDate.ordinal_addDays]
    omega
  have hinstant : ∀ time, 0 ≤ time → time ≤ microsPerDay → studioZone.instant (clockAt (studioDay.addDays k) time) =
      (1782878400 + 86400 * k) * microsPerSecond + time := by
    intro time h0 hle
    rw [BusinessZone.instant, clockAt_eq, hday]
    simp only [studioZone, wallOffset]
    unfold microsPerDay microsPerSecond at *
    rw [if_pos (by omega), if_neg (by omega)]
    omega
  have hspan : localDay studioZone (studioDay.addDays k) =
      ((1782878400 + 86400 * k) * microsPerSecond, (1782964800 + 86400 * k) * microsPerSecond) := by
    rw [localDay, clockAt_next, hinstant 0 le_rfl (by decide), hinstant _ (by decide) le_rfl]
    unfold microsPerDay microsPerSecond
    refine Prod.ext ?_ ?_ <;> dsimp only <;> omega
  refine ⟨fun time h0 hlt => ?_, fun t ht => ?_⟩
  · rw [hspan, hinstant time h0 hlt.le]
    unfold microsPerDay microsPerSecond at *
    omega
  · have hb := dateOf_bounds ht
    rw [hday] at hb
    rw [hspan]
    simp only [BusinessZone.localTime, BusinessZone.utcoffset, studioZone, offsetFrom] at hb
    unfold microsPerSecond at *
    split at hb
    · split at hb <;> omega
    · omega

/-- The studio's next openings for the massage. -/
theorem studio_openings :
    nextOpenings studioDb halfHours (1782800000 * microsPerSecond) studioDay [massageItem] ["staff_ana", "staff_bea"] =
      [("item_massage", (((List.range 7).map fun k : Nat => studioDay.addDays k).flatMap fun day =>
        dayTimes studioDb halfHours (1782800000 * microsPerSecond) massageItem ["staff_ana", "staff_bea"] day
          (some 60)).take 3)] :=
  nextOpenings_eq studioDb halfHours (1782800000 * microsPerSecond) studioDay _ (by decide) (by decide)
    fun _ hk => studio_whole hk

end ClientBridge
