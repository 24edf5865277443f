import ClientBridge.Scheduling.Availability

/-!
# Offered times are the bookable ones

On a date without a clock change, the starts `openStarts` lists are the steps of the day's windows that the
booking checks accept (`openStarts_eq`).  What was read besides makes no difference (`openStarts_congr`).
-/

namespace ClientBridge

open Calendar ZoneOffsets

/-! ## Dates without a clock change -/

/-- The second a date starts with, on a clock. -/
def daySecond (date : CivilDate) : Int := (date.ordinal - epochDay) * 86400

/-- Each time of the date is read with one offset, and shown at that instant. -/
def SteadyOn (tz : BusinessZone) (date : CivilDate) : Prop :=
  ∃ o, ∀ second, daySecond date ≤ second →
    (second ≤ daySecond date + 86400 → wallOffset tz.first tz.changes second = o) ∧
      (second < daySecond date + 86400 → offsetFrom tz.first tz.changes (second - o) = o)

section
variable {tz : BusinessZone} {date : CivilDate} {o : Int}

theorem clockAt_second (date : CivilDate) (time : Int) :
    clockAt date time / microsPerSecond = daySecond date + time / microsPerSecond := by
  unfold clockAt daySecond microsPerDay microsPerSecond
  omega

theorem dateOf_clockAt {time : Int} (h0 : 0 ≤ time) (hlt : time < microsPerDay) : dateOf (clockAt date time) = date := by
  refine CivilDate.ordinal_injective ?_
  unfold dateOf clockAt
  rw [CivilDate.ordinal_ofOrdinal]
  unfold microsPerDay microsPerSecond at *
  omega

theorem timeOf_clockAt {time : Int} (h0 : 0 ≤ time) (hlt : time < microsPerDay) : timeOf (clockAt date time) = time := by
  unfold timeOf clockAt
  unfold microsPerDay microsPerSecond at *
  omega

theorem clockAt_next (date : CivilDate) : clockAt (date.addDays 1) 0 = clockAt date microsPerDay := by
  unfold clockAt
  rw [CivilDate.ordinal_addDays]
  unfold microsPerDay microsPerSecond
  omega

/-- On a steady date a time is read with the date's offset. -/
theorem instant_steady (h : ∀ second, daySecond date ≤ second →
    (second ≤ daySecond date + 86400 → wallOffset tz.first tz.changes second = o) ∧
      (second < daySecond date + 86400 → offsetFrom tz.first tz.changes (second - o) = o))
    {time : Int} (h0 : 0 ≤ time) (hle : time ≤ microsPerDay) :
    tz.instant (clockAt date time) = clockAt date time - o * microsPerSecond := by
  have hsec := clockAt_second date time
  have hq : 0 ≤ time / microsPerSecond ∧ time / microsPerSecond ≤ 86400 := by
    unfold microsPerDay microsPerSecond at *
    omega
  rw [BusinessZone.instant, (h _ (by omega)).1 (by omega)]

/-- On a steady date a clock shows the time that is read at an instant. -/
theorem localTime_steady (h : ∀ second, daySecond date ≤ second →
    (second ≤ daySecond date + 86400 → wallOffset tz.first tz.changes second = o) ∧
      (second < daySecond date + 86400 → offsetFrom tz.first tz.changes (second - o) = o))
    (time : Int) (h0 : 0 ≤ time) (hlt : time < microsPerDay) :
    tz.localTime (clockAt date time - o * microsPerSecond) = clockAt date time := by
  have hsec := clockAt_second date time
  have hq : 0 ≤ time / microsPerSecond ∧ time / microsPerSecond < 86400 := by
    unfold microsPerDay microsPerSecond at *
    omega
  have hdiv : (clockAt date time - o * microsPerSecond) / microsPerSecond = clockAt date time / microsPerSecond - o := by
    unfold microsPerSecond
    omega
  rw [BusinessZone.localTime, hdiv, BusinessZone.utcoffset, (h _ (by omega)).2 (by omega)]
  omega

theorem wallOffset_mem (first : Int) (changes : List Change) (wall : Int) :
    wallOffset first changes wall ∈ first :: changes.map (·.2) := by
  induction changes generalizing first with
  | nil => exact List.mem_cons_self
  | cons c cs ih =>
    rw [wallOffset]
    split
    · exact List.mem_cons_of_mem _ (ih c.2)
    · exact List.mem_cons_self

/-- A day later on the clock is no earlier. -/
theorem instant_le {v w : Int} (h : v + microsPerDay ≤ w) : tz.instant v ≤ tz.instant w := by
  have hspread := tz.spread _ (wallOffset_mem tz.first tz.changes (w / microsPerSecond)) _
    (wallOffset_mem tz.first tz.changes (v / microsPerSecond))
  unfold BusinessZone.instant
  unfold microsPerDay microsPerSecond at *
  omega

theorem opens_le {first : CivilDate} (h : first ≤ date) : (localDay tz first).1 ≤ tz.instant (clockAt date 0) := by
  rcases eq_or_lt_of_le h with rfl | hlt
  · exact le_rfl
  · refine instant_le ?_
    have := CivilDate.lt_iff.1 hlt
    unfold clockAt microsPerDay microsPerSecond
    omega

theorem le_closes {last : CivilDate} (h : date ≤ last) :
    tz.instant (clockAt (date.addDays 1) 0) ≤ (localDay tz last).2 := by
  rcases eq_or_lt_of_le h with rfl | hlt
  · exact le_rfl
  · refine instant_le ?_
    have := CivilDate.lt_iff.1 hlt
    unfold clockAt
    rw [CivilDate.ordinal_addDays, CivilDate.ordinal_addDays]
    unfold microsPerDay microsPerSecond
    omega

end

/-! ## The grid -/

theorem walk_eq_filter (ok : Int → Bool) (limit length step : Int) (fuel : Nat) (start : Int) :
    walk ok limit length step fuel start = (walk (fun _ => true) limit length step fuel start).filter ok := by
  induction fuel generalizing start with
  | zero => rfl
  | succ fuel ih =>
    rw [walk, walk]
    split
    · rw [if_pos rfl, List.filter_cons, ← ih]
    · rfl

theorem mem_walk {limit length step : Int} {fuel : Nat} {start s : Int} :
    s ∈ walk (fun _ => true) limit length step fuel start →
      ∃ k : Nat, s = start + k * step ∧ s + length ≤ limit := by
  induction fuel generalizing start with
  | zero =>
    intro h
    cases h
  | succ fuel ih =>
    intro h
    rw [walk] at h
    split at h
    · next hle =>
      rw [if_pos rfl] at h
      rcases List.mem_cons.1 h with rfl | h
      · exact ⟨0, by simp, hle⟩
      · obtain ⟨k, hk, hlim⟩ := ih h
        refine ⟨k + 1, ?_, hlim⟩
        rw [hk]
        push_cast
        ring
    · cases h

theorem walk_mem {limit length step : Int} (hstep : 0 < step) {fuel : Nat} {start : Int} (k : Nat)
    (hk : k < fuel) (hle : start + k * step + length ≤ limit) :
    start + k * step ∈ walk (fun _ => true) limit length step fuel start := by
  induction fuel generalizing start k with
  | zero => omega
  | succ fuel ih =>
    have hstart : start + length ≤ limit := by
      have : 0 ≤ (k : Int) * step := Int.mul_nonneg (Int.natCast_nonneg k) hstep.le
      omega
    rw [walk, if_pos hstart, if_pos rfl]
    cases k with
    | zero => simp
    | succ k =>
      refine List.mem_cons_of_mem _ ?_
      have he : start + ((k + 1 : Nat) : Int) * step = start + step + k * step := by
        push_cast
        ring
      rw [he] at hle ⊢
      exact ih k (by omega) hle

/-- The steps of a window from which a visit of the length ends within it. -/
def gridOf (tz : BusinessZone) (onDate : CivilDate) (length step : Int) (w : Int × Int) : List Int :=
  let start := tz.instant (clockAt onDate w.1)
  let limit := tz.instant (clockAt onDate w.2)
  walk (fun _ => true) limit length step (limit - start).toNat start

theorem mem_gridOf {tz : BusinessZone} {onDate : CivilDate} {length step : Int} (hlength : 0 < length)
    (hstep : 0 < step) {w : Int × Int} {s : Int} :
    s ∈ gridOf tz onDate length step w ↔
      ∃ k : Nat, s = tz.instant (clockAt onDate w.1) + k * step ∧ s + length ≤ tz.instant (clockAt onDate w.2) := by
  refine ⟨mem_walk, ?_⟩
  rintro ⟨k, rfl, hle⟩
  refine walk_mem hstep k ?_ hle
  have : (k : Int) ≤ k * step := le_mul_of_one_le_right (Int.natCast_nonneg k) (by omega)
  omega

/-! ## Windows -/

theorem clock_bounds (r : HoursRow) : 0 ≤ r.clock.1 ∧ r.clock.1 < r.clock.2 ∧ r.clock.2 < microsPerDay := by
  unfold HoursRow.clock
  split
  · exact ⟨le_rfl, by decide, by decide⟩
  · next w _ => exact ⟨w.opens_nonneg, w.opens_lt, w.closes_lt⟩

theorem windowsOn_bounds {rows : List HoursRow} {date : CivilDate} {ws : List (Int × Int)}
    (h : windowsOn rows date = some ws) {w : Int × Int} (hw : w ∈ ws) :
    0 ≤ w.1 ∧ w.1 < w.2 ∧ w.2 < microsPerDay := by
  have hclock : ∀ rs : List HoursRow, w ∈ rs.map HoursRow.clock → 0 ≤ w.1 ∧ w.1 < w.2 ∧ w.2 < microsPerDay := by
    intro rs hr
    obtain ⟨r, -, rfl⟩ := List.mem_map.1 hr
    exact clock_bounds r
  unfold windowsOn at h
  dsimp only at h
  split at h
  · split at h
    · obtain rfl := Option.some.inj h
      cases hw
    · obtain rfl := Option.some.inj h
      exact hclock _ hw
  · split at h
    · cases h
    · obtain rfl := Option.some.inj h
      exact hclock _ hw

/-- Exceptions lay no windows. -/
theorem windowsOn_hours (rows : List HoursRow) (date : CivilDate) :
    windowsOn (rows.filter fun r => !r.isException) date = windowsOn rows date := by
  have hfilter : ∀ basis : HoursBasis, (∀ a b, basis ≠ .exception a b) →
      (rows.filter fun r => !r.isException).filter (fun r => decide (r.basis = basis)) =
        rows.filter fun r => decide (r.basis = basis) := by
    intro basis hb
    rw [List.filter_filter]
    refine List.filter_congr fun r _ => ?_
    rw [Bool.and_eq_left_iff_imp, decide_eq_true_eq]
    intro he
    unfold HoursRow.isException
    split
    · next a b hx => exact absurd (he.symm.trans hx) (hb a b)
    · rfl
  unfold windowsOn
  dsimp only
  rw [hfilter _ (by simp), hfilter _ (by simp)]

theorem withinHours_hours (rows : List HoursRow) (tz : BusinessZone) (startsAt endsAt : Int) :
    withinHours (rows.filter fun r => !r.isException) tz startsAt endsAt = withinHours rows tz startsAt endsAt := by
  unfold withinHours
  dsimp only
  rw [windowsOn_hours]

/-! ## What a step covers -/

/-- A window of the date, from its midnight to the next. -/
structure InDay (tz : BusinessZone) (onDate : CivilDate) (start stop : Int) : Prop where
  opens : (localDay tz onDate).1 ≤ start
  closes : stop ≤ (localDay tz onDate).2
  lt : start < stop

/-- A step of the date's grid, and the end of the visit from it. -/
structure OnGrid (tz : BusinessZone) (rows : List HoursRow) (onDate : CivilDate) (start stop : Int) : Prop
    extends InDay tz onDate start stop where
  shows : dateOf (tz.localTime start) = onDate
  within : withinHours rows tz start stop = true

section
variable {tz : BusinessZone} {onDate : CivilDate} {length step : Int}

/-- A step of a window is within hours, and within the date. -/
theorem onGrid_of_mem (hsteady : SteadyOn tz onDate) (hlength : 0 < length) (hstep : 0 < step) {rows : List HoursRow}
    {ws : List (Int × Int)} (hws : windowsOn rows onDate = some ws) {w : Int × Int} (hw : w ∈ ws) {s : Int}
    (hs : s ∈ gridOf tz onDate length step w) : OnGrid tz rows onDate s (s + length) := by
  obtain ⟨o, ho⟩ := hsteady
  obtain ⟨h1, h12, h2⟩ := windowsOn_bounds hws hw
  obtain ⟨k, rfl, hlim⟩ := (mem_gridOf hlength hstep).1 hs
  have hk : 0 ≤ (k : Int) * step := Int.mul_nonneg (Int.natCast_nonneg k) hstep.le
  -- the start and the end are times of the date
  obtain ⟨time, htime⟩ : ∃ time, time = w.1 + k * step := ⟨_, rfl⟩
  have hclock : ∀ a b, clockAt onDate (a + b) = clockAt onDate a + b := by
    intro a b
    unfold clockAt
    omega
  have hstart : tz.instant (clockAt onDate w.1) + k * step = clockAt onDate time - o * microsPerSecond := by
    rw [instant_steady ho h1 (by omega), htime, hclock]
    omega
  have hstop : clockAt onDate time - o * microsPerSecond + length = clockAt onDate (time + length) - o * microsPerSecond := by
    rw [hclock]
    omega
  have hle : time + length ≤ w.2 := by
    rw [hstart, instant_steady ho (by omega) h2.le, hstop] at hlim
    unfold clockAt at hlim
    omega
  have hls := localTime_steady ho time (by omega) (by omega)
  have hle' := localTime_steady ho (time + length) (by omega) (by omega)
  rw [hstart, hstop]
  refine ⟨⟨?_, ?_, ?_⟩, ?_, ?_⟩
  · rw [localDay, instant_steady ho le_rfl (by decide)]
    unfold clockAt
    omega
  · rw [localDay, clockAt_next, instant_steady ho (by decide) le_rfl]
    unfold clockAt
    omega
  · rw [hclock]
    omega
  · rw [hls, dateOf_clockAt (by omega) (by omega)]
  · unfold withinHours
    dsimp only
    rw [hls, hle', dateOf_clockAt (by omega) (by omega), dateOf_clockAt (by omega) (by omega), hws,
      timeOf_clockAt (by omega) (by omega), timeOf_clockAt (by omega) (by omega)]
    simp only [decide_true, Bool.true_and, List.any_eq_true]
    refine ⟨w, hw, ?_⟩
    simp only [Bool.and_eq_true, decide_eq_true_eq]
    omega

end

/-! ## What was read is enough -/

/-- What was read covers a visit on a date: its day, its member and helpers, its service and the room it holds. -/
structure Covers (staffIds : List Id) (first last : CivilDate) (items : List ServiceItem) (held : List Id)
    (onDate : CivilDate) (item : ServiceItem) (staffId : Id) (crew : List HoursRow) (hold : Option Id) : Prop where
  first : first ≤ onDate
  last : onDate ≤ last
  item : items.find? (fun i => decide (i.id = item.id)) = some item
  staff : staffId ∈ staffIds
  crew : ∀ row ∈ crew, ∀ helper ∈ row.staffId, helper ∈ staffIds
  hold : ∀ r ∈ hold, r ∈ held

/-- An exception over the window. -/
def HoursRow.over (r : HoursRow) (start stop : Int) : Bool :=
  match r.basis with
  | .exception starts ends => decide (starts < stop) && decide (start < ends)
  | _ => false

section
variable {db : ScheduleDb} {opens closes start stop : Int}

theorem blocks_eq (r : HoursRow) (staffId : Id) (skip : Option Id) :
    ScheduleDb.blocks r staffId start stop skip =
      (decide (r.staffId = none ∨ r.staffId = some staffId) && r.over start stop && decide (skip ≠ some r.id)) := by
  unfold ScheduleDb.blocks HoursRow.over
  cases r.basis <;> simp [Bool.and_assoc]

theorem blockingException_isNone (staffId : Id) (skip : Option Id) :
    (db.blockingException staffId start stop skip).isNone =
      !db.hours.any fun r => ScheduleDb.blocks r staffId start stop skip := by
  set found := (db.hours.filter fun r => ScheduleDb.blocks r staffId start stop skip).mergeSort
    fun a b => decide (a.startsAt ≤ b.startsAt) with hfound
  have hperm : found.Perm (db.hours.filter fun r => ScheduleDb.blocks r staffId start stop skip) :=
    List.mergeSort_perm _ _
  have hsplit : (db.blockingException staffId start stop skip).isNone = found.isEmpty := by
    show ((found.filter fun r => r.staffId.isNone) ++ found.filter fun r => r.staffId.isSome).head?.isNone = _
    rw [Bool.eq_iff_iff, Option.isNone_iff_eq_none, List.head?_eq_none_iff, List.append_eq_nil_iff,
      List.filter_eq_nil_iff, List.filter_eq_nil_iff, List.isEmpty_iff]
    constructor
    · rintro ⟨hno, hsome⟩
      refine List.eq_nil_iff_forall_not_mem.2 fun r hr => ?_
      cases he : r.staffId with
      | none => exact hno r hr (by rw [he]; rfl)
      | some m => exact hsome r hr (by rw [he]; rfl)
    · intro he
      simp [he]
  rw [hsplit, Bool.eq_iff_iff, List.isEmpty_iff, Bool.not_eq_true', List.any_eq_false, ← List.filter_eq_nil_iff]
  exact ⟨fun he => (he ▸ hperm).nil_eq.symm, fun he => (he ▸ hperm).eq_nil⟩

/-- An exception over the window was read, since the window is in the span. -/
theorem any_away (hopens : opens ≤ start) (hcloses : stop ≤ closes) (rows : List HoursRow) (f : Id → Bool) :
    (rows.filterMap fun r => r.away opens closes).any (fun w => f w.id && w.over start stop) =
      rows.any fun r => f r.id && r.over start stop := by
  rw [Bool.eq_iff_iff, List.any_eq_true, List.any_eq_true]
  constructor
  · rintro ⟨w, hw, hover⟩
    obtain ⟨r, hr, hw⟩ := List.mem_filterMap.1 hw
    refine ⟨r, hr, ?_⟩
    unfold HoursRow.away at hw
    split at hw
    · next starts ends hb =>
      split at hw
      · obtain rfl := Option.some.inj hw
        simp only [HoursRow.over, hb]
        exact hover
      · cases hw
    · cases hw
  · rintro ⟨r, hr, hover⟩
    unfold HoursRow.over at hover
    split at hover
    · next starts ends hb =>
      simp only [Bool.and_eq_true, decide_eq_true_eq] at hover
      refine ⟨⟨starts, ends, r.reason, r.id⟩, List.mem_filterMap.2 ⟨r, hr, ?_⟩, ?_⟩
      · unfold HoursRow.away
        rw [hb]
        exact if_pos ⟨by omega, by omega⟩
      · simp only [Away.over, Bool.and_eq_true, decide_eq_true_eq]
        exact hover
    · simp at hover

/-- A slot that meets the window was read, since the margin is no less than the service's buffers. -/
theorem any_busy {item : ServiceItem} {margin : Int} (hopens : opens ≤ start) (hcloses : stop ≤ closes)
    (hbefore : item.before ≤ margin) (hafter : item.after ≤ margin) (slots : List VisitSlot) (full : VisitSlot → Bool)
    {f : Busy → Bool} {g : VisitSlot → Bool}
    (hf : ∀ s before after, f ⟨s.id, s.itemId, s.startsAt, s.endsAt, before, after, full s⟩ = g s) :
    (slots.filterMap (db.busyOver opens closes margin full)).any (fun b => b.over item start stop && f b) =
      slots.any fun s => db.overlaps s item start stop && g s := by
  rw [Bool.eq_iff_iff, List.any_eq_true, List.any_eq_true]
  constructor
  · rintro ⟨b, hb, hover⟩
    obtain ⟨s, hs, hb⟩ := List.mem_filterMap.1 hb
    refine ⟨s, hs, ?_⟩
    unfold ScheduleDb.busyOver at hb
    split at hb
    · next hlive =>
      obtain ⟨i, hi, hb⟩ := Option.bind_eq_some_iff.1 hb
      split at hb
      · obtain rfl := Option.some.inj hb
        rw [hf] at hover
        rw [ScheduleDb.overlaps, hlive, hi]
        exact hover
      · cases hb
    · cases hb
  · rintro ⟨s, hs, hover⟩
    rw [Bool.and_eq_true, ScheduleDb.overlaps, Bool.and_eq_true, Option.any_eq_true] at hover
    obtain ⟨⟨hlive, i, hi, hmeets⟩, hg⟩ := hover
    refine ⟨⟨s.id, s.itemId, s.startsAt, s.endsAt, i.before, i.after, full s⟩, List.mem_filterMap.2 ⟨s, hs, ?_⟩, ?_⟩
    · simp only [VisitSlot.meets, Bool.and_eq_true, decide_eq_true_eq] at hmeets
      rw [ScheduleDb.busyOver, if_pos hlive, hi]
      exact if_pos ⟨by omega, by omega⟩
    · rw [hf, hg, Bool.and_true]
      exact hmeets

end

/-! ## Each check -/

theorem slotProblem_isNone (db : ScheduleDb) (item : ServiceItem) (staffId : Id) (start stop : Int)
    (exclude skip : Option Id) : (db.slotProblem item staffId start stop exclude skip false none).isNone =
      ((db.blockingException staffId start stop skip).isNone &&
        withinHours (db.hoursOf staffId) db.tz start stop && !db.conflictingSlot item staffId start stop exclude) := by
  unfold ScheduleDb.slotProblem
  cases db.blockingException staffId start stop skip with
  | some away =>
    dsimp only
    split <;> rfl
  | none =>
    cases withinHours (db.hoursOf staffId) db.tz start stop <;>
      cases db.conflictingSlot item staffId start stop exclude <;> rfl

theorem chooseResource_isSome (db : ScheduleDb) (item : ServiceItem) (start stop : Int) (exclude hold : Option Id) :
    (db.chooseResource item start stop exclude hold none).toOption.isSome = (item.resourceIds.isEmpty ||
      (hold.toList ++ db.poolOf item).any fun r => !db.held r item start stop exclude) := by
  have hfree : (db.resourceFree (hold.toList ++ db.poolOf item) item start stop exclude = []) ↔
      ((hold.toList ++ db.poolOf item).any fun r => !db.held r item start stop exclude) = false := by
    rw [ScheduleDb.resourceFree, List.filter_eq_nil_iff, List.any_eq_false]
  unfold ScheduleDb.chooseResource
  dsimp only
  by_cases hr : item.resourceIds = []
  · rw [if_neg fun h => h.2 hr, hr]
    rfl
  · rw [List.isEmpty_eq_false_iff.2 hr, Bool.false_or]
    by_cases hf : db.resourceFree (hold.toList ++ db.poolOf item) item start stop exclude = []
    · rw [if_pos ⟨hf, hr⟩, hfree.1 hf]
      rfl
    · rw [if_neg fun h => hf h.1]
      exact (Bool.eq_true_of_not_eq_false fun h => hf (hfree.2 h)).symm

/-- The seats of a helper's own sessions of the service are taken, as those of a visit are. -/
def CrewTaken (db : ScheduleDb) (item : ServiceItem) (crew : List HoursRow) : Prop :=
  ∀ row ∈ crew, ∀ helper ∈ row.staffId, ∀ s ∈ db.slots, s.staffId = helper → s.live = true → s.itemId = item.id →
    db.seatsClosed s = true

section
variable {db : ScheduleDb} {staffIds : List Id} {first last onDate : CivilDate} {items : List ServiceItem}
  {held : List Id} {item : ServiceItem} {staffId : Id} {crew : List HoursRow} {hold : Option Id} {start stop : Int}

theorem le_marginOf (h : item ∈ items) : item.before ≤ marginOf items ∧ item.after ≤ marginOf items := by
  have hmax : max item.bufferBeforeMin item.bufferAfterMin ≤
      (items.map fun i => max i.bufferBeforeMin i.bufferAfterMin).foldr max 0 := by
    induction items with
    | nil => cases h
    | cons i items ih =>
      rw [List.map_cons, List.foldr_cons]
      rcases List.mem_cons.1 h with rfl | h
      · exact le_max_left _ _
      · exact (ih h).trans (le_max_right _ _)
  unfold ServiceItem.before ServiceItem.after marginOf minutesOf microsPerMin microsPerSecond
  omega

/-- The span of what was read holds the window. -/
structure InSpan (db : ScheduleDb) (first last : CivilDate) (items : List ServiceItem) (item : ServiceItem)
    (start stop : Int) : Prop where
  opens : (localDay db.tz first).1 ≤ start
  closes : stop ≤ (localDay db.tz last).2
  before : item.before ≤ marginOf items
  after : item.after ≤ marginOf items

theorem Covers.inSpan (h : Covers staffIds first last items held onDate item staffId crew hold)
    (hday : InDay db.tz onDate start stop) : InSpan db first last items item start stop := by
  have hm := le_marginOf (List.mem_of_find?_eq_some h.item)
  exact ⟨(opens_le h.first).trans hday.opens, hday.closes.trans (le_closes h.last), hm.1, hm.2⟩

theorem InSpan.any_away (h : InSpan db first last items item start stop) {m : Id} (hm : m ∈ staffIds) (f : Id → Bool) :
    (((loadAvailability db staffIds first last items held).closures ++
      (loadAvailability db staffIds first last items held).timeOff m).any fun w => f w.id && w.over start stop) =
      db.hours.any fun r => decide (r.staffId = none ∨ r.staffId = some m) && (f r.id && r.over start stop) := by
  have hoff : (loadAvailability db staffIds first last items held).timeOff m =
      (db.hoursOf m).filterMap fun r => r.away (localDay db.tz first).1 (localDay db.tz last).2 := if_pos hm
  rw [hoff, List.any_append, ClientBridge.any_away h.opens h.closes, loadAvailability,
    ClientBridge.any_away h.opens h.closes, ScheduleDb.hoursOf, List.any_filter, List.any_filter, Bool.eq_iff_iff,
    Bool.or_eq_true, List.any_eq_true, List.any_eq_true, List.any_eq_true]
  constructor
  · rintro (⟨r, hr, hp⟩ | ⟨r, hr, hp⟩)
    · refine ⟨r, hr, ?_⟩
      rw [Bool.and_eq_true, Option.isNone_iff_eq_none] at hp
      rw [Bool.and_eq_true, decide_eq_true_eq]
      exact ⟨.inl hp.1, hp.2⟩
    · refine ⟨r, hr, ?_⟩
      rw [Bool.and_eq_true, decide_eq_true_eq] at hp ⊢
      exact ⟨.inr hp.1, hp.2⟩
  · rintro ⟨r, hr, hp⟩
    rw [Bool.and_eq_true, decide_eq_true_eq] at hp
    rcases hp.1 with he | he
    · refine .inl ⟨r, hr, ?_⟩
      rw [Bool.and_eq_true, Option.isNone_iff_eq_none]
      exact ⟨he, hp.2⟩
    · refine .inr ⟨r, hr, ?_⟩
      rw [Bool.and_eq_true, decide_eq_true_eq]
      exact ⟨he, hp.2⟩

variable (held) in
theorem InSpan.any_busy (h : InSpan db first last items item start stop) {m : Id} (hm : m ∈ staffIds) {f : Busy → Bool}
    {g : VisitSlot → Bool}
    (hf : ∀ s before after, f ⟨s.id, s.itemId, s.startsAt, s.endsAt, before, after, db.seatsClosed s⟩ = g s) :
    ((loadAvailability db staffIds first last items held).busy m).any (fun b => b.over item start stop && f b) =
      db.slots.any fun s => decide (s.staffId = m) && (db.overlaps s item start stop && g s) := by
  have hbusy : (loadAvailability db staffIds first last items held).busy m =
      (db.slots.filter fun s => decide (s.staffId = m)).filterMap
        (db.busyOver (localDay db.tz first).1 (localDay db.tz last).2 (marginOf items) db.seatsClosed) := if_pos hm
  rw [hbusy, ClientBridge.any_busy h.opens h.closes h.before h.after _ _ hf, List.any_filter]

theorem InSpan.any_held (h : InSpan db first last items item start stop) {r : Id}
    (hr : r ∈ items.flatMap (·.resourceIds) ++ held) (exclude : Option Id) :
    (((loadAvailability db staffIds first last items held).held r).any fun b =>
      decide (exclude ≠ some b.id) && b.over item start stop) = db.held r item start stop exclude := by
  have hheld : (loadAvailability db staffIds first last items held).held r =
      (db.slots.filter fun s => decide (s.resourceId = some r)).filterMap
        (db.busyOver (localDay db.tz first).1 (localDay db.tz last).2 (marginOf items) fun _ => true) := if_pos hr
  have hcomm : (fun b : Busy => decide (exclude ≠ some b.id) && b.over item start stop) =
      fun b => b.over item start stop && decide (exclude ≠ some b.id) := by
    funext b
    exact Bool.and_comm _ _
  rw [hheld, hcomm, ClientBridge.any_busy h.opens h.closes h.before h.after _ _
    (f := fun b => decide (exclude ≠ some b.id)) (g := fun s => decide (exclude ≠ some s.id)) fun _ _ _ => rfl,
    List.any_filter]
  unfold ScheduleDb.held
  simp only [Bool.and_assoc]

variable (held) in
/-- What was read shows a closure or time off over the window just when the schedule does. -/
theorem InSpan.away_eq (h : InSpan db first last items item start stop) {m : Id} (hm : m ∈ staffIds)
    (skip : Option Id) (f : Id → Bool) (hf : ∀ id, f id = decide (skip ≠ some id)) :
    (!((loadAvailability db staffIds first last items held).closures ++
      (loadAvailability db staffIds first last items held).timeOff m).any fun w => f w.id && w.over start stop) =
      (db.blockingException m start stop skip).isNone := by
  rw [h.any_away hm f, blockingException_isNone]
  congr 2
  funext r
  rw [blocks_eq, hf, Bool.and_assoc, Bool.and_comm (r.over start stop)]

/-- A slot of the member is in the way of the walk just when it conflicts on the schedule. -/
theorem InSpan.busy_eq (h : InSpan db first last items item start stop) (hm : staffId ∈ staffIds)
    (exclude : Option Id) :
    ((((loadAvailability db staffIds first last items held).busy staffId).filter fun b =>
      decide (exclude ≠ some b.id)).any fun b => b.over item start stop && (b.full || !b.sameSession item start stop)) =
      db.conflictingSlot item staffId start stop exclude := by
  have hcomm : (fun b : Busy => decide (exclude ≠ some b.id) &&
      (b.over item start stop && (b.full || !b.sameSession item start stop))) = fun b =>
        b.over item start stop && ((b.full || !b.sameSession item start stop) && decide (exclude ≠ some b.id)) := by
    funext b
    rw [Bool.and_comm, Bool.and_assoc]
  rw [List.any_filter, hcomm, h.any_busy held hm (g := fun s => (db.seatsClosed s || decide (s.itemId ≠ item.id) ||
    decide (s.startsAt ≠ start) || decide (s.endsAt ≠ stop)) && decide (exclude ≠ some s.id))]
  · unfold ScheduleDb.conflictingSlot
    simp only [Bool.and_assoc]
  · intro s before after
    simp [Busy.sameSession, Bool.or_assoc]

theorem before_nonneg (item : ServiceItem) : 0 ≤ item.before ∧ 0 ≤ item.after := by
  unfold ServiceItem.before ServiceItem.after minutesOf microsPerMin microsPerSecond
  omega

/-- A slot at the very window of a visit overlaps it. -/
theorem sameSession_over {opens closes margin : Int} {full : VisitSlot → Bool} {slots : List VisitSlot} {b : Busy}
    (hb : b ∈ slots.filterMap (db.busyOver opens closes margin full)) (hlt : start < stop)
    (h : b.sameSession item start stop = true) : b.over item start stop = true := by
  obtain ⟨s, -, hb⟩ := List.mem_filterMap.1 hb
  unfold ScheduleDb.busyOver at hb
  split at hb
  · obtain ⟨i, -, hb⟩ := Option.bind_eq_some_iff.1 hb
    split at hb
    · obtain rfl := Option.some.inj hb
      have hi := before_nonneg i
      have hitem := before_nonneg item
      simp only [Busy.sameSession, Busy.over, Bool.and_eq_true, decide_eq_true_eq] at h ⊢
      omega
    · cases hb
  · cases hb

/-- A session the walk would join is one the booking joins. -/
theorem InSpan.joins_eq (h : InSpan db first last items item start stop) (hm : staffId ∈ staffIds)
    (hlt : start < stop) (exclude : Option Id) :
    Availability.joins item (((loadAvailability db staffIds first last items held).busy staffId).filter fun b =>
      decide (exclude ≠ some b.id)) start stop = db.joinsSession item staffId start stop exclude := by
  have hbusy : (loadAvailability db staffIds first last items held).busy staffId =
      (db.slots.filter fun s => decide (s.staffId = staffId)).filterMap
        (db.busyOver (localDay db.tz first).1 (localDay db.tz last).2 (marginOf items) db.seatsClosed) := if_pos hm
  have hover : Availability.joins item (((loadAvailability db staffIds first last items held).busy staffId).filter
      fun b => decide (exclude ≠ some b.id)) start stop =
      ((loadAvailability db staffIds first last items held).busy staffId).any fun b =>
        b.over item start stop && ((!b.full && b.sameSession item start stop) && decide (exclude ≠ some b.id)) := by
    rw [Availability.joins, List.any_filter, Bool.eq_iff_iff, List.any_eq_true, List.any_eq_true]
    refine exists_congr fun b => and_congr_right fun hb => ?_
    rw [hbusy] at hb
    simp only [Bool.and_eq_true]
    exact ⟨fun hp => ⟨sameSession_over hb hlt hp.2.2, hp.2, hp.1⟩, fun hp => ⟨hp.2.2, hp.2.1⟩⟩
  rw [hover, h.any_busy held hm (g := fun s => !(db.seatsClosed s || decide (s.itemId ≠ item.id) ||
    decide (s.startsAt ≠ start) || decide (s.endsAt ≠ stop)) && decide (exclude ≠ some s.id))]
  · unfold ScheduleDb.joinsSession
    simp only [Bool.and_assoc]
  · intro s before after
    simp [Busy.sameSession, Bool.and_assoc]

/-- The rooms the walk tries are those the booking tries, and are free at the same times. -/
theorem InSpan.room_eq (h : InSpan db first last items item start stop) (hitem : items.find? (fun i =>
    decide (i.id = item.id)) = some item) (hhold : ∀ r ∈ hold, r ∈ held) (exclude : Option Id) :
    (loadAvailability db staffIds first last items held).room item
      (hold.toList ++ (loadAvailability db staffIds first last items held).pools item.id) start stop exclude =
      (hold.toList ++ db.poolOf item).any fun r => !db.held r item start stop exclude := by
  have hpool : (loadAvailability db staffIds first last items held).pools item.id = db.poolOf item := by
    unfold loadAvailability
    simp only [hitem, Option.map_some, Option.getD_some]
  rw [hpool, Availability.room, Bool.eq_iff_iff, List.any_eq_true, List.any_eq_true]
  refine exists_congr fun r => and_congr_right fun hr => ?_
  have hwanted : r ∈ items.flatMap (·.resourceIds) ++ held := by
    rcases List.mem_append.1 hr with hr | hr
    · exact List.mem_append_right _ (hhold r (Option.mem_toList.1 hr))
    · exact List.mem_append_left _ (List.mem_flatMap.2 ⟨item, List.mem_of_find?_eq_some hitem, (List.mem_filter.1 hr).1⟩)
  rw [h.any_held hwanted]

/-- The checks of a helper, but that a session of their own is never joined. -/
def ScheduleDb.helperFree (db : ScheduleDb) (item : ServiceItem) (row : HoursRow) (start stop : Int) : Bool :=
  row.staffId.all fun helper =>
    (db.blockingException helper start stop (some row.id)).isNone &&
      withinHours (db.hoursOf helper) db.tz start stop &&
      !db.slots.any fun s => decide (s.staffId = helper) && db.overlaps s item start stop

theorem InSpan.free_eq (h : InSpan db first last items item start stop) {row : HoursRow}
    (hcrew : ∀ helper ∈ row.staffId, helper ∈ staffIds) :
    (loadAvailability db staffIds first last items held).free item row start stop =
      db.helperFree item row start stop := by
  unfold Availability.free ScheduleDb.helperFree
  cases hs : row.staffId with
  | none => rfl
  | some helper =>
    have hm := hcrew helper hs
    have hhours : (loadAvailability db staffIds first last items held).hours helper =
        (db.hoursOf helper).filter fun r => !r.isException := if_pos hm
    have hbusy := h.any_busy held hm (f := fun _ => true) (g := fun _ => true) fun _ _ _ => rfl
    simp only [Bool.and_true] at hbusy
    have haway := h.away_eq held hm (some row.id) (fun id => decide (id ≠ row.id)) fun id => by
      simp only [ne_eq, Option.some.injEq, eq_comm]
    dsimp only [Option.all_some]
    rw [hhours, withinHours_hours, hbusy, haway]
    rfl

/-- When the seats of their sessions are taken, a helper is free just when the checks find nothing against them. -/
theorem helperFree_eq (htaken : CrewTaken db item crew) {row : HoursRow} (hrow : row ∈ crew) :
    db.helperFree item row start stop =
      (row.staffId.bind fun helper => db.slotProblem item helper start stop none (some row.id) false none).isNone := by
  unfold ScheduleDb.helperFree
  cases hs : row.staffId with
  | none => rfl
  | some helper =>
    have hbusy : (db.slots.any fun s => decide (s.staffId = helper) && db.overlaps s item start stop) =
        db.conflictingSlot item helper start stop none := by
      rw [ScheduleDb.conflictingSlot, Bool.eq_iff_iff, List.any_eq_true, List.any_eq_true]
      refine exists_congr fun s => and_congr_right fun hslot => ?_
      simp only [Bool.and_eq_true, Bool.or_eq_true, decide_eq_true_eq, ne_eq, reduceCtorEq, not_false_eq_true,
        and_true, ScheduleDb.overlaps]
      constructor
      · rintro ⟨hstaff, hlive, hmeets⟩
        refine ⟨⟨hstaff, hlive, hmeets⟩, ?_⟩
        by_cases hi : s.itemId = item.id
        · exact .inl (.inl (.inl (htaken row hrow helper hs s hslot hstaff hlive hi)))
        · exact .inl (.inl (.inr hi))
      · rintro ⟨hp, -⟩
        exact hp
    dsimp only [Option.all_some, Option.bind_some]
    rw [slotProblem_isNone, hbusy]

/-- The checks of a step on the whole schedule. -/
theorem InSpan.passes_eq (h : InSpan db first last items item start stop)
    (hc : Covers staffIds first last items held onDate item staffId crew hold) (hlt : start < stop)
    (exclude : Option Id) :
    (loadAvailability db staffIds first last items held).passes item staffId exclude crew hold start stop =
      ((db.blockingException staffId start stop none).isNone && !db.conflictingSlot item staffId start stop exclude &&
        crew.all (fun row => db.helperFree item row start stop) &&
        (db.joinsSession item staffId start stop exclude ||
          (db.chooseResource item start stop exclude hold none).toOption.isSome)) := by
  have hcrew : (crew.all fun row => (loadAvailability db staffIds first last items held).free item row start stop) =
      crew.all fun row => db.helperFree item row start stop := by
    rw [Bool.eq_iff_iff, List.all_eq_true, List.all_eq_true]
    refine forall_congr' fun row => forall_congr' fun hrow => ?_
    rw [h.free_eq (hc.crew row hrow)]
  unfold Availability.passes
  dsimp only
  rw [h.busy_eq hc.staff, h.joins_eq hc.staff hlt, hcrew, chooseResource_isSome,
    ← h.away_eq held hc.staff none (fun _ => true) fun _ => by simp]
  cases hr : item.resourceIds.isEmpty with
  | true => simp
  | false =>
    rw [if_neg (by simp), h.room_eq hc.item hc.hold]
    simp

theorem findSome?_isNone {α β : Type _} (l : List α) (f : α → Option β) :
    (l.findSome? f).isNone = l.all fun a => (f a).isNone := by
  rw [Bool.eq_iff_iff, Option.isNone_iff_eq_none, List.findSome?_eq_none_iff, List.all_eq_true]
  exact forall_congr' fun a => forall_congr' fun _ => Option.isNone_iff_eq_none.symm

/-- A step of the grid passes the walk just when it can be booked. -/
theorem passes_eq_bookable (hc : Covers staffIds first last items held onDate item staffId crew hold)
    (hg : OnGrid db.tz (db.hoursOf staffId) onDate start stop) (htaken : CrewTaken db item crew)
    (exclude : Option Id) :
    (loadAvailability db staffIds first last items held).passes item staffId exclude crew hold start stop =
      db.bookable item staffId exclude crew hold start stop := by
  have hcrew : (crew.all fun row => db.helperFree item row start stop) = (db.crewProblem item crew start stop).isNone := by
    rw [ScheduleDb.crewProblem, findSome?_isNone, Bool.eq_iff_iff, List.all_eq_true, List.all_eq_true]
    refine forall_congr' fun row => forall_congr' fun hrow => ?_
    rw [helperFree_eq htaken hrow]
    cases row.staffId <;> simp
  rw [(hc.inSpan hg.toInDay).passes_eq hc hg.lt, ScheduleDb.bookable, slotProblem_isNone, hg.within, hcrew, Bool.and_true]

end

/-! ## The times on offer -/

/-- The step grid of a date, over each window of the member's hours. -/
def ScheduleDb.gridStarts (db : ScheduleDb) (item : ServiceItem) (staffId : Id) (onDate : CivilDate)
    (stepMin minutes : Option Nat) : List Int :=
  if Availability.lengthOf item minutes ≤ 0 then []
  else ((windowsOn (db.hoursOf staffId) onDate).getD []).flatMap
    (gridOf db.tz onDate (Availability.lengthOf item minutes) (Availability.stepOf item stepMin minutes))

theorem stepOf_pos {item : ServiceItem} {minutes : Option Nat} (h : 0 < Availability.lengthOf item minutes)
    (stepMin : Option Nat) : 0 < Availability.stepOf item stepMin minutes := by
  have hitem := before_nonneg item
  unfold Availability.stepOf
  split
  · unfold minutesOf microsPerMin microsPerSecond
    omega
  · omega

section
variable {db : ScheduleDb} {staffIds : List Id} {first last onDate : CivilDate} {items : List ServiceItem}
  {held : List Id} {item : ServiceItem} {staffId : Id} {crew : List HoursRow} {hold : Option Id}

/-- The walk lists the steps of the grid that pass. -/
theorem openStarts_eq_filter (hm : staffId ∈ staffIds) (stepMin minutes : Option Nat) (exclude : Option Id) :
    (loadAvailability db staffIds first last items held).openStarts item staffId onDate stepMin exclude minutes crew
      hold = (db.gridStarts item staffId onDate stepMin minutes).filter fun s =>
        (loadAvailability db staffIds first last items held).passes item staffId exclude crew hold s
          (s + Availability.lengthOf item minutes) := by
  have hhours : (loadAvailability db staffIds first last items held).hours staffId =
      (db.hoursOf staffId).filter fun r => !r.isException := if_pos hm
  unfold Availability.openStarts ScheduleDb.gridStarts
  dsimp only
  split
  · rfl
  · rw [List.filter_flatMap, hhours, windowsOn_hours]
    congr 1
    funext w
    exact walk_eq_filter _ _ _ _ _ _

theorem onGrid_of_gridStarts (hsteady : SteadyOn db.tz onDate) {stepMin minutes : Option Nat} {s : Int}
    (hs : s ∈ db.gridStarts item staffId onDate stepMin minutes) :
    OnGrid db.tz (db.hoursOf staffId) onDate s (s + Availability.lengthOf item minutes) := by
  unfold ScheduleDb.gridStarts at hs
  split at hs
  · cases hs
  · next hlength =>
    obtain ⟨w, hw, hs⟩ := List.mem_flatMap.1 hs
    have hpos : 0 < Availability.lengthOf item minutes := by omega
    cases hws : windowsOn (db.hoursOf staffId) onDate with
    | none =>
      rw [hws] at hw
      cases hw
    | some ws =>
      rw [hws] at hw
      exact onGrid_of_mem hsteady hpos (stepOf_pos hpos stepMin) hws hw hs

/-- On a date without a clock change, the times on offer are the steps of the member's windows that can be booked,
whatever else was read. -/
theorem openStarts_eq (hsteady : SteadyOn db.tz onDate)
    (hc : Covers staffIds first last items held onDate item staffId crew hold) (htaken : CrewTaken db item crew)
    (stepMin minutes : Option Nat) (exclude : Option Id) :
    (loadAvailability db staffIds first last items held).openStarts item staffId onDate stepMin exclude minutes crew
      hold = (db.gridStarts item staffId onDate stepMin minutes).filter fun s =>
        db.bookable item staffId exclude crew hold s (s + Availability.lengthOf item minutes) := by
  rw [openStarts_eq_filter hc.staff]
  exact List.filter_congr fun s hs => passes_eq_bookable hc (onGrid_of_gridStarts hsteady hs) htaken exclude

end

/-! ### A studio on a summer day -/

/-- Eastern time over one summer. -/
def studioZone : BusinessZone where
  first := -18000
  changes := [(1772953200, -14400), (1793512800, -18000)]
  spread := by decide

/-- The first of July 2026, a Wednesday. -/
def studioDay : CivilDate := ⟨2026 * 12 + 6, 1, by decide, by decide⟩

/-- An hour in one room, fifteen minutes to clean it after. -/
def massageItem : ServiceItem where
  id := "item_massage"
  isClassKind := false
  durationMin := some 60
  bufferBeforeMin := 0
  bufferAfterMin := 15
  capacity := none
  sessionCount := none
  resourceIds := ["res_room"]
  staffIds := []

def studioMorning : ClockWindow := ⟨540 * microsPerMin, 780 * microsPerMin, by decide, by decide, by decide⟩

/-- The helper's block for the visit at half past noon. -/
def helperBlock : HoursRow :=
  ⟨"hours_crew", some "staff_bea", .exception (1782923400 * microsPerSecond) (1782927000 * microsPerSecond), none,
    false, none⟩

/-- Two members, one room, and a visit from ten to eleven. -/
def studioDb : ScheduleDb where
  tz := studioZone
  hours := [⟨"hours_ana", some "staff_ana", .recurring 2, some studioMorning, true, none⟩,
    ⟨"hours_bea", some "staff_bea", .recurring 2, some studioMorning, true, none⟩, helperBlock]
  items := [massageItem]
  resources := [("res_room", true)]
  slots := [⟨"slot_1", "item_massage", "staff_ana", some "res_room", 1782914400 * microsPerSecond,
    1782918000 * microsPerSecond, 1, .scheduled⟩]
  bookings := [⟨"booking_1", "slot_1", "client_1", none, .confirmed, false, 0⟩]

theorem studioDay_steady : SteadyOn studioZone studioDay := by
  have hday : daySecond studioDay = 1782864000 := by decide
  refine ⟨-14400, fun second hsecond => ⟨fun hle => ?_, fun hlt => ?_⟩⟩
  · simp only [studioZone, wallOffset]
    rw [if_pos (by omega), if_neg (by omega)]
  · simp only [studioZone, offsetFrom]
    rw [if_pos (by omega), if_neg (by omega)]

/-- With a helper, the quarter hours on offer start at a quarter past eleven. -/
theorem studio_offers :
    (loadAvailability studioDb ["staff_ana", "staff_bea"] studioDay studioDay [massageItem] []).openStarts massageItem
      "staff_ana" studioDay (some 15) none none [helperBlock] none =
      ((studioDb.gridStarts massageItem "staff_ana" studioDay (some 15) none).filter fun s =>
        studioDb.bookable massageItem "staff_ana" none [helperBlock] none s (s + Availability.lengthOf massageItem none)) ∧
    ((loadAvailability studioDb ["staff_ana", "staff_bea"] studioDay studioDay [massageItem] []).openStarts massageItem
      "staff_ana" studioDay (some 15) none none [helperBlock] none).map
        (fun s => timeOf (studioZone.localTime s) / microsPerMin) = [675, 690, 705, 720] := by
  refine ⟨openStarts_eq studioDay_steady ⟨le_rfl, le_rfl, by decide, by decide, ?_, by simp⟩ ?_ _ _ _, by decide +kernel⟩
  · intro row hrow helper hh
    obtain rfl := List.mem_singleton.1 hrow
    obtain rfl := Option.some.inj hh
    decide
  · intro row hrow helper hh s hs hstaff
    obtain rfl := List.mem_singleton.1 hrow
    obtain rfl := Option.some.inj hh
    obtain rfl := List.mem_singleton.1 hs
    exact absurd hstaff (by decide)

/-- The spring night the clocks skip from two to three. -/
def springNight : CivilDate := ⟨2026 * 12 + 2, 8, by decide, by decide⟩

/-- Open from one to half past two that night. -/
def nightDb : ScheduleDb :=
  { studioDb with
    hours := [⟨"hours_ana", some "staff_ana", .recurring 6,
      some ⟨60 * microsPerMin, 150 * microsPerMin, by decide, by decide, by decide⟩, true, none⟩]
    slots := [] }

-- three steps are listed, but on the clock the last two end after the window does
example :
    (loadAvailability nightDb ["staff_ana"] springNight springNight [massageItem] []).openStarts massageItem "staff_ana"
      springNight (some 30) none (some 30) [] none = [0, 30, 60].map (fun m => 1772949600000000 + m * microsPerMin) ∧
      ∀ m ∈ [30, 60], withinHours (nightDb.hoursOf "staff_ana") studioZone (1772949600000000 + m * microsPerMin)
        (1772949600000000 + (m + 30) * microsPerMin) = false := by decide +kernel

end ClientBridge
