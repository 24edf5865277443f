import ClientBridge.Business.Removals
import ClientBridge.Library.ZoneOffsets
import ClientBridge.Scheduling.RecurrencePreviews

/-!
# What can be booked

A member's hours, the closures and time off, the live slots with their buffers, and the rooms a service
needs decide whether a visit can take a window (`slotProblem`, `chooseResource`).  Instants are in
microseconds since 1970, and times of day in microseconds after midnight.
-/

namespace ClientBridge

open Calendar ZoneOffsets

/-! ## Times -/

def microsPerSecond : Int := 1000000

def microsPerMin : Int := 60 * microsPerSecond

def microsPerDay : Int := 86400 * microsPerSecond

/-- `timedelta(minutes=n)`. -/
def minutesOf (n : Nat) : Int := n * microsPerMin

/-- A business's zone: its first offset and the changes of it, in seconds.  No two of its offsets are more than a
day apart. -/
structure BusinessZone where
  first : Int
  changes : List Change
  spread : ∀ a ∈ first :: changes.map (·.2), ∀ b ∈ first :: changes.map (·.2), a ≤ b + 86400

namespace BusinessZone

def utcoffset (tz : BusinessZone) (second : Int) : Int := offsetFrom tz.first tz.changes second

/-- What a clock of the zone shows. -/
def localTime (tz : BusinessZone) (t : Int) : Int := t + tz.utcoffset (t / microsPerSecond) * microsPerSecond

/-- The instant of a time on the clock, with fold 0. -/
def instant (tz : BusinessZone) (wall : Int) : Int :=
  wall - wallOffset tz.first tz.changes (wall / microsPerSecond) * microsPerSecond

end BusinessZone

/-- A date and a time of day on a clock (`datetime.combine`). -/
def clockAt (date : CivilDate) (time : Int) : Int := (date.ordinal - epochDay) * microsPerDay + time

def dateOf (wall : Int) : CivilDate := CivilDate.ofOrdinal (wall / microsPerDay + epochDay)

def timeOf (wall : Int) : Int := wall % microsPerDay

/-! ## Rows -/

/-- Hours of a day, in order and within it. -/
structure ClockWindow where
  opens : Int
  closes : Int
  opens_nonneg : 0 ≤ opens
  opens_lt : opens < closes
  closes_lt : closes < microsPerDay

inductive HoursBasis where
  | recurring (weekday : Int)
  | date (date : CivilDate)
  | exception (startsAt endsAt : Int)
  deriving DecidableEq

/-- A member's weekly or dated hours, their time off, or a closure when there is no member.  Without a window the
hours are of all day. -/
structure HoursRow where
  id : Id
  staffId : Option Id
  basis : HoursBasis
  window : Option ClockWindow
  available : Bool
  reason : Option String

structure ServiceItem where
  id : Id
  isClassKind : Bool
  durationMin : Option Nat
  bufferBeforeMin : Nat
  bufferAfterMin : Nat
  capacity : Option Int
  sessionCount : Option Int
  resourceIds : List Id
  staffIds : List Id
  deriving DecidableEq, Repr

structure VisitSlot where
  id : Id
  itemId : Id
  staffId : Id
  resourceId : Option Id
  startsAt : Int
  endsAt : Int
  capacity : Int
  status : SlotStatus
  deriving DecidableEq, Repr

/-- A place on a slot. -/
structure SeatBooking where
  id : Id
  slotId : Id
  clientId : Id
  subjectId : Option Id
  status : BookingStatus
  deleted : Bool
  createdAt : Int
  deriving DecidableEq, Repr

structure ScheduleDb where
  tz : BusinessZone
  hours : List HoursRow
  items : List ServiceItem
  /-- The rooms and equipment, and whether each is active. -/
  resources : List (Id × Bool)
  slots : List VisitSlot
  bookings : List SeatBooking

namespace ServiceItem

def before (item : ServiceItem) : Int := minutesOf item.bufferBeforeMin

def after (item : ServiceItem) : Int := minutesOf item.bufferAfterMin

def isClass (item : ServiceItem) : Bool := item.isClassKind && item.capacity.any fun c => decide (1 < c)

def isProgram (item : ServiceItem) : Bool := item.isClass && item.sessionCount.isSome

/-- A visit's length with its add-ons; a class session keeps the class's own length. -/
def visitMinutes (item : ServiceItem) (extraMin : Nat) : Nat :=
  item.durationMin.getD 0 + if item.isClass then 0 else extraMin

def offers (item : ServiceItem) (staffId : Id) : Bool := item.staffIds.isEmpty || item.staffIds.contains staffId

end ServiceItem

namespace VisitSlot

def live (s : VisitSlot) : Bool := decide (s.status ≠ .canceled)

/-- A window and a live slot whose service has these buffers overlap, buffers on both sides. -/
def meets (s : VisitSlot) (b : ServiceItem) (item : ServiceItem) (startsAt endsAt : Int) : Bool :=
  decide (s.startsAt - b.before < endsAt + item.after) && decide (startsAt - item.before < s.endsAt + b.after)

end VisitSlot

namespace ScheduleDb

variable (db : ScheduleDb)

def item? (id : Id) : Option ServiceItem := db.items.find? fun i => decide (i.id = id)

/-- A live slot that overlaps a window, its service's buffers read off its row. -/
def overlaps (s : VisitSlot) (item : ServiceItem) (startsAt endsAt : Int) : Bool :=
  s.live && (db.item? s.itemId).any fun b => s.meets b item startsAt endsAt

def bookedCount (slotId : Id) : Int :=
  (db.bookings.filter fun b => decide (b.slotId = slotId) && !b.deleted &&
    decide (b.status ≠ .canceled ∧ b.status ≠ .waitlisted)).length

/-- Every seat is taken, or someone is waiting for the next one. -/
def seatsClosed (s : VisitSlot) : Bool :=
  decide (s.capacity ≤ db.bookedCount s.id) ||
    db.bookings.any fun b => decide (b.slotId = s.id) && !b.deleted && decide (b.status = .waitlisted)

def hoursOf (staffId : Id) : List HoursRow := db.hours.filter fun r => decide (r.staffId = some staffId)

end ScheduleDb

/-! ## Hours -/

def HoursRow.clock (r : HoursRow) : Int × Int :=
  match r.window with
  | none => (0, microsPerDay - 1)
  | some w => (w.opens, w.closes)

/-- The work intervals of a date; `none` when the day has no hours set. -/
def windowsOn (rows : List HoursRow) (onDate : CivilDate) : Option (List (Int × Int)) :=
  let dateRows := rows.filter fun r => decide (r.basis = .date onDate)
  if !dateRows.isEmpty then
    if dateRows.any fun r => !r.available && r.window.isNone then some []
    else some ((dateRows.filter (·.available)).map HoursRow.clock)
  else
    let weekdayRows := rows.filter fun r => decide (r.basis = .recurring onDate.weekday)
    if weekdayRows.isEmpty then none else some ((weekdayRows.filter (·.available)).map HoursRow.clock)

/-- Whether the window sits inside these hours on its local date, or the day has none set. -/
def withinHours (rows : List HoursRow) (tz : BusinessZone) (startsAt endsAt : Int) : Bool :=
  let startLocal := tz.localTime startsAt
  let endLocal := tz.localTime endsAt
  match windowsOn rows (dateOf startLocal) with
  | none => true
  | some windows =>
    decide (dateOf endLocal = dateOf startLocal) &&
      windows.any fun w => decide (w.1 ≤ timeOf startLocal) && decide (timeOf endLocal ≤ w.2)

/-- When an exception starts. -/
def HoursRow.startsAt (r : HoursRow) : Int :=
  match r.basis with
  | .exception starts _ => starts
  | _ => 0

/-! ## Why a window can't be taken -/

inductive Problem where
  | closed | timeOff | offHours | overlap | resource | crew
  deriving DecidableEq, Repr

structure Refusal where
  problem : Problem
  message : String
  reason : Option String := none
  deriving DecidableEq, Repr

/-- A refused request. -/
structure BookingError where
  message : String
  code : Option String := none
  deriving DecidableEq, Repr

def overlapMessage : String := "that staff member is already booked at that time"

def noResource : String := "none of the rooms or equipment this service needs is free then"

def resourceBusy : String := "that room or equipment is already booked at that time"

def closedMessage : String := "the business is closed then"

def awayMessage : String := "that staff member is away then"

def outsideHours : String := "outside the provider's available hours"

namespace ScheduleDb

variable (db : ScheduleDb)

/-- An exception of the business or the member that overlaps the window. -/
def blocks (r : HoursRow) (staffId : Id) (startsAt endsAt : Int) (skip : Option Id) : Bool :=
  match r.basis with
  | .exception starts ends => decide (r.staffId = none ∨ r.staffId = some staffId) &&
      decide (starts < endsAt) && decide (startsAt < ends) && decide (skip ≠ some r.id)
  | _ => false

/-- A closure or the member's time off overlapping the window; closures come first. -/
def blockingException (staffId : Id) (startsAt endsAt : Int) (skip : Option Id) : Option HoursRow :=
  let found := (db.hours.filter fun r => blocks r staffId startsAt endsAt skip).mergeSort
    fun a b => decide (a.startsAt ≤ b.startsAt)
  ((found.filter fun r => r.staffId.isNone) ++ found.filter fun r => r.staffId.isSome).head?

/-- Whether a live slot of the member overlaps the window; an open session of the same class there does not. -/
def conflictingSlot (item : ServiceItem) (staffId : Id) (startsAt endsAt : Int) (exclude : Option Id) : Bool :=
  db.slots.any fun s => decide (s.staffId = staffId) && db.overlaps s item startsAt endsAt &&
    (db.seatsClosed s || decide (s.itemId ≠ item.id) || decide (s.startsAt ≠ startsAt) || decide (s.endsAt ≠ endsAt)) &&
    decide (exclude ≠ some s.id)

def active (resourceId : Id) : Bool := db.resources.any fun r => decide (r.1 = resourceId) && r.2

/-- The active resources of the service's pool, in order. -/
def poolOf (item : ServiceItem) : List Id := item.resourceIds.filter db.active

/-- A live slot holds the resource over the window. -/
def held (resourceId : Id) (item : ServiceItem) (startsAt endsAt : Int) (exclude : Option Id) : Bool :=
  db.slots.any fun s => decide (s.resourceId = some resourceId) && db.overlaps s item startsAt endsAt &&
    decide (exclude ≠ some s.id)

def resourceFree (candidates : List Id) (item : ServiceItem) (startsAt endsAt : Int) (exclude : Option Id) : List Id :=
  candidates.filter fun r => !db.held r item startsAt endsAt exclude

/-- What a visit would hold of the rooms: the one chosen, else the one it holds, else the first that is free. -/
def chooseResource (item : ServiceItem) (startsAt endsAt : Int) (exclude hold chosen : Option Id) :
    Except BookingError (Option Id) :=
  let candidates := hold.toList ++ db.poolOf item
  let free := db.resourceFree candidates item startsAt endsAt exclude
  match chosen with
  | some r =>
    if r ∉ candidates then
      .error ⟨"this service doesn't use that room or equipment", some "resource_not_in_pool"⟩
    else if r ∉ free then .error ⟨resourceBusy, some "resource_busy"⟩
    else .ok (some r)
  | none => if free = [] ∧ item.resourceIds ≠ [] then .error ⟨noResource, some "no_resource"⟩ else .ok free.head?

/-- Why a visit can't take this window, most fundamental reason first. -/
def slotProblem (item : ServiceItem) (staffId : Id) (startsAt endsAt : Int) (exclude skipHours : Option Id)
    (resources : Bool) (hold : Option Id) : Option Refusal :=
  match db.blockingException staffId startsAt endsAt skipHours with
  | some away =>
    if away.staffId.isNone then some ⟨.closed, closedMessage, away.reason⟩
    else some ⟨.timeOff, awayMessage, away.reason⟩
  | none =>
    if !withinHours (db.hoursOf staffId) db.tz startsAt endsAt then
      some ⟨.offHours, outsideHours, none⟩
    else if db.conflictingSlot item staffId startsAt endsAt exclude then some ⟨.overlap, overlapMessage, none⟩
    else if resources then
      match db.chooseResource item startsAt endsAt exclude hold none with
      | .error refusal => some ⟨.resource, refusal.message, none⟩
      | .ok _ => none
    else none

/-- Why a helper can't follow the visit to this window; their own block for it doesn't count. -/
def crewProblem (item : ServiceItem) (crew : List HoursRow) (startsAt endsAt : Int) : Option Refusal :=
  crew.findSome? fun row => row.staffId.bind fun helper =>
    (db.slotProblem item helper startsAt endsAt none (some row.id) false none).map fun found =>
      ⟨.crew, "someone on this visit's crew is busy then", found.reason⟩

/-- An open session of the same class at this very window, which a visit joins. -/
def joinsSession (item : ServiceItem) (staffId : Id) (startsAt endsAt : Int) (exclude : Option Id) : Bool :=
  db.slots.any fun s => decide (s.staffId = staffId) && db.overlaps s item startsAt endsAt &&
    !(db.seatsClosed s || decide (s.itemId ≠ item.id) || decide (s.startsAt ≠ startsAt) || decide (s.endsAt ≠ endsAt)) &&
    decide (exclude ≠ some s.id)

/-- Every check of a visit, its helpers and its room passes. -/
def bookable (item : ServiceItem) (staffId : Id) (exclude : Option Id) (crew : List HoursRow) (hold : Option Id)
    (startsAt endsAt : Int) : Bool :=
  (db.slotProblem item staffId startsAt endsAt exclude none false none).isNone &&
    (db.crewProblem item crew startsAt endsAt).isNone &&
    (db.joinsSession item staffId startsAt endsAt exclude ||
      (db.chooseResource item startsAt endsAt exclude hold none).toOption.isSome)

end ScheduleDb

end ClientBridge
