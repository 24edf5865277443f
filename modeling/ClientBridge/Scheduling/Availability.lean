import ClientBridge.Scheduling.Schedule

/-!
# The times on offer

`loadAvailability` reads a span of days at once, and `openStarts` walks each window of a date in steps over what
was read.  On a date the clocks do not change, the times on offer are the steps the booking checks accept on the
whole schedule (`openStarts_eq`), however many days, members and services were read with it.
-/

namespace ClientBridge

open Calendar ZoneOffsets

/-! ## What is read -/

structure Away where
  startsAt : Int
  endsAt : Int
  reason : Option String
  id : Id
  deriving DecidableEq, Repr

structure Busy where
  id : Id
  itemId : Id
  startsAt : Int
  endsAt : Int
  before : Int
  after : Int
  full : Bool
  deriving DecidableEq, Repr

/-- Members' hours, closures, time off and live slots over a span, read once per request. -/
structure Availability where
  tz : BusinessZone
  closures : List Away
  hours : Id → List HoursRow
  timeOff : Id → List Away
  busy : Id → List Busy
  /-- Each item's active pool, and the live slots holding any resource read. -/
  pools : Id → List Id
  held : Id → List Busy

/-- An exception of the business or of these members over a span. -/
def HoursRow.away (r : HoursRow) (opens closes : Int) : Option Away :=
  match r.basis with
  | .exception starts ends => if starts < closes ∧ opens < ends then some ⟨starts, ends, r.reason, r.id⟩ else none
  | _ => none

def HoursRow.isException (r : HoursRow) : Bool :=
  match r.basis with
  | .exception _ _ => true
  | _ => false

/-- The widest buffer of the services. -/
def marginOf (items : List ServiceItem) : Int :=
  minutesOf ((items.map fun i => max i.bufferBeforeMin i.bufferAfterMin).foldr max 0)

/-- A live slot over a span, its buffers read off its service. -/
def ScheduleDb.busyOver (db : ScheduleDb) (opens closes margin : Int) (full : VisitSlot → Bool) (s : VisitSlot) :
    Option Busy :=
  if s.live then
    (db.item? s.itemId).bind fun b =>
      if s.startsAt - b.before < closes + margin ∧ opens - margin < s.endsAt + b.after then
        some ⟨s.id, s.itemId, s.startsAt, s.endsAt, b.before, b.after, full s⟩
      else none
  else none

/-- A local date's span, midnight to midnight. -/
def localDay (tz : BusinessZone) (onDate : CivilDate) : Int × Int :=
  (tz.instant (clockAt onDate 0), tz.instant (clockAt (onDate.addDays 1) 0))

def loadAvailability (db : ScheduleDb) (staffIds : List Id) (first last : CivilDate) (items : List ServiceItem)
    (held : List Id) : Availability :=
  let opens := (localDay db.tz first).1
  let closes := (localDay db.tz last).2
  let margin := marginOf items
  let wanted := items.flatMap (·.resourceIds) ++ held
  { tz := db.tz
    closures := (db.hours.filter fun r => r.staffId.isNone).filterMap fun r => r.away opens closes
    hours := fun m => if m ∈ staffIds then (db.hoursOf m).filter fun r => !r.isException else []
    timeOff := fun m => if m ∈ staffIds then (db.hoursOf m).filterMap fun r => r.away opens closes else []
    busy := fun m => if m ∈ staffIds then
        (db.slots.filter fun s => decide (s.staffId = m)).filterMap (db.busyOver opens closes margin db.seatsClosed)
      else []
    pools := fun id => ((items.find? fun i => decide (i.id = id)).map db.poolOf).getD []
    held := fun id => if id ∈ wanted then
        (db.slots.filter fun s => decide (s.resourceId = some id)).filterMap
          (db.busyOver opens closes margin fun _ => true)
      else [] }

/-! ## The walk -/

/-- The steps from a start while a visit still ends by the limit, of those that pass. -/
def walk (ok : Int → Bool) (limit length step : Int) : Nat → Int → List Int
  | 0, _ => []
  | fuel + 1, start =>
    if start + length ≤ limit then
      if ok start then start :: walk ok limit length step fuel (start + step)
      else walk ok limit length step fuel (start + step)
    else []

def Away.over (a : Away) (start stop : Int) : Bool := decide (a.startsAt < stop) && decide (start < a.endsAt)

def Busy.over (b : Busy) (item : ServiceItem) (start stop : Int) : Bool :=
  decide (b.startsAt - b.before < stop + item.after) && decide (start - item.before < b.endsAt + b.after)

/-- A slot of the same item at this very window. -/
def Busy.sameSession (b : Busy) (item : ServiceItem) (start stop : Int) : Bool :=
  decide (b.itemId = item.id) && decide (b.startsAt = start) && decide (b.endsAt = stop)

namespace Availability

variable (a : Availability)

/-- Whether the start takes a seat in a session already there, which keeps its room. -/
def joins (item : ServiceItem) (busy : List Busy) (start stop : Int) : Bool :=
  busy.any fun b => !b.full && b.sameSession item start stop

/-- Whether one of the resources is free for the window. -/
def room (item : ServiceItem) (candidates : List Id) (start stop : Int) (exclude : Option Id) : Bool :=
  candidates.any fun r => !(a.held r).any fun b => decide (exclude ≠ some b.id) && b.over item start stop

/-- Whether a helper can follow their visit to this window. -/
def free (item : ServiceItem) (block : HoursRow) (start stop : Int) : Bool :=
  match block.staffId with
  | none => true
  | some helper =>
    !((a.closures ++ a.timeOff helper).any fun w => decide (w.id ≠ block.id) && w.over start stop) &&
      withinHours (a.hours helper) a.tz start stop && !(a.busy helper).any fun b => b.over item start stop

/-- The checks of a step. -/
def passes (item : ServiceItem) (staffId : Id) (exclude : Option Id) (crew : List HoursRow) (hold : Option Id)
    (start stop : Int) : Bool :=
  let busy := (a.busy staffId).filter fun b => decide (exclude ≠ some b.id)
  let needs := if item.resourceIds.isEmpty then [] else hold.toList ++ a.pools item.id
  !((a.closures ++ a.timeOff staffId).any fun w => w.over start stop) &&
    !(busy.any fun b => b.over item start stop && (b.full || !b.sameSession item start stop)) &&
    crew.all (fun row => a.free item row start stop) &&
    (item.resourceIds.isEmpty || joins item busy start stop || a.room item needs start stop exclude)

/-- The length of a visit, and the step from one start to the next. -/
def lengthOf (item : ServiceItem) (minutes : Option Nat) : Int := minutesOf ((minutes.or item.durationMin).getD 0)

def stepOf (item : ServiceItem) (stepMin minutes : Option Nat) : Int :=
  match stepMin with
  | some (n + 1) => minutesOf (n + 1)
  | _ => lengthOf item minutes + item.before + item.after

/-- The steps of one window that pass. -/
def walkWindow (ok : Int → Bool) (onDate : CivilDate) (length step : Int) (w : Int × Int) : List Int :=
  let start := a.tz.instant (clockAt onDate w.1)
  let limit := a.tz.instant (clockAt onDate w.2)
  walk ok limit length step (limit - start).toNat start

/-- The starts the booking checks would accept on the date's step grid.  Unset hours lay no grid. -/
def openStarts (item : ServiceItem) (staffId : Id) (onDate : CivilDate) (stepMin : Option Nat) (exclude : Option Id)
    (minutes : Option Nat) (crew : List HoursRow) (hold : Option Id) : List Int :=
  let length := lengthOf item minutes
  if length ≤ 0 then []
  else ((windowsOn (a.hours staffId) onDate).getD []).flatMap
    (a.walkWindow (fun start => a.passes item staffId exclude crew hold start (start + length)) onDate length
      (stepOf item stepMin minutes))

end Availability

end ClientBridge
