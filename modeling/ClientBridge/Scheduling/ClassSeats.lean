import ClientBridge.Library.Interleave
import ClientBridge.Library.Waitlists
import ClientBridge.Payments.DepositWindows
import ClientBridge.Scheduling.Bookings

/-!
# Seats of a class session

A session's seats are counted from its bookings, and whoever finds none open can wait for one.  Every transaction that
gives, takes or frees a seat holds the lock of the session's member while it runs, but the roster's own requests and a
patch read the session, and a patch its booking's status, before they take it, and so does the end of a series read its
visits (`RosterPlace`).  A request whose
session went to another member while it waited runs on under the old member's lock, and is not among the steps
(`HasMember`).
-/

namespace ClientBridge

open Calendar Runs Waitlists

/-! ## Rows -/

/-- What else a booking's row says: its deposit and the payments of it, and whether the client is there. -/
structure BookingFacts where
  online : Bool
  depositCents : Int
  depositStatus : DepositStatus
  deposits : List PaymentStatus
  checkedIn : Bool

/-- The schedule, and which of its sessions a class schedule laid out (`schedule_of`). -/
structure RosterDb extends ScheduleDb where
  facts : Id → BookingFacts
  laid : Id → Bool

/-- What a deposit not taken yet starts as. -/
def depositDue (cents : Int) : DepositStatus := if 0 < cents then .pending else .none

def BookingFacts.new (online : Bool) (depositCents : Int) : BookingFacts :=
  ⟨online, depositCents, depositDue depositCents, [], false⟩

namespace SeatBooking

/-- Counted among the seats taken on a slot (`booked_count_expr`). -/
def takes (b : SeatBooking) (slotId : Id) : Bool :=
  decide (b.slotId = slotId) && !b.deleted && decide (b.status ≠ .canceled ∧ b.status ≠ .waitlisted)

def waitsFor (b : SeatBooking) (slotId : Id) : Bool :=
  decide (b.slotId = slotId) && !b.deleted && decide (b.status = .waitlisted)

/-- The place in line: who came first, then the id. -/
def turn (b : SeatBooking) : Lex (Int × Id) := toLex (b.createdAt, b.id)

end SeatBooking

/-- The places of a slot. -/
def seatDesk (slotId : Id) : Desk SeatBooking (Lex (Int × Id)) where
  taken b := b.takes slotId
  waits b := b.waitsFor slotId
  turn := SeatBooking.turn
  seat b := { b with status := .confirmed }
  taken_seat b h := by
    simp only [SeatBooking.waitsFor, Bool.and_eq_true] at h
    simp [SeatBooking.takes, h.1.1, h.1.2]
  waits_seat b := by simp [SeatBooking.waitsFor]
  turn_seat _ := rfl
  not_both b h := by
    simp only [SeatBooking.waitsFor, Bool.and_eq_true, decide_eq_true_eq] at h
    simp [SeatBooking.takes, h.2]

/-- `_TERMINAL`. -/
def BookingStatus.terminal : BookingStatus → Bool
  | .completed | .canceled | .noShow => true
  | _ => false

def BookingStatus.word : BookingStatus → String
  | .pending => "pending"
  | .confirmed => "confirmed"
  | .waitlisted => "waitlisted"
  | .completed => "completed"
  | .canceled => "canceled"
  | .noShow => "no_show"

/-- What a patch can set a booking's status to. -/
inductive PatchedStatus where
  | confirmed | completed | canceled | noShow
  deriving DecidableEq, Repr

def PatchedStatus.status : PatchedStatus → BookingStatus
  | .confirmed => .confirmed
  | .completed => .completed
  | .canceled => .canceled
  | .noShow => .noShow

inductive RosterAction where
  | checkIn | undo | noShow | seat
  deriving DecidableEq, Repr

/-- When a client may cancel online. -/
structure ManagePolicy where
  selfService : Bool
  cancelCutoffHours : Nat

/-! ## Seats -/

namespace RosterDb

variable (db : RosterDb)

def slot? (id : Id) : Option VisitSlot := db.slots.find? fun s => decide (s.id = id)

/-- A booking's row, unless it is deleted. -/
def booking? (id : Id) : Option SeatBooking := db.bookings.find? fun b => decide (b.id = id) && !b.deleted

/-- One day of a program, which is enrolled in as a whole. -/
def isProgramDay (slot : VisitSlot) : Bool := db.laid slot.id && (db.item? slot.itemId).any (·.isProgram)

def setStatus (id : Id) (status : BookingStatus) : RosterDb :=
  { db with bookings := amend (·.id) id (fun b => { b with status := status }) db.bookings }

def setSlotStatus (id : Id) (status : SlotStatus) : RosterDb :=
  { db with slots := amend (·.id) id (fun s => { s with status := status }) db.slots }

/-- Another member takes the session. -/
def handOver (id member : Id) : RosterDb :=
  { db with slots := amend (·.id) id (fun s => { s with staffId := member }) db.slots }

def setFacts (id : Id) (f : BookingFacts → BookingFacts) : RosterDb :=
  { db with facts := Function.update db.facts id (f (db.facts id)) }

/-- An unpaid deposit is due no more. -/
def dropDeposit (id : Id) : RosterDb :=
  db.setFacts id fun x => if x.depositStatus = .pending then { x with depositStatus := .none } else x

def addBooking (b : SeatBooking) (x : BookingFacts) : RosterDb :=
  { db with bookings := db.bookings ++ [b], facts := Function.update db.facts b.id x }

/-- Give a class booking its seat, with any deposit due. -/
def seatBooking (id : Id) : RosterDb :=
  (db.setStatus id .confirmed).setFacts id fun x => { x with depositStatus := depositDue x.depositCents }

/-- The loop of `fill_freed_seats`: while there is room, whoever waits longest is seated. -/
def fillSeats (slot : VisitSlot) : Nat → RosterDb → RosterDb
  | 0, db => db
  | n + 1, db =>
    if db.bookedCount slot.id < slot.capacity then
      match (seatDesk slot.id).first db.bookings with
      | none => db
      | some b => fillSeats slot n (db.seatBooking b.id)
    else db

/-- Seat the people waiting, earliest first, while a class that hasn't started has room. -/
def fillFreedSeats (now : Int) (slot : VisitSlot) : RosterDb :=
  if slot.capacity ≤ 1 ∨ slot.status = .canceled ∨ slot.startsAt ≤ now then db
  else if db.isProgramDay slot then db
  else db.fillSeats slot db.bookings.length

/-- Where a waiting booking stands in line for the next seat; 1 is seated first. -/
def waitlistPosition (booking : SeatBooking) : Option Nat :=
  if booking.status ≠ .waitlisted then none
  else some ((db.bookings.countP fun b => b.waitsFor booking.slotId && decide (b.turn < booking.turn)) + 1)

/-- Cancel the slot once its last live or waiting booking is gone; a schedule keeps its own. -/
def releaseSlot (slot : VisitSlot) : RosterDb × VisitSlot :=
  if db.laid slot.id then (db, slot)
  else if db.bookings.any fun b => decide (b.slotId = slot.id) && !b.deleted && decide (b.status ≠ .canceled) then
    (db, slot)
  else (db.setSlotStatus slot.id .canceled, { slot with status := .canceled })

/-- Mark the slot completed once none of its bookings is still pending or confirmed. -/
def completeWhenDone (slot : VisitSlot) : RosterDb :=
  if db.bookings.any fun b => decide (b.slotId = slot.id) && !b.deleted && b.status.seated then db
  else db.setSlotStatus slot.id .completed

/-- Cancel a booking; the seat it held goes to whoever waits for it. -/
def cancelBooking (now : Int) (booking : SeatBooking) (slot : VisitSlot) : RosterDb :=
  let (db, slot) := ((db.dropDeposit booking.id).setStatus booking.id .canceled).releaseSlot slot
  if booking.status.seated then db.fillFreedSeats now slot else db

end RosterDb

/-! ## Requests -/

/-- What a booking is made with: when its transaction began, its deposit, and whether the business answers it first. -/
structure NewBooking where
  id : Id
  clientId : Id
  subjectId : Option Id
  createdAt : Int
  depositCents : Int
  online : Bool
  pending : Bool

namespace RosterDb

variable (db : RosterDb)

/-- A booking through `create_booking_core`, which joins the open session of a class or lays a slot. -/
def bookVisit (item : ServiceItem) (staffId : Id) (startsAt : Int) (new : NewBooking) (dedupeClient : Bool)
    (extraMin : Nat) (chosen : Option Id) (slotId : Id) : Except BookingError RosterDb :=
  match db.createBookingCore item staffId startsAt new.clientId new.subjectId dedupeClient extraMin chosen slotId new.id
    new.createdAt with
  | .error e => .error e
  | .ok (schedule, booking, _) =>
    let db : RosterDb := { db with
      toScheduleDb := schedule
      facts := Function.update db.facts booking.id (.new new.online new.depositCents) }
    .ok (if new.pending then db.setStatus booking.id .pending else db)

/-- `_session`. -/
def session (slotId : Id) : Except BookingError VisitSlot :=
  match db.slot? slotId with
  | none => .error ⟨"class not found", none⟩
  | some slot =>
    if slot.capacity ≤ 1 ∨ slot.status = .canceled then .error ⟨"that time isn't a class session", none⟩ else .ok slot

/-- What adding to a roster checks before it takes the lock; half a day after the class it is over. -/
def readAdd (now : Int) (slotId : Id) : Except BookingError VisitSlot :=
  match db.session slotId with
  | .error e => .error e
  | .ok slot =>
    if slot.startsAt < now - minutesOf (12 * 60) then .error ⟨"that class has already happened", none⟩
    else if db.isProgramDay slot then .error ⟨programEnrol, some "program_enrol"⟩
    else .ok slot

/-- `ClassService.add`, to the waitlist when the session is full. -/
def runAdd (slot : VisitSlot) (new : NewBooking) : Except BookingError RosterDb :=
  if db.hasSeat slot.id new.clientId new.subjectId then .error ⟨alreadyInClass, none⟩
  else .ok (db.addBooking ⟨new.id, slot.id, new.clientId, new.subjectId,
    if db.seatsClosed slot then .waitlisted else .confirmed, false, new.createdAt⟩ (.new false new.depositCents))

/-- The session a client asks to wait for, of those with one of these members. -/
def readJoin (policy : BookingPolicy) (now : Int) (item : ServiceItem) (staff : List Id) (startsAt : Int) :
    Except BookingError VisitSlot :=
  if !item.isClass then .error ⟨"only a class session has a waitlist", some "no_waitlist"⟩
  else if item.isProgram then .error ⟨"a program's days have no waitlist", some "no_waitlist"⟩
  else if startsAt < policy.earliest now then .error ⟨"that time is too soon to book online", some "slot_unavailable"⟩
  else if policy.latest now < startsAt then
    .error ⟨"that time is too far ahead to book online", some "slot_unavailable"⟩
  else
    match (db.slots.filter fun s => decide (s.itemId = item.id) && staff.contains s.staffId &&
        decide (s.startsAt = startsAt) && decide (s.status = .scheduled)).argmin (·.id) with
    | none => .error ⟨"that time isn't open for booking; pick another", some "slot_unavailable"⟩
    | some slot => .ok slot

/-- `join_waitlist`, once it holds the lock. -/
def runJoin (slot : VisitSlot) (new : NewBooking) : Except BookingError RosterDb :=
  if !db.seatsClosed slot then .error ⟨"that class has a seat open; book it instead", some "class_open"⟩
  else if db.hasSeat slot.id new.clientId new.subjectId then .error ⟨alreadyInClass, none⟩
  else .ok (db.addBooking ⟨new.id, slot.id, new.clientId, new.subjectId, .waitlisted, false, new.createdAt⟩
    (.new true new.depositCents))

def notStarted : BookingError :=
  ⟨"a visit can be completed or marked a no-show only once it has started", some "visit_not_started"⟩

def readAct (now : Int) (slotId bookingId : Id) (action : RosterAction) : Except BookingError VisitSlot :=
  match db.session slotId with
  | .error e => .error e
  | .ok slot =>
    if !(db.booking? bookingId).any fun b => decide (b.slotId = slotId) then
      .error ⟨"that booking isn't on this class", none⟩
    else if action = .noShow ∧ now < slot.startsAt then .error notStarted
    else .ok slot

/-- `ClassService.act`. -/
def runAct (now : Int) (slot : VisitSlot) (bookingId : Id) (action : RosterAction) : Except BookingError RosterDb :=
  match db.booking? bookingId with
  | none => .error ⟨"that booking isn't on this class", none⟩
  | some booking =>
    match action with
    | .checkIn =>
      if booking.status ≠ .confirmed then .error ⟨"a " ++ booking.status.word ++ " booking can't be checked in", none⟩
      else .ok (db.setFacts bookingId fun x => { x with checkedIn := true })
    | .undo =>
      if booking.status = .confirmed ∧ (db.facts bookingId).checkedIn = true then
        .ok (db.setFacts bookingId fun x => { x with checkedIn := false })
      else if booking.status = .noShow ∧ (db.facts bookingId).depositStatus ≠ .forfeited then
        .ok (db.setStatus bookingId .confirmed)
      else .error ⟨"there's nothing to undo on this booking", none⟩
    | .noShow =>
      if booking.status ≠ .confirmed then
        .error ⟨"a " ++ booking.status.word ++ " booking can't be marked a no-show", none⟩
      else .ok (((db.setStatus bookingId .noShow).setFacts bookingId fun x =>
        { x with checkedIn := false }).fillFreedSeats now slot)
    | .seat =>
      if booking.status ≠ .waitlisted then .error ⟨"only someone on the waitlist can be given a seat", none⟩
      else if slot.capacity ≤ db.bookedCount slot.id then .error ⟨"that class is full", some "class_full"⟩
      else .ok (db.seatBooking bookingId)

/-- A patch of a booking's status reads the booking and its slot before it takes the lock. -/
def readPatch (now : Int) (bookingId : Id) (status : PatchedStatus) : Except BookingError (VisitSlot × BookingStatus) :=
  match db.booking? bookingId with
  | none => .error ⟨"booking not found", none⟩
  | some booking =>
    match db.slot? booking.slotId with
    | none => .error ⟨"slot not found", none⟩
    | some slot =>
      if booking.status.terminal ∧ status.status ≠ booking.status then
        .error ⟨"a " ++ booking.status.word ++ " booking can't be modified", none⟩
      else if booking.status = .waitlisted ∧ status ≠ .canceled then
        .error ⟨"give a waitlisted client a seat from the class roster", some "class_seat"⟩
      else if (status = .completed ∨ status = .noShow) ∧ status.status ≠ booking.status ∧ now < slot.startsAt then
        .error notStarted
      else .ok (slot, booking.status)

/-- `patch`, of the status.  A status the booking was read with takes no lock and changes nothing. -/
def runPatch (now : Int) (slot : VisitSlot) (bookingId : Id) (before : BookingStatus) (status : PatchedStatus) :
    Except BookingError RosterDb :=
  if status.status = before then .ok db
  else
    match db.booking? bookingId with
    | none => .error ⟨"booking not found", none⟩
    | some booking =>
      if status.status = booking.status then .ok db
      else if booking.status.terminal then
        .error ⟨"a " ++ booking.status.word ++ " booking can't be modified", none⟩
      else
        match status with
        | .confirmed => .ok (db.setStatus bookingId .confirmed)
        | .completed => .ok (((db.setStatus bookingId .completed).dropDeposit bookingId).completeWhenDone slot)
        | .canceled => .ok (db.cancelBooking now booking slot)
        | .noShow =>
          .ok (if booking.status.seated then (db.setStatus bookingId .noShow).fillFreedSeats now slot
            else db.setStatus bookingId .noShow)

/-- A client cancels their visit, or leaves a waitlist. -/
def cancelOnline (policy : ManagePolicy) (now : Int) (bookingId : Id) : Except BookingError RosterDb :=
  match db.booking? bookingId with
  | none => .error ⟨"this booking link isn't valid anymore", none⟩
  | some booking =>
    match db.slot? booking.slotId with
    | none => .error ⟨"this booking link isn't valid anymore", none⟩
    | some slot =>
      let blocked (why : String) : Except BookingError RosterDb :=
        .error ⟨"this visit can't be canceled online (" ++ why ++ ")", some "change_blocked"⟩
      if !booking.status.seated ∧ booking.status ≠ .waitlisted then blocked "status"
      else if !policy.selfService then blocked "by_phone"
      else if booking.status ≠ .waitlisted ∧ slot.startsAt - now < minutesOf (60 * policy.cancelCutoffHours) then
        blocked "cutoff"
      else .ok (db.cancelBooking now booking slot)

/-- The live visits of a list, canceled one after another; the rest are left. -/
def cancelSeated (now : Int) (ids : List Id) : RosterDb :=
  ids.foldl (fun db id =>
    match db.booking? id with
    | none => db
    | some booking =>
      match db.slot? booking.slotId with
      | none => db
      | some slot => if booking.status.seated then db.cancelBooking now booking slot else db) db

/-- The visits of a series that are live and still ahead, with their slots (`_upcoming`). -/
def upcoming (now : Int) (series : List Id) : List (Id × VisitSlot) :=
  series.filterMap fun id =>
    match db.booking? id with
    | none => none
    | some booking =>
      match db.slot? booking.slotId with
      | none => none
      | some slot => if booking.status.seated ∧ now ≤ slot.startsAt then some (id, slot) else none

/-- An online booking whose deposit went unpaid for half an hour, of a session still ahead. -/
def unpaid (now : Int) (b : SeatBooking) : Bool :=
  let x := db.facts b.id
  !b.deleted && x.online && decide (0 < x.depositCents) && decide (x.depositStatus = .pending) && b.status.seated &&
    decide (b.createdAt < now - minutesOf 30) && (db.slot? b.slotId).any (fun s => decide (now < s.startsAt)) &&
    !x.deposits.isEmpty && !x.deposits.any fun p => decide (p = .succeeded)

/-- `run_reap_unpaid_bookings`; `released` says which deposits could be canceled. -/
def reapUnpaid (now : Int) (released : Id → Bool) : RosterDb :=
  db.cancelSeated now ((db.bookings.filter fun b => db.unpaid now b && released b.id).map (·.id))

/-- The bookings of a member's sessions ahead, canceled with the sessions they are on (`remove`); then the rest of a
schedule. -/
def cancelWork (now : Int) (member : Id) (ahead : List Id) : RosterDb :=
  let slots := db.slots.filter fun s => decide (s.staffId = member) && decide (s.status = .scheduled) &&
    decide (now ≤ s.startsAt) && db.bookings.any fun b => decide (b.slotId = s.id) && !b.deleted && b.status.open
  let db := slots.foldl (fun db s =>
    (((db.bookings.filter fun b => decide (b.slotId = s.id) && !b.deleted && b.status.open).foldl
      (fun db b => (db.dropDeposit b.id).setStatus b.id .canceled) db).releaseSlot s).1) db
  ahead.foldl (fun db id => db.setSlotStatus id .canceled) db

/-- Take the people still waiting off a class that has ended; rows another transaction holds are left. -/
def closePastWaitlists (midnight : Int) (held : List Id) : RosterDb :=
  held.foldl (fun db id =>
    match db.booking? id with
    | none => db
    | some b =>
      if b.status = .waitlisted ∧ (db.slot? b.slotId).any (fun s => decide (s.endsAt ≤ midnight)) then
        (db.setStatus id .canceled).dropDeposit id
      else db) db

/-- One visit of `_close_past_visits`: a confirmed one is completed, a request nobody answered is canceled, unless its
deposit can't be given back. -/
def closePastVisit (midnight : Int) (givenBack : Id → Bool) (id : Id) : Option (RosterDb × VisitSlot) :=
  match db.booking? id with
  | none => none
  | some b =>
    match db.slot? b.slotId with
    | none => none
    | some slot =>
      if midnight < slot.endsAt then none
      else if b.status = .confirmed then some ((db.setStatus id .completed).dropDeposit id, slot)
      else if b.status = .pending ∧ givenBack id = true then some ((db.setStatus id .canceled).dropDeposit id, slot)
      else none

/-- The visits closed one after another, with the slots they were on; rows another transaction holds are left. -/
def closeVisits (midnight : Int) (givenBack : Id → Bool) : List Id → RosterDb → RosterDb × List VisitSlot
  | [], db => (db, [])
  | id :: held, db =>
    match db.closePastVisit midnight givenBack id with
    | none => closeVisits midnight givenBack held db
    | some (db, slot) =>
      let (db, slots) := closeVisits midnight givenBack held db
      (db, slot :: slots)

/-- `_close_past_visits`. -/
def closePastVisits (midnight : Int) (givenBack : Id → Bool) (held : List Id) : RosterDb :=
  let (db, slots) := closeVisits midnight givenBack held db
  slots.foldl (fun db slot =>
    let (db, slot) := db.releaseSlot slot
    if slot.status ≠ .canceled then db.completeWhenDone slot else db) db

/-- A confirmed visit that has started is done once it is paid, billed or covered (`close_settled_visit`). -/
def completeVisit (now : Int) (bookingId : Id) : RosterDb :=
  match db.booking? bookingId with
  | none => db
  | some b =>
    match db.slot? b.slotId with
    | none => db
    | some slot =>
      if b.status ≠ .confirmed ∨ now < slot.startsAt then db
      else ((db.setStatus bookingId .completed).dropDeposit bookingId).completeWhenDone slot

end RosterDb

/-! ## Steps -/

/-- The committed rows, and the time. -/
structure RosterStore where
  db : RosterDb
  now : Int

/-- Where a request is: what it has read, and waits with for the member's lock. -/
inductive RosterPlace where
  | idle
  | adding (slot : VisitSlot) (new : NewBooking)
  | joining (slot : VisitSlot) (new : NewBooking)
  | acting (slot : VisitSlot) (bookingId : Id) (action : RosterAction)
  | patching (slot : VisitSlot) (bookingId : Id) (before : BookingStatus) (status : PatchedStatus)
  | ending (visits : List (Id × VisitSlot))

/-- The session still has the member whose lock a request took. -/
def RosterDb.HasMember (db : RosterDb) (slot : VisitSlot) : Prop :=
  ∃ row ∈ db.slots, row.id = slot.id ∧ row.staffId = slot.staffId

/-- One step of a request, all it does under the locks at once; a refused request or an aborted one leaves. -/
inductive RosterStep {π : Type} (p : π) (s : RosterStore) : RosterPlace → RosterStore → RosterPlace → Prop
  | tick {x : RosterPlace} {t : Int} (ht : s.now ≤ t) : RosterStep p s x { s with now := t } x
  /-- Payments move a deposit. -/
  | deposit {x : RosterPlace} (id : Id) (status : DepositStatus) (deposits : List PaymentStatus) :
      RosterStep p s x
        { s with db := s.db.setFacts id fun x => { x with depositStatus := status, deposits := deposits } } x
  | handOver {x : RosterPlace} (id member : Id) : RosterStep p s x { s with db := s.db.handOver id member } x
  | leave {x : RosterPlace} : RosterStep p s x s .idle
  | book {item : ServiceItem} {staffId slotId : Id} {startsAt : Int} {new : NewBooking} {dedupe : Bool}
      {extraMin : Nat} {chosen : Option Id} {db : RosterDb} (hfresh : new.id ∉ s.db.bookings.map (·.id))
      (hnew : slotId ∉ s.db.slots.map (·.id))
      (hok : s.db.bookVisit item staffId startsAt new dedupe extraMin chosen slotId = .ok db) :
      RosterStep p s .idle { s with db := db } .idle
  | readAdd {slotId : Id} {slot : VisitSlot} (new : NewBooking) (hok : s.db.readAdd s.now slotId = .ok slot) :
      RosterStep p s .idle s (.adding slot new)
  | runAdd {slot : VisitSlot} {new : NewBooking} {db : RosterDb} (hmember : s.db.HasMember slot)
      (hfresh : new.id ∉ s.db.bookings.map (·.id)) (hok : s.db.runAdd slot new = .ok db) :
      RosterStep p s (.adding slot new) { s with db := db } .idle
  | readJoin {policy : BookingPolicy} {item : ServiceItem} {staff : List Id} {startsAt : Int} {slot : VisitSlot}
      (new : NewBooking) (hok : s.db.readJoin policy s.now item staff startsAt = .ok slot) :
      RosterStep p s .idle s (.joining slot new)
  | runJoin {slot : VisitSlot} {new : NewBooking} {db : RosterDb} (hmember : s.db.HasMember slot)
      (hfresh : new.id ∉ s.db.bookings.map (·.id)) (hok : s.db.runJoin slot new = .ok db) :
      RosterStep p s (.joining slot new) { s with db := db } .idle
  | readAct {slotId bookingId : Id} {action : RosterAction} {slot : VisitSlot}
      (hok : s.db.readAct s.now slotId bookingId action = .ok slot) :
      RosterStep p s .idle s (.acting slot bookingId action)
  | runAct {slot : VisitSlot} {bookingId : Id} {action : RosterAction} {db : RosterDb}
      (hmember : s.db.HasMember slot) (hok : s.db.runAct s.now slot bookingId action = .ok db) :
      RosterStep p s (.acting slot bookingId action) { s with db := db } .idle
  | readPatch {bookingId : Id} {status : PatchedStatus} {slot : VisitSlot} {before : BookingStatus}
      (hok : s.db.readPatch s.now bookingId status = .ok (slot, before)) :
      RosterStep p s .idle s (.patching slot bookingId before status)
  | runPatch {slot : VisitSlot} {bookingId : Id} {before : BookingStatus} {status : PatchedStatus} {db : RosterDb}
      (hmember : s.db.HasMember slot) (hok : s.db.runPatch s.now slot bookingId before status = .ok db) :
      RosterStep p s (.patching slot bookingId before status) { s with db := db } .idle
  | cancelOnline {policy : ManagePolicy} {bookingId : Id} {db : RosterDb}
      (hok : s.db.cancelOnline policy s.now bookingId = .ok db) : RosterStep p s .idle { s with db := db } .idle
  | readSeries (series : List Id) : RosterStep p s .idle s (.ending (s.db.upcoming s.now series))
  | runSeries {visits : List (Id × VisitSlot)} (hmember : ∀ v ∈ visits, s.db.HasMember v.2) :
      RosterStep p s (.ending visits) { s with db := s.db.cancelSeated s.now (visits.map (·.1)) } .idle
  | reap (released : Id → Bool) : RosterStep p s .idle { s with db := s.db.reapUnpaid s.now released } .idle
  | cancelWork (member : Id) (ahead : List Id) :
      RosterStep p s .idle { s with db := s.db.cancelWork s.now member ahead } .idle
  | closeWaitlists {midnight : Int} (hmid : midnight ≤ s.now) (held : List Id) :
      RosterStep p s .idle { s with db := s.db.closePastWaitlists midnight held } .idle
  | closeVisits {midnight : Int} (hmid : midnight ≤ s.now) (givenBack : Id → Bool) (held : List Id) :
      RosterStep p s .idle { s with db := s.db.closePastVisits midnight givenBack held } .idle
  | complete (bookingId : Id) : RosterStep p s .idle { s with db := s.db.completeVisit s.now bookingId } .idle

end ClientBridge
