import ClientBridge.Library.GuardedRows
import ClientBridge.Library.Interleave
import ClientBridge.Scheduling.Bookings

/-!
# Writing slots

Bookings, moves, resizes and series changes run side by side.  Each locks the members and visits it read, reads its
visits again, checks each window against what is committed and what it wrote itself, locks the rooms it may take,
picks one, and writes.  Between two statements of a transaction the others may do anything its locks allow.
-/

namespace ClientBridge

open Calendar GuardedRows

/-! ## Commands -/

/-- Advisory locks of members and rooms, and the row locks of visits. -/
inductive SlotLock where
  | member (staffId : Id)
  | room (resourceId : Id)
  | visit (slotId : Id)
  deriving DecidableEq

inductive SlotCommand where
  /-- `create_booking_core`, once or for each date of a series. -/
  | book (drafts : List VisitSlot) (chosen : Option Id)
  /-- `BookingService.patch`. -/
  | patch (slotId : Id) (staffId : Option Id) (startsAt endsAt : Option Int) (chosen : Option Id)
  /-- `BookingService._lengthen`, by an add-on's minutes. -/
  | lengthen (slotId : Id) (minutes : Int)
  /-- `RecurrenceService.change`. -/
  | change (slotIds : List Id) (staffId : Option Id) (weekday : Option Int) (time : Option Int)
  /-- `PublicManageService.reschedule`. -/
  | reschedule (slotId : Id) (startsAt : Int)
  /-- A canceled visit's slot (`release_slot`). -/
  | cancel (slotId : Id)

/-- `_MIN_VISIT`. -/
def minVisit : Int := minutesOf 5

/-- When a series' visit starts after the change: its day of the week and its time, if they change. -/
def changedStart (tz : BusinessZone) (weekday : Option Int) (time : Option Int) (startsAt : Int) : Int :=
  let wall := tz.localTime startsAt
  let day := match weekday with
    | some w => (dateOf wall).addDays (w - (dateOf wall).weekday)
    | none => dateOf wall
  tz.instant (clockAt day (time.getD (timeOf wall)))

/-- The service of a slot. -/
def serviceOf (items : List ServiceItem) (s : VisitSlot) : Option ServiceItem :=
  items.find? fun i => decide (i.id = s.itemId)

namespace SlotCommand

/-- The visits it moves, by slot. -/
def visits : SlotCommand → List Id
  | book _ _ => []
  | patch i _ _ _ _ => [i]
  | lengthen i _ => [i]
  | change is _ _ _ => is
  | reschedule i _ => [i]
  | cancel i => [i]

/-- The members it locks once it has read its visits. -/
def members (cmd : SlotCommand) (read : List VisitSlot) : List Id :=
  match cmd with
  | book _ _ => []
  | patch _ staffId _ _ _ => read.flatMap fun s => [s.staffId, staffId.getD s.staffId]
  | change _ staffId _ _ => read.map (·.staffId) ++ staffId.toList
  | _ => read.map (·.staffId)

/-- The rooms a series change locks before its visits. -/
def roomsFirst (cmd : SlotCommand) (items : List ServiceItem) (read : List VisitSlot) : List Id :=
  match cmd with
  | change _ _ _ _ => read.flatMap fun s =>
      ((serviceOf items s).map (·.resourceIds)).getD [] ++ s.resourceId.toList
  | _ => []

/-- The locks it takes before it reads its visits again. -/
def locks (cmd : SlotCommand) (items : List ServiceItem) (read : List VisitSlot) : List SlotLock :=
  (cmd.members read).map .member ++ (cmd.roomsFirst items read).map .room ++ (read.map (·.id)).map .visit

/-- What a visit becomes, from the row it read first and the row it read again. -/
def target (cmd : SlotCommand) (tz : BusinessZone) (items : List ServiceItem) (read now : VisitSlot) : VisitSlot :=
  match cmd with
  | book _ _ => now
  | patch _ staffId startsAt endsAt _ =>
    { now with
      staffId := staffId.getD read.staffId
      startsAt := startsAt.getD read.startsAt
      endsAt := endsAt.getD (startsAt.getD read.startsAt + (read.endsAt - read.startsAt)) }
  | lengthen _ minutes =>
    let service := max (minutesOf (((serviceOf items now).bind (·.durationMin)).getD 0)) minVisit
    { now with
      -- a staff resize may have shortened the visit, so never cut into the service
      endsAt := if minutes < 0 then
          max (now.endsAt + minutes * microsPerMin) (min now.endsAt (now.startsAt + service))
        else now.endsAt + minutes * microsPerMin }
  | change _ staffId weekday time =>
    { now with
      staffId := staffId.getD now.staffId
      startsAt := changedStart tz weekday time now.startsAt
      endsAt := changedStart tz weekday time now.startsAt + (now.endsAt - now.startsAt) }
  | reschedule _ startsAt => { now with startsAt := startsAt, endsAt := startsAt + (now.endsAt - now.startsAt) }
  | cancel _ => { now with status := .canceled }

/-- Whether a visit's window is checked: not when it is canceled, nor when an add-on is taken off. -/
def checks : SlotCommand → Bool
  | lengthen _ minutes => decide (0 < minutes)
  | cancel _ => false
  | _ => true

def chosen : SlotCommand → Option Id
  | book _ chosen => chosen
  | patch _ _ _ _ chosen => chosen
  | _ => none

def isBook : SlotCommand → Bool
  | book _ _ => true
  | _ => false

/-- A visit's own slot, which its checks leave out. -/
def exclude (cmd : SlotCommand) (slotId : Id) : Option Id := if cmd.isBook then none else some slotId

/-- The rooms locked for a visit: those it may take, and the one it holds. -/
def rooms (cmd : SlotCommand) (item : ServiceItem) (s : VisitSlot) : List Id :=
  s.resourceId.toList ++ cmd.chosen.toList ++ item.resourceIds

/-- Whether a client's move finds its visit with the member it locked (`visit_changed`). -/
def unchanged (cmd : SlotCommand) (read now : VisitSlot) : Prop :=
  match cmd with
  | reschedule _ _ => now.staffId = read.staffId
  | _ => True

end SlotCommand

/-! ## Transactions -/

inductive SlotPhase where
  | idle
  /-- Locks still to take before the visits are read again. -/
  | locking (cmd : SlotCommand) (read : List VisitSlot) (need : List SlotLock)
  /-- Visits still to write, each as it was read first and as it was read again. -/
  | moving (cmd : SlotCommand) (read : List VisitSlot) (todo : List (VisitSlot × VisitSlot))
  /-- A visit whose window the member can take, and the rooms still to lock. -/
  | placing (cmd : SlotCommand) (read : List VisitSlot) (item : ServiceItem) (draft : VisitSlot)
      (need : List SlotLock) (todo : List (VisitSlot × VisitSlot))

/-- What a transaction has written and how far it is. -/
structure SlotWriter where
  dirty : Id → Option VisitSlot
  phase : SlotPhase

def SlotWriter.idle : SlotWriter := ⟨fun _ => none, .idle⟩

structure SlotStore (π : Type) where
  rows : Id → Option VisitSlot
  holder : SlotLock → Option π

/-- A schedule that shows these slots. -/
structure Shows (items : List ServiceItem) (view : Id → Option VisitSlot) (db : ScheduleDb) : Prop where
  items : db.items = items
  slots : ∀ s, s ∈ db.slots ↔ view s.id = some s

section
variable {π : Type} [DecidableEq π]

namespace SlotStore

variable (s : SlotStore π)

/-- A lock is free for a transaction, or already its own. -/
def canLock (p : π) (k : SlotLock) : Prop := s.holder k = none ∨ s.holder k = some p

def lock (p : π) (k : SlotLock) : SlotStore π := { s with holder := Function.update s.holder k (some p) }

/-- The locks of a transaction let go as it ends. -/
def unlock (p : π) : SlotStore π := { s with holder := fun k => if s.holder k = some p then none else s.holder k }

/-- The ids of new slots are their writer's. -/
def takeIds (p : π) (ids : List Id) : SlotStore π :=
  { s with holder := fun k => if k ∈ ids.map SlotLock.visit then some p else s.holder k }

/-- A savepoint rolled back lets go of locks it took, none of which the rows written before need. -/
def letsGo (p : π) (dirty : Id → Option VisitSlot) (s' : SlotStore π) : Prop :=
  s'.rows = s.rows ∧ ∀ k, s'.holder k = s.holder k ∨ s.holder k = some p ∧ s'.holder k = none ∧
    (∀ i, k ≠ .visit i) ∧ ∀ i, ∀ a ∈ dirty i, k ≠ .member a.staffId ∧ ∀ r ∈ a.resourceId, k ≠ .room r

end SlotStore

/-- A step of a transaction.  `found` says what its visits may be read again as. -/
inductive SlotStep (items : List ServiceItem) (tz : BusinessZone)
    (found : SlotCommand → List VisitSlot → List (VisitSlot × VisitSlot) → Prop) (p : π) (s : SlotStore π) (x : SlotWriter) :
    SlotStore π → SlotWriter → Prop
  | start {cmd : SlotCommand} {read : List VisitSlot} (crew : List Id) (hphase : x.phase = .idle)
      (hread : ∀ r ∈ read, s.rows r.id = some r) (hvisits : read.map (·.id) = cmd.visits)
      (hnodup : (read.map (·.id)).Nodup) :
      SlotStep items tz found p s x s
        { x with phase := .locking cmd read (crew.map .member ++ cmd.locks items read) }
  | lock {cmd : SlotCommand} {read : List VisitSlot} {k : SlotLock} {need : List SlotLock}
      (hphase : x.phase = .locking cmd read (k :: need)) (hfree : s.canLock p k) :
      SlotStep items tz found p s x (s.lock p k) { x with phase := .locking cmd read need }
  /-- The visits still live are read again under their locks. -/
  | reread {cmd : SlotCommand} {read : List VisitSlot} {todo : List (VisitSlot × VisitSlot)}
      (hphase : x.phase = .locking cmd read []) (hcmd : cmd.isBook = false) (hsub : (todo.map (·.1)).Sublist read)
      (hrows : ∀ q ∈ todo, s.rows q.1.id = some q.2) (hsame : ∀ q ∈ todo, cmd.unchanged q.1 q.2)
      (hfound : found cmd read todo) :
      SlotStep items tz found p s x s { x with phase := .moving cmd read todo }
  /-- New slots get ids no one else has. -/
  | drafts {drafts : List VisitSlot} {chosen : Option Id} (hphase : x.phase = .locking (.book drafts chosen) [] [])
      (hnodup : (drafts.map (·.id)).Nodup)
      (hnew : ∀ d ∈ drafts, d.resourceId = none ∧ d.startsAt < d.endsAt ∧ s.rows d.id = none ∧ s.holder (.visit d.id) = none) :
      SlotStep items tz found p s x (s.takeIds p (drafts.map (·.id)))
        { x with phase := .moving (.book drafts chosen) [] (drafts.map fun d => (d, d)) }
  /-- A booking locks its member just before it checks. -/
  | lockMember {drafts : List VisitSlot} {chosen : Option Id} {read : List VisitSlot} {q : VisitSlot × VisitSlot}
      {todo : List (VisitSlot × VisitSlot)} (hphase : x.phase = .moving (.book drafts chosen) read (q :: todo))
      (hfree : s.canLock p (.member q.2.staffId)) :
      SlotStep items tz found p s x (s.lock p (.member q.2.staffId)) x
  /-- A visit that can't move, or a seat taken in a session already there. -/
  | skip {cmd : SlotCommand} {read : List VisitSlot} {q : VisitSlot × VisitSlot} {todo : List (VisitSlot × VisitSlot)}
      (hphase : x.phase = .moving cmd read (q :: todo)) :
      SlotStep items tz found p s x s { x with phase := .moving cmd read todo }
  /-- A date of a series refused, with its savepoint. -/
  | refuse {s' : SlotStore π} {drafts : List VisitSlot} {chosen : Option Id} {read : List VisitSlot} {q : VisitSlot × VisitSlot}
      {todo : List (VisitSlot × VisitSlot)} {item : ServiceItem} {draft : VisitSlot} {need : List SlotLock}
      (hphase : x.phase = .moving (.book drafts chosen) read (q :: todo) ∨
        x.phase = .placing (.book drafts chosen) read item draft need todo)
      (hheld : s.letsGo p x.dirty s') :
      SlotStep items tz found p s x s' { x with phase := .moving (.book drafts chosen) read todo }
  /-- The member can take the window. -/
  | check {cmd : SlotCommand} {read : List VisitSlot} {q : VisitSlot × VisitSlot}
      {todo : List (VisitSlot × VisitSlot)} {item : ServiceItem} {draft : VisitSlot} {db : ScheduleDb}
      (hphase : x.phase = .moving cmd read (q :: todo)) (hchecks : cmd.checks = true)
      (hdraft : draft = cmd.target tz items q.1 q.2)
      (hmember : cmd.isBook = true → s.holder (.member draft.staffId) = some p)
      (hpatch : ∀ i m a b c, cmd = .patch i m a b c → minVisit ≤ draft.endsAt - draft.startsAt)
      (hcapacity : cmd.isBook = false → q.2.capacity ≤ 1) (hitem : serviceOf items draft = some item)
      (hshows : Shows items (overlay s.rows x.dirty) db)
      (hclass : cmd.isBook = true → item.isClass = true → db.openClassSlot item.id draft.staffId draft.startsAt = none)
      (hclear : db.conflictingSlot item draft.staffId draft.startsAt draft.endsAt (cmd.exclude draft.id) = false) :
      SlotStep items tz found p s x s
        { x with phase := .placing cmd read item draft ((cmd.rooms item draft).map .room) todo }
  | lockRoom {cmd : SlotCommand} {read : List VisitSlot} {item : ServiceItem} {draft : VisitSlot} {k : SlotLock}
      {need : List SlotLock} {todo : List (VisitSlot × VisitSlot)}
      (hphase : x.phase = .placing cmd read item draft (k :: need) todo) (hfree : s.canLock p k) :
      SlotStep items tz found p s x (s.lock p k) { x with phase := .placing cmd read item draft need todo }
  /-- A room is picked, unless none is held or needed, and the constraints take the row. -/
  | write {cmd : SlotCommand} {read : List VisitSlot} {item : ServiceItem} {draft : VisitSlot}
      {todo : List (VisitSlot × VisitSlot)} {db db' : ScheduleDb} {held : Option Id}
      (hphase : x.phase = .placing cmd read item draft [] todo) (hshows : Shows items (overlay s.rows x.dirty) db)
      (hroom : cmd.rooms item draft = [] ∧ held = none ∨ db.chooseResource item draft.startsAt draft.endsAt
        (cmd.exclude draft.id) draft.resourceId cmd.chosen = .ok held)
      (hshows' : Shows items (overlay s.rows x.dirty) db') (hexcluded : db'.excluded { draft with resourceId := held } = none) :
      SlotStep items tz found p s x s
        ⟨Function.update x.dirty draft.id (some { draft with resourceId := held }), .moving cmd read todo⟩
  /-- A visit is canceled, or shortened as an add-on is taken off. -/
  | release {cmd : SlotCommand} {read : List VisitSlot} {q : VisitSlot × VisitSlot}
      {todo : List (VisitSlot × VisitSlot)} (hphase : x.phase = .moving cmd read (q :: todo))
      (hchecks : cmd.checks = false) (hcapacity : ∀ i m, cmd = .lengthen i m → q.2.capacity ≤ 1) :
      SlotStep items tz found p s x s
        ⟨Function.update x.dirty q.2.id (some (cmd.target tz items q.1 q.2)), .moving cmd read todo⟩
  | commit {cmd : SlotCommand} {read : List VisitSlot} (hphase : x.phase = .moving cmd read []) :
      SlotStep items tz found p s x (({ s with rows := overlay s.rows x.dirty } : SlotStore π).unlock p) .idle
  | abort : SlotStep items tz found p s x (s.unlock p) .idle

end

end ClientBridge
