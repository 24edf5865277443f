import ClientBridge.Business.Invites

/-!
# Removing a member with work ahead

A removal settles the visits a member has ahead of them: it refuses while there are any, gives
them to other members, or cancels them.  Every transaction that gives a member visits takes that
member's lock (`lock_staff`), and so does the removal; but whether a member is active is read
before the locks are taken.
-/

namespace ClientBridge

open Runs

inductive BookingStatus where
  | pending | confirmed | waitlisted | completed | canceled | noShow
  deriving DecidableEq, Repr

/-- `_OPEN`. -/
def BookingStatus.open : BookingStatus → Bool
  | .pending | .confirmed | .waitlisted => true
  | _ => false

inductive SlotStatus where
  | scheduled | completed | canceled
  deriving DecidableEq, Repr

structure WorkSlot where
  staffId : Id
  startsAt : Int
  status : SlotStatus
  capacity : Nat
  recurrenceId : Option Id
  deriving DecidableEq, Repr

structure WorkBooking where
  id : Id
  slotId : Id
  status : BookingStatus
  deriving DecidableEq, Repr

/-- A series of visits, or a class schedule when it has no client. -/
structure Series where
  id : Id
  staffId : Id
  clientId : Option Id
  active : Bool
  deriving DecidableEq, Repr

/-- A removal that committed, with the visits it reported as left. -/
structure RemovalRecord where
  member : Id
  left : List Id
  deriving DecidableEq, Repr

/-- The committed rows, the members' locks and the time. -/
structure WorkStore (π : Type) where
  members : Id → StaffStatus
  slots : Id → Option WorkSlot
  bookings : List WorkBooking
  series : List Series
  locks : Id → Option π
  clock : Int
  removals : List RemovalRecord

/-- What a removal does with the member's work ahead. -/
inductive FutureChoice where
  | refuse | reassign | cancel
  deriving DecidableEq, Repr

namespace WorkStore

variable {π : Type}

/-- Whether a booking is one of a member's visits of the slots that pass a test. -/
def visitOf (s : WorkStore π) (member : Id) (ahead : Int → Bool) (b : WorkBooking) : Bool :=
  b.status.open && match s.slots b.slotId with
    | some x => decide (x.staffId = member) && decide (x.status = .scheduled) && ahead x.startsAt
    | none => false

/-- `_future_visits`. -/
def futureVisits (s : WorkStore π) (member : Id) : List WorkBooking :=
  s.bookings.filter (s.visitOf member fun t => decide (s.clock ≤ t))

/-- The member's active series, schedules among them. -/
def activeSeries (s : WorkStore π) (member : Id) : List Series :=
  s.series.filter fun r => decide (r.staffId = member) && r.active

/-- A session of these schedules that is still ahead (`sessions_of`). -/
def sessionOf (s : WorkStore π) (schedules : List Id) (slot : Id) : Bool :=
  match s.slots slot with
  | some x => decide (x.status ≠ .canceled) && decide (s.clock < x.startsAt) &&
    x.recurrenceId.any fun r => decide (r ∈ schedules)
  | none => false

def release [DecidableEq π] (s : WorkStore π) (p : π) : WorkStore π :=
  { s with locks := fun m => if s.locks m = some p then none else s.locks m }

/-- A booking on a slot made for it, or on a class session that is there (`create_booking_core`). -/
inductive BookOne (member : Id) : WorkStore π → WorkBooking → WorkStore π → Prop
  | own {s b startsAt capacity recurrence} (hb : ∀ b' ∈ s.bookings, b'.id ≠ b.id) (ho : b.status.open = true)
      (hs : s.slots b.slotId = none) :
      BookOne member s b
        { s with
          slots := Function.update s.slots b.slotId (some ⟨member, startsAt, .scheduled, capacity, recurrence⟩)
          bookings := s.bookings ++ [b] }
  | session {s b x} (hb : ∀ b' ∈ s.bookings, b'.id ≠ b.id) (ho : b.status.open = true)
      (hs : s.slots b.slotId = some x) (hm : x.staffId = member) (hx : x.status ≠ .canceled) (hc : 1 < x.capacity) :
      BookOne member s b { s with bookings := s.bookings ++ [b] }

/-! ## What a removal writes -/

/-- The visits that are open once their rows are locked. -/
def liveVisits (s : WorkStore π) (visits : List Id) : List WorkBooking :=
  s.bookings.filter fun b => decide (b.id ∈ visits) && b.status.open

/-- A visit's slot is given up when no booking is left on it and no schedule keeps it
(`release_slot`). -/
def releasesSlot (s : WorkStore π) (slot : Id) (x : WorkSlot) : Bool :=
  decide (∀ b ∈ s.bookings, b.slotId = slot → b.status = .canceled) &&
    !s.series.any fun r => decide (x.recurrenceId = some r.id) && r.clientId.isNone

/-- The visits are canceled, their slots released, the schedules' sessions canceled, and the series
stop. -/
def cancelVisits (s : WorkStore π) (member : Id) (visits : List Id) (sessions : Id → Bool) : WorkStore π :=
  let live := s.liveVisits visits
  let s' := { s with bookings := s.bookings.map fun b => if b ∈ live then { b with status := .canceled } else b }
  { s' with
    slots := fun slot => (s.slots slot).map fun x =>
      if (live.any (fun b => decide (b.slotId = slot)) && s'.releasesSlot slot x) || sessions slot then
        { x with status := .canceled } else x
    series := s.series.map fun r => if r.staffId = member then { r with active := false } else r }

/-- The slots that are given to other members one by one. -/
def ownSlot (s : WorkStore π) (visits schedules : List Id) (slot : Id) : Bool :=
  (s.liveVisits visits).any (fun b => decide (b.slotId = slot)) &&
    match s.slots slot with
    | some x => !x.recurrenceId.any fun r => decide (r ∈ schedules)
    | none => false

/-- Who takes a slot: the first candidate that is free for it (`_reassign`). -/
def taker (candidates : List Id) (free : Id → Id → Bool) (slot : Id) : Option Id :=
  candidates.find? fun c => free c slot

/-- The sessions go to the member who takes their schedule, and the other slots each to the one who
takes it, if there is one; a client's series follows its visits or stops. -/
def reassignVisits (s : WorkStore π) (member : Id) (candidates visits schedules : List Id) (sessions : Id → Bool)
    (free : Id → Id → Bool) (schedule : Id → Id) (follow : Id → Option Id) : WorkStore π :=
  { s with
    slots := fun slot => (s.slots slot).map fun x =>
      if sessions slot then { x with staffId := (x.recurrenceId.map schedule).getD x.staffId }
      else if s.ownSlot visits schedules slot then { x with staffId := (taker candidates free slot).getD x.staffId }
      else x
    series := s.series.map fun r =>
      if r.id ∈ schedules then { r with staffId := schedule r.id }
      else if r.staffId = member then { r with staffId := (follow r.id).getD member, active := (follow r.id).isSome }
      else r }

/-- The visits that nobody takes. -/
def leftVisits (s : WorkStore π) (candidates visits schedules : List Id) (free : Id → Id → Bool) : List Id :=
  ((s.liveVisits visits).filter fun b =>
    s.ownSlot visits schedules b.slotId && (taker candidates free b.slotId).isNone).map (·.id)

/-- The member leaves, and what they left is reported. -/
def removeMember [DecidableEq π] (s : WorkStore π) (p : π) (member : Id) (left : List Id) : WorkStore π :=
  { s with
    members := Function.update s.members member .removed
    locks := fun m => if s.locks m = some p then none else s.locks m
    removals := s.removals ++ [⟨member, left⟩] }

end WorkStore

/-! ## Transactions -/

/-- A transaction with what it read before its locks: who is booked; the visit that moves, its slot's
member then, the member and time it moves to; who is removed, and who may take their work. -/
inductive WorkCommand where
  | create (member : Id)
  | patch (booking slot held staff : Id) (startsAt : Int)
  | remove (member : Id) (future : FutureChoice) (candidates : List Id)
  deriving DecidableEq, Repr

/-- The members whose locks it takes, in order (`lock_staff`). -/
def WorkCommand.lockOrder (c : WorkCommand) : List Id :=
  let members := match c with
    | .create member => [member]
    | .patch _ _ held staff _ => [held, staff]
    | .remove member _ candidates => member :: candidates
  members.dedup.insertionSort (· ≤ ·)

/-- Where a transaction is: it takes locks, or a removal has read the member's visits, schedules and
sessions.  `since` is not in the code: how many removals had committed when it read who is active. -/
inductive WorkPlace where
  | idle
  | locking (c : WorkCommand) (since : Nat) (todo : List Id)
  | settling (member : Id) (future : FutureChoice) (candidates : List Id) (since : Nat) (visits schedules : List Id)
      (sessions : Id → Bool)

/-- Whom a transaction gives visits to. -/
def WorkCommand.gives : WorkCommand → Id → Prop
  | .create member, m => m = member
  | .patch _ _ _ staff _, m => m = staff
  | .remove _ _ candidates, m => m ∈ candidates

def WorkPlace.gives : WorkPlace → Id → Prop
  | .idle, _ => False
  | .locking c _ _, m => c.gives m
  | .settling _ _ candidates _ _ _ _, m => m ∈ candidates

/-- How many removals had committed when a transaction found active whom it gives visits to.  A move
that leaves a visit with its member never asks. -/
def WorkPlace.checked : WorkPlace → Nat
  | .idle => 0
  | .locking (.patch _ _ held staff _) since _ => if staff = held then 0 else since
  | .locking _ since _ => since
  | .settling _ _ _ since _ _ _ => since

open WorkStore in
inductive WorkStep {π : Type} [DecidableEq π] (p : π) : WorkStore π → WorkPlace → WorkStore π → WorkPlace → Prop
  | tick {s now} (h : s.clock ≤ now) : WorkStep p s .idle { s with clock := now } .idle
  /-- A visit is completed, canceled or missed. -/
  | close {s booking status} (h : status.open = false) :
      WorkStep p s .idle
        { s with bookings := s.bookings.map fun b => if b.id = booking then { b with status := status } else b } .idle
  | create {s member} (hm : s.members member = .active) :
      WorkStep p s .idle s (.locking (.create member) s.removals.length (WorkCommand.create member).lockOrder)
  /-- `_target`: the member asked for, or the slot's own, whose standing nobody asks. -/
  | patch {s b x staff startsAt} (hb : b ∈ s.bookings) (ho : b.status.open = true) (hx : s.slots b.slotId = some x)
      (ht : staff ≠ x.staffId → s.members staff = .active ∧ x.capacity ≤ 1)
      (hs : startsAt ≠ x.startsAt → x.capacity ≤ 1 ∧ s.clock ≤ startsAt) :
      WorkStep p s .idle s (.locking (.patch b.id b.slotId x.staffId staff startsAt) s.removals.length
        (WorkCommand.patch b.id b.slotId x.staffId staff startsAt).lockOrder)
  /-- `_member` and `_takers`. -/
  | remove {s member future candidates} (hm : s.members member = .active)
      (hc : ∀ c ∈ candidates, c ≠ member ∧ s.members c = .active) :
      WorkStep p s .idle s (.locking (.remove member future candidates) s.removals.length
        (WorkCommand.remove member future candidates).lockOrder)
  | lock {s c since m todo} (hl : s.locks m = none) :
      WorkStep p s (.locking c since (m :: todo)) { s with locks := Function.update s.locks m (some p) }
        (.locking c since todo)
  /-- One visit, or those of a series. -/
  | created {s s' member since bookings} (h : Run (BookOne member) s bookings s') :
      WorkStep p s (.locking (.create member) since []) (s'.release p) .idle
  | patched {s b slot held staff startsAt since x} (hb : b ∈ s.bookings) (ho : b.status.open = true)
      (hx : s.slots slot = some x) :
      WorkStep p s (.locking (.patch b.id slot held staff startsAt) since [])
        (({ s with slots := Function.update s.slots slot (some { x with staffId := staff, startsAt := startsAt }) } :
          WorkStore π).release p) .idle
  | read {s member future candidates since} (h : future = .refuse → s.futureVisits member = [] ∧ s.activeSeries member = []) :
      WorkStep p s (.locking (.remove member future candidates) since []) s
        (.settling member future candidates since ((s.futureVisits member).map (·.id))
          (((s.activeSeries member).filter (·.clientId.isNone)).map (·.id))
          (s.sessionOf (((s.activeSeries member).filter (·.clientId.isNone)).map (·.id))))
  | refused {s member candidates since visits schedules sessions} :
      WorkStep p s (.settling member .refuse candidates since visits schedules sessions) (s.removeMember p member []) .idle
  | canceled {s member candidates since visits schedules sessions} :
      WorkStep p s (.settling member .cancel candidates since visits schedules sessions)
        ((s.cancelVisits member visits sessions).removeMember p member []) .idle
  | reassigned {s member candidates since visits schedules sessions free schedule follow}
      (hs : ∀ r ∈ schedules, schedule r ∈ candidates) (hf : ∀ r c, follow r = some c → c ∈ candidates) :
      WorkStep p s (.settling member .reassign candidates since visits schedules sessions)
        ((s.reassignVisits member candidates visits schedules sessions free schedule follow).removeMember p member
          (s.leftVisits candidates visits schedules free)) .idle
  | rollback {s x} : WorkStep p s x (s.release p) .idle

/-! ## Work ahead -/

/-- A booking is an open visit on a scheduled slot that a member has ahead of them. -/
structure VisitAhead {π : Type} (s : WorkStore π) (member : Id) (b : WorkBooking) (x : WorkSlot) : Prop where
  booking : b ∈ s.bookings
  «open» : b.status.open = true
  slot : s.slots b.slotId = some x
  staff : x.staffId = member
  scheduled : x.status = .scheduled
  ahead : s.clock < x.startsAt

def HasAhead {π : Type} (s : WorkStore π) (member booking : Id) : Prop :=
  ∃ b x, VisitAhead s member b x ∧ b.id = booking

/-- A step, and no removal of a member to whom it gives a visit they did not have ahead of them
commits between its read that they are active and its write; where it never reads that, no removal
of the member had committed. -/
def GivenStep {π : Type} [DecidableEq π] (w : World π (WorkStore π) WorkPlace) (p : π)
    (w' : World π (WorkStore π) WorkPlace) : Prop :=
  Interleaved WorkStep w p w' ∧ ∀ member booking, HasAhead w'.store member booking →
    ¬HasAhead w.store member booking → ∀ e ∈ w.store.removals.drop (w.place p).checked, e.member ≠ member

end ClientBridge
