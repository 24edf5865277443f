import ClientBridge.Business.Removals
import ClientBridge.Ledger.Store

/-!
# The time to pay a deposit

An online booking whose deposit stays unpaid is released by a job, thirty minutes after it was
made.  The job locks the booking and its deposits, cancels each open payment at Stripe, and keeps
the booking when one has gone through.  A payment that settles reads the booking without its
lock and writes the deposit's status afterwards.
-/

namespace ClientBridge

open Runs

inductive DepositStatus where
  | none | pending | collected | applied | forfeited | refunded
  deriving DecidableEq, Repr

/-- An online booking with a deposit; its rows carry the time their transaction began. -/
structure OnlineBooking where
  status : BookingStatus
  depositStatus : DepositStatus
  createdAt : Int
  startsAt : Int
  deriving DecidableEq, Repr

/-- A deposit payment, whether it settled (`paid_at`), and whether a refund of it was made. -/
structure DepositPayment where
  ref : Id
  status : PaymentStatus
  paid : Bool
  refunded : Bool
  deriving DecidableEq, Repr

/-- A payment at Stripe. -/
inductive IntentState where
  | «open» | succeeded | canceled
  deriving DecidableEq, Repr

/-- `_UNPAID_TTL`, in seconds. -/
def unpaidTtl : Int := 30 * 60

/-- Whether a booking holds a seat. -/
def BookingStatus.seated : BookingStatus → Bool
  | .pending | .confirmed => true
  | _ => false

/-- `_deposit_due`. -/
def OnlineBooking.depositDue (b : OnlineBooking) : Bool := b.status.seated && decide (b.depositStatus = .pending)

/-- What the job asks of a booking (`due`); `now` is when the job began. -/
def OnlineBooking.due (b : OnlineBooking) (deposits : List DepositPayment) (now : Int) : Bool :=
  decide (b.depositStatus = .pending) && b.status.seated && decide (b.createdAt < now - unpaidTtl) &&
    decide (now < b.startsAt) && !deposits.isEmpty && !deposits.any fun d => decide (d.status = .succeeded)

/-- `seat_booking`. -/
def OnlineBooking.seat (b : OnlineBooking) : OnlineBooking := { b with status := .confirmed, depositStatus := .pending }

/-- What a settled deposit makes of the visit that was read (`settle_deposit`), and whether it goes
back. -/
def OnlineBooking.settled (seen : OnlineBooking) : DepositStatus × Bool :=
  if seen.status = .canceled ∨ seen.status = .completed ∧ seen.depositStatus = .none then (.collected, true)
  else if seen.status = .noShow then (.forfeited, false)
  else (.collected, false)

/-- A release by the job: when the run began, and the deposits that had settled by then. -/
structure DepositRelease where
  now : Int
  settled : List Id
  deriving DecidableEq, Repr

/-- The committed rows, the row locks, the payments at Stripe and the time; when the booking first
held a seat, when its first deposit payment was opened, and its release. -/
structure DepositStore (π : Type) where
  booking : Option OnlineBooking
  deposits : List DepositPayment
  refundPending : Bool
  bookingLock : Option π
  depositLocks : Id → Option π
  intents : Id → Option IntentState
  clock : Int
  seatedAt : Option Int
  openedAt : Option Int
  released : Option DepositRelease

namespace DepositStore

variable {π : Type}

def setDeposit (s : DepositStore π) (ref : Id) (f : DepositPayment → DepositPayment) : DepositStore π :=
  { s with deposits := s.deposits.map fun d => if d.ref = ref then f d else d }

/-- The payments that were canceled are marked so. -/
def markCanceled (s : DepositStore π) (refs : List Id) : DepositStore π :=
  { s with deposits := s.deposits.map fun d => if d.ref ∈ refs then { d with status := .canceled } else d }

def openRefs (s : DepositStore π) : List Id :=
  (s.deposits.filter fun d => decide (d.status = .pending ∨ d.status = .failed)).map (·.ref)

variable [DecidableEq π]

def lockDeposits (s : DepositStore π) (p : π) (refs : List Id) : DepositStore π :=
  { s with depositLocks := fun r => if r ∈ refs then some p else s.depositLocks r }

def release (s : DepositStore π) (p : π) : DepositStore π :=
  { s with
    bookingLock := if s.bookingLock = some p then none else s.bookingLock
    depositLocks := fun r => if s.depositLocks r = some p then none else s.depositLocks r }

/-- The settled deposits go back in full, unless a refund of the booking is pending
(`refund_deposit`). -/
def refundDeposits (s : DepositStore π) (pending : Bool) : DepositStore π :=
  if s.refundPending then s
  else { s with
    deposits := s.deposits.map fun d => if d.status = .succeeded then { d with refunded := true } else d
    refundPending := pending }

/-- What a settlement writes, from the booking it read. -/
def settleDeposit (s : DepositStore π) (b seen : OnlineBooking) (pending : Bool) : DepositStore π :=
  let s' := { s with booking := some { b with depositStatus := seen.settled.1 } }
  if seen.settled.2 then s'.refundDeposits pending else s'

/-- The booking is released; its unpaid deposit is no longer due. -/
def releaseBooking (s : DepositStore π) (b : OnlineBooking) (now : Int) (done : List Id) : DepositStore π :=
  { s.markCanceled done with
    booking := some { b with status := .canceled, depositStatus := .none }
    released := some ⟨now, (s.deposits.filter (·.paid)).map (·.ref)⟩ }

def openDeposit (s : DepositStore π) (time : Int) (ref : Id) (done : List Id) : DepositStore π :=
  { s.markCanceled done with
    deposits := (s.markCanceled done).deposits ++ [⟨ref, .pending, false, false⟩]
    openedAt := some (s.openedAt.getD time) }

/-- The payment of an event, marked as settled or, when the table has no row for it, rebuilt
(`_payment_from_intent`). -/
def settlePayment (s : DepositStore π) (ref : Id) (rebuilt : Bool) : DepositStore π :=
  if rebuilt then
    { s with
      deposits := s.deposits ++ [⟨ref, .succeeded, true, false⟩]
      openedAt := some (s.openedAt.getD s.clock) }
  else s.setDeposit ref fun d => { d with status := .succeeded, paid := true }

def setIntent (s : DepositStore π) (ref : Id) (state : IntentState) : DepositStore π :=
  { s with intents := Function.update s.intents ref (some state) }

/-- When the client was first able to pay: seated, with a deposit payment opened. -/
def payableAt (s : DepositStore π) : Option Int :=
  s.seatedAt.bind fun t => s.openedAt.map fun t' => max t t'

end DepositStore

/-- What cancels open deposit payments: a new one that supersedes them, or the job. -/
inductive DepositCommand where
  | «open» (time : Int) (ref : Id)
  | reap (now : Int)
  deriving DecidableEq, Repr

/-- Where a transaction is: it books; opens a deposit payment; looks for what is due; cancels the
payments it has locked, one by one; settles a payment, and has read the booking; or marks a
payment as failed. -/
inductive DepositPlace where
  | idle
  | booking (time : Int) (status : BookingStatus) (ref : Option Id)
  | opening (time : Int)
  | created (time : Int) (ref : Id)
  | scanning (now : Int)
  | canceling (c : DepositCommand) (todo done : List Id) (ok : Bool)
  | paying (ref : Id)
  | locked (ref : Id)
  | settling (ref : Id) (rebuilt : Bool) (seen : OnlineBooking)
  | failing (ref : Id) (canceled : Bool)
  deriving DecidableEq, Repr

inductive DepositStep {π : Type} [DecidableEq π] (p : π) : DepositStore π → DepositPlace → DepositStore π → DepositPlace → Prop
  | tick {s now} (h : s.clock ≤ now) : DepositStep p s .idle { s with clock := now } .idle
  /-- A booking whose deposit payment is opened with it, or that has none yet. -/
  | book {s status ref} (hb : s.booking = none) (hs : status.seated = true) (hi : s.intents ref = none) :
      DepositStep p s .idle (s.setIntent ref .open) (.booking s.clock status (some ref))
  | bookPlain {s status} (hb : s.booking = none) (hs : status.open = true) :
      DepositStep p s .idle s (.booking s.clock status none)
  | booked {s time status ref startsAt} (hb : s.booking = none) :
      DepositStep p s (.booking time status ref)
        { s with
          booking := some ⟨status, .pending, time, startsAt⟩
          deposits := ref.toList.map fun ref => ⟨ref, .pending, false, false⟩
          seatedAt := if status.seated then some time else none
          openedAt := ref.map fun _ => time } .idle
  | seat {s b} (hb : s.booking = some b) (hw : b.status = .waitlisted) (hl : s.bookingLock = none) :
      DepositStep p s .idle { s with booking := some b.seat, seatedAt := some (s.seatedAt.getD s.clock) } .idle
  /-- `pay_deposit` locks the booking; a deposit taken by staff does not. -/
  | payDeposit {s b} (hb : s.booking = some b) (hd : b.depositDue = true) (hl : s.bookingLock = none) :
      DepositStep p s .idle { s with bookingLock := some p } (.opening s.clock)
  | collectDeposit {s b} (hb : s.booking = some b) : DepositStep p s .idle s (.opening s.clock)
  | create {s time ref} (hi : s.intents ref = none) :
      DepositStep p s (.opening time) (s.setIntent ref .open) (.created time ref)
  | supersede {s time ref} (hl : ∀ r ∈ s.openRefs, s.depositLocks r = none) :
      DepositStep p s (.created time ref) (s.lockDeposits p s.openRefs) (.canceling (.open time ref) s.openRefs [] true)
  /-- A saved card, charged while no deposit payment is open. -/
  | charge {s time ref} : DepositStep p s (.created time ref) s (.canceling (.open time ref) [] [] true)
  | cancel {s c r todo done ok} (hi : s.intents r ≠ some .succeeded) :
      DepositStep p s (.canceling c (r :: todo) done ok) (s.setIntent r .canceled) (.canceling c todo (done ++ [r]) ok)
  /-- Stripe does not cancel what has gone through. -/
  | refuse {s c r todo done ok} (hi : s.intents r = some .succeeded) :
      DepositStep p s (.canceling c (r :: todo) done ok) s (.canceling c todo done false)
  | opened {s time ref done} (hr : ∀ d ∈ s.deposits, d.ref ≠ ref) :
      DepositStep p s (.canceling (.open time ref) [] done true) ((s.openDeposit time ref done).release p) .idle
  | inProgress {s time ref done} (hi : s.intents ref ≠ some .succeeded) :
      DepositStep p s (.canceling (.open time ref) [] done false) ((s.setIntent ref .canceled).release p) .idle
  | scan {s} : DepositStep p s .idle s (.scanning s.clock)
  /-- The booking is due, and neither it nor one of its deposits is locked. -/
  | lockDue {s b now} (hb : s.booking = some b) (hd : b.due s.deposits now = true) (hl : s.bookingLock = none)
      (hf : ∀ d ∈ s.deposits, s.depositLocks d.ref = none) :
      DepositStep p s (.scanning now) { s.lockDeposits p (s.deposits.map (·.ref)) with bookingLock := some p }
        (.canceling (.reap now) s.openRefs [] true)
  | released {s b now done} (hb : s.booking = some b) :
      DepositStep p s (.canceling (.reap now) [] done true) ((s.releaseBooking b now done).release p) .idle
  | kept {s now done} : DepositStep p s (.canceling (.reap now) [] done false) ((s.markCanceled done).release p) .idle
  /-- What happens at Stripe. -/
  | pay {s ref} (hi : s.intents ref = some .open) : DepositStep p s .idle (s.setIntent ref .succeeded) .idle
  | lapse {s ref} (hi : s.intents ref = some .open) : DepositStep p s .idle (s.setIntent ref .canceled) .idle
  /-- `_settle_payment`: the payment is read, then written, and the booking read after it. -/
  | settle {s d} (hd : d ∈ s.deposits) (hs : d.status = .pending ∨ d.status = .failed)
      (hi : s.intents d.ref = some .succeeded) : DepositStep p s .idle s (.paying d.ref)
  | lockPayment {s ref} (hl : s.depositLocks ref = none) :
      DepositStep p s (.paying ref) (s.lockDeposits p [ref]) (.locked ref)
  | readBooking {s ref b} (hb : s.booking = some b) : DepositStep p s (.locked ref) s (.settling ref false b)
  /-- An event of a payment without a row; the booking is read for the row. -/
  | rebuild {s ref b} (hr : ∀ d ∈ s.deposits, d.ref ≠ ref) (hi : s.intents ref = some .succeeded)
      (hb : s.booking = some b) : DepositStep p s .idle s (.settling ref true b)
  | settled {s ref rebuilt seen b pending} (hb : s.booking = some b) (hl : s.bookingLock = none)
      (hr : rebuilt = true → ∀ d ∈ s.deposits, d.ref ≠ ref) :
      DepositStep p s (.settling ref rebuilt seen) (((s.settlePayment ref rebuilt).settleDeposit b seen pending).release p) .idle
  /-- `_fail_payment` reads the payment without its lock. -/
  | fail {s d canceled} (hd : d ∈ s.deposits) (hs : d.status = .pending)
      (hi : canceled = true → s.intents d.ref = some .canceled) : DepositStep p s .idle s (.failing d.ref canceled)
  | failed {s ref canceled} (hl : s.depositLocks ref = none) :
      DepositStep p s (.failing ref canceled)
        (s.setDeposit ref fun d => { d with status := if canceled then .canceled else .failed }) .idle
  | refundEnds {s} : DepositStep p s .idle { s with refundPending := false } .idle
  /-- The booking is completed, missed or canceled otherwise. -/
  | close {s b status depositStatus} (hb : s.booking = some b) (ho : b.status.open = true) (hs : status.open = false)
      (hl : s.bookingLock = none) :
      DepositStep p s .idle { s with booking := some { b with status := status, depositStatus := depositStatus } } .idle
  | rollback {s x} : DepositStep p s x (s.release p) .idle

/-- A step; a booking that is released had its seat and a deposit payment when it was made, and a
payment that settles on a canceled booking read it as canceled while no refund of it is pending. -/
def WindowStep {π : Type} [DecidableEq π] (w : World π (DepositStore π) DepositPlace) (p : π)
    (w' : World π (DepositStore π) DepositPlace) : Prop :=
  Interleaved DepositStep w p w' ∧
  (w'.store.released ≠ w.store.released → ∀ b t, w.store.booking = some b → w.store.payableAt = some t → t ≤ b.createdAt) ∧
  ∀ ref rebuilt seen b, w.place p = .settling ref rebuilt seen → w'.store.deposits ≠ w.store.deposits →
    w.store.booking = some b → b.status = .canceled → seen.status = .canceled ∧ w.store.refundPending = false

end ClientBridge
