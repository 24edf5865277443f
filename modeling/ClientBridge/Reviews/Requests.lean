import ClientBridge.Business.Removals
import ClientBridge.Library.Interleave

/-!
# Requests for a review

A manager asks a client for a review (`request_review`), and a job asks those whose visits were completed
in the last week (`run_review_requests`).  Both hold the business's lock from before they read the
requests until they commit.  A command reads the clock under the lock; the job reads it when it starts,
and may wait for the lock after.
-/

namespace ClientBridge

open Runs

/-- Instants and spans are counted in microseconds. -/
def requestCooldown : Int := 30 * 24 * 60 * 60 * 1000000

/-- How long after a visit the job still asks. -/
def requestWindow : Int := 7 * 24 * 60 * 60 * 1000000

structure ReviewRequest where
  clientId : Id
  bookingId : Option Id
  requestedAt : Int
  deriving DecidableEq, Repr

structure ReviewClient where
  id : Id
  active : Bool
  deleted : Bool
  deriving DecidableEq, Repr

structure ReviewBooking where
  id : Id
  clientId : Id
  status : BookingStatus
  completedAt : Option Int
  deleted : Bool
  deriving DecidableEq, Repr

/-- What a manager asks for. -/
structure ReviewRequestCreate where
  clientId : Id
  bookingId : Option Id
  deriving DecidableEq, Repr

inductive ReviewError where
  | reconnectRequired | clientNotFound | clientArchived | bookingNotFound | notCompleted | alreadyRequested
  | recentlyRequested
  deriving DecidableEq, Repr

def ReviewError.message : ReviewError → String
  | .reconnectRequired => "connect a Google profile before requesting reviews"
  | .clientNotFound => "client not found"
  | .clientArchived => "restore this client before starting new work"
  | .bookingNotFound => "booking not found"
  | .notCompleted => "only a completed booking can be requested"
  | .alreadyRequested => "a review was already requested for that booking"
  | .recentlyRequested => "a review was requested from this client in the last 30 days"

/-- A business's rows, the link it invites with, and the lock. -/
structure ReviewStore (π : Type) where
  requests : List ReviewRequest
  clients : List ReviewClient
  bookings : List ReviewBooking
  link : Option String
  enabled : Bool
  lock : Option π
  clock : Int

namespace ReviewStore

variable {π : Type}

def recentlyAsked (s : ReviewStore π) (now : Int) : List Id :=
  (s.requests.filter fun r => decide (now - requestCooldown < r.requestedAt) && decide (r.requestedAt ≤ now)).map
    ReviewRequest.clientId

/-- The checks of `request_review` before it reads the clock. -/
def check (s : ReviewStore π) (data : ReviewRequestCreate) : Except ReviewError Unit :=
  if s.link = none then .error .reconnectRequired
  else
    match s.clients.find? fun c => decide (c.id = data.clientId) && !c.deleted with
    | none => .error .clientNotFound
    | some client =>
      if client.active = false then .error .clientArchived
      else
        match data.bookingId with
        | none => .ok ()
        | some id =>
          match s.bookings.find? fun b => decide (b.id = id) && !b.deleted with
          | none => .error .bookingNotFound
          | some booking =>
            if booking.clientId ≠ data.clientId then .error .bookingNotFound
            else if booking.status ≠ .completed then .error .notCompleted
            else if s.requests.any fun r => decide (r.bookingId = some booking.id) then .error .alreadyRequested
            else .ok ()

/-- The visits a pass would ask for, latest first; rows that are locked are skipped. -/
def dueBookings (s : ReviewStore π) (now : Int) (skipped : Id → Bool) : List ReviewBooking :=
  (s.bookings.filter fun b =>
    !b.deleted && decide (b.status = .completed) &&
      b.completedAt.any (fun t => decide (now - requestWindow ≤ t) && decide (t ≤ now)) &&
      !(s.requests.any fun r => decide (r.bookingId = some b.id)) &&
      (s.clients.any fun c => decide (c.id = b.clientId) && !c.deleted && c.active) && !skipped b.id).insertionSort
    fun a b => b.completedAt.getD 0 < a.completedAt.getD 0 ∨ (a.completedAt.getD 0 = b.completedAt.getD 0 ∧ a.id ≤ b.id)

end ReviewStore

/-- The loop of a pass: one request for each client not asked yet. -/
def askEach (now : Int) : List ReviewBooking → List Id → List ReviewRequest
  | [], _ => []
  | b :: due, asked =>
    if b.clientId ∈ asked then askEach now due asked
    else { clientId := b.clientId, bookingId := some b.id, requestedAt := now } :: askEach now due (b.clientId :: asked)

namespace ReviewStore

variable {π : Type} [DecidableEq π]

/-- The lock is let go, as a commit or a rollback does. -/
def release (s : ReviewStore π) (p : π) : ReviewStore π := { s with lock := if s.lock = some p then none else s.lock }

def ask (s : ReviewStore π) (p : π) (data : ReviewRequestCreate) (now : Int) : ReviewStore π :=
  { s with requests := s.requests ++ [ReviewRequest.mk data.clientId data.bookingId now] }.release p

def askAll (s : ReviewStore π) (p : π) (now : Int) (due : List ReviewBooking) : ReviewStore π :=
  { s with requests := s.requests ++ askEach now due (s.recentlyAsked now) }.release p

end ReviewStore

/-- Where a command or a pass is. -/
inductive ReviewPlace where
  | idle
  | requesting (data : ReviewRequestCreate)
  | holding (data : ReviewRequestCreate)
  | checked (data : ReviewRequestCreate)
  | stamped (data : ReviewRequestCreate) (now : Int)
  | passing (now : Int)
  | passHolding (now : Int)
  | passRead (now : Int) (due : List ReviewBooking)
  deriving DecidableEq, Repr

/-- A step of a command or of a pass, the time, or any other change of the business's rows. -/
inductive ReviewStep {π : Type} [DecidableEq π] (p : π) :
    ReviewStore π → ReviewPlace → ReviewStore π → ReviewPlace → Prop
  | tick {s x now} (h : s.clock ≤ now) : ReviewStep p s x { s with clock := now } x
  | change {s x clients bookings link enabled} (h : (bookings.map ReviewBooking.id).Nodup) :
      ReviewStep p s x { s with clients := clients, bookings := bookings, link := link, enabled := enabled } x
  | request {s data} : ReviewStep p s .idle s (.requesting data)
  | lock {s data} (hl : s.lock = none) : ReviewStep p s (.requesting data) { s with lock := some p } (.holding data)
  | refuse {s data e} (h : s.check data = .error e) : ReviewStep p s (.holding data) (s.release p) .idle
  | check {s data} (h : s.check data = .ok ()) : ReviewStep p s (.holding data) s (.checked data)
  | stamp {s data} : ReviewStep p s (.checked data) s (.stamped data s.clock)
  | recent {s data now} (h : data.clientId ∈ s.recentlyAsked now) :
      ReviewStep p s (.stamped data now) (s.release p) .idle
  | ask {s data now} (h : data.clientId ∉ s.recentlyAsked now) :
      ReviewStep p s (.stamped data now) (s.ask p data now) .idle
  | pass {s} : ReviewStep p s .idle s (.passing s.clock)
  /-- The plan has lapsed, or requests are turned off. -/
  | skip {s now} (h : s.enabled = false) : ReviewStep p s (.passing now) s .idle
  | passLock {s now} (h : s.enabled = true) (hl : s.lock = none) :
      ReviewStep p s (.passing now) { s with lock := some p } (.passHolding now)
  | unlinked {s now} (h : s.link = none) : ReviewStep p s (.passHolding now) (s.release p) .idle
  | select {s now skipped} (h : s.link ≠ none) :
      ReviewStep p s (.passHolding now) s (.passRead now (s.dueBookings now skipped))
  | askAll {s now due} : ReviewStep p s (.passRead now due) (s.askAll p now due) .idle
  /-- A crash, or a rollback. -/
  | rollback {s x} : ReviewStep p s x (s.release p) .idle

/-- None of the clients a pass is about to ask was asked after the pass's own instant. -/
def PassInTime {π : Type} (s : ReviewStore π) (now : Int) (due : List ReviewBooking) : Prop :=
  ∀ b ∈ due, b.clientId ∉ s.recentlyAsked now → ∀ r ∈ s.requests, r.clientId = b.clientId →
    ¬(now < r.requestedAt ∧ r.requestedAt < now + requestCooldown)

/-- A step; a pass that writes is in time. -/
structure TimelyReview {π : Type} [DecidableEq π] (p : π) (s : ReviewStore π) (x : ReviewPlace) (s' : ReviewStore π)
    (x' : ReviewPlace) : Prop where
  step : ReviewStep p s x s' x'
  timely : ∀ now due, x = .passRead now due → s'.requests ≠ s.requests → PassInTime s now due

/-! ## What is asked for -/

/-- Two requests of one client are at least the cooldown apart. -/
def ReviewRequest.Apart (a b : ReviewRequest) : Prop :=
  a.clientId = b.clientId → requestCooldown ≤ a.requestedAt - b.requestedAt ∨ requestCooldown ≤ b.requestedAt - a.requestedAt

/-- Two requests are not for one booking. -/
def ReviewRequest.Distinct (a b : ReviewRequest) : Prop := a.bookingId = b.bookingId → a.bookingId = none

/-- Nobody is at work, the requests were made before now, no booking has two, and rows have their own keys. -/
structure ReviewsQuiet {π : Type} (w : World π (ReviewStore π) ReviewPlace) : Prop where
  idle : ∀ p, w.place p = .idle
  unlocked : w.store.lock = none
  made : ∀ r ∈ w.store.requests, r.requestedAt ≤ w.store.clock
  distinct : w.store.requests.Pairwise ReviewRequest.Distinct
  keys : (w.store.bookings.map ReviewBooking.id).Nodup

end ClientBridge
