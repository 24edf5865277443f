import ClientBridge.Billing.Visits
import ClientBridge.Ledger.Settlement
import ClientBridge.Library.Runs

/-!
# The sessions of a package

A package is paid up front and its revenue deferred.  Every session used recognizes its share, the
last one what is left, and expiry what was never used.  A session is a consumption journal: numbered
when it was consumed by hand, named after the visit when it covered one.
-/

namespace ClientBridge

open Bookkeeping Runs

inductive PackageStatus where
  | active | used | expired | canceled | pending
  deriving DecidableEq, Repr

structure PackageRow where
  id : Id
  clientId : Id
  subjectId : Option Id
  sessionsTotal : Nat
  status : PackageStatus
  expiresAt : Option Int
  sessions_pos : 0 < sessionsTotal

inductive DepositState where
  | none | pending | collected | applied | refunded | forfeited
  deriving DecidableEq, Repr

/-- A visit as a package reads it; `billed` when it points at an invoice that is not void. -/
structure CoveredVisit where
  clientId : Id
  subjectId : Option Id
  itemId : Id
  startsAt : Int
  status : VisitStatus
  orderId : Option Id
  charged : Bool
  billed : Bool
  deposit : DepositState
  packageId : Option Id
  completedAt : Option Int
  deriving DecidableEq, Repr

/-! ## What the ledger reads -/

/-- What an entity's own liability account still holds. -/
def owned (L : Ledger) (owner : Owner) (category : Category) : Int := -balance L ⟨owner, category, .plain⟩

def consumptionOf (L : Ledger) (packageId : Id) (j : LedgerJournal) : Bool :=
  decide (j.info.event = .consumption) && settled L j && j.legs.any fun e => decide (e.tag = some (.package packageId))

/-- Each consumed session is one consumption journal on the package. -/
def sessionsUsed (L : Ledger) (packageId : Id) : Nat := (L.filter (consumptionOf L packageId)).length

/-- The deferred revenue the package was bought for. -/
def paidDeferred (L : Ledger) (packageId : Id) : Int :=
  -L.sum fun j e => decide (e.tag = some (.package packageId)) && decide (e.key.category = .deferred) &&
    decide (j.info.event = .payment)

/-! ## Sessions and breakage -/

/-- One used session's share of the prepaid revenue; the last takes the rest. -/
def sessionShare (L : Ledger) (package : PackageRow) : Int :=
  let used := sessionsUsed L package.id + 1
  let remaining := owned L (.package package.id) .deferred
  if package.sessionsTotal ≤ used then remaining
  else min remaining (paidDeferred L package.id / package.sessionsTotal)

def consumptionPosting (packageId : Id) (bookingId : Option Id) (used : Nat) (share : Int) : Posting where
  event := .consumption
  ref := match bookingId with
    | some bookingId => .visitConsumption packageId bookingId
    | none => .consumption packageId used
  legs := [leg (.package packageId) .deferred share, leg .business .revenue (-share)]
  source := bookingId.map .booking
  subject := some (.package packageId)
  keepZero := true

/-- Recognize one used session's share of prepaid package revenue. -/
def postConsumption (L : Ledger) (package : PackageRow) (booking : Option (Id × CoveredVisit)) :
    Except Error (Ledger × Int) :=
  if booking.any fun b => !decide (b.2.clientId = package.clientId ∧ b.2.packageId = some package.id ∧
      b.2.status = .completed) then
    .error (.valueError "package consumption needs its completed owned booking")
  else do
    let share := sessionShare L package
    let L ← post L (consumptionPosting package.id (booking.map (·.1)) (sessionsUsed L package.id + 1) share)
    return (L, share)

def breakagePosting (owner : Owner) (subject : Subject) (ownerId : Id) (category : Category) (unused : Int) : Posting where
  event := .breakage
  ref := .breakage ownerId
  legs := [leg owner category unused, leg .business .revenue (-unused)]
  subject := some subject

/-- Recognize the unspent balance of an expired gift card or package as revenue. -/
def postBreakage (L : Ledger) (owner : Owner) (subject : Subject) (ownerId : Id) (category : Category) :
    Except Error Ledger :=
  post L (breakagePosting owner subject ownerId category (owned L owner category))

/-! ## The commands -/

structure PackageBooks where
  ledger : Ledger
  package : PackageRow
  visits : Id → CoveredVisit

namespace PackageBooks

def withStatus (s : PackageBooks) (status : PackageStatus) : PackageBooks :=
  { s with package := { s.package with status := status } }

def withVisit (s : PackageBooks) (bookingId : Id) (v : CoveredVisit) : PackageBooks :=
  { s with visits := Function.update s.visits bookingId v }

/-- What a session leaves: its journal, and a package with nothing left is used. -/
def afterSession (s : PackageBooks) (L : Ledger) : PackageBooks :=
  let s' := { s with ledger := L }
  if s.package.sessionsTotal ≤ sessionsUsed s.ledger s.package.id + 1 then s'.withStatus .used else s'

@[simp] theorem afterSession_ledger (s : PackageBooks) (L : Ledger) : (s.afterSession L).ledger = L := by
  unfold afterSession
  dsimp only
  split <;> rfl

@[simp] theorem afterSession_visits (s : PackageBooks) (L : Ledger) : (s.afterSession L).visits = s.visits := by
  unfold afterSession
  dsimp only
  split <;> rfl

@[simp] theorem afterSession_id (s : PackageBooks) (L : Ledger) : (s.afterSession L).package.id = s.package.id := by
  unfold afterSession
  dsimp only
  split <;> rfl

@[simp] theorem afterSession_sessionsTotal (s : PackageBooks) (L : Ledger) :
    (s.afterSession L).package.sessionsTotal = s.package.sessionsTotal := by
  unfold afterSession
  dsimp only
  split <;> rfl

theorem afterSession_status (s : PackageBooks) (L : Ledger) : (s.afterSession L).package.status =
    if s.package.sessionsTotal ≤ sessionsUsed s.ledger s.package.id + 1 then .used else s.package.status := by
  unfold afterSession
  dsimp only
  split <;> rfl

end PackageBooks

def consumeSession (s : PackageBooks) : Except Error PackageBooks :=
  if s.package.status ≠ .active then .error (.conflict "only an active package can be consumed")
  else if s.package.sessionsTotal ≤ sessionsUsed s.ledger s.package.id then
    .error (.conflict "no sessions left on this package")
  else do
    let (L, _) ← postConsumption s.ledger s.package none
    return s.afterSession L

/-- A package or membership covers an open, unbilled visit once it has started. -/
def assertVisitCoverable (v : CoveredVisit) (now : Int) : Except Error Unit :=
  if v.status ≠ .confirmed ∨ v.orderId ≠ none ∨ v.charged ∨ v.billed then
    .error (.conflict "only an open visit that isn't billed can be covered")
  else if v.deposit = .collected then .error (.conflict "refund or apply this visit's deposit before covering it")
  else if now < v.startsAt then .error (.conflict "a visit is covered once it has started")
  else .ok ()

/-- A covered visit needs no deposit, so an unpaid one is canceled first; `canceled` says whether the
gateway still could. -/
def releasePendingDeposit (v : CoveredVisit) (canceled : Bool) : Except Error CoveredVisit :=
  if v.deposit ≠ .pending then .ok v
  else if canceled then .ok { v with deposit := .none }
  else .error (.conflict "this visit's deposit has just been paid")

/-- What a package may cover: its client's visits, of its service and subject, while it is active.
`covers` is the service the package's item is for, if it is for one. -/
def assertCovers (s : PackageBooks) (v : CoveredVisit) (covers : Option Id) (now : Int) : Except Error Unit :=
  if s.package.clientId ≠ v.clientId ∨ covers.any (fun item => decide (item ≠ v.itemId)) then
    .error (.conflict "this package is for another client or service")
  else if s.package.subjectId.isSome ∧ s.package.subjectId ≠ v.subjectId then
    .error (.unprocessable "this package is for another of the client's subjects")
  else if s.package.status ≠ .active ∨ s.package.expiresAt.any (fun e => decide (e ≤ now)) then
    .error (.conflict "only an active package can cover a visit")
  else if s.package.sessionsTotal ≤ sessionsUsed s.ledger s.package.id then
    .error (.conflict "no sessions left on this package")
  else .ok ()

/-- Settle a started visit with one of the client's package sessions, completing it. -/
def coverVisit (s : PackageBooks) (bookingId : Id) (covers : Option Id) (now : Int) (canceled : Bool) :
    Except Error PackageBooks := do
  assertVisitCoverable (s.visits bookingId) now
  assertCovers s (s.visits bookingId) covers now
  let v ← releasePendingDeposit (s.visits bookingId) canceled
  let v := { v with packageId := some s.package.id, status := .completed, completedAt := some now }
  let (L, _) ← postConsumption s.ledger s.package (some (bookingId, v))
  return (s.withVisit bookingId v).afterSession L

/-- The sweep of one package past its date (`run_expiry_sweeps`). -/
def expirePackage (s : PackageBooks) (now : Int) : Except Error PackageBooks :=
  if s.package.status = .active ∧ s.package.expiresAt.any (fun e => decide (e < now)) then do
    let L ← postBreakage s.ledger (.package s.package.id) (.package s.package.id) s.package.id .deferred
    return { s.withStatus .expired with ledger := L }
  else .ok s

end ClientBridge
