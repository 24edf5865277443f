import ClientBridge.Ledger.Settlement

/-!
# What is taken off an issued invoice

Manual payments, card payments and voids read the invoice's balance under its row lock.  A visit's
deposit is applied by a transaction that does not take the lock, and an enrolment's cancellation
voids its invoice without it.
-/

namespace ClientBridge

/-- How far an invoice is paid, from what was collected and what it still owes (`invoice_status_expr`). -/
def invoiceStatus (stored : InvoiceStatus) (paid owed applied : Int) (refunded overdueNotified : Bool) : DocumentState :=
  match stored with
  | .draft => .draft
  | .void => .void
  | .sent =>
    if paid ≤ 0 ∧ refunded ∧ owed ≤ 0 then .refunded
    else if owed ≤ 0 then .paid
    else if overdueNotified then .overdue
    else if 0 < paid ∨ 0 < applied then .partlyPaid
    else .sent

/-- It is the state the ledger gives an invoice. -/
theorem invoiceState_eq (db : Db) (invoice : Invoice) : invoiceState db invoice =
    invoiceStatus invoice.status (collected db (.invoice invoice.id)) (receivable db.ledger invoice.id)
      (invoiceApplied db.ledger invoice.id) (refunded db (.invoice invoice.id)) invoice.overdueNotified := by
  unfold invoiceState invoiceStatus
  cases invoice.status with
  | draft => rfl
  | sent => rfl
  | void => rfl

/-! ## An invoice -/

/-- The refund of a charge that settled on an invoice that no longer owed it; once it is booked, with the
part of the tip it returned. -/
inductive LateRefund where
  | pending
  | booked (tip : Int)
  deriving DecidableEq

def LateRefund.isBooked : LateRefund → Bool
  | .pending => false
  | .booked _ => true

/-- A payment's row, whether its journal is posted, and its refund of reason `unapplied_payment`. -/
@[ext]
structure InvoiceCharge where
  id : Id
  provider : PaymentProvider
  amountCents : Int
  tipCents : Int
  status : PaymentStatus
  posted : Bool
  late : Option LateRefund
  tip_nonneg : 0 ≤ tipCents
  tip_le : tipCents ≤ amountCents

instance : DecidableEq InvoiceCharge := fun _ _ => decidable_of_iff _ InvoiceCharge.ext_iff.symm

/-- Any other refund of one of the invoice's payments.  `booked` says that it succeeded at some time. -/
structure GivenRefund where
  id : Id
  amountCents : Int
  status : PaymentStatus
  booked : Bool
  deriving DecidableEq

/-- The reference of an application; `again` is the failed refund that led to it, if one did. -/
structure ApplicationRef where
  bookingId : Id
  again : Option Id
  deriving DecidableEq

/-- A visit's deposit applied to the invoice. -/
structure DepositApplication where
  ref : ApplicationRef
  cents : Int
  reversed : Bool
  deriving DecidableEq

/-- An invoice that was issued, with what the ledger has of it. -/
structure IssuedInvoice where
  status : InvoiceStatus
  totalCents : Int
  overdueNotified : Bool
  charges : List InvoiceCharge
  refunds : List GivenRefund
  applications : List DepositApplication
  deriving DecidableEq

/-- What a payment pays of the invoice: not the tip. -/
def InvoiceCharge.net (c : InvoiceCharge) : Int := c.amountCents - c.tipCents

theorem InvoiceCharge.net_nonneg (c : InvoiceCharge) : 0 ≤ c.net := Int.sub_nonneg.2 c.tip_le

/-- What a payment and its late refund leave credited to the receivable. -/
def InvoiceCharge.credited (c : InvoiceCharge) : Int :=
  (if c.posted then c.net else 0) -
    match c.late with
    | some (.booked tip) => c.amountCents - tip
    | _ => 0

/-- What a pending late refund will give back of it. -/
def InvoiceCharge.givingBack (c : InvoiceCharge) : Int := if c.late = some .pending then c.net else 0

/-- The cash a payment and its late refund left. -/
def InvoiceCharge.cash (c : InvoiceCharge) : Int :=
  (if c.posted then c.amountCents else 0) -
    match c.late with
    | some (.booked _) => c.amountCents
    | _ => 0

def DepositApplication.stands (a : DepositApplication) : Int := if a.reversed then 0 else a.cents

def GivenRefund.cash (r : GivenRefund) : Int := if r.status = .succeeded then r.amountCents else 0

namespace IssuedInvoice

/-- What issuing it posted, unless a void reversed it. -/
def face (s : IssuedInvoice) : Int := if s.status = .void then 0 else s.totalCents

def applied (s : IssuedInvoice) : Int := (s.applications.map (·.stands)).sum

/-- `invoice_balance`: what is left on the receivable. -/
def receivable (s : IssuedInvoice) : Int := s.face - (s.charges.map (·.credited)).sum - s.applied

/-- The unapplied refunds still pending, net of tip. -/
def givingBack (s : IssuedInvoice) : Int := (s.charges.map (·.givingBack)).sum

def collected (s : IssuedInvoice) : Int := (s.charges.map (·.cash)).sum - (s.refunds.map (·.cash)).sum

def refunded (s : IssuedInvoice) : Bool :=
  s.refunds.any (·.booked) || s.charges.any fun c => c.late.any (·.isBooked)

def state (s : IssuedInvoice) : DocumentState :=
  invoiceStatus s.status s.collected s.receivable s.applied s.refunded s.overdueNotified

def paymentPending (s : IssuedInvoice) : Bool := s.charges.any fun c => decide (c.status = .pending)

/-- Reject a charge that would overpay the invoice given pending payments (`_assert_room`). -/
def assertRoom (s : IssuedInvoice) (amount : Int) : Except String Unit :=
  if s.state = .paid ∨ s.state = .void ∨ s.state = .refunded then .error "a settled or void invoice can't be charged"
  else if s.receivable ≤ 0 then .error "nothing left to pay on this invoice"
  else if s.receivable < amount then .error "that is more than the invoice still owes"
  else if s.receivable - ((s.charges.filter fun c => decide (c.status = .pending)).map (·.net)).sum < amount then
    .error "this invoice already has a payment in progress"
  else .ok ()

/-- Whether a card payment settles on an invoice that was voided or paid another way since (`_unapplied`). -/
def isLate (s : IssuedInvoice) (c : InvoiceCharge) : Bool :=
  decide (s.state = .void ∨ s.state = .refunded) || decide (s.receivable < c.net)

/-- The other open card attempts, which a new one supersedes unless Stripe has closed them. -/
def openAttempts (s : IssuedInvoice) (closed : Id → Bool) : List Id :=
  (s.charges.filter fun c => decide (c.provider = .stripe) && decide (c.status = .pending ∨ c.status = .failed) &&
    !closed c.id).map (·.id)

def cancelAttempts (s : IssuedInvoice) (ids : List Id) : IssuedInvoice :=
  { s with charges := s.charges.map fun c => if c.id ∈ ids then { c with status := .canceled } else c }

/-- `void_invoice` refuses an invoice that is settled, that money is on, or that a payment is in progress on. -/
def assertVoidable (s : IssuedInvoice) : Except String Unit :=
  if s.state = .paid ∨ s.state = .refunded ∨ s.state = .void then .error "a settled or void invoice can't be voided"
  else if s.collected ≠ 0 then .error "money was taken on this invoice"
  else if s.paymentPending then .error "this invoice has a payment in progress"
  else .ok ()

/-- What `void_enrolment_invoice` voids. -/
def enrolmentVoidable (s : IssuedInvoice) : Bool :=
  decide (s.status = .sent ∧ s.collected = 0) && !s.paymentPending

def standing (s : IssuedInvoice) : List ApplicationRef := (s.applications.filter fun a => !a.reversed).map (·.ref)

/-- Reverse the applications a transaction found standing. -/
def unapply (s : IssuedInvoice) (refs : List ApplicationRef) : IssuedInvoice :=
  { s with applications := s.applications.map fun a => if a.ref ∈ refs then { a with reversed := true } else a }

end IssuedInvoice

/-! ## What a transaction writes -/

/-- The rows and journals that a transaction adds or changes. -/
inductive InvoiceChange where
  /-- A payment recorded by hand. -/
  | pay (c : InvoiceCharge)
  /-- A card payment opened, and those it superseded. -/
  | open (c : InvoiceCharge) (superseded : List Id)
  /-- A card payment settled; `isNew` if its own row is made now. -/
  | settle (isNew : Bool) (c : InvoiceCharge) (late : Option LateRefund)
  | apply (a : DepositApplication)
  | void (found : List ApplicationRef)

/-- A charge succeeded and is posted, and given back if it was late and was not given back before. -/
def InvoiceCharge.settled (c : InvoiceCharge) (late : Option LateRefund) : InvoiceCharge :=
  { c with status := .succeeded, posted := true, late := c.late.or late }

def InvoiceChange.write (s : IssuedInvoice) : InvoiceChange → IssuedInvoice
  | .pay c => { s with charges := s.charges ++ [c] }
  | .open c superseded => { s.cancelAttempts superseded with charges := (s.cancelAttempts superseded).charges ++ [c] }
  | .settle true c late => { s with charges := s.charges ++ [c.settled late] }
  | .settle false c late =>
    { s with charges := s.charges.map fun q => if q.id = c.id then q.settled late else q }
  | .apply a => { s with applications := s.applications ++ [a] }
  | .void found => { s.unapply found with status := .void }

/-- A row's id and a journal's reference are unique. -/
def InvoiceChange.Writable (s : IssuedInvoice) : InvoiceChange → Prop
  | .pay c | .open c _ | .settle true c _ => c.id ∉ s.charges.map (·.id)
  | .apply a => a.ref ∉ s.applications.map (·.ref)
  | _ => True

/-! ## The transactions -/

/-- The committed invoice and who holds its row lock. -/
structure InvoiceStore (π : Type) where
  invoice : IssuedInvoice
  lock : Option π

inductive InvoicePlace where
  | idle
  /-- A charge that settles: its row was read, or is made anew. -/
  | settling (isNew : Bool) (c : InvoiceCharge)
  /-- An intent that failed or was canceled: its pending row was read. -/
  | failing (id : Id) (status : PaymentStatus)
  /-- A deposit that settles, or comes back: the invoice was read open. -/
  | applying (ref : ApplicationRef)
  /-- It read the invoice, under its lock or not; the next step commits. -/
  | writing (locked : Bool) (change : InvoiceChange)
  | rolledBack

def manualCharge (id : Id) (amount : Nat) : InvoiceCharge where
  id := id
  provider := .manual
  amountCents := amount
  tipCents := 0
  status := .succeeded
  posted := true
  late := none
  tip_nonneg := le_refl 0
  tip_le := Int.natCast_nonneg amount

def pendingCharge (id : Id) (net tip : Nat) : InvoiceCharge where
  id := id
  provider := .stripe
  amountCents := net + tip
  tipCents := tip
  status := .pending
  posted := false
  late := none
  tip_nonneg := Int.natCast_nonneg tip
  tip_le := by omega

def InvoiceStore.release {π : Type} [DecidableEq π] (s : InvoiceStore π) (p : π) : Option π :=
  if s.lock = some p then none else s.lock

/-- A few statements of a transaction.  Refunds are settled, failed and reversed by transactions that hold the
refund's row and read nothing of the invoice's balance. -/
inductive InvoiceStep {π : Type} [DecidableEq π] (p : π) :
    InvoiceStore π → InvoicePlace → InvoiceStore π → InvoicePlace → Prop
  | record {s} (id : Id) (amount : Nat) (hl : s.lock = none) (h : s.invoice.assertRoom amount = .ok ()) :
      InvoiceStep p s .idle { s with lock := some p } (.writing true (.pay (manualCharge id amount)))
  | openCard {s} (id : Id) (net tip : Nat) (closed : Id → Bool) (supersede : Bool) (hl : s.lock = none)
      (hc : supersede → ∀ c ∈ s.invoice.charges, c.provider = .stripe → c.status = .pending → closed c.id = false)
      (h : (if supersede then s.invoice.cancelAttempts (s.invoice.openAttempts closed) else s.invoice).assertRoom net = .ok ()) :
      InvoiceStep p s .idle { s with lock := some p }
        (.writing true (.open (pendingCharge id net tip) (if supersede then s.invoice.openAttempts closed else [])))
  | loadCharge {s c} (h : c ∈ s.invoice.charges) : InvoiceStep p s .idle s (.settling false c)
  | newCharge {s} (id : Id) (net tip : Nat) : InvoiceStep p s .idle s (.settling true (pendingCharge id net tip))
  | settle {s isNew c} (hl : s.lock = none) (hst : c.status = .pending ∨ c.status = .failed)
      (h : s.invoice.isLate c = false) :
      InvoiceStep p s (.settling isNew c) { s with lock := some p } (.writing true (.settle isNew c none))
  | settleLate {s isNew c} (refund : LateRefund) (hl : s.lock = none) (hst : c.status = .pending ∨ c.status = .failed)
      (h : s.invoice.isLate c = true) (htip : ∀ tip, refund = .booked tip → tip ≤ c.tipCents) :
      InvoiceStep p s (.settling isNew c) { s with lock := some p } (.writing true (.settle isNew c (some refund)))
  | loadPending {s c status} (h : c ∈ s.invoice.charges) (hp : c.status = .pending)
      (hst : status = .failed ∨ status = .canceled) : InvoiceStep p s .idle s (.failing c.id status)
  | fail {s id status} :
      InvoiceStep p s (.failing id status)
        { s with invoice := { s.invoice with
            charges := s.invoice.charges.map fun c => if c.id = id then { c with status := status } else c } } .idle
  /-- `settle_deposit` and `restore_deposit` find the visit's open invoice. -/
  | findOpen {s} (ref : ApplicationRef)
      (h : s.invoice.state = .sent ∨ s.invoice.state = .partlyPaid ∨ s.invoice.state = .overdue) :
      InvoiceStep p s .idle s (.applying ref)
  /-- `post_application` reads what is held and the invoice's balance. -/
  | readBalance {s ref} (held : Int) (h : 0 < min held s.invoice.receivable) :
      InvoiceStep p s (.applying ref) s (.writing false (.apply ⟨ref, min held s.invoice.receivable, false⟩))
  | void {s} (hl : s.lock = none) (h : s.invoice.assertVoidable = .ok ()) :
      InvoiceStep p s .idle { s with lock := some p } (.writing true (.void s.invoice.standing))
  | voidEnrolment {s} (h : s.invoice.enrolmentVoidable = true) :
      InvoiceStep p s .idle s (.writing false (.void s.invoice.standing))
  | commit {s locked change} (h : change.Writable s.invoice) :
      InvoiceStep p s (.writing locked change) ⟨change.write s.invoice, s.release p⟩ .idle
  /-- A deposit is refunded, which takes its applications back. -/
  | refundDeposit {s} (bookingId : Id) :
      InvoiceStep p s .idle
        { s with invoice := s.invoice.unapply (s.invoice.standing.filter fun r => decide (r.bookingId = bookingId)) } .idle
  | refund {s c} (id : Id) (amount : Nat) (status : PaymentStatus) (h : c ∈ s.invoice.charges) (hp : c.status = .succeeded) :
      InvoiceStep p s .idle
        { s with invoice := { s.invoice with
            refunds := s.invoice.refunds ++ [⟨id, amount, status, decide (status = .succeeded)⟩] } } .idle
  /-- A refund that was pending settles or fails, or one that succeeded fails. -/
  | refundMoves {s r} (status : PaymentStatus) (h : r ∈ s.invoice.refunds)
      (hst : r.status = .pending ∨ r.status = .succeeded ∧ (status = .failed ∨ status = .canceled)) :
      InvoiceStep p s .idle
        { s with invoice := { s.invoice with
            refunds := s.invoice.refunds.map fun q =>
              if q.id = r.id then { q with status := status, booked := q.booked || decide (status = .succeeded) } else q } }
        .idle
  /-- A late refund settles; it returns what is left of the tip. -/
  | lateRefundSettles {s c} (tip : Int) (h : c ∈ s.invoice.charges) (hlate : c.late = some .pending)
      (htip : tip ≤ c.tipCents) :
      InvoiceStep p s .idle
        { s with invoice := { s.invoice with
            charges := s.invoice.charges.map fun q => if q.id = c.id then { q with late := some (.booked tip) } else q } }
        .idle
  | rollback {s x} : InvoiceStep p s x { s with lock := s.release p } .rolledBack

end ClientBridge
