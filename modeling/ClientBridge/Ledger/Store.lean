import ClientBridge.Ledger.Journals

/-!
# The rows the ledger services read

One business's payments and documents, with its ledger.  The rows keep the columns that the
modelled functions read.  What every writer of a row ensures is a field of its type: a
payment is of a non-negative amount that covers its tip, its target is an invoice or an
order and not both, and a tip's shares add up to it.
-/

namespace ClientBridge

inductive PaymentKind where
  | payment | deposit | refund
  deriving DecidableEq, Repr

inductive PayMethod where
  | card | etransfer | bankEft | cash | cheque | other
  deriving DecidableEq, Repr

inductive PaymentProvider where
  | stripe | manual
  deriving DecidableEq, Repr

inductive PaymentStatus where
  | pending | succeeded | failed | canceled
  deriving DecidableEq, Repr

inductive DisputeStatus where
  | needsResponse | underReview | won | lost
  deriving DecidableEq, Repr

/-- Why a refund was given; only the two reasons of our own are told apart. -/
inductive RefundReason where
  | ourVoid | unapplied | given
  deriving DecidableEq, Repr

/-- A tip and who it goes to (`TipTerms`). -/
structure TipTerms where
  cents : Int
  split : List (Id × Int)
  shares_nonneg : ∀ s ∈ split, 0 ≤ s.2
  split_sum : (split.map (·.2)).sum = cents
  deriving DecidableEq

def noTip : TipTerms := ⟨0, [], by simp, rfl⟩

theorem noTip_le (cents : Nat) : noTip.cents ≤ (cents : Int) := Int.natCast_nonneg cents

def tipTo (staffId : Id) (cents : Nat) : TipTerms := ⟨cents, [(staffId, cents)], by simp, by simp⟩

theorem TipTerms.cents_nonneg (t : TipTerms) : 0 ≤ t.cents := by
  rw [← t.split_sum]
  refine List.sum_nonneg fun x hx => ?_
  obtain ⟨s, hs, rfl⟩ := List.mem_map.1 hx
  exact t.shares_nonneg s hs

structure Payment where
  id : Id
  clientId : Option Id
  kind : PaymentKind
  parentPaymentId : Option Id
  invoiceId : Option Id
  orderId : Option Id
  bookingId : Option Id
  amountCents : Int
  tip : TipTerms
  method : PayMethod
  provider : PaymentProvider
  providerRef : Option Id
  status : PaymentStatus
  reason : Option RefundReason
  disputeStatus : Option DisputeStatus
  createdAt : Int
  tip_le : tip.cents ≤ amountCents
  target : invoiceId = none ∨ orderId = none
  deriving DecidableEq

theorem Payment.amount_nonneg (p : Payment) : 0 ≤ p.amountCents := p.tip.cents_nonneg.trans p.tip_le

def Payment.withStatus (p : Payment) (status : PaymentStatus) : Payment := { p with status := status }

inductive InvoiceStatus where
  | draft | sent | void
  deriving DecidableEq, Repr

structure Invoice where
  id : Id
  clientId : Option Id
  status : InvoiceStatus
  totalCents : Int
  issuedAt : Int
  overdueNotified : Bool
  deriving DecidableEq, Repr

inductive OrderStatus where
  | open | void
  deriving DecidableEq, Repr

inductive OrderSource where
  | pos | online
  deriving DecidableEq, Repr

structure Order where
  id : Id
  clientId : Option Id
  status : OrderStatus
  source : OrderSource
  totalCents : Int
  createdAt : Int
  total_nonneg : 0 ≤ totalCents
  deriving DecidableEq

/-- A line of an invoice or a sale, with the tax fixed on it. -/
structure Line where
  invoiceId : Option Id
  orderId : Option Id
  bookingId : Option Id
  amountCents : Int
  taxAmountCents : Int
  taxClass : TaxClass
  deriving DecidableEq, Repr

structure Item where
  id : Id
  priceCents : Int
  taxClass : TaxClass
  deriving DecidableEq, Repr

structure Package where
  id : Id
  itemId : Id
  paymentId : Option Id
  deriving DecidableEq, Repr

inductive GiftCardStatus where
  | pending | active | void | expired
  deriving DecidableEq, Repr

structure GiftCard where
  id : Id
  code : String
  paymentId : Option Id
  status : GiftCardStatus
  expiresAt : Option Int
  deriving DecidableEq, Repr

/-- The business's rows.  `lines` are in position order; `rates` are the components it
collects on the day of an instant, and `registered` whether it collects tax then. -/
structure Db where
  ledger : Ledger
  payments : List Payment
  invoices : List Invoice
  orders : List Order
  lines : List Line
  bookings : List Id
  packages : List Package
  giftCards : List GiftCard
  items : List Item
  rates : Int → List TaxComponent
  registered : Int → Bool

def emptyDb : Db where
  ledger := []
  payments := []
  invoices := []
  orders := []
  lines := []
  bookings := []
  packages := []
  giftCards := []
  items := []
  rates := fun _ => []
  registered := fun _ => true

namespace Db

def payment? (db : Db) (id : Id) : Option Payment := db.payments.find? fun p => decide (p.id = id)

def invoice? (db : Db) (id : Id) : Option Invoice := db.invoices.find? fun i => decide (i.id = id)

def order? (db : Db) (id : Id) : Option Order := db.orders.find? fun o => decide (o.id = id)

def item? (db : Db) (id : Id) : Option Item := db.items.find? fun i => decide (i.id = id)

/-- The rows as they are, over another ledger. -/
def withLedger (db : Db) (L : Ledger) : Db := { db with ledger := L }

def addPayment (db : Db) (p : Payment) : Db := { db with payments := db.payments ++ [p] }

/-- Write a payment's status. -/
def setStatus (db : Db) (id : Id) (status : PaymentStatus) : Db :=
  { db with payments := db.payments.map fun p => if p.id = id then p.withStatus status else p }

/-- The refunds of a payment that succeeded and did not fail since, in the order they were made. -/
def liveRefunds (db : Db) (paymentId : Id) : List Payment :=
  db.payments.filter fun q =>
    decide (q.kind = .refund ∧ q.parentPaymentId = some paymentId ∧ q.status = .succeeded)

@[simp] theorem ledger_withLedger (db : Db) (L : Ledger) : (db.withLedger L).ledger = L := rfl

@[simp] theorem payments_withLedger (db : Db) (L : Ledger) : (db.withLedger L).payments = db.payments := rfl

@[simp] theorem withLedger_withLedger (db : Db) (L L' : Ledger) :
    (db.withLedger L).withLedger L' = db.withLedger L' := rfl

@[simp] theorem withLedger_self (db : Db) : db.withLedger db.ledger = db := rfl

@[simp] theorem ledger_addPayment (db : Db) (p : Payment) : (db.addPayment p).ledger = db.ledger := rfl

@[simp] theorem ledger_setStatus (db : Db) (id : Id) (status : PaymentStatus) :
    (db.setStatus id status).ledger = db.ledger := rfl

@[simp] theorem payments_addPayment (db : Db) (p : Payment) :
    (db.addPayment p).payments = db.payments ++ [p] := rfl

end Db

end ClientBridge
