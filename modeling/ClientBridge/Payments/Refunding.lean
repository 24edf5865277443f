import ClientBridge.Ledger.Refunds
import ClientBridge.Ledger.Deposits

/-!
# Refunds of a payment, and payments that settle late

`applyRefund` books a refund that succeeded and `unapplyRefund` takes it back when Stripe
fails it.  `settlePayment` is the handler of a succeeded payment intent: a charge that
reaches a document which no longer owes it is booked and refunded in full at once.
-/

namespace ClientBridge

open Bookkeeping

structure RefundResult where
  id : Id
  status : PaymentStatus
  deriving DecidableEq, Repr

/-- What the handlers ask of Stripe and of the stock room.  `fees` is `none` while Stripe
does not show the charge's fees yet. -/
structure Gateway where
  connected : Bool
  fees : Id → Option ChargeFees
  refund : Id → Int → RefundResult
  inStock : Id → Bool

/-! ## Booking a refund -/

/-- Money leaving a payment; a deposit first takes back its forfeit and applications. -/
def giveBack (db : Db) (payment : Payment) (key : Id) (book : Db → Except Error Db) : Except Error Db :=
  match payment.kind, payment.bookingId with
  | .deposit, some bookingId => do book (← reverseDeposit db bookingId key)
  | _, _ => book db

def applyRefund (db : Db) (refund payment : Payment) : Except Error Db := do
  let db ← giveBack db payment refund.id fun db =>
    postRefund db refund payment (refund.reason = some .unapplied)
  if refund.reason = some .ourVoid ∨ refund.reason = some .unapplied then postFeeReturn db payment refund.id
  else return db

/-- Stripe failed a refund it had marked succeeded: the money is back, so is the credit. -/
def unapplyRefund (db : Db) (refund payment : Payment) : Except Error Db := do
  let db ← cancelReturnedTips db refund payment
  let db ← reverseRefund db refund payment
  let L ← match db.ledger.find (.feeReturn refund.id) with
    | some returned => reversePlain db.ledger returned (.failed (.feeReturn refund.id))
    | none => .ok db.ledger
  let db := db.withLedger L
  match payment.kind, payment.bookingId with
  | .deposit, some bookingId => restoreDeposit db bookingId refund.id
  | _, _ => return db

/-- The row of a refund of `amount` cents. -/
def refundRow (payment : Payment) (id : Id) (amount : Int) (h : 0 ≤ amount)
    (provider : PaymentProvider) (providerRef : Option Id) (status : PaymentStatus)
    (reason : Option RefundReason) : Payment where
  id := id
  clientId := payment.clientId
  kind := .refund
  parentPaymentId := some payment.id
  invoiceId := payment.invoiceId
  orderId := payment.orderId
  bookingId := payment.bookingId
  amountCents := amount
  tip := noTip
  method := payment.method
  provider := provider
  providerRef := providerRef
  status := status
  reason := reason
  disputeStatus := none
  createdAt := payment.createdAt
  tip_le := h
  target := payment.target

def refundByRef (db : Db) (reference : Id) : Option Payment :=
  db.payments.find? fun q => decide (q.providerRef = some reference ∧ q.kind = .refund)

/-- Refund `amount` of a payment under a new row; by hand unless it was charged at Stripe. -/
def createRefund (db : Db) (gateway : Gateway) (payment : Payment) (refundId : Id) (amount : Int)
    (h : 0 ≤ amount) (reason : Option RefundReason) : Except Error Db :=
  match payment.provider, payment.providerRef with
  | .manual, _ =>
    let refund := refundRow payment refundId amount h .manual none .succeeded reason
    applyRefund (db.addPayment refund) refund payment
  | .stripe, none => .error (.conflict "payment has no connected charge to refund")
  | .stripe, some intent =>
    if !gateway.connected then .error (.conflict "payment has no connected charge to refund")
    else
      let result := gateway.refund intent amount
      match refundByRef db result.id with
      | some existing =>
        if existing.parentPaymentId ≠ some payment.id ∨ existing.amountCents ≠ amount then
          .error (.conflict "refund does not match the original payment")
        else .ok db
      | none =>
        let refund := refundRow payment refundId amount h .stripe (some result.id) result.status reason
        if result.status = .succeeded then applyRefund (db.addPayment refund) refund payment
        else .ok (db.addPayment refund)

/-! ## Settling a charge -/

/-- A card payment settling on an invoice or order that was voided or paid another way since. -/
def unapplied (db : Db) (payment : Payment) (order : Option Order) : Bool :=
  let net := payment.amountCents - payment.tip.cents
  if payment.kind ≠ .payment then false
  else match order with
    | some order => decide ((orderMoney db order (orderState db order)).due < net)
    | none =>
      match payment.invoiceId.bind db.invoice? with
      | none => false
      | some invoice =>
        if invoiceState db invoice = .void ∨ invoiceState db invoice = .refunded then true
        else decide (invoiceBalance db invoice < net)

/-- Give back in full a charge that settled after what it paid for was gone. -/
def refundLate (db : Db) (gateway : Gateway) (payment : Payment) (refundId : Id)
    (reason : RefundReason) : Except Error Db :=
  createRefund db gateway payment refundId payment.amountCents payment.amount_nonneg (some reason)

/-- Stripe's fees for a charge; one it does not show yet is retried, never booked gross. -/
def chargeFees (gateway : Gateway) (payment : Payment) : Except Error ChargeFees :=
  match gateway.connected, payment.providerRef with
  | true, some intent =>
    match gateway.fees intent with
    | some fees => .ok fees
    | none => .error .retryLater
  | _, _ => .ok ⟨0, 0⟩

def paidOrder (db : Db) (payment : Payment) : Option Order := payment.orderId.bind db.order?

/-- An online order whose stock is gone since it was placed. -/
def soldOut (gateway : Gateway) (order : Order) : Bool :=
  decide (order.status ≠ .void) && decide (order.source = .online) && !gateway.inStock order.id

/-- The order a charge is for, unless it was voided or is voided now. -/
def liveOrder (db : Db) (gateway : Gateway) (payment : Payment) : Option Order :=
  (paidOrder db payment).filter fun o => decide (o.status ≠ .void) && !soldOut gateway o

/-- Void an online order that is sold out. -/
def voidSoldOut (db : Db) (gateway : Gateway) (payment : Payment) : Db :=
  match paidOrder db payment with
  | some order =>
    if soldOut gateway order then
      { db with orders := db.orders.map fun o => if o.id = order.id then { o with status := .void } else o }
    else db
  | none => db

/-- The charge is not booked yet: it is pending, failed before, or its order was voided. -/
def settles (db : Db) (payment : Payment) : Bool :=
  decide (payment.status = .pending ∨ payment.status = .failed) ||
    ((paidOrder db payment).any fun o => decide (o.status = .void)) && decide (payment.status = .canceled)

/-- A payment intent succeeded: book the charge and its fees, and give it back if it is late. -/
def settlePayment (db : Db) (gateway : Gateway) (payment : Payment) (refundId : Id) : Except Error Db :=
  if !settles db payment then .ok db
  else do
    let live := liveOrder db gateway payment
    let expired := (paidOrder db payment).isSome && live.isNone
    let db := voidSoldOut db gateway payment
    let late := unapplied db payment live
    let fees ← chargeFees gateway payment
    let payment := payment.withStatus .succeeded
    let db ← postPayment (db.setStatus payment.id .succeeded) payment
    let db ← postFees db payment fees
    if late then refundLate db gateway payment refundId .unapplied
    else if expired then refundLate db gateway payment refundId .ourVoid
    else return db

/-! ## What they write -/

theorem giveBack_of_payment {payment : Payment} (h : payment.kind = .payment) (db : Db) (key : Id)
    (book : Db → Except Error Db) : giveBack db payment key book = book db := by
  simp [giveBack, h]

end ClientBridge
