import ClientBridge.Ledger.Refunds

/-!
# Dispute journals

Stripe pulls a disputed amount and its fee, and hands back what is won.  Each posting is made once, or posts
the increase over what its rows hold already.
-/

namespace ClientBridge

open Bookkeeping

/-- The references of a dispute's fees, taken and returned. -/
def Ref.isDisputeFee (disputeId : Id) : Ref → Bool
  | .disputeFee id _ | .disputeFeeWon id _ => decide (id = disputeId)
  | _ => false

def Ref.isReinstated (disputeId : Id) : Ref → Bool
  | .disputeReinstated id _ => decide (id = disputeId)
  | _ => false

/-- The fees taken so far. -/
def recordedFee (L : Ledger) (disputeId : Id) : Int :=
  L.sum fun j e => j.ref.isDisputeFee disputeId && (decide (e.key.category = .processingFee) && decide (0 < e.cents))

/-- The fees returned so far. -/
def returnedFee (L : Ledger) (disputeId : Id) : Int :=
  -L.sum fun j e => j.ref.isDisputeFee disputeId && (decide (e.key.category = .processingFee) && decide (e.cents < 0))

def withdrawalPosting (payment : Payment) (subject : Subject) (disputeId : Id) (amount : Int) : Posting where
  event := .dispute
  ref := .dispute disputeId
  legs := [leg .business .stripe (-amount), leg (payer payment.clientId) .receivable amount]
  source := some (.payment payment.id)
  subject := some subject

def feeTakenPosting (payment : Payment) (subject : Subject) (disputeId : Id) (recorded fee : Int) : Posting where
  event := .fee
  ref := .disputeFee disputeId (if recorded = 0 then none else some fee)
  legs := [leg .business .processingFee (fee - recorded), leg .business .stripe (recorded - fee)]
  source := some (.payment payment.id)
  subject := some subject

/-- Stripe pulls the disputed funds (+ its fee); the payer owes them back until it's won. -/
def postDispute (db : Db) (payment : Payment) (disputeId : Id) (amount fee : Int) : Except Error Db := do
  let subject := (settlement db payment).1
  let L ← post db.ledger (withdrawalPosting payment subject disputeId amount)
  let recorded := recordedFee L disputeId
  if fee ≤ recorded then return db.withLedger L
  else
    let L ← post L (feeTakenPosting payment subject disputeId recorded fee)
    return db.withLedger L

/-- The withdrawal is turned around, if it was posted. -/
def reverseWithdrawal (L : Ledger) (payment : Payment) (disputeId : Id) : Except Error Ledger :=
  match L.find (.dispute disputeId) with
  | some journal => reverse L journal (.disputeWon disputeId) .dispute (some (.payment payment.id)) {}
  | none => .ok L

def feeReturnedPosting (row : LedgerJournal) (disputeId : Id) (returned returnedNow : Int) : Posting where
  event := .fee
  ref := .disputeFeeWon disputeId (if returned = 0 then none else some returnedNow)
  legs := [leg .business .processingFee (returned - returnedNow), leg .business .stripe (returnedNow - returned)]
  source := row.info.source
  subject := row.legs.head?.bind (·.tag)

/-- A won dispute: Stripe reinstates the amount and returns whatever part of the fee it does. -/
def closeDispute (db : Db) (payment : Payment) (disputeId : Id) (returnedNow : Int) : Except Error Db := do
  let L ← reverseWithdrawal db.ledger payment disputeId
  let returned := returnedFee L disputeId
  match L.find? fun j => j.ref.isDisputeFee disputeId with
  | none => return db.withLedger L
  | some row =>
    if returnedNow ≤ returned then return db.withLedger L
    else
      let L ← post L (feeReturnedPosting row disputeId returned returnedNow)
      return db.withLedger L

def lossPosting (payment : Payment) (subject : Subject) (disputeId : Id) (amount : Int) (legs : List Leg) : Posting where
  event := .dispute
  ref := .disputeLost disputeId
  legs := leg (payer payment.clientId) .receivable (-amount) :: legs
  source := some (.payment payment.id)
  subject := some subject

/-- A lost dispute: the receivable is uncollectable, so unwind the sale like a refund. -/
def loseDispute (db : Db) (payment : Payment) (disputeId : Id) (amount : Int) : Except Error Db :=
  if db.ledger.has (.dispute disputeId) then do
    let legs := refundLegs db payment amount "" false
    let subject := (settlement db payment).1
    let tip := tipOf legs
    let L ← post db.ledger (lossPosting payment subject disputeId amount legs)
    if 0 < tip then
      let L ← postTips L payment subject (.tipDispute disputeId) (-1) payment.id (tipsBack payment tip)
      return db.withLedger L
    else return db.withLedger L
  else .ok db

/-- What was handed back on a lost dispute so far, before and after fees. -/
def reinstated (L : Ledger) (disputeId : Id) : Int :=
  -L.sum fun j e => j.ref.isReinstated disputeId && decide (e.key.category = .loss)

def reinstatedNet (L : Ledger) (disputeId : Id) : Int :=
  L.sum fun j e => j.ref.isReinstated disputeId && decide (e.key.category = .stripe)

def reinstatedPosting (payment : Payment) (subject : Subject) (disputeId : Id) (first : Bool)
    (booked bookedNet amount net : Int) : Posting where
  event := .dispute
  ref := .disputeReinstated disputeId (if first then none else some amount)
  legs := [
    leg .business .stripe (net - bookedNet),
    leg .business .loss (booked - amount),
    leg .business .processingFee (amount - booked - (net - bookedNet))]
  source := some (.payment payment.id)
  subject := some subject

/-- Funds Stripe hands back on a lost dispute, such as a part refunded first, reduce the loss. -/
def reinstateDispute (db : Db) (payment : Payment) (disputeId : Id) (amount net : Int) : Except Error Db :=
  if amount ≤ 0 ∨ db.ledger.has (.disputeLost disputeId) = false then .ok db
  else
    let booked := reinstated db.ledger disputeId
    let bookedNet := reinstatedNet db.ledger disputeId
    if amount ≤ booked then .ok db
    else do
      let first := !db.ledger.any fun j => j.ref.isReinstated disputeId
      let L ← post db.ledger
        (reinstatedPosting payment (settlement db payment).1 disputeId first booked bookedNet amount net)
      return db.withLedger L

end ClientBridge
