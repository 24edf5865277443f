import ClientBridge.Earnings.Moves
import ClientBridge.Ledger.Store

/-!
# Clawbacks

When part of what a document was paid goes back, the same part of each earning on it is held
back as a negative pending earning.  `clawBack` does so for an invoice or a sale and
`clawBackPackage` for the visits a package covered.
-/

namespace ClientBridge

open Bookkeeping

/-- (still kept, first booked) of a document's revenue or a package's deferred revenue. -/
def amountKept (L : Ledger) (subject : Subject) (category : Category) : Int × Int :=
  let counts := fun (j : LedgerJournal) (e : Leg) => decide (e.tag = some subject) && settled L j &&
    decide (e.key.category = category) &&
      -- sessions used and breakage recognize revenue; only refunds and disputes give money back
      decide (j.info.event ≠ .consumption ∧ j.info.event ≠ .breakage)
  (-L.sum counts, -L.sum fun j e => counts j e &&
    decide (j.info.event ≠ .refund ∧ j.info.event ≠ .dispute ∧ j.info.event ≠ .reversal))

def Ref.isClawback : Ref → Bool
  | .earningClawback _ _ => true
  | _ => false

def isClawbackOf (n : Nat) (r : Ref) : Bool :=
  match r with
  | .earningClawback m _ => decide (m = n)
  | _ => false

/-- The clawbacks of an earning, the reversed ones too. -/
def clawbacks (L : Ledger) (n : Nat) : List Nat :=
  (L.filter fun j => decide (j.info.event = .earning) && isClawbackOf n j.ref).map (·.id)

/-- An earning's clawbacks in some of the statuses. -/
def clawbacksIn (L : Ledger) (n : Nat) (p : EarningStatus → Bool) : List Earning :=
  ((clawbacks L n).filterMap (loadEarning L)).filter fun c => p c.status

/-- What of an earning is due back when `kept` of `booked` was kept. -/
def clawbackDue (e : Earning) (kept booked : Int) : Int :=
  if e.status = .reversed ∨ booked ≤ 0 then 0
  else e.amountCents - e.amountCents * max 0 (min kept booked) / booked

def clawbackPosting (L : Ledger) (e : Earning) (need : Int) : Posting where
  event := .earning
  ref := .earningClawback e.id (clawbacks L e.id).length
  legs := [leg .business .staffCost need, legOf (.staff e.staffId) .payable (-need) .pending]
  source := (journalOf L e.id).bind (·.info.source)
  subject := e.subject
  metadata := { basis := some .clawback, of := some e.id }

/-- Reverse the pending clawbacks. -/
def reverseAll (L : Ledger) (ids : List Nat) : Except Error Ledger :=
  ids.foldlM (fun L id => match journalOf L id with
    | none => .ok L
    | some j => reversePlain L j (.earningReversal id)) L

/-- Keep the open clawbacks equal to the refunded share, posting only when it changes. -/
def settleClawback (L : Ledger) (e : Earning) (kept booked : Int) : Except Error Ledger :=
  let pending := clawbacksIn L e.id fun s => decide (s = .pending)
  let settled := clawbacksIn L e.id fun s => decide (s ≠ .pending ∧ s ≠ .reversed)
  let need := -clawbackDue e kept booked - (settled.map (·.amountCents)).sum
  if (pending.map (·.amountCents)).sum = need then .ok L
  else do
    let L' ← reverseAll L (pending.map (·.id))
    -- the number counts every clawback so far, so it is read before the reversals
    if need = 0 then return L' else post L' (clawbackPosting L e need)

def clawBackEach (L : Ledger) (journals : List Nat) (kept booked : Int) : Except Error Ledger :=
  journals.foldlM (fun L n => match loadEarning L n with
    | none => .ok L
    | some e => settleClawback L e kept booked) L

/-- The entries of earnings on a document or package. -/
def earningsOn (on : LedgerJournal → Leg → Bool) (L : Ledger) : List LedgerJournal :=
  L.filter fun j => decide (j.info.event = .earning) && j.legs.any fun e =>
    (match e.key.owner with | .staff _ => true | _ => false) && on j e

/-- What both clawbacks of a document and of a package do, with the amounts they keep. -/
def clawBackOn (L : Ledger) (on : LedgerJournal → Leg → Bool) (amounts : Int × Int) : Except Error Ledger :=
  let (kept, booked) := amounts
  let found := earningsOn on L
  if booked ≤ kept ∧ !found.any (fun j => j.ref.isClawback) then .ok L
  else clawBackEach L ((found.filter fun j => !j.ref.isClawback).map (·.id)) kept booked

/-- An earning on a visit's line of a document, or on the document itself. -/
def onDocument (subject : Subject) (lineIds : List Id) (j : LedgerJournal) (e : Leg) : Bool :=
  (match e.tag, j.info.source with
    | some (.booking _), some (.line id) => decide (id ∈ lineIds)
    | _, _ => false) || decide (e.tag = some subject)

/-- Hold back the refunded share of each earning on an invoice or sale. -/
def clawBack (L : Ledger) (subject : Subject) (lineIds : List Id) : Except Error Ledger :=
  clawBackOn L (onDocument subject lineIds) (amountKept L subject .revenue)

/-- The same for the visits a refunded package covered; their earnings are never reversed. -/
def clawBackPackage (L : Ledger) (packageId : Id) : Except Error Ledger :=
  clawBackOn L (fun j _ => decide (j.info.source = some (.package packageId)))
    (amountKept L (.package packageId) .deferred)

end ClientBridge
