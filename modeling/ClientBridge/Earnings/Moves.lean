import ClientBridge.Earnings.Stages
import ClientBridge.Library.Dict

/-!
# Moving several earnings at once

`moveMany` moves a list of earnings one stage, all of them or none.  A pay takes along the
open corrections of what it pays, and an unpay the corrections that were paid with it.
-/

namespace ClientBridge

open Bookkeeping

/-- A refund correction: a clawback, or a returned tip. -/
def isCorrection (j : LedgerJournal) (e : Leg) : Bool :=
  decide (j.info.metadata.basis = some .clawback) || (decide (j.info.event = .tip) && decide (0 < e.cents))

/-- A journal with a payable leg of one of these members that is a correction. -/
def correctsOf (members : Option (List Id)) (j : LedgerJournal) : Bool :=
  j.legs.any fun e => match e.key with
    | ⟨.staff s, .payable, _⟩ => (members.all fun ids => decide (s ∈ ids)) && isCorrection j e
    | _ => false

/-- What an entry of a payment or reversal journal counts for, in `_settled_journals`. -/
def settledWeight (n : Nat) (j : LedgerJournal) : Int :=
  if j.info.event = .staffPayment then (if j.ref.isUndo then -1 else 1)
  else if j.ref = .earningReversal n then 1 else 0

/-- Already paid or reversed, counted over the entries of its stage journals. -/
def isSettledJournal (L : Ledger) (n : Nat) : Bool :=
  decide (0 < ((L.filter fun j => decide (j.info.source = some (.journal n)) &&
    decide (j.info.event = .staffPayment ∨ j.info.event = .reversal)).map fun j =>
      settledWeight n j * j.legs.length).sum)

/-- Open refund corrections a pay settles: returned tips, and clawbacks of settled earnings. -/
def clawbacksDue (L : Ledger) (members : List Id) (paying : List Nat) : List Nat :=
  (L.filter fun j => correctsOf (some members) j && !isSettledJournal L j.id &&
    decide (earningStatus L j.id = .pending ∨ earningStatus L j.id = .approved) &&
    match j.info.metadata.of with
    | none => true
    | some n => decide (n ∈ paying) || decide (earningStatus L n = .paid ∨ earningStatus L n = .reversed)).map
      (·.id)

/-- The pay run an earning is paid in now, leaving out payments since undone. -/
def payRun (L : Ledger) (n : Nat) : Option Nat :=
  let undone := undoneRefs (stageRefs L n)
  -- at most one payment of an earning stands, so the order they are read in does not matter
  ((L.filter fun j => decide (j.info.source = some (.journal n)) && decide (j.info.event = .staffPayment) &&
    !j.ref.isUndo && decide (j.ref ∉ undone)).filterMap fun j => j.info.metadata.run).getLast?

/-- Corrections paid in the same run as these earnings, so undoing one undoes them together. -/
def paidWith (L : Ledger) (ids : List Nat) : List Nat :=
  (L.filter fun j => correctsOf none j && match j.info.metadata.of with
    | none => false
    | some n => decide (n ∈ ids) && (payRun L j.id).isSome && decide (payRun L j.id = payRun L n)).map (·.id)

/-- What moves with the earnings asked for. -/
def travellers (L : Ledger) (move : Move) (members : List Id) (ids : List Nat) : List Nat :=
  match move with
  | .pay => (clawbacksDue L members ids).filter fun c => decide (c ∉ ids)
  | .unpay => (paidWith L ids).filter fun c => decide (c ∉ ids)
  | _ => []

def loadMember (L : Ledger) (id : Nat) : Except Error Id :=
  match loadEarning L id with
  | none => .error (.notFound "earning not found")
  | some e => .ok e.staffId

def Move.name : Move → String
  | .approve => "approve"
  | .pay => "pay"
  | .unapprove => "unapprove"
  | .unpay => "unpay"

def readyEarning (L : Ledger) (move : Move) (id : Nat) : Except Error Earning :=
  let refused := Error.conflict ("this earning can't be moved by " ++ move.name)
  match loadEarning L id with
  | none => .error refused
  | some e => if e.status ∈ move.from then .ok e else .error refused

/-- What a run pays one member. -/
def memberTotal (ready : List Earning) (staffId : Id) : Int :=
  ((ready.filter fun e => decide (e.staffId = staffId)).map (·.amountCents)).sum

/-- A pay approves what is still pending on the way. -/
def moveOne (L : Ledger) (move : Move) (metadata : Metadata) (e : Earning) : Except Error Ledger := do
  let L ← if move = .pay ∧ e.status = .pending then moveEarning L e .approve {} else .ok L
  moveEarning L e move metadata

/-- Move several earnings one stage at once: all of them, or none if any can't.  `run` is the
id a pay gives its run. -/
def moveMany (L : Ledger) (earningIds : List Nat) (move : Move) (run : Nat) : Except Error Ledger := do
  let ids := Dict.fromKeys earningIds
  let members ← ids.mapM (loadMember L)
  let todo := ids ++ travellers L move members ids
  let ready ← todo.mapM (readyEarning L move)
  -- a run that nets to nothing settles refunded work against what took it back
  if move = .pay ∧ ready.any (fun e => decide (memberTotal ready e.staffId < 0)) then
    .error (.conflict "a pay run can't pay a member less than nothing")
  else
    let metadata : Metadata := if move = .pay then { run := some run } else {}
    ready.foldlM (fun L e => moveOne L move metadata e) L

/-- A pending earning is reversed when what it was earned on stops being paid. -/
def reverseEarning (L : Ledger) (n : Nat) : Except Error Ledger :=
  match journalOf L n with
  | none => .ok L
  | some j =>
    if earningStatus L n = .pending then reversePlain L j (.earningReversal n) else .ok L

end ClientBridge
