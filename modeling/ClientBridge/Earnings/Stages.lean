import ClientBridge.Ledger.Journals

/-!
# The stages of an earning

An earning is a journal that puts an amount on a member's pending payable.  Approving and
paying it post journals of their own, numbered by how many there are of the stage, and an
undo reverses the one that stands.  `stageOf` reads the status back from these journals.
-/

namespace ClientBridge

open Bookkeeping

inductive Move where
  | approve | pay | unapprove | unpay
  deriving DecidableEq, Repr

inductive EarningStatus where
  | pending | approved | paid | reversed
  deriving DecidableEq, Repr

/-- The statuses a move starts from (`_FROM`). -/
def Move.from : Move → List EarningStatus
  | .approve => [.pending]
  | .pay => [.pending, .approved]
  | .unapprove => [.approved]
  | .unpay => [.paid]

def Move.stage : Move → Stage
  | .approve | .unapprove => .approval
  | .pay | .unpay => .staffPayment

def Move.isUndo : Move → Bool
  | .unapprove | .unpay => true
  | _ => false

def Stage.event : Stage → EntryEvent
  | .approval => .approval
  | .staffPayment => .staffPayment

/-- `kind` tells an earning (work, commission, adjustment, clawback) from a tip. -/
structure Earning where
  id : Nat
  staffId : Id
  subject : Option Subject
  amountCents : Int
  status : EarningStatus
  kind : EntryEvent
  basis : Option Basis
  deriving DecidableEq, Repr

def EntryEvent.isStage : EntryEvent → Bool
  | .approval | .staffPayment | .reversal => true
  | _ => false

def Ref.isUndo : Ref → Bool
  | .undo _ => true
  | _ => false

/-- The stage journals of an earning, as their events and references. -/
def stageRefs (L : Ledger) (journalId : Nat) : List (EntryEvent × Ref) :=
  (L.filter fun j => decide (j.info.source = some (.journal journalId)) && j.info.event.isStage).map
    fun j => (j.info.event, j.ref)

/-- The references whose undo is among these. -/
def undoneRefs (refs : List (EntryEvent × Ref)) : List Ref :=
  refs.filterMap fun x => match x.2 with
    | .undo r => some r
    | _ => none

/-- How many steps of a stage stand: each undo cancels the step it names. -/
def stageNet (refs : List (EntryEvent × Ref)) (stage : Stage) : Int :=
  ((refs.filter fun x => decide (x.1 = stage.event)).map fun x => if x.2.isUndo then -1 else 1).sum

/-- An earning's status from its stage journals. -/
def stageOf (journalId : Nat) (refs : List (EntryEvent × Ref)) : EarningStatus :=
  if (EntryEvent.reversal, Ref.earningReversal journalId) ∈ refs then .reversed
  else if 0 < stageNet refs .staffPayment then .paid
  else if 0 < stageNet refs .approval then .approved
  else .pending

def earningStatus (L : Ledger) (journalId : Nat) : EarningStatus := stageOf journalId (stageRefs L journalId)

def journalOf (L : Ledger) (journalId : Nat) : Option LedgerJournal :=
  L.find? fun j => decide (j.id = journalId)

def payableLeg (j : LedgerJournal) : Option (Id × Leg) :=
  j.legs.findSome? fun e => match e.key with
    | ⟨.staff s, .payable, _⟩ => some (s, e)
    | _ => none

def EntryEvent.isEarning : EntryEvent → Bool
  | .earning | .tip => true
  | _ => false

def loadEarning (L : Ledger) (journalId : Nat) : Option Earning :=
  match journalOf L journalId with
  | none => none
  | some j =>
    if j.info.event.isEarning then
      (payableLeg j).map fun x =>
        ⟨journalId, x.1, x.2.tag, -x.2.cents, earningStatus L journalId, j.info.event, j.info.metadata.basis⟩
    else none

/-- The posting that moves an earning one stage on. -/
def stagePosting (L : Ledger) (e : Earning) (stage : Stage) (metadata : Metadata) : Posting where
  event := stage.event
  ref := .stage stage e.id
    ((stageRefs L e.id).filter fun x => decide (x.1 = stage.event) && !x.2.isUndo).length
  legs := match stage with
    | .approval =>
      [legOf (.staff e.staffId) .payable e.amountCents .pending,
        legOf (.staff e.staffId) .payable (-e.amountCents) .approved]
    | .staffPayment =>
      [legOf (.staff e.staffId) .payable e.amountCents .approved, leg .business .bank (-e.amountCents)]
  source := some (.journal e.id)
  subject := e.subject
  metadata := metadata

/-- The steps of a stage that were not undone. -/
def standing (L : Ledger) (journalId : Nat) (stage : Stage) : List Ref :=
  let refs := stageRefs L journalId
  (refs.filter fun x => decide (x.1 = stage.event) && !x.2.isUndo && decide (x.2 ∉ undoneRefs refs)).map
    (·.2)

/-- Approve (pending payable to approved), pay (approved to bank) or undo either one. -/
def moveEarning (L : Ledger) (e : Earning) (move : Move) (metadata : Metadata) : Except Error Ledger :=
  if move.isUndo then
    match standing L e.id move.stage with
    | [ref] =>
      match L.find ref with
      | some j =>
        reverse L j (.undo ref) move.stage.event (some (.journal e.id)) { run := j.info.metadata.run }
      | none => .error .indeterminate
    -- exactly one step stands, or the unpacking raises
    | _ => .error .indeterminate
  else post L (stagePosting L e move.stage metadata)

end ClientBridge
