import ClientBridge.Billing.Pricing
import ClientBridge.Ledger.Journals
import ClientBridge.Library.Interleave

/-!
# Estimates, invoices and sales as priced documents

A document's totals are columns of its own row, its lines are rows of another table.  Each
command reads both, prices and taxes the lines, and writes the columns it changed.  Most hold the
document's row lock over all of that; `update_order` and a staff member's answer to an estimate
read the document's row before they have the lock.
-/

namespace ClientBridge

inductive BillStatus where
  | draft | sent | accepted | declined | open | void
  deriving DecidableEq, Repr

def BillStatus.text : BillStatus → String
  | .draft => "draft"
  | .sent => "sent"
  | .accepted => "accepted"
  | .declined => "declined"
  | .open => "open"
  | .void => "void"

/-- A line with its id, which the column writes go by. -/
structure BillLine where
  id : Id
  row : LineRow
  deriving DecidableEq

/-- The columns of a document's own row. -/
structure BillRow where
  status : BillStatus
  discount : Discounted
  subtotalCents : Int := 0
  taxTotalCents : Int := 0
  totalCents : Int := 0
  deriving DecidableEq, Repr

/-- A document with its lines in position order. -/
structure BillDocument where
  parent : LineParent
  row : BillRow
  lines : List BillLine
  deriving DecidableEq

def lineRows (lines : List BillLine) : List LineRow := lines.map (·.row)

/-- The lines with their rows' columns as given. -/
def withRows (lines : List BillLine) (rows : List LineRow) : List BillLine :=
  List.zipWith (fun l r => ⟨l.id, r⟩) lines rows

/-! ## Pricing and taxing a document -/

/-- The rates a business charges and whether it collects tax at all, at one instant. -/
structure TaxSettings where
  rates : List TaxComponent
  registered : Bool

/-- The tax engine's result for the lines, and the lines with their tax written. -/
def taxForLines (settings : TaxSettings) (rows : List LineRow) : List LineRow × TaxResult :=
  let result := computeTax (rows.map LineRow.taxLine) settings.rates settings.registered false
  (List.zipWith (fun r t => { r with taxAmountCents := t.taxCents }) rows result.lines, result)

/-- The document's totals over its included lines, from a result computed for every line. -/
def includedTotals (rows : List LineRow) (result : TaxResult) : TaxResult :=
  Tax.total (((rows.zip result.lines).filter fun x => x.1.included).map (·.2))

def applyTotals (row : BillRow) (result : TaxResult) : BillRow :=
  { row with
    subtotalCents := result.subtotalCents
    taxTotalCents := result.taxTotalCents
    totalCents := result.totalCents }

def retotal (settings : TaxSettings) (row : BillRow) (lines : List BillLine) : BillRow × List BillLine :=
  let (rows, result) := taxForLines settings (lineRows lines)
  (applyTotals row (includedTotals rows result), withRows lines rows)

/-- The lines priced again (`_repriced`). -/
def repriced (row : BillRow) (lines : List BillLine) : List BillLine :=
  withRows lines (priceLines (lineRows lines) (some row.discount))

/-- A document's lines rebuilt from a request, under new ids. -/
def newLines (parent : LineParent) (inputs : List (Id × LineInput)) (document : Option Discounted) :
    Except String (List BillLine) :=
  (replaceLines parent (inputs.map (·.2)) document).map fun rows =>
    List.zipWith (fun inp r => ⟨inp.1, r⟩) inputs rows

/-- A draft estimate goes out. -/
def issueEstimate (settings : TaxSettings) (row : BillRow) (lines : List BillLine) : BillRow × List BillLine :=
  let (row, lines) := retotal settings row lines
  ({ row with status := .sent }, lines)

/-- A draft invoice goes out; every line of it counts. -/
def issueInvoice (settings : TaxSettings) (row : BillRow) (lines : List BillLine) : BillRow × List BillLine :=
  let (rows, result) := taxForLines settings (lineRows lines)
  ({ applyTotals row result with status := .sent }, withRows lines rows)

/-- A new document from a request, sent at once if `send` says so. -/
def created (parent : LineParent) (discount : Option DiscountIn) (inputs : List (Id × LineInput))
    (settings : TaxSettings) (send : Bool) : Except String BillDocument :=
  let row : BillRow := { status := if parent = .order then .open else .draft, discount := setDiscount discount }
  match newLines parent inputs (some row.discount) with
  | .error e => .error e
  | .ok lines =>
    let (row, lines) := retotal settings row lines
    match parent, send with
    | .estimate, true =>
      if lines.any (·.row.included) then
        let (row, lines) := issueEstimate settings row lines
        .ok ⟨parent, row, lines⟩
      else .error "add a line before sending the estimate"
    | .invoice, true =>
      if lines = [] then .error "add a line before sending the invoice"
      else
        let (row, lines) := issueInvoice settings row lines
        .ok ⟨parent, row, lines⟩
    | _, _ => .ok ⟨parent, row, lines⟩

/-- An order of the online shop; its lines are priced without a document. -/
def orderedOnline (inputs : List (Id × LineInput)) (settings : TaxSettings) : Except String BillDocument :=
  (newLines .order inputs none).map fun lines =>
    let (rows, result) := taxForLines settings (lineRows lines)
    ⟨.order, applyTotals { status := .open, discount := ⟨none, none⟩ } result, withRows lines rows⟩

/-- The invoice of a subscription's period, split from the price charged (`_recurring_invoice`). -/
def recurringInvoice (lineId : Id) (taxClass : TaxClass) (paid : Int) (settings : TaxSettings) : BillDocument :=
  let result := computeTax [{ amountCents := paid, taxClass := taxClass }] settings.rates settings.registered true
  let base := paid - result.taxTotalCents
  ⟨.invoice, applyTotals { status := .sent, discount := ⟨none, none⟩ } result,
    [⟨lineId,
      { quantity := 1, unitAmountCents := base, taxClass := taxClass, discount := ⟨none, none⟩,
        amountCents := base, taxAmountCents := result.taxTotalCents }⟩]⟩

/-! ## Writing columns -/

/-- What a column holds after a flush, which writes it only if it was changed since it was read. -/
def column {α : Type} [DecidableEq α] (read new current : α) : α := if new = read then current else new

@[simp] theorem column_read {α : Type} [DecidableEq α] (read new : α) : column read new read = new := by
  unfold column
  split
  · next h => exact h.symm
  · rfl

def Discounted.flush (read new current : Discounted) : Discounted :=
  ⟨column read.kind new.kind current.kind, column read.value new.value current.value⟩

def LineRow.flush (read new current : LineRow) : LineRow where
  quantity := column read.quantity new.quantity current.quantity
  unitAmountCents := column read.unitAmountCents new.unitAmountCents current.unitAmountCents
  taxClass := column read.taxClass new.taxClass current.taxClass
  optional := column read.optional new.optional current.optional
  selected := column read.selected new.selected current.selected
  discount := read.discount.flush new.discount current.discount
  discountCents := column read.discountCents new.discountCents current.discountCents
  saleDiscountCents := column read.saleDiscountCents new.saleDiscountCents current.saleDiscountCents
  amountCents := column read.amountCents new.amountCents current.amountCents
  taxAmountCents := column read.taxAmountCents new.taxAmountCents current.taxAmountCents

def BillRow.flush (read new current : BillRow) : BillRow where
  status := column read.status new.status current.status
  discount := read.discount.flush new.discount current.discount
  subtotalCents := column read.subtotalCents new.subtotalCents current.subtotalCents
  taxTotalCents := column read.taxTotalCents new.taxTotalCents current.taxTotalCents
  totalCents := column read.totalCents new.totalCents current.totalCents

/-- What a command does to the lines: it writes each as it changed since it was read, or deletes
whatever lines the document has and inserts others. -/
inductive LineWrite where
  | updated (written : List (BillLine × BillLine))
  | replaced (lines : List BillLine)
  deriving DecidableEq

/-- What a command writes of a document. -/
structure BillWrite where
  read : BillRow
  row : BillRow
  lines : LineWrite
  deriving DecidableEq

def flushLine (written : List (BillLine × BillLine)) (l : BillLine) : BillLine :=
  match written.find? fun x => decide (x.1.id = l.id) with
  | some x => ⟨l.id, x.1.row.flush x.2.row l.row⟩
  | none => l

/-- The document after a flush; an update of a line that is gone raises, and a line that did not
change is not written. -/
def BillWrite.flush (w : BillWrite) (doc : BillDocument) : Option BillDocument :=
  let row := w.read.flush w.row doc.row
  match w.lines with
  | .replaced lines => some { doc with row := row, lines := lines }
  | .updated written =>
    if written.all fun x => decide (x.1.id ∈ doc.lines.map (·.id)) || decide (x.2 = x.1) then
      some { doc with row := row, lines := doc.lines.map (flushLine written) }
    else none

/-! ## The commands -/

/-- The row with the discount a request gives, if it gives one. -/
def BillRow.withDiscount (row : BillRow) (discount : Option (Option DiscountIn)) : BillRow :=
  match discount with
  | some d => { row with discount := setDiscount d }
  | none => row

/-- Edit a document's discount or its lines, or only price it again. -/
def edited (parent : LineParent) (read : BillRow) (lines : List BillLine) (discount : Option (Option DiscountIn))
    (inputs : Option (List (Id × LineInput))) (settings : TaxSettings) : Except String BillWrite :=
  let row := read.withDiscount discount
  match inputs with
  | some inputs => (newLines parent inputs (some row.discount)).map fun new =>
    let (row, new) := retotal settings row new
    ⟨read, row, .replaced new⟩
  | none =>
    let (row, new) := retotal settings row (repriced row lines)
    .ok ⟨read, row, .updated (lines.zip new)⟩

/-- Tick the chosen add-ons and price the document's discount over everything included (`_tick_addons`). -/
def tickAddons (row : BillRow) (lines : List BillLine) (lineIds : List Id) : Except String (List BillLine) :=
  if lineIds.all fun id => lines.any fun l => l.row.optional && decide (l.id = id) then
    .ok (repriced row (lines.map fun l =>
      ⟨l.id, { l.row with selected := l.row.optional && decide (l.id ∈ lineIds) }⟩))
  else .error "only an optional add-on can be ticked"

/-- The commands that read a document under its row lock.  `expired` says that a sent estimate is
past its last day. -/
inductive BillCommand where
  /-- `update_invoice`, `update_estimate` -/
  | update (discount : Option (Option DiscountIn)) (inputs : Option (List (Id × LineInput)))
  /-- `send_invoice`, `send_estimate` -/
  | send (expired : Bool)
  /-- The client's own answer. -/
  | accept (expired : Bool) (lineIds : List Id) (totalCents : Option Int)
  | decline (expired : Bool)

/-- The ids of the lines a request brings. -/
def lineInputIds (inputs : Option (List (Id × LineInput))) : List Id := (inputs.getD []).map (·.1)

def BillCommand.newIds : BillCommand → List Id
  | .update _ inputs => lineInputIds inputs
  | _ => []

/-- A document written as it was read. -/
def BillDocument.unchanged (doc : BillDocument) : BillWrite := ⟨doc.row, doc.row, .updated []⟩

/-- `estimate_status` -/
def BillDocument.estimateStatus (doc : BillDocument) (expired : Bool) : String :=
  if doc.row.status = .sent ∧ expired then "expired" else doc.row.status.text

def BillDocument.sendable (doc : BillDocument) (expired : Bool) : Except String Unit :=
  if doc.estimateStatus expired ∈ ["accepted", "declined", "expired"] then
    .error s!"a {doc.estimateStatus expired} estimate can't be sent"
  else .ok ()

def BillDocument.answerable (doc : BillDocument) (expired : Bool) : Except String Unit :=
  if doc.estimateStatus expired = "sent" then .ok ()
  else .error s!"this estimate is already {doc.estimateStatus expired}"

def BillCommand.run (settings : TaxSettings) (doc : BillDocument) : BillCommand → Except String BillWrite
  | .update discount inputs =>
    match doc.parent with
    | .invoice =>
      if doc.row.status = .draft then edited .invoice doc.row doc.lines discount inputs settings
      else .error "only a draft invoice can be edited"
    | .estimate =>
      if doc.row.status = .draft ∨ doc.row.status = .sent then
        edited .estimate doc.row doc.lines discount inputs settings
      else .error "only a draft or sent estimate can be edited"
    | .order => .error "invoice not found"
  | .send expired =>
    match doc.parent with
    | .invoice =>
      if doc.row.status = .void then .error "a void invoice can't be sent"
      else if doc.row.status = .draft then
        let (row, lines) := issueInvoice settings doc.row doc.lines
        .ok ⟨doc.row, row, .updated (doc.lines.zip lines)⟩
      else .ok doc.unchanged
    | .estimate =>
      match doc.sendable expired with
      | .error e => .error e
      | .ok () =>
        if doc.row.status = .draft then
          let (row, lines) := issueEstimate settings doc.row doc.lines
          .ok ⟨doc.row, row, .updated (doc.lines.zip lines)⟩
        else .ok doc.unchanged
    | .order => .error "invoice not found"
  | .accept expired lineIds totalCents =>
    if doc.parent ≠ .estimate then .error "estimate not found"
    else match doc.answerable expired with
      | .error e => .error e
      | .ok () =>
        match tickAddons doc.row doc.lines lineIds with
        | .error e => .error e
        | .ok ticked =>
          let (row, lines) := retotal settings doc.row ticked
          if totalCents.any fun n => decide (n ≠ row.totalCents) then
            .error "this estimate changed since it was shown"
          else .ok ⟨doc.row, { row with status := .accepted }, .updated (doc.lines.zip lines)⟩
  | .decline expired =>
    if doc.parent ≠ .estimate then .error "estimate not found"
    else (doc.answerable expired).map fun _ =>
      ⟨doc.row, { doc.row with status := .declined }, .updated []⟩

/-- The commands that read the document's row before they have its lock. -/
inductive EarlyCommand where
  | updateOrder (discount : Option (Option DiscountIn)) (inputs : Option (List (Id × LineInput)))
  /-- `_set_estimate_status` -/
  | acceptEstimate
  | declineEstimate

def EarlyCommand.newIds : EarlyCommand → List Id
  | .updateOrder _ inputs => lineInputIds inputs
  | _ => []

/-- What such a command writes, from the row as it was loaded and the lines as they are read later. -/
def EarlyCommand.run (settings : TaxSettings) (loaded : BillRow) (lines : List BillLine) :
    EarlyCommand → Except String BillWrite
  | .updateOrder discount inputs => edited .order loaded lines discount inputs settings
  | .acceptEstimate =>
    let row := { loaded with status := .accepted }
    let (row, new) := retotal settings row (repriced row lines)
    .ok ⟨loaded, row, .updated (lines.zip new)⟩
  | .declineEstimate => .ok ⟨loaded, { loaded with status := .declined }, .updated []⟩

/-- Whether a command starts on a document as it loads it. -/
def EarlyCommand.starts (doc : BillDocument) : EarlyCommand → Bool
  | .updateOrder _ _ => decide (doc.parent = .order ∧ doc.row.status = .open)
  | _ => decide (doc.parent = .estimate ∧
      (doc.row.status = .sent ∨ doc.row.status = .accepted ∨ doc.row.status = .declined))

/-- Documents that haven't fixed their tax; quotes, payments and gift cards may rule out more. -/
def BillDocument.open (doc : BillDocument) : Bool :=
  match doc.parent with
  | .invoice => decide (doc.row.status = .draft)
  | .estimate => decide (doc.row.status = .draft ∨ doc.row.status = .sent)
  | .order => decide (doc.row.status = .open)

/-- What `_reprice` writes of a document it has locked. -/
def BillDocument.reprice (settings : TaxSettings) (doc : BillDocument) : BillWrite :=
  let (row, lines) := retotal settings doc.row doc.lines
  ⟨doc.row, row, .updated (doc.lines.zip lines)⟩

/-! ## The transactions -/

/-- The committed documents and the row locks taken. -/
structure BillStore (π : Type) where
  docs : Id → Option BillDocument
  lock : Id → Option π

inductive BillPlace where
  | idle
  /-- It holds the locks of the documents and has written them; the next step commits. -/
  | writing (writes : List (Id × BillWrite))
  /-- `_reprice`: it locks one document after the other. -/
  | repricing (settings : TaxSettings) (writes : List (Id × BillWrite))
  /-- The document's row was loaded, without a lock. -/
  | loaded (id : Id) (row : BillRow) (cmd : EarlyCommand)
  /-- An estimate that was accepted is accepted again: its lines were read, still without a lock. -/
  | accepting (id : Id) (row : BillRow) (lines : List BillLine)
  | rolledBack

namespace BillStore

variable {π : Type} [DecidableEq π]

def lockDoc (s : BillStore π) (p : π) (id : Id) : BillStore π := { s with lock := Function.update s.lock id (some p) }

def release (s : BillStore π) (p : π) : BillStore π :=
  { s with lock := fun id => if s.lock id = some p then none else s.lock id }

def put (s : BillStore π) (id : Id) (doc : BillDocument) : BillStore π :=
  { s with docs := Function.update s.docs id (some doc) }

/-- All that a transaction wrote; a write that raises leaves nothing written. -/
def write (s : BillStore π) : List (Id × BillWrite) → Option (BillStore π)
  | [] => some s
  | x :: writes =>
    match (s.docs x.1).bind x.2.flush with
    | some doc => (s.put x.1 doc).write writes
    | none => none

end BillStore

/-- A few statements of a transaction.  A row under a lock is as it was when the lock was taken, so
the lines are read with it. -/
inductive BillStep {π : Type} [DecidableEq π] (p : π) : BillStore π → BillPlace → BillStore π → BillPlace → Prop
  | create {s id doc parent discount inputs settings send} (hid : s.docs id = none)
      (hids : (inputs.map (·.1)).Nodup) (h : created parent discount inputs settings send = .ok doc) :
      BillStep p s .idle (s.put id doc) .idle
  | orderOnline {s id doc inputs settings} (hid : s.docs id = none) (hids : (inputs.map (·.1)).Nodup)
      (h : orderedOnline inputs settings = .ok doc) : BillStep p s .idle (s.put id doc) .idle
  | recur {s id lineId taxClass paid settings} (hid : s.docs id = none) :
      BillStep p s .idle (s.put id (recurringInvoice lineId taxClass paid settings)) .idle
  | lock {s id doc settings cmd w} (hl : s.lock id = none) (hd : s.docs id = some doc)
      (hids : cmd.newIds.Nodup) (h : BillCommand.run settings doc cmd = .ok w) :
      BillStep p s .idle (s.lockDoc p id) (.writing [(id, w)])
  | load {s id doc cmd} (hd : s.docs id = some doc) (h : cmd.starts doc = true) :
      BillStep p s .idle s (.loaded id doc.row cmd)
  | lockLoaded {s id row doc settings cmd w} (hl : s.lock id = none) (hd : s.docs id = some doc)
      (hst : cmd = .acceptEstimate → row.status ≠ .accepted) (hids : cmd.newIds.Nodup)
      (h : EarlyCommand.run settings row doc.lines cmd = .ok w) :
      BillStep p s (.loaded id row cmd) (s.lockDoc p id) (.writing [(id, w)])
  | acceptAgain {s id row doc} (hd : s.docs id = some doc) (hst : row.status = .accepted) :
      BillStep p s (.loaded id row .acceptEstimate) s (.accepting id row doc.lines)
  | acceptedAgain {s id row lines settings w s'} (hl : s.lock id = none)
      (h : EarlyCommand.run settings row lines .acceptEstimate = .ok w) (hw : s.write [(id, w)] = some s') :
      BillStep p s (.accepting id row lines) s' .idle
  | reprice {s settings} : BillStep p s .idle s (.repricing settings [])
  | repriceNext {s id doc settings writes} (hl : s.lock id = none) (hd : s.docs id = some doc)
      (ho : doc.open = true) :
      BillStep p s (.repricing settings writes) (s.lockDoc p id)
        (.repricing settings (writes ++ [(id, doc.reprice settings)]))
  | repriced {s settings writes} : BillStep p s (.repricing settings writes) s (.writing writes)
  | commit {s writes s'} (h : s.write writes = some s') :
      BillStep p s (.writing writes) (s'.release p) .idle
  | rollback {s x} : BillStep p s x (s.release p) .rolledBack

end ClientBridge
