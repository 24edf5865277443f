import ClientBridge.Billing.Documents
import ClientBridge.Ledger.Settlement

/-!
# Editing, repricing and paying one sale

A sale stores only whether it was voided; that it is paid or refunded comes from its payments and
the gift cards applied to it.  Every command but one reads this under the sale's row lock.
`update_order` reads it before, and looks only for payments again once it has the lock.
-/

namespace ClientBridge

/-- How far a sale is paid, from what was collected and applied (`_order_status`). -/
def saleStatus (voided : Bool) (total paid applied : Int) (refunded : Bool) : DocumentState :=
  let covered := paid + applied
  if voided then .void
  else if paid ≤ 0 ∧ refunded then .refunded
  else if 0 < covered ∧ (total ≤ covered ∨ refunded) then .paid
  else .open

/-- It is the state the ledger gives an order. -/
theorem orderState_eq (db : Db) (order : Order) : orderState db order =
    saleStatus (decide (order.status = .void)) order.totalCents (collected db (.order order.id))
      (orderDepositApplied db order.id + giftCardApplied db.ledger order.id) (refunded db (.order order.id)) := by
  unfold orderState saleStatus
  simp only [decide_eq_true_eq]

/-! ## A sale -/

/-- A payment's row with what is booked of it. -/
structure SaleCharge where
  id : Id
  provider : PaymentProvider
  amountCents : Int
  tipCents : Int
  status : PaymentStatus
  /-- What its journal applied of the visits' deposits, once it is posted. -/
  posted : Option Int
  /-- Its booked refunds. -/
  returned : List Int
  deriving DecidableEq

structure Sale where
  doc : BillDocument
  source : OrderSource
  payments : List SaleCharge
  /-- The gift card redemptions that were not reversed. -/
  redeemed : List (Id × Int)
  deriving DecidableEq

/-- The part of a visit's deposits that a sale takes, one visit after the other (`takeDeposits`). -/
def takeHeld : List Int → Int → Int
  | [], _ => 0
  | held :: rest, want =>
    let take := min want held
    if 0 < take then take + takeHeld rest (want - take) else takeHeld rest want

/-- The cash a charge left on the sale. -/
def SaleCharge.left (p : SaleCharge) : Int :=
  if p.posted.isSome then p.amountCents - p.returned.sum else 0

def SaleCharge.settled (p : SaleCharge) : Bool := decide (p.status = .pending ∨ p.status = .succeeded)

def SaleCharge.active (p : SaleCharge) : Bool := decide (p.status ≠ .failed ∧ p.status ≠ .canceled)

/-- An open card intent, but for one with the tip to keep. -/
def SaleCharge.cancels (keepTip : Option Int) (p : SaleCharge) : Bool :=
  decide (p.provider = .stripe) && decide (p.status = .pending ∨ p.status = .failed) &&
    !decide (keepTip = some p.tipCents)

/-- A failed attempt that Stripe closed has nothing left to confirm. -/
def SaleCharge.cancel (keepTip : Option Int) (closed : Id → Bool) (p : SaleCharge) : SaleCharge :=
  if p.cancels keepTip && !closed p.id then { p with status := .canceled } else p

namespace Sale

def collected (s : Sale) : Int := (s.payments.map SaleCharge.left).sum

def refunded (s : Sale) : Bool := s.payments.any fun p => p.posted.isSome && !p.returned.isEmpty

def deposit (s : Sale) : Int := (s.payments.map fun p => p.posted.getD 0).sum

def gift (s : Sale) : Int := (s.redeemed.map (·.2)).sum

def tips (s : Sale) : Int := ((s.payments.filter fun p => decide (p.status = .succeeded)).map (·.tipCents)).sum

def voided (s : Sale) : Bool := decide (s.doc.row.status = .void)

def state (s : Sale) : DocumentState :=
  saleStatus s.voided s.doc.row.totalCents s.collected (s.deposit + s.gift) s.refunded

/-- What a sale still owes, less the deposits held on its visits (`order_money`). -/
def due (s : Sale) (held : List Int) : Int :=
  if s.state = .open then
    max 0 (s.doc.row.totalCents - min held.sum s.doc.row.totalCents - s.gift - (s.collected - s.tips))
  else 0

def hasActivePayment (s : Sale) : Bool := s.payments.any (·.active)

/-- Open tickets nothing was paid against (`_unpaid_order`). -/
def unpaid (s : Sale) : Bool :=
  decide (s.doc.row.status = .open) && !s.payments.any (·.settled) && decide (s.gift = 0)

/-- A ticket brought to the settings of the moment, if nothing fixed it yet (`reprice_ticket`). -/
def repriced (s : Sale) (settings : TaxSettings) : Sale :=
  if s.unpaid then
    let (row, lines) := retotal settings s.doc.row s.doc.lines
    { s with doc := { s.doc with row := row, lines := lines } }
  else s

def withStatus (s : Sale) (status : BillStatus) : Sale :=
  { s with doc := { s.doc with row := { s.doc.row with status := status } } }

/-- A charge's row, changed or added. -/
def putCharge (s : Sale) (p : SaleCharge) (f : SaleCharge → SaleCharge) : Sale :=
  if p.id ∈ s.payments.map (·.id) then
    { s with payments := s.payments.map fun q => if q.id = p.id then f q else q }
  else { s with payments := s.payments ++ [f p] }

/-- A charge succeeded and is posted, once, with what is then held for the sale. -/
def book (s : Sale) (p : SaleCharge) (held : List Int) : Sale :=
  let applied := takeHeld held (s.doc.row.totalCents - (p.amountCents - p.tipCents))
  s.putCharge p fun q => { q with status := .succeeded, posted := some (q.posted.getD applied) }

/-- A charge given back in full; its refund is booked when the gateway confirms it. -/
def giveBack (s : Sale) (p : SaleCharge) (confirmed : Bool) : Sale :=
  if confirmed then s.putCharge p fun q => { q with returned := q.returned ++ [q.amountCents] } else s

/-- Cancel the sale's open card intents but those with the tip to keep; `closed` says which of
them Stripe has closed already. -/
def cancelIntents (s : Sale) (keepTip : Option Int) (closed : Id → Bool) : Except String Sale :=
  if s.payments.any (fun p => p.cancels keepTip && closed p.id && decide (p.status = .pending)) then
    .error "the card payment already went through"
  else .ok { s with payments := s.payments.map (SaleCharge.cancel keepTip closed) }

/-- Only an open sale with lines can be charged. -/
def chargeable (s : Sale) : Except String Unit :=
  if s.state ≠ .open then .error "only an open order can be paid"
  else if s.doc.lines = [] then .error "add something to the sale first"
  else .ok ()

end Sale

/-! ## The commands -/

def DocumentState.text : DocumentState → String
  | .draft => "draft"
  | .open => "open"
  | .sent => "sent"
  | .partlyPaid => "partly_paid"
  | .overdue => "overdue"
  | .paid => "paid"
  | .refunded => "refunded"
  | .void => "void"

/-- The commands that read the sale under its row lock.  `held` are the deposits held on its visits,
`closed` tells which intents Stripe has closed. -/
inductive SaleCommand where
  | voidOrder (connected : Bool) (closed : Id → Bool)
  | applyGiftCard (settings : TaxSettings) (card : Id) (usable : Bool) (balance : Int) (held : List Int)
  | payCash (settings : TaxSettings) (id : Id) (tip tendered : Int) (held : List Int)
  /-- `checkout` and `pay_by_card`; `saved` is a card on file, and `replayed` a retry of an earlier intent. -/
  | checkout (settings : TaxSettings) (id : Id) (tip : Int) (held : List Int) (closed : Id → Bool) (saved replayed : Bool)

/-- Only what is due may be charged, less what other charges are pending for (`_assert_order_room`). -/
def Sale.assertRoom (s : Sale) (amount due : Int) : Except String Unit :=
  if due - ((s.payments.filter fun p => decide (p.status = .pending)).map fun p => p.amountCents - p.tipCents).sum < amount then
    .error "this order already has a checkout in progress"
  else .ok ()

def SaleCommand.run (s : Sale) : SaleCommand → Except String Sale
  | .voidOrder connected closed =>
    if s.state ≠ .open ∧ ¬(s.state = .paid ∧ s.source = .pos) then .error s!"a {s.state.text} order can't be voided"
    else match if s.state = .open ∧ connected then s.cancelIntents none closed else .ok s with
      | .error e => .error e
      | .ok s =>
        if s.hasActivePayment then .error "can't void an order after checkout has started"
        else .ok { s.withStatus .void with redeemed := [] }
  | .applyGiftCard settings card usable balance held =>
    let s := s.repriced settings
    match s.chargeable with
    | .error e => .error e
    | .ok () =>
      let amount := min balance (s.due held)
      if s.hasActivePayment then .error "this sale already has a payment"
      else if !usable then .error "only an active gift card can be used"
      else if amount ≤ 0 then .error "nothing is left to pay on this sale"
      else .ok { s with redeemed := s.redeemed ++ [(card, amount)] }
  | .payCash settings id tip tendered held =>
    let s := s.repriced settings
    match s.chargeable with
    | .error e => .error e
    | .ok () =>
      let amount := s.due held + tip
      if s.hasActivePayment then .error "this sale already has a payment"
      else if tendered < amount then .error "the cash handed over doesn't cover the sale"
      else .ok (s.book ⟨id, .manual, amount, tip, .succeeded, none, []⟩ held)
  | .checkout settings id tip held closed saved replayed =>
    let s := s.repriced settings
    let due := s.due held
    match s.chargeable with
    | .error e => .error e
    | .ok () =>
      if !saved && replayed then .ok s
      else match s.cancelIntents (some tip) closed with
        | .error e => .error e
        | .ok s =>
          match s.assertRoom due due with
          | .error e => .error e
          | .ok () =>
            if replayed then .ok s
            else .ok { s with payments := s.payments ++ [⟨id, .stripe, due + tip, tip, .pending, none, []⟩] }

/-- A charge settles, from its row as it was loaded before the sale was locked. -/
def Sale.settle (s : Sale) (p : SaleCharge) (inStock confirmed : Bool) (held : List Int) : Sale :=
  if p.status ≠ .pending ∧ p.status ≠ .failed ∧ ¬(s.voided ∧ p.status = .canceled) then s
  else
    -- an online order whose stock is gone is voided now
    let s := if s.source = .online ∧ !s.voided ∧ !inStock then s.withStatus .void else s
    let late := s.voided || decide (s.due held < p.amountCents - p.tipCents)
    let s := s.book p held
    if late then s.giveBack p confirmed else s

/-- What an update asks for. -/
structure SaleUpdate where
  discount : Option (Option DiscountIn)
  inputs : Option (List (Id × LineInput))

/-- `update_order` on the locked sale, from the row it loaded before. -/
def Sale.update (s : Sale) (settings : TaxSettings) (loaded : BillRow) (data : SaleUpdate) : Except String Sale :=
  if s.hasActivePayment then .error "can't edit an order after checkout has started"
  else match EarlyCommand.run settings loaded s.doc.lines (.updateOrder data.discount data.inputs) with
    | .error e => .error e
    | .ok w =>
      match w.flush s.doc with
      | none => .error "the lines are gone"
      | some doc =>
        .ok { s with
          doc := doc
          redeemed := if data.discount.isSome || data.inputs.isSome then [] else s.redeemed }

/-! ## The transactions -/

/-- The committed sale and who holds its row lock. -/
structure SaleStore (π : Type) where
  sale : Sale
  lock : Option π

/-- What a transaction is about to commit. -/
inductive SaleChange where
  | update
  | reprice
  | command (cmd : SaleCommand)
  | settlement

inductive SalePlace where
  | idle
  /-- `update_order`: the sale was loaded, then read open, then without an active payment. -/
  | loaded (row : BillRow)
  | readOpen (row : BillRow)
  | checked (row : BillRow)
  /-- A charge that settles: its row was read, or is made anew. -/
  | settling (p : SaleCharge)
  /-- `_reprice` has the lock and reads the conditions again. -/
  | repricing (settings : TaxSettings)
  /-- It has the lock and has written the sale; the next step commits. -/
  | writing (change : SaleChange) (sale : Sale)
  | rolledBack

/-- A few statements of a transaction.  The checks that `checkout` and `pay_by_card` make before the
lock are made again under it. -/
inductive SaleEditStep {π : Type} [DecidableEq π] (p : π) : SaleStore π → SalePlace → SaleStore π → SalePlace → Prop
  | load {s} : SaleEditStep p s .idle s (.loaded s.sale.doc.row)
  | checkOpen {s row} (h : s.sale.state = .open) : SaleEditStep p s (.loaded row) s (.readOpen row)
  | checkPayments {s row} (h : s.sale.hasActivePayment = false) : SaleEditStep p s (.readOpen row) s (.checked row)
  | update {s row settings data sale} (hl : s.lock = none) (h : s.sale.update settings row data = .ok sale) :
      SaleEditStep p s (.checked row) { s with lock := some p } (.writing .update sale)
  | command {s sale} (cmd : SaleCommand) (hl : s.lock = none) (h : cmd.run s.sale = .ok sale) :
      SaleEditStep p s .idle { s with lock := some p } (.writing (.command cmd) sale)
  | lockReprice {s settings} (hl : s.lock = none) :
      SaleEditStep p s .idle { s with lock := some p } (.repricing settings)
  | reprice {s settings} :
      SaleEditStep p s (.repricing settings) s (.writing .reprice (s.sale.repriced settings))
  | loadCharge {s charge} (h : charge ∈ s.sale.payments) : SaleEditStep p s .idle s (.settling charge)
  | newCharge {s} (id amount tip) : SaleEditStep p s .idle s (.settling ⟨id, .stripe, amount, tip, .pending, none, []⟩)
  | settle {s charge} (inStock confirmed held) (hl : s.lock = none) :
      SaleEditStep p s (.settling charge) { s with lock := some p }
        (.writing .settlement (s.sale.settle charge inStock confirmed held))
  | commit {s change sale} : SaleEditStep p s (.writing change sale) ⟨sale, none⟩ .idle
  | rollback {s x} : SaleEditStep p s x { s with lock := if s.lock = some p then none else s.lock } .rolledBack

end ClientBridge
