import ClientBridge.Ledger.Settlement
import ClientBridge.Library.Interleave

/-!
# Stock of the online shop

Units are held by the lines of a document with a live payment until the payment settles, and
move out of stock then (`sync_parent_stock`).  `assert_parent_stock` lets an online order be
placed or settled if the stock covers its lines beside what other documents hold.  A transaction
runs a few statements at a time between those of others and keeps its row locks to its commit.
-/

namespace ClientBridge

/-- The document a line or a payment belongs to. -/
inductive SaleDocument where
  | order (id : Id)
  | invoice (id : Id)
  deriving DecidableEq, Repr

/-- A line that sells an item. -/
structure StockLine where
  id : Id
  document : SaleDocument
  itemId : Id
  quantity : ℚ
  quantity_pos : 0 < quantity
  deriving DecidableEq

/-- Whole units, half up. -/
def StockLine.units (l : StockLine) : Int := ⌊l.quantity + 1 / 2⌋

inductive MoveReason where
  | sale | refund
  deriving DecidableEq, Repr

structure ShopPayment where
  id : Id
  document : SaleDocument
  status : PaymentStatus
  deriving DecidableEq, Repr

structure ShopOrder where
  source : OrderSource
  status : OrderStatus
  deriving DecidableEq, Repr

/-- The committed rows and the row locks taken.  `movements` are the stock movements that name
a line; `late` lists the orders whose payment settled when they held nothing any more. -/
structure ShopStore (π : Type) where
  stock : Id → Int
  orders : Id → Option ShopOrder
  lines : List StockLine
  payments : List ShopPayment
  movements : List (Id × MoveReason)
  itemLock : Id → Option π
  orderLock : Id → Option π
  late : List Id

/-- `lines`' units of an item (`wanted`). -/
def wanted (lines : List StockLine) (item : Id) : Int :=
  ((lines.filter fun l => decide (l.itemId = item)).map fun l => max l.units 0).sum

/-- The items `assert_parent_stock` locks, in the order it locks them. -/
def wantedItems (tracked : Id → Bool) (lines : List StockLine) : List Id :=
  ((Dict.fromKeys (lines.map (·.itemId))).filter tracked).insertionSort (· ≤ ·)

namespace ShopStore

variable {π : Type}

def sold (s : ShopStore π) (lineId : Id) : Bool := decide ((lineId, .sale) ∈ s.movements)

/-- Whether a document has a payment that is pending, failed or succeeded. -/
def active (s : ShopStore π) (document : SaleDocument) : Bool :=
  s.payments.any fun p => decide (p.document = document) && decide (p.status ≠ .canceled)

def unsold (s : ShopStore π) (document : SaleDocument) : List StockLine :=
  s.lines.filter fun l => decide (l.document = document) && !s.sold l.id

/-- The units of an item on unsold lines of the documents that `c` picks. -/
def unitsOn (s : ShopStore π) (item : Id) (c : SaleDocument → Bool) : Int :=
  ((s.lines.filter fun l => decide (l.itemId = item) && (!s.sold l.id && c l.document)).map (·.units)).sum

/-- What the live payments of other documents hold of an item. -/
def held (s : ShopStore π) (item : Id) (document : SaleDocument) : Int :=
  s.unitsOn item fun d => s.active d && decide (d ≠ document)

/-- `strict` for an online order; elsewhere only what others hold is kept for them. -/
def assertParentStock (tracked : Id → Bool) (s : ShopStore π) (document : SaleDocument) (strict : Bool)
    (lines : List StockLine) : Except String Unit :=
  if (wantedItems tracked lines).any fun i =>
      (strict || decide (0 < s.held i document)) && decide (s.stock i - s.held i document < wanted lines i)
  then .error "not enough stock available for this sale"
  else .ok ()

/-! ## Writing rows -/

/-- A line's movement, once for each reason (`_move_once`). -/
def moveOnce (s : ShopStore π) (l : StockLine) (reason : MoveReason) (quantity : Int) : ShopStore π :=
  if (l.id, reason) ∈ s.movements then s
  else { s with
    movements := (l.id, reason) :: s.movements
    stock := Function.update s.stock l.itemId (s.stock l.itemId + quantity) }

/-- The lines a document's state moves (`sync_parent_stock`), in item order. -/
def syncLines (tracked : Id → Bool) (s : ShopStore π) (document : SaleDocument) (status : DocumentState) :
    List StockLine :=
  if status = .paid ∨ status = .refunded then
    (s.lines.filter fun l => decide (l.document = document) && tracked l.itemId).insertionSort
      fun l l' => l.itemId ≤ l'.itemId
  else []

/-- Whether a line's turn in `sync_parent_stock` comes to `_move_once`. -/
def moves (s : ShopStore π) (status : DocumentState) (l : StockLine) : Bool :=
  decide (0 < l.units) && (decide (status = .paid) || s.sold l.id)

def syncMove (status : DocumentState) (s : ShopStore π) (l : StockLine) : ShopStore π :=
  if status = .paid then s.moveOnce l .sale (-l.units) else s.moveOnce l .refund l.units

def setStatus (s : ShopStore π) (id : Id) (status : PaymentStatus) : ShopStore π :=
  { s with payments := s.payments.map fun p => if p.id = id then { p with status := status } else p }

/-- An online order with its lines and its pending payment. -/
def place (s : ShopStore π) (order : Id) (lines : List StockLine) (payment : Id) : ShopStore π :=
  { s with
    orders := Function.update s.orders order (some ⟨.online, .open⟩)
    lines := s.lines ++ lines
    payments := s.payments ++ [⟨payment, .order order, .pending⟩] }

/-- The ids of new rows are new, so nothing refers to them yet. -/
structure Fresh (s : ShopStore π) (order payment : Id) : Prop where
  noOrder : s.orders order = none
  noLine : ∀ l ∈ s.lines, l.document ≠ .order order
  noPayment : ∀ q ∈ s.payments, q.document ≠ .order order
  paymentId : ∀ q ∈ s.payments, q.id ≠ payment

def restock (s : ShopStore π) (item : Id) (quantity : Int) : ShopStore π :=
  { s with stock := Function.update s.stock item (s.stock item + quantity) }

def lockItem (s : ShopStore π) (p : π) (item : Id) : ShopStore π :=
  { s with itemLock := Function.update s.itemLock item (some p) }

def lockOrder (s : ShopStore π) (p : π) (order : Id) : ShopStore π :=
  { s with orderLock := Function.update s.orderLock order (some p) }

/-- The end of a transaction. -/
def release [DecidableEq π] (s : ShopStore π) (p : π) : ShopStore π :=
  { s with
    itemLock := fun i => if s.itemLock i = some p then none else s.itemLock i
    orderLock := fun o => if s.orderLock o = some p then none else s.orderLock o }

end ShopStore

/-- A settling intent: its order, the payment row it was found under, if any, and the status the
row had. -/
structure ShopCharge where
  order : Id
  row : Option Id
  seen : PaymentStatus
  deriving DecidableEq, Repr

namespace ShopStore

variable {π : Type}

/-- The payment is written as succeeded; a payment without a row gets one (`_payment_from_intent`). -/
def succeed (s : ShopStore π) (c : ShopCharge) (newId : Id) : ShopStore π :=
  match c.row with
  | some id => s.setStatus id .succeeded
  | none => { s with payments := s.payments ++ [⟨newId, .order c.order, .succeeded⟩] }

/-- A payment settles on an order that is gone; the money goes back. -/
def succeedVoid (s : ShopStore π) (c : ShopCharge) (newId : Id) : ShopStore π :=
  { s.succeed c newId with
    orders := Function.update s.orders c.order ((s.orders c.order).map fun o => { o with status := .void })
    late := if s.active (.order c.order) then s.late else c.order :: s.late }

end ShopStore

/-! ## The transactions -/

/-- Where a transaction is. -/
inductive ShopPlace where
  | idle
  /-- `order`: its items are being locked. -/
  | ordering (order : Id) (lines : List StockLine) (left : List Id)
  | ordered (order : Id) (lines : List StockLine)
  /-- `_settle_payment`: the payment was read, without a lock. -/
  | settling (c : ShopCharge)
  | expired (c : ShopCharge)
  | settlingOpen (c : ShopCharge)
  | checking (c : ShopCharge) (lines : List StockLine) (left : List Id)
  /-- `sync_parent_stock`, in a settlement or after a refund. -/
  | syncing (order : Id) (paying : Option ShopCharge) (status : DocumentState) (left moving : List StockLine)
  /-- `_fail_payment`: the payment was read as pending. -/
  | failing (payment : Id)

open ShopStore in
/-- A few statements of a transaction.  What the ledger says of an order that is not void is left
open; no correction takes units of `item` away. -/
inductive ShopStep {π : Type} [DecidableEq π] (tracked : Id → Bool) (item : Id) (p : π) :
    ShopStore π → ShopPlace → ShopStore π → ShopPlace → Prop
  | order {s order lines} (hl : ∀ l ∈ lines, l.document = .order order) :
      ShopStep tracked item p s .idle s (.ordering order lines (wantedItems tracked lines))
  | orderItem {s order lines i left} (h : s.itemLock i = none) :
      ShopStep tracked item p s (.ordering order lines (i :: left)) (s.lockItem p i) (.ordering order lines left)
  | orderCheck {s order lines} (h : s.assertParentStock tracked (.order order) true lines = .ok ()) :
      ShopStep tracked item p s (.ordering order lines []) s (.ordered order lines)
  | orderCommit {s order lines payment} (h : s.Fresh order payment) :
      ShopStep tracked item p s (.ordered order lines) ((s.place order lines payment).release p) .idle
  | read {s q order} (hq : q ∈ s.payments) (hd : q.document = .order order) :
      ShopStep tracked item p s .idle s (.settling ⟨order, some q.id, q.status⟩)
  | rebuilt {s order o} (ho : s.orders order = some o) :
      ShopStep tracked item p s .idle s (.settling ⟨order, none, .pending⟩)
  | lockVoid {s c o} (hl : s.orderLock c.order = none) (ho : s.orders c.order = some o) (hv : o.status = .void)
      (hc : c.seen ≠ .succeeded) :
      ShopStep tracked item p s (.settling c) (s.lockOrder p c.order) (.expired c)
  | lockOpen {s c o} (hl : s.orderLock c.order = none) (ho : s.orders c.order = some o) (hv : o.status = .open)
      (honline : o.source = .online) (hc : c.seen = .pending ∨ c.seen = .failed) :
      ShopStep tracked item p s (.settling c) (s.lockOrder p c.order) (.settlingOpen c)
  | lines {s c} :
      ShopStep tracked item p s (.settlingOpen c) s
        (.checking c (s.unsold (.order c.order)) (wantedItems tracked (s.unsold (.order c.order))))
  | checkItem {s c lines i left} (h : s.itemLock i = none) :
      ShopStep tracked item p s (.checking c lines (i :: left)) (s.lockItem p i) (.checking c lines left)
  | check {s c lines status} (h : s.assertParentStock tracked (.order c.order) true lines = .ok ()) :
      ShopStep tracked item p s (.checking c lines []) s
        (.syncing c.order (some c) status (s.syncLines tracked (.order c.order) status) [])
  | outOfStock {s c lines newId e} (h : s.assertParentStock tracked (.order c.order) true lines = .error e)
      (hnew : ∀ q ∈ s.payments, q.id ≠ newId) :
      ShopStep tracked item p s (.checking c lines []) ((s.succeedVoid c newId).release p) .idle
  | settleVoid {s c newId} (hnew : ∀ q ∈ s.payments, q.id ≠ newId) :
      ShopStep tracked item p s (.expired c) ((s.succeedVoid c newId).release p) .idle
  | refund {s q order o status} (hq : q ∈ s.payments) (hd : q.document = .order order)
      (hs : q.status = .succeeded) (ho : s.orders order = some o) (hv : o.status = .void → status = .void) :
      ShopStep tracked item p s .idle s
        (.syncing order none status (s.syncLines tracked (.order order) status) [])
  | moveLine {s order paying status l left moving} (h : s.moves status l = true)
      (hl : s.itemLock l.itemId = none ∨ s.itemLock l.itemId = some p) :
      ShopStep tracked item p s (.syncing order paying status (l :: left) moving) (s.lockItem p l.itemId)
        (.syncing order paying status left (moving ++ [l]))
  | skipLine {s order paying status l left moving} (h : s.moves status l = false) :
      ShopStep tracked item p s (.syncing order paying status (l :: left) moving) s
        (.syncing order paying status left moving)
  | settled {s order c status moving newId} (hnew : ∀ q ∈ s.payments, q.id ≠ newId) :
      ShopStep tracked item p s (.syncing order (some c) status [] moving)
        ((moving.foldl (syncMove status) (s.succeed c newId)).release p) .idle
  | refunded {s order status moving} :
      ShopStep tracked item p s (.syncing order none status [] moving)
        ((moving.foldl (syncMove status) s).release p) .idle
  | fail {s q} (hq : q ∈ s.payments) (hs : q.status = .pending) :
      ShopStep tracked item p s .idle s (.failing q.id)
  | failed {s id} : ShopStep tracked item p s (.failing id) (s.setStatus id .failed) .idle
  | restock {s i quantity} (ht : tracked i = true) (hl : s.itemLock i = none) (hq : i = item → 0 ≤ quantity) :
      ShopStep tracked item p s .idle (s.restock i quantity) .idle
  | rollback {s x} : ShopStep tracked item p s x (s.release p) .idle

end ClientBridge
