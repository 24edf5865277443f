import ClientBridge.Ledger.Store

/-!
# What a visit is billed on

A visit points at the sale and the invoice it is on, and at the package or membership that covers it;
the lines of sales and invoices name visits.  Sales and covers read the visit under its row lock, while
`draft_for_booking` and `issue_invoice` read it before they lock it.
-/

namespace ClientBridge

inductive VisitStatus where
  | waiting | confirmed | completed | canceled | noShow
  deriving DecidableEq, Repr

/-- A visit's row. -/
structure Visit where
  status : VisitStatus
  charged : Bool
  orderId : Option Id
  invoiceId : Option Id
  packageId : Option Id
  subscriptionId : Option Id
  deriving DecidableEq, Repr

/-- A sale, with the visits its lines name. -/
structure SaleVisits where
  void : Bool
  visits : List Id

structure InvoiceVisits where
  status : InvoiceStatus
  visits : List Id

/-- The committed rows and the row locks taken. -/
structure VisitBooks (π : Type) where
  visits : Id → Visit
  sales : Id → Option SaleVisits
  invoices : Id → Option InvoiceVisits
  visitLock : Id → Option π
  saleLock : Id → Option π
  invoiceLock : Id → Option π

/-- What a visit is billed on. -/
inductive VisitBill where
  | sale (id : Id)
  | invoice (id : Id)
  | package (id : Id)
  | membership (id : Id)
  deriving DecidableEq, Repr

namespace VisitBooks

variable {π : Type}

/-- It stands on the lines of a sale that is not void, on those of an invoice that was issued and is not
void, on a package session or on a membership visit. -/
def Billed (s : VisitBooks π) (visit : Id) : VisitBill → Prop
  | .sale id => ∃ d, s.sales id = some d ∧ d.void = false ∧ visit ∈ d.visits
  | .invoice id => ∃ d, s.invoices id = some d ∧ d.status = .sent ∧ visit ∈ d.visits
  | .package id => (s.visits visit).packageId = some id
  | .membership id => (s.visits visit).subscriptionId = some id

/-- The sale a visit points at is there and not void. -/
def saleStands (s : VisitBooks π) (sale : Option Id) : Bool := (sale.bind s.sales).any fun d => !d.void

/-- The invoice a visit points at is there and not void, be it only a draft. -/
def invoiceStands (s : VisitBooks π) (invoice : Option Id) : Bool :=
  (invoice.bind s.invoices).any fun d => decide (d.status ≠ .void)

end VisitBooks

/-! ## The checks -/

def Visit.covered (v : Visit) : Bool := v.packageId.isSome || v.subscriptionId.isSome

variable {π : Type}

/-- Whether a sale may take a visit (`_link_visits`). -/
def linkable (s : VisitBooks π) (sale : Id) (v : Visit) : Except String Unit :=
  if v.charged || v.covered then .error "this visit has already been paid for"
  else if s.invoiceStands v.invoiceId then .error "this visit is already billed on an invoice"
  else if v.orderId ≠ some sale ∧ s.saleStands v.orderId then .error "this visit is already on another sale"
  else .ok ()

/-- A package or membership covers an open, unbilled visit (`assert_coverable`). -/
def assertCoverable (s : VisitBooks π) (v : Visit) : Except String Unit :=
  if v.status ≠ .confirmed ∨ v.orderId ≠ none ∨ v.charged ∨ s.invoiceStands v.invoiceId then
    .error "only an open visit that isn't billed can be covered"
  else .ok ()

/-- `draft_for_booking` refuses a visit while an earlier invoice stands. -/
def assertDraftable (s : VisitBooks π) (v : Visit) : Except String Unit :=
  if s.invoiceStands v.invoiceId then .error "this visit already has an invoice" else .ok ()

/-- `issue_invoice` refuses visits that are on a sale. -/
def assertIssuable (s : VisitBooks π) (visits : List Id) : Except String Unit :=
  if visits.any fun b => s.saleStands (s.visits b).orderId then .error "this visit is already on a sale" else .ok ()

/-- What covers a visit. -/
inductive Cover where
  | package (id : Id)
  | membership (id : Id)

def Visit.cover (v : Visit) : Cover → Visit
  | .package id => { v with packageId := some id, status := .completed }
  | .membership id => { v with subscriptionId := some id, status := .completed }

/-- A confirmed visit that is now paid or billed is done, once it has started (`close_settled_visit`). -/
def Visit.closeSettled (v : Visit) (started : Bool) : Visit :=
  if v.status = .confirmed ∧ started then { v with status := .completed } else v

/-! ## The transactions -/

inductive VisitPlace where
  | idle
  /-- A sale is created or edited: it holds the visits on it and those it lets go. -/
  | selling (sale : Id) (visits : List Id)
  | voidingSale (sale : Id)
  /-- The visit was read to draft its invoice. -/
  | drafting (visit : Id) (read : Visit)
  /-- The invoice is locked, or is made now, and its visits were read. -/
  | issuing (invoice : Id) (visits : List Id) (read : Id → Visit)
  | covering (visit : Id) (cover : Cover)
  | rolledBack

namespace VisitBooks

variable [DecidableEq π]

def free (lock : Id → Option π) (p : π) : Id → Option π := fun id => if lock id = some p then none else lock id

def release (s : VisitBooks π) (p : π) : VisitBooks π :=
  { s with visitLock := free s.visitLock p, saleLock := free s.saleLock p, invoiceLock := free s.invoiceLock p }

/-- The visits a sale's writer locks: those it takes and those that point at it. -/
def linked (s : VisitBooks π) (sale : Id) (visits : List Id) (b : Id) : Prop :=
  b ∈ visits ∨ (s.visits b).orderId = some sale

instance (s : VisitBooks π) (sale : Id) (visits : List Id) (b : Id) : Decidable (s.linked sale visits b) :=
  inferInstanceAs (Decidable (_ ∨ _))

def lockSale (s : VisitBooks π) (p : π) (sale : Id) (visits : List Id) : VisitBooks π :=
  { s with
    saleLock := Function.update s.saleLock sale (some p)
    visitLock := fun b => if s.linked sale visits b then some p else s.visitLock b }

/-- The sale's lines name these visits, which point at it; others no longer do. -/
def sell (s : VisitBooks π) (sale : Id) (visits : List Id) (void : Bool) : VisitBooks π :=
  { s with
    sales := Function.update s.sales sale (some ⟨void, visits⟩)
    visits := fun b =>
      let v := s.visits b
      if b ∈ visits then { v with orderId := some sale }
      else if v.orderId = some sale then { v with orderId := none }
      else v }

/-- A sale is voided, and its visits no longer point at it; its lines stay. -/
def voidSale (s : VisitBooks π) (sale : Id) : VisitBooks π :=
  { s with
    sales := Function.update s.sales sale ((s.sales sale).map fun d => { d with void := true })
    visits := fun b =>
      let v := s.visits b
      if v.orderId = some sale then { v with orderId := none } else v }

def putInvoice (s : VisitBooks π) (id : Id) (d : InvoiceVisits) : VisitBooks π :=
  { s with invoices := Function.update s.invoices id (some d) }

def putVisit (s : VisitBooks π) (b : Id) (v : Visit) : VisitBooks π :=
  { s with visits := Function.update s.visits b v }

/-- The invoice goes out; a visit that was read without an invoice points at it. -/
def issue (s : VisitBooks π) (invoice : Id) (visits : List Id) (read : Id → Visit) (started : Id → Bool) : VisitBooks π :=
  { s.putInvoice invoice ⟨.sent, visits⟩ with
    visits := fun b =>
      let v := s.visits b
      if b ∈ visits then
        ({ v with invoiceId := if (read b).invoiceId = none then some invoice else v.invoiceId }).closeSettled (started b)
      else v }

end VisitBooks

/-- A few statements of a transaction.  Who inserts a row holds its lock until it commits. -/
inductive VisitStep [DecidableEq π] (p : π) : VisitBooks π → VisitPlace → VisitBooks π → VisitPlace → Prop
  /-- `create_order`, `update_order` -/
  | sell {s sale visits} (hl : s.saleLock sale = none) (hv : ∀ b, s.linked sale visits b → s.visitLock b = none)
      (h : ∀ b ∈ visits, linkable s sale (s.visits b) = .ok ()) :
      VisitStep p s .idle (s.lockSale p sale visits) (.selling sale visits)
  | sold {s sale visits} :
      VisitStep p s (.selling sale visits) ((s.sell sale visits ((s.sales sale).any (·.void))).release p) .idle
  | voidSale {s sale d} (hl : s.saleLock sale = none) (hd : s.sales sale = some d) (hv : d.void = false)
      (h : ∀ b, s.linked sale [] b → s.visitLock b = none) :
      VisitStep p s .idle (s.lockSale p sale []) (.voidingSale sale)
  | saleVoided {s sale} : VisitStep p s (.voidingSale sale) ((s.voidSale sale).release p) .idle
  | readVisit {s} (b : Id) (h : assertDraftable s (s.visits b) = .ok ()) :
      VisitStep p s .idle s (.drafting b (s.visits b))
  | drafted {s b read} (id : Id) (hid : s.invoices id = none) (hl : s.invoiceLock id = none) (hv : s.visitLock b = none) :
      VisitStep p s (.drafting b read)
        ((s.putInvoice id ⟨.draft, [b]⟩).putVisit b { s.visits b with invoiceId := some id }) .idle
  /-- `create_invoice`, and an estimate turned into one -/
  | draft {s} (id : Id) (visits : List Id) (hid : s.invoices id = none) (hl : s.invoiceLock id = none) :
      VisitStep p s .idle (s.putInvoice id ⟨.draft, visits⟩) .idle
  | editDraft {s} (id : Id) (visits : List Id) {old : List Id} (hd : s.invoices id = some ⟨.draft, old⟩)
      (hl : s.invoiceLock id = none) : VisitStep p s .idle (s.putInvoice id ⟨.draft, visits⟩) .idle
  /-- `issue_invoice` on a draft, or on an invoice created and sent at once -/
  | readVisits {s} (id : Id) (visits : List Id) (hl : s.invoiceLock id = none)
      (hd : s.invoices id = none ∨ s.invoices id = some ⟨.draft, visits⟩) (h : assertIssuable s visits = .ok ()) :
      VisitStep p s .idle { s with invoiceLock := Function.update s.invoiceLock id (some p) } (.issuing id visits s.visits)
  | issued {s id visits read} (started : Id → Bool) (hv : ∀ b ∈ visits, s.visitLock b = none) :
      VisitStep p s (.issuing id visits read) ((s.issue id visits read started).release p) .idle
  /-- `void_invoice`, `void_enrolment_invoice` -/
  | voidInvoice {s id d} (hl : s.invoiceLock id = none) (hd : s.invoices id = some d) :
      VisitStep p s .idle (s.putInvoice id { d with status := .void }) .idle
  | cover {s} (b : Id) (cover : Cover) (hl : s.visitLock b = none) (h : assertCoverable s (s.visits b) = .ok ()) :
      VisitStep p s .idle { s with visitLock := Function.update s.visitLock b (some p) } (.covering b cover)
  | covered {s b cover} :
      VisitStep p s (.covering b cover) ((s.putVisit b ((s.visits b).cover cover)).release p) .idle
  /-- What bookings and payments do to a visit; one that is completed stays so. -/
  | move {s} (b : Id) (status : VisitStatus) (charged : Bool) (hl : s.visitLock b = none)
      (h : (s.visits b).status = .completed → status = .completed) :
      VisitStep p s .idle (s.putVisit b { s.visits b with status := status, charged := charged }) .idle
  | rollback {s x} : VisitStep p s x (s.release p) .rolledBack

end ClientBridge
