import ClientBridge.Billing.Lines
import ClientBridge.Ledger.Settlement
import ClientBridge.Library.DelimitedText
import ClientBridge.Library.Dict

/-!
# Payments rebuilt from their intents

A payment command opens an intent at Stripe and inserts a pending row for it.  When it rolls back the
row is lost, and the webhook that reports the charge rebuilds it from the intent.  The rebuilt row is
the lost one but for its method, which reads card also when a bank account was debited (`rebuilt_iff`);
settling it posts the same journals.
-/

namespace ClientBridge.Intents

open DelimitedText

/-! ## Tips -/

/-- A tip and who it goes to. -/
structure TipTerms where
  cents : Int := 0
  split : List (Text × Int) := []
  deriving DecidableEq, Repr

def noTip : TipTerms := {}

def TipTerms.stored (tip : TipTerms) : Option (List (Text × Int)) := if tip.cents ≤ 0 then none else some tip.split

structure TipShareIn where
  staffId : Text
  cents : Int
  pos : 0 < cents

/-- Who a tip goes to: as given, else by line value to whoever did each line.  A line is its workers and
their shares of it. -/
def resolveTip (staff : List Text) (cents : Int) (split : List TipShareIn) (lines : List (List (Text × Int)))
    (fallbackStaffId : Text) : Except String TipTerms :=
  if cents ≤ 0 then
    if split.isEmpty then .ok noTip else .error "a tip split needs a tip"
  else if !split.isEmpty then
    if (split.map (·.cents)).sum ≠ cents then .error "the tip split must add up to the tip"
    else if !split.all fun share => share.staffId ∈ staff then .error "staff member not found"
    else .ok ⟨cents, split.map fun share => (share.staffId, share.cents)⟩
  else
    let weights := Dict.collect (lines.flatten.filter fun share => 0 < share.2)
    if weights.isEmpty then .ok ⟨cents, [(fallbackStaffId, cents)]⟩
    else .ok ⟨cents, (Dict.keys weights).zip (allocate cents (weights.map (·.2)))⟩

/-! ## Intents -/

/-- The metadata of an intent, by its keys. -/
structure Metadata where
  businessId : Option Text := none
  invoiceId : Option Text := none
  orderId : Option Text := none
  bookingId : Option Text := none
  tipCents : Option Text := none
  tipSplit : Option Text := none
  deriving DecidableEq, Repr

/-- An intent as a webhook delivers it. -/
structure Intent where
  id : Text
  amount : Option Int
  currency : Option Text
  metadata : Option Metadata
  deriving DecidableEq, Repr

/-- A currency code, as items are given one. -/
structure Currency where
  code : Text
  letters : code.length = 3 ∧ code.all Char.isUpper = true
  deriving DecidableEq

def businessCurrency : Currency := ⟨['C', 'A', 'D'], rfl, rfl⟩

/-- The tip on the intent, so a rebuilt row can post the same staff payables. -/
def tipMetadata (tip : TipTerms) (metadata : Metadata) : Metadata :=
  let metadata := { metadata with tipCents := some (decimal tip.cents) }
  if tip.split.isEmpty then metadata else { metadata with tipSplit := some (joinPairs ',' ':' tip.split) }

def tipFromMetadata (metadata : Metadata) : Except String TipTerms := do
  let parts ← match metadata.tipSplit with
    | some split =>
      match splitPairs ',' ':' split with
      | some parts => .ok parts
      | none => .error "not enough values to unpack (expected 2, got 1)"
    | none => .ok []
  return {
    cents := match metadata.tipCents with
      -- `isdigit` takes the digits of any script; the numbers on an intent are ASCII
      | some cents => if isDigits cents then ofDigits cents else 0
      | none => 0
    split := (parts.filter fun part => isDigits part.2).map fun part => (part.1, ofDigits part.2) }

/-- What Stripe is asked to open: the amount, the currency in small letters and the metadata. -/
structure IntentParams where
  amount : Int
  currency : Text
  metadata : Metadata
  deriving DecidableEq, Repr

/-- Stripe's answer to what it is asked. -/
abbrev Stripe := IntentParams → Except String Intent

/-- Stripe opens intents of positive amounts only, and keeps the amount, the currency and the metadata
that it was given. -/
def Stripe.Keeps (stripe : Stripe) : Prop :=
  ∀ params intent, stripe params = .ok intent → 0 < params.amount ∧
    intent.amount = some params.amount ∧ intent.currency = some params.currency ∧ intent.metadata = some params.metadata

def createPaymentIntent (stripe : Stripe) (amount : Int) (currency : Currency) (metadata : Metadata) :
    Except String Intent :=
  stripe ⟨amount, currency.code.map Char.toLower, metadata⟩

/-! ## Rows -/

structure Invoice where
  id : Text
  businessId : Text
  clientId : Text
  currency : Currency
  deriving DecidableEq

structure Order where
  id : Text
  businessId : Text
  clientId : Option Text
  currency : Currency
  deriving DecidableEq

structure Booking where
  id : Text
  businessId : Text
  clientId : Text
  deriving DecidableEq

structure SavedMethod where
  businessId : Text
  providerRef : Text
  method : PayMethod
  deriving DecidableEq

/-- What a payment is for. -/
inductive Target where
  | invoice (id : Text)
  | order (id : Text)
  | booking (id : Text)
  deriving DecidableEq, Repr

/-- A payment's row, its id and times apart. -/
structure PaymentRow where
  businessId : Text
  clientId : Option Text
  kind : PaymentKind
  target : Target
  amountCents : Int
  tipCents : Int
  tipSplit : Option (List (Text × Int))
  currency : Text
  method : PayMethod
  provider : PaymentProvider
  providerRef : Text
  status : PaymentStatus
  deriving DecidableEq

/-- The documents a database holds. -/
structure Documents where
  invoices : List Invoice
  orders : List Order
  bookings : List Booking

/-- The client of a business's document, if the document is there. -/
def Documents.client? (docs : Documents) (businessId : Text) : Target → Option (Option Text)
  | .invoice id => (docs.invoices.find? fun d => d.businessId = businessId ∧ d.id = id).map fun d => some d.clientId
  | .order id => (docs.orders.find? fun d => d.businessId = businessId ∧ d.id = id).map (·.clientId)
  | .booking id => (docs.bookings.find? fun d => d.businessId = businessId ∧ d.id = id).map fun d => some d.clientId

/-! ## The commands -/

/-- How a charge is paid: a saved bank account debits by PAD, anything else is a card. -/
def chargeMethod (saved : List SavedMethod) (businessId : Text) : Option Text → PayMethod
  | none => .card
  | some paymentMethod =>
    match saved.find? fun m => m.businessId = businessId ∧ m.providerRef = paymentMethod with
    | some m => if m.method = .bankEft then .bankEft else .card
    | none => .card

/-- Open an intent for an invoice, and its pending row. -/
def openCardPayment (saved : List SavedMethod) (stripe : Stripe) (invoice : Invoice) (amount : Int)
    (paymentMethod : Option Text) (tip : TipTerms) : Except String (Intent × PaymentRow) := do
  let intent ← createPaymentIntent stripe amount invoice.currency
    (tipMetadata tip { invoiceId := some invoice.id, businessId := some invoice.businessId })
  return (intent, {
    businessId := invoice.businessId
    clientId := some invoice.clientId
    kind := .payment
    target := .invoice invoice.id
    amountCents := amount
    tipCents := tip.cents
    tipSplit := tip.stored
    currency := invoice.currency.code
    method := chargeMethod saved invoice.businessId paymentMethod
    provider := .stripe
    providerRef := intent.id
    status := .pending })

/-- Open an intent for a sale, and its pending row. -/
def openOrderPayment (stripe : Stripe) (order : Order) (amount : Int) (method : PayMethod) (tip : TipTerms) :
    Except String (Intent × PaymentRow) := do
  let intent ← createPaymentIntent stripe amount order.currency
    (tipMetadata tip { orderId := some order.id, businessId := some order.businessId })
  return (intent, {
    businessId := order.businessId
    clientId := order.clientId
    kind := .payment
    target := .order order.id
    amountCents := amount
    tipCents := tip.cents
    tipSplit := tip.stored
    currency := order.currency.code
    method := method
    provider := .stripe
    providerRef := intent.id
    status := .pending })

def openOrderCardPayment (saved : List SavedMethod) (stripe : Stripe) (order : Order) (amount : Int)
    (paymentMethod : Option Text) (tip : TipTerms) : Except String (Intent × PaymentRow) :=
  openOrderPayment stripe order amount (chargeMethod saved order.businessId paymentMethod) tip

/-- A card at the reader. -/
def openTerminalPayment (stripe : Stripe) (order : Order) (amount : Int) (tip : TipTerms) :
    Except String (Intent × PaymentRow) :=
  openOrderPayment stripe order amount .card tip

/-- Open an intent for a visit's deposit, and its pending row. -/
def openBookingDeposit (saved : List SavedMethod) (stripe : Stripe) (booking : Booking) (amount : Int)
    (paymentMethod : Option Text) : Except String (Intent × PaymentRow) := do
  let intent ← createPaymentIntent stripe amount businessCurrency
    { bookingId := some booking.id, businessId := some booking.businessId }
  return (intent, {
    businessId := booking.businessId
    clientId := some booking.clientId
    kind := .deposit
    target := .booking booking.id
    amountCents := amount
    tipCents := 0
    tipSplit := none
    currency := businessCurrency.code
    method := chargeMethod saved booking.businessId paymentMethod
    provider := .stripe
    providerRef := intent.id
    status := .pending })

/-- A command that opens an intent for a document. -/
inductive PaymentCommand where
  | payInvoice (invoice : Invoice) (paymentMethod : Option Text) (tip : TipTerms)
  | payOrder (order : Order) (paymentMethod : Option Text) (tip : TipTerms)
  | checkout (order : Order) (tip : TipTerms)
  | payDeposit (booking : Booking) (paymentMethod : Option Text)

namespace PaymentCommand

def tip : PaymentCommand → TipTerms
  | payInvoice _ _ tip | payOrder _ _ tip | checkout _ tip => tip
  | payDeposit _ _ => noTip

/-- The intent it opens and the row it inserts. -/
def opened (saved : List SavedMethod) (stripe : Stripe) (amount : Int) : PaymentCommand → Except String (Intent × PaymentRow)
  | payInvoice invoice paymentMethod tip => openCardPayment saved stripe invoice amount paymentMethod tip
  | payOrder order paymentMethod tip => openOrderCardPayment saved stripe order amount paymentMethod tip
  | checkout order tip => openTerminalPayment stripe order amount tip
  | payDeposit booking paymentMethod => openBookingDeposit saved stripe booking amount paymentMethod

/-- What it charges. -/
def method (saved : List SavedMethod) : PaymentCommand → PayMethod
  | payInvoice invoice paymentMethod _ => chargeMethod saved invoice.businessId paymentMethod
  | payOrder order paymentMethod _ => chargeMethod saved order.businessId paymentMethod
  | checkout _ _ => .card
  | payDeposit booking paymentMethod => chargeMethod saved booking.businessId paymentMethod

def businessId : PaymentCommand → Text
  | payInvoice invoice _ _ => invoice.businessId
  | payOrder order _ _ | checkout order _ => order.businessId
  | payDeposit booking _ => booking.businessId

def target : PaymentCommand → Target
  | payInvoice invoice _ _ => .invoice invoice.id
  | payOrder order _ _ | checkout order _ => .order order.id
  | payDeposit booking _ => .booking booking.id

def clientId : PaymentCommand → Option Text
  | payInvoice invoice _ _ => some invoice.clientId
  | payOrder order _ _ | checkout order _ => order.clientId
  | payDeposit booking _ => some booking.clientId

end PaymentCommand

/-! ## The webhook -/

/-- The document an intent names: an invoice before a sale, a sale before a visit. -/
def Metadata.target? (metadata : Metadata) : Option Target :=
  match metadata.invoiceId, metadata.orderId, metadata.bookingId with
  | some invoiceId, _, _ => some (.invoice invoiceId)
  | none, some orderId, _ => some (.order orderId)
  | none, none, some bookingId => some (.booking bookingId)
  | none, none, none => none

def Target.kind : Target → PaymentKind
  | .booking _ => .deposit
  | _ => .payment

/-- Rebuild the pending row for our own intent whose command never committed. -/
def paymentFromIntent (docs : Documents) (intent : Intent) : Except String (Option PaymentRow) :=
  match intent.metadata with
  | none => .ok none
  | some metadata =>
    match metadata.businessId, intent.amount with
    | some biz, some amount =>
      if amount ≤ 0 then .ok none
      else do
        let tip ← tipFromMetadata metadata
        match metadata.target? with
        | none => return none
        | some target =>
          match docs.client? biz target with
          | none => return none
          | some clientId =>
            return some {
              businessId := biz
              clientId := clientId
              kind := target.kind
              target := target
              amountCents := amount
              tipCents := tip.cents
              tipSplit := tip.stored
              currency := match intent.currency with
                | some currency => currency.map Char.toUpper
                | none => businessCurrency.code
              method := .card
              provider := .stripe
              providerRef := intent.id
              status := .pending }
    | _, _ => .ok none

/-! ## Settling a row -/

def PaymentRow.shares (row : PaymentRow) : List (Text × Int) := row.tipSplit.getD []

/-- The row as the ledger reads it, with `idOf` for its ids; a tip that its shares add up to is part of the
amount. -/
def PaymentRow.payment? (idOf : Text → Id) (id : Id) (createdAt : Int) (row : PaymentRow) : Option Payment :=
  if h : (∀ s ∈ row.shares.map fun s => (idOf s.1, s.2), 0 ≤ s.2) ∧
      ((row.shares.map fun s => (idOf s.1, s.2)).map (·.2)).sum = row.tipCents ∧ row.tipCents ≤ row.amountCents then
    some {
      id := id
      clientId := row.clientId.map idOf
      kind := row.kind
      parentPaymentId := none
      invoiceId := match row.target with | .invoice id => some (idOf id) | _ => none
      orderId := match row.target with | .order id => some (idOf id) | _ => none
      bookingId := match row.target with | .booking id => some (idOf id) | _ => none
      amountCents := row.amountCents
      tip := ⟨row.tipCents, row.shares.map fun s => (idOf s.1, s.2), h.1, h.2.1⟩
      method := row.method
      provider := row.provider
      providerRef := some (idOf row.providerRef)
      status := row.status
      reason := none
      disputeStatus := none
      createdAt := createdAt
      tip_le := h.2.2
      target := by cases row.target <;> simp }
  else none

/-- What settling a row posts: its journal and those of its tip. -/
def settleRow (db : Db) (idOf : Text → Id) (id : Id) (createdAt : Int) (row : PaymentRow) : Option (Except Error Db) :=
  (row.payment? idOf id createdAt).map (postPayment db)

/-! ## A tip is read back -/

/-- No amount of the tip is negative. -/
structure TipTerms.WellSplit (tip : TipTerms) : Prop where
  nonneg : 0 ≤ tip.cents
  shares : ∀ s ∈ tip.split, 0 ≤ s.2

/-- No id in the split has one of the marks that part the shares. -/
def TipTerms.PlainIds (tip : TipTerms) : Prop := ∀ s ∈ tip.split, ',' ∉ s.1 ∧ ':' ∉ s.1

@[simp] theorem tipMetadata_businessId (tip : TipTerms) (metadata : Metadata) :
    (tipMetadata tip metadata).businessId = metadata.businessId := by
  unfold tipMetadata
  dsimp only
  split <;> rfl

@[simp] theorem tipMetadata_target? (tip : TipTerms) (metadata : Metadata) :
    (tipMetadata tip metadata).target? = metadata.target? := by
  unfold tipMetadata
  dsimp only
  split <;> rfl

theorem collect_nonneg {xs : List (Text × Int)} (h : ∀ x ∈ xs, 0 ≤ x.2) : ∀ n ∈ (Dict.collect xs).map (·.2), 0 ≤ n := by
  intro n hn
  obtain ⟨x, hx, rfl⟩ := List.mem_map.1 hn
  rw [← Dict.get_of_mem (Dict.nodup_collect xs) hx, Dict.get_collect]
  refine List.sum_nonneg fun m hm => ?_
  obtain ⟨y, hy, rfl⟩ := List.mem_map.1 hm
  exact h y (List.mem_of_mem_filter hy)

/-- Whoever a tip goes to, it is well split. -/
theorem wellSplit_of_resolved {staff : List Text} {cents : Int} {split : List TipShareIn} {lines : List (List (Text × Int))}
    {fallbackStaffId : Text} {tip : TipTerms} (h : resolveTip staff cents split lines fallbackStaffId = .ok tip) :
    tip.WellSplit := by
  unfold resolveTip at h
  split at h
  · split at h
    · cases h
      exact ⟨le_refl 0, fun s hs => by cases hs⟩
    · cases h
  · next hpos =>
    have hcents : 0 ≤ cents := by omega
    split at h
    · split at h
      · cases h
      · split at h
        · cases h
        · cases h
          refine ⟨hcents, fun s hs => ?_⟩
          obtain ⟨share, -, rfl⟩ := List.mem_map.1 hs
          exact share.pos.le
    · dsimp only at h
      split at h
      · cases h
        exact ⟨hcents, fun s hs => by rw [List.mem_singleton.1 hs]; exact hcents⟩
      · cases h
        refine ⟨hcents, fun s hs => ?_⟩
        refine allocate_nonneg hcents (collect_nonneg fun x hx => ?_) s.2 (List.of_mem_zip hs).2
        have := (List.mem_filter.1 hx).2
        rw [decide_eq_true_eq] at this
        exact this.le

/-- The tip on an intent is the tip that was put there. -/
theorem tipFromMetadata_tipMetadata {tip : TipTerms} {metadata : Metadata} (h : tip.WellSplit) (hplain : tip.PlainIds)
    (hnone : metadata.tipSplit = none) : tipFromMetadata (tipMetadata tip metadata) = .ok tip := by
  obtain ⟨cents, split⟩ := tip
  have hcents : (if isDigits (decimal cents) = true then ofDigits (decimal cents) else 0) = cents := by
    rw [if_pos (isDigits_decimal h.nonneg), ofDigits_decimal h.nonneg]
  cases split with
  | nil =>
    have hmetadata : tipMetadata ⟨cents, []⟩ metadata = { metadata with tipCents := some (decimal cents) } := rfl
    rw [hmetadata, tipFromMetadata, hnone]
    show Except.ok (⟨if isDigits (decimal cents) = true then ofDigits (decimal cents) else 0, []⟩ : TipTerms) = _
    rw [hcents]
  | cons s split =>
    have hread := @splitPairs_joinPairs ':' ',' (s :: split) (List.cons_ne_nil s split) (by decide) (by decide)
      fun x hx => ⟨hplain x hx, h.shares x hx⟩
    have hshares : (((s :: split).map fun x => (x.1, decimal x.2)).filter fun part => isDigits part.2).map
        (fun part => (part.1, ofDigits part.2)) = s :: split := by
      rw [List.filter_eq_self.2 fun part hpart => ?_, List.map_map]
      · refine (List.map_congr_left fun x hx => ?_).trans (List.map_id _)
        exact Prod.ext rfl (ofDigits_decimal (h.shares x hx))
      · obtain ⟨x, hx, rfl⟩ := List.mem_map.1 hpart
        exact isDigits_decimal (h.shares x hx)
    have hmetadata : tipMetadata ⟨cents, s :: split⟩ metadata = { metadata with
      tipCents := some (decimal cents), tipSplit := some (joinPairs ',' ':' (s :: split)) } := rfl
    rw [hmetadata, tipFromMetadata]
    dsimp only
    rw [hread]
    show Except.ok (⟨if isDigits (decimal cents) = true then ofDigits (decimal cents) else 0, _⟩ : TipTerms) = _
    rw [hcents, hshares]

/-! ## The rebuilt row -/

theorem toUpper_toLower {c : Char} (h : c.isUpper = true) : c.toLower.toUpper = c := by
  have hletters : ∀ n, 65 ≤ n → n < 91 → (Char.ofNat n).toLower.toUpper = Char.ofNat n := by decide
  have hrange : 65 ≤ c.toNat ∧ c.toNat < 91 := by
    rw [Char.isUpper, decide_eq_true_eq, ge_iff_le, UInt32.le_iff_toNat_le, UInt32.le_iff_toNat_le] at h
    exact ⟨h.1, Nat.lt_succ_of_le h.2⟩
  have hletter := hletters c.toNat hrange.1 hrange.2
  rwa [Char.ofNat_toNat] at hletter

theorem Currency.upper_lower (currency : Currency) : (currency.code.map Char.toLower).map Char.toUpper = currency.code := by
  rw [List.map_map]
  refine (List.map_congr_left fun c hc => ?_).trans (List.map_id _)
  exact toUpper_toLower (List.all_eq_true.1 currency.letters.2 c hc)

section
variable {docs : Documents} {saved : List SavedMethod} {intentId biz : Text} {amount : Int} {currency : Currency}
  {metadata : Metadata} {tip : TipTerms} {target : Target} {command : PaymentCommand} {intent : Intent} {row : PaymentRow}
  {stripe : Stripe}

/-- What the webhook rebuilds from an intent that names its document. -/
theorem paymentFromIntent_eq (hpos : 0 < amount) (hbiz : metadata.businessId = some biz)
    (htarget : metadata.target? = some target) (htip : tipFromMetadata metadata = .ok tip) :
    paymentFromIntent docs ⟨intentId, some amount, some (currency.code.map Char.toLower), some metadata⟩ =
      .ok ((docs.client? biz target).map fun clientId => {
        businessId := biz
        clientId := clientId
        kind := target.kind
        target := target
        amountCents := amount
        tipCents := tip.cents
        tipSplit := tip.stored
        currency := currency.code
        method := .card
        provider := .stripe
        providerRef := intentId
        status := .pending }) := by
  unfold paymentFromIntent
  simp only [hbiz, htip, htarget, if_neg (not_le.2 hpos), currency.upper_lower]
  cases docs.client? biz target <;> rfl

/-- A command that opens an intent opens the one it describes. -/
theorem opened_ok {rowOf : Intent → PaymentRow} (hkeeps : stripe.Keeps) (h : (do
      let intent ← createPaymentIntent stripe amount currency metadata
      return (intent, rowOf intent)) = Except.ok (intent, row)) :
    0 < amount ∧ intent = ⟨intent.id, some amount, some (currency.code.map Char.toLower), some metadata⟩ ∧
      row = rowOf intent := by
  cases hanswer : createPaymentIntent stripe amount currency metadata with
  | error e =>
    rw [hanswer] at h
    cases h
  | ok opened =>
    rw [hanswer] at h
    cases h
    obtain ⟨hpos, hamount, hcurrency, hmetadata⟩ := hkeeps _ _ hanswer
    refine ⟨hpos, ?_, rfl⟩
    rw [← hamount, ← hcurrency, ← hmetadata]

/-- What the webhook rebuilds is the row a command inserts with the method of a card and the client its
document has now, if that is there. -/
theorem PaymentCommand.rebuilt (hkeeps : stripe.Keeps) (h : command.opened saved stripe amount = .ok (intent, row))
    (hsplit : command.tip.WellSplit) (hplain : command.tip.PlainIds) (docs : Documents) :
    (row.clientId = command.clientId ∧ row.method = command.method saved ∧ row.provider = .stripe) ∧
      paymentFromIntent docs intent = .ok ((docs.client? command.businessId command.target).map fun clientId =>
        { row with clientId := clientId, method := .card }) := by
  cases command with
  | payInvoice invoice paymentMethod tip =>
    obtain ⟨hpos, hintent, rfl⟩ := opened_ok hkeeps h
    refine ⟨⟨rfl, rfl, rfl⟩, ?_⟩
    rw [hintent]
    exact paymentFromIntent_eq hpos (tipMetadata_businessId _ _) (tipMetadata_target? _ _)
      (tipFromMetadata_tipMetadata hsplit hplain rfl)
  | payOrder order paymentMethod tip =>
    obtain ⟨hpos, hintent, rfl⟩ := opened_ok hkeeps h
    refine ⟨⟨rfl, rfl, rfl⟩, ?_⟩
    rw [hintent]
    exact paymentFromIntent_eq hpos (tipMetadata_businessId _ _) (tipMetadata_target? _ _)
      (tipFromMetadata_tipMetadata hsplit hplain rfl)
  | checkout order tip =>
    obtain ⟨hpos, hintent, rfl⟩ := opened_ok hkeeps h
    refine ⟨⟨rfl, rfl, rfl⟩, ?_⟩
    rw [hintent]
    exact paymentFromIntent_eq hpos (tipMetadata_businessId _ _) (tipMetadata_target? _ _)
      (tipFromMetadata_tipMetadata hsplit hplain rfl)
  | payDeposit booking paymentMethod =>
    obtain ⟨hpos, hintent, rfl⟩ := opened_ok hkeeps h
    refine ⟨⟨rfl, rfl, rfl⟩, ?_⟩
    rw [hintent]
    exact @paymentFromIntent_eq docs intent.id booking.businessId amount businessCurrency _ noTip (.booking booking.id) hpos
      rfl rfl rfl

end

/-! ## Settling it -/

/-- What a Stripe payment posts does not depend on its method. -/
theorem postPayment_method (db : Db) (p : Payment) (method : PayMethod) (h : p.provider = .stripe) :
    postPayment db { p with method := method } = postPayment db p := by
  have hcash : cashCategory { p with method := method } = cashCategory p := by
    unfold cashCategory
    rw [h]
  have hposting : paymentPosting db { p with method := method } = paymentPosting db p := by
    unfold paymentPosting
    rw [hcash]
    rfl
  have htips : ∀ (L : Ledger) (shares : List (Id × Int)),
      postTips L { p with method := method } (settlement db p).1 (.tip p.id) 1 p.id shares =
        postTips L p (settlement db p).1 (.tip p.id) 1 p.id shares := by
    intro L shares
    induction shares generalizing L with
    | nil => rfl
    | cons s shares ih =>
      rw [postTips, postTips, ih]
      have hposting : ∀ L', tipPosting L' { p with method := method } (settlement db p).1 (.tip p.id) 1 p.id s.1 s.2 =
        tipPosting L' p (settlement db p).1 (.tip p.id) 1 p.id s.1 s.2 := fun L' => rfl
      simp only [ih, hposting]
  unfold postPayment
  rw [hposting]
  show (do
    let L ← post db.ledger (paymentPosting db p)
    let L ← postTips L { p with method := method } (settlement db p).1 (.tip p.id) 1 p.id p.tip.split
    return db.withLedger L) = _
  simp only [htips]

theorem payment?_method (idOf : Text → Id) (id : Id) (createdAt : Int) (row : PaymentRow) (method : PayMethod) :
    PaymentRow.payment? idOf id createdAt { row with method := method } =
      (row.payment? idOf id createdAt).map fun p => { p with method := method } := by
  by_cases hentered : (∀ s ∈ row.shares.map fun s => (idOf s.1, s.2), 0 ≤ s.2) ∧
      ((row.shares.map fun s => (idOf s.1, s.2)).map (·.2)).sum = row.tipCents ∧ row.tipCents ≤ row.amountCents
  · rw [show row.payment? idOf id createdAt = some _ from dif_pos hentered]
    exact dif_pos hentered
  · rw [show row.payment? idOf id createdAt = none from dif_neg hentered]
    exact dif_neg hentered

theorem settleRow_method (db : Db) (idOf : Text → Id) (id : Id) (createdAt : Int) {row : PaymentRow} (method : PayMethod)
    (h : row.provider = .stripe) :
    settleRow db idOf id createdAt { row with method := method } = settleRow db idOf id createdAt row := by
  unfold settleRow
  rw [payment?_method, Option.map_map]
  refine Option.map_congr fun p hp => ?_
  have hprovider : p.provider = .stripe := by
    unfold PaymentRow.payment? at hp
    split at hp
    · cases hp
      exact h
    · cases hp
  exact postPayment_method db p method hprovider

/-! ## What is lost and what is rebuilt -/

/-- **A rebuilt payment is the one that was lost when a card was charged.**  For every command, amount and
tip that `resolveTip` accepts over ids without the marks, whatever Stripe answers as long as it keeps what
it was given, and whatever documents are there when the webhook comes: the rebuilt row is the one the command inserted exactly when the charge is to a card and
the document is there with the client it had.  With the document there, settling the rebuilt row posts
what settling the lost one would, whatever was charged. -/
theorem rebuilt_iff (saved : List SavedMethod) (stripe : Stripe) (hkeeps : stripe.Keeps) (amount : Int)
    (command : PaymentCommand) (intent : Intent) (row : PaymentRow) (hopened : command.opened saved stripe amount = .ok (intent, row))
    (htip : ∃ staff cents split lines fallbackStaffId, resolveTip staff cents split lines fallbackStaffId = .ok command.tip)
    (hplain : command.tip.PlainIds) (docs : Documents) :
    (paymentFromIntent docs intent = .ok (some row) ↔
      command.method saved = .card ∧ docs.client? command.businessId command.target = some command.clientId) ∧
    (docs.client? command.businessId command.target = some command.clientId →
      ∃ rebuilt, paymentFromIntent docs intent = .ok (some rebuilt) ∧ ∀ db idOf id createdAt,
        settleRow db idOf id createdAt rebuilt = settleRow db idOf id createdAt row) := by
  obtain ⟨staff, cents, split, lines, fallbackStaffId, hresolved⟩ := htip
  obtain ⟨⟨hclient, hmethod, hprovider⟩, hrebuilt⟩ := command.rebuilt hkeeps hopened (wellSplit_of_resolved hresolved) hplain docs
  rw [hrebuilt]
  constructor
  · constructor
    · intro hsame
      have hsome := Except.ok.inj hsame
      obtain ⟨clientId, hdoc, hrow⟩ := Option.map_eq_some_iff.1 hsome
      have hcard := congrArg PaymentRow.method hrow
      have hthere := congrArg PaymentRow.clientId hrow
      exact ⟨hmethod.symm.trans hcard.symm, by rw [hdoc, ← hclient]; exact congrArg some hthere⟩
    · rintro ⟨hcard, hdoc⟩
      rw [hdoc, Option.map_some, ← hclient, ← hcard, ← hmethod]
  · intro hdoc
    refine ⟨_, by rw [hdoc, Option.map_some], fun db idOf id createdAt => ?_⟩
    rw [← hclient]
    exact settleRow_method db idOf id createdAt .card hprovider

/-! ## An invoice by card and by bank debit -/

def studioInvoice : Invoice := ⟨['i', 'n', 'v'], ['b', 'i', 'z'], ['c', 'l', 'i'], businessCurrency⟩

def studioDocuments : Documents := ⟨[studioInvoice], [], []⟩

/-- Stripe with this id for the intent. -/
def stripeOpening (id : Text) : Stripe := fun params =>
  if 0 < params.amount then .ok ⟨id, some params.amount, some params.currency, some params.metadata⟩
  else .error "amount_too_small"

theorem stripeOpening_keeps (id : Text) : (stripeOpening id).Keeps := by
  intro params intent h
  unfold stripeOpening at h
  split at h
  · next hpos =>
    cases h
    exact ⟨hpos, rfl, rfl, rfl⟩
  · cases h

def sharedTip : TipTerms := ⟨500, [(['a', 'm', 'y'], 300), (['b', 'e', 'n'], 200)]⟩

/-- An invoice paid by card with a tip of 5.00 for two. -/
theorem card_rebuilt : ∃ intent row,
    (PaymentCommand.payInvoice studioInvoice none sharedTip).opened [] (stripeOpening ['p', 'i']) 10500 = .ok (intent, row) ∧
      row.tipSplit = some sharedTip.split ∧ paymentFromIntent studioDocuments intent = .ok (some row) :=
  ⟨_, _, rfl, rfl, (rebuilt_iff [] (stripeOpening ['p', 'i']) (stripeOpening_keeps _) 10500
    (.payInvoice studioInvoice none sharedTip) _ _ rfl ⟨[['a', 'm', 'y'], ['b', 'e', 'n']], 500, [⟨['a', 'm', 'y'], 300, by decide⟩, ⟨['b', 'e', 'n'], 200, by decide⟩], [], [],
      rfl⟩ (show ∀ s ∈ sharedTip.split, _ from by decide) studioDocuments).1.2 ⟨rfl, rfl⟩⟩

/-- The saved bank account of a client is debited for an invoice: the row lost says so, the rebuilt one says
card. -/
theorem debit_rebuilt_as_card : ∃ intent row,
    (PaymentCommand.payInvoice studioInvoice (some ['p', 'm']) noTip).opened [⟨['b', 'i', 'z'], ['p', 'm'], .bankEft⟩]
        (stripeOpening ['p', 'i']) 10000 = .ok (intent, row) ∧
      row.method = .bankEft ∧ paymentFromIntent studioDocuments intent ≠ .ok (some row) := by
  refine ⟨_, _, rfl, rfl, fun h => ?_⟩
  have hrow := congrArg (Option.map PaymentRow.method) (Except.ok.inj h)
  cases hrow

end ClientBridge.Intents
