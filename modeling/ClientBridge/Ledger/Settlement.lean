import ClientBridge.Ledger.Store
import ClientBridge.Billing.Lines
import ClientBridge.Library.Runs

/-!
# Settling a payment

`settlement` is the credit side of a payment's journal: what the payment pays for.  It adds
up to the amount whatever the target is (`net_settlement`), so `postPayment` never raises
and writes one journal and a tip journal for each share (`postPayment_eq`).
-/

namespace ClientBridge

open Bookkeeping

/-! ## Documents as the ledger reads them -/

/-- Cash legs of these settle or unsettle a document (`_MONEY_BACK_EVENTS`). -/
def EntryEvent.isMoneyBack : EntryEvent → Bool
  | .payment | .refund | .dispute => true
  | _ => false

def EntryEvent.isGivenBack : EntryEvent → Bool
  | .refund | .dispute => true
  | _ => false

def cashLeg (L : Ledger) (subject : Subject) (j : LedgerJournal) (e : Leg) : Bool :=
  decide (e.tag = some subject) && settled L j && e.key.category.isCash && j.info.event.isMoneyBack

/-- Net cash collected for one invoice or order. -/
def collected (db : Db) (subject : Subject) : Int := db.ledger.sum (cashLeg db.ledger subject)

def refunded (db : Db) (subject : Subject) : Bool :=
  db.ledger.any fun j => j.info.event.isGivenBack && j.legs.any (cashLeg db.ledger subject j)

def fetchLines (db : Db) (orderId : Id) : List Line := db.lines.filter fun l => decide (l.orderId = some orderId)

/-- The visits rung up on a sale, each once. -/
def visits (lines : List Line) : List Id := Dict.fromKeys (lines.filterMap (·.bookingId))

def depositHeld (L : Ledger) (bookingId : Id) : Int := -subjectBalance L .deposit (.booking bookingId)

def heldOn (db : Db) (bookingId : Id) : Int :=
  if bookingId ∈ db.bookings then depositHeld db.ledger bookingId else 0

/-- Deposits held on the visits rung up on an open sale; paying the sale applies them. -/
def visitDeposits (db : Db) (order : Order) : Int :=
  min ((visits (fetchLines db order.id)).map (heldOn db)).sum order.totalCents

/-- A payment leg on a deposit account that belongs to a payment of this sale. -/
def appliesDeposit (db : Db) (orderId : Id) (j : LedgerJournal) (e : Leg) : Bool :=
  match j.info.source with
  | some (.payment id) =>
    decide (j.info.event = .payment) && decide (e.key.category = .deposit) &&
      decide ((db.payment? id).bind (·.orderId) = some orderId)
  | _ => false

/-- Visit deposits a sale's payment applied. -/
def orderDepositApplied (db : Db) (orderId : Id) : Int := db.ledger.sum (appliesDeposit db orderId)

/-- Gift card balance redeemed against a sale, net of the reversal a refund or void posts. -/
def giftCardApplied (L : Ledger) (orderId : Id) : Int :=
  L.sum fun j e => decide (j.info.source = some (.order orderId)) && decide (e.key.category = .giftCard)

def orderTips (db : Db) (orderId : Id) : Int :=
  ((db.payments.filter fun p =>
    decide (p.orderId = some orderId ∧ p.kind = .payment ∧ p.status = .succeeded)).map (·.tip.cents)).sum

inductive DocumentState where
  | draft | open | sent | partlyPaid | overdue | paid | refunded | void
  deriving DecidableEq, Repr

/-- How far a sale is paid, from the ledger (`order_status_expr`). -/
def orderState (db : Db) (order : Order) : DocumentState :=
  let paid := collected db (.order order.id)
  let covered := paid + (orderDepositApplied db order.id + giftCardApplied db.ledger order.id)
  let refunded := refunded db (.order order.id)
  if order.status = .void then .void
  else if paid ≤ 0 ∧ refunded then .refunded
  else if 0 < covered ∧ (order.totalCents ≤ covered ∨ refunded) then .paid
  else .open

structure OrderMoney where
  paid : Int
  tip : Int
  deposit : Int
  gift : Int
  due : Int

/-- What a sale collected, its credits, and what an open one still owes net of tips. -/
def orderMoney (db : Db) (order : Order) (state : DocumentState) : OrderMoney :=
  let paid := collected db (.order order.id)
  let tip := orderTips db order.id
  let deposit := if state = .open then visitDeposits db order else orderDepositApplied db order.id
  let gift := giftCardApplied db.ledger order.id
  let due := if state = .open then max 0 (order.totalCents - deposit - gift - (paid - tip)) else 0
  ⟨paid, tip, deposit, gift, due⟩

def Ref.isApplication : Ref → Bool
  | .application _ _ _ => true
  | .reversal (.application _ _ _) => true
  | _ => false

/-- Visit deposits applied to an invoice and not taken back, which pay part of it. -/
def invoiceApplied (L : Ledger) (invoiceId : Id) : Int :=
  -L.sum fun j e => decide (e.tag = some (.invoice invoiceId)) && settled L j &&
    decide (e.key.category = .receivable) && j.ref.isApplication

def receivable (L : Ledger) (invoiceId : Id) : Int := subjectBalance L .receivable (.invoice invoiceId)

/-- An invoice stores only draft, sent and void; the ledger tells how far it is paid. -/
def invoiceState (db : Db) (invoice : Invoice) : DocumentState :=
  let paid := collected db (.invoice invoice.id)
  let owed := receivable db.ledger invoice.id
  match invoice.status with
  | .draft => .draft
  | .void => .void
  | .sent =>
    if paid ≤ 0 ∧ refunded db (.invoice invoice.id) ∧ owed ≤ 0 then .refunded
    else if owed ≤ 0 then .paid
    else if invoice.overdueNotified then .overdue
    else if 0 < paid ∨ 0 < invoiceApplied db.ledger invoice.id then .partlyPaid
    else .sent

def invoiceBalance (db : Db) (invoice : Invoice) : Int :=
  if invoice.status = .draft then invoice.totalCents else receivable db.ledger invoice.id

/-! ## The credit side -/

/-- The cash account a payment lands in; a cheque or an e-Transfer already reached the bank. -/
def cashCategory (p : Payment) : Category :=
  match p.provider, p.method with
  | .manual, .cheque | .manual, .etransfer | .manual, .bankEft => .bank
  | .manual, _ => .cash
  | .stripe, _ => .stripe

def taxLegs (tax : TaxResult) : List Leg :=
  (tax.byJurisdiction.insertionSort fun a b => a.1.index ≤ b.1.index).map fun x =>
    legOf .business .tax (-x.2) (.tax x.1)

def saleLegs (amount : Int) (tax : TaxResult) : List Leg :=
  leg .business .revenue (-(amount - tax.taxTotalCents)) :: taxLegs tax

/-- A tip is not the business's money: it passes through to the staff tip journals. -/
def tipContra (p : Payment) : List Leg :=
  if p.tip.cents ≤ 0 then [] else [leg .business .staffCost (-p.tip.cents)]

/-- The tax fixed on a document's lines when it was issued; never recomputed from settings. -/
def issuedTax (db : Db) (lines : List Line) (issuedAt : Int) : TaxResult :=
  splitFixed (lines.map fun l =>
    ({ amountCents := l.amountCents, taxClass := l.taxClass }, l.taxAmountCents)) (db.rates issuedAt)

def orderTax (db : Db) (orderId : Id) (fallback : Int) : Option Order × List Line × TaxResult :=
  let lines := fetchLines db orderId
  let order := db.order? orderId
  (order, lines, issuedTax db lines ((order.map (·.createdAt)).getD fallback))

/-- The tax gift cards have booked on a sale so far under a code, net of their reversals. -/
def redeemedTax (L : Ledger) (orderId : Id) (code : TaxCode) : Int :=
  -L.sum fun j e => decide (j.info.source = some (.order orderId)) &&
    (decide (e.key.category = .tax) && decide (e.key.code = .tax code))

/-- A tax less what is booked of it already (`_without`). -/
def without (tax : TaxResult) (booked : TaxCode → Int) : TaxResult :=
  let left := tax.byJurisdiction.map fun x => (x.1, x.2 - booked x.1)
  { tax with taxTotalCents := Dict.total left, byJurisdiction := left }

/-- Held deposits applied one visit after the other, while anything is wanted. -/
def takeDeposits (db : Db) : List Id → Int → List Leg
  | [], _ => []
  | b :: bs, want =>
    let take := if b ∈ db.bookings then min want (depositHeld db.ledger b) else 0
    if 0 < take then legOn .business .deposit take (.booking b) :: takeDeposits db bs (want - take)
    else takeDeposits db bs want

/-- A sale's revenue and the tax gift cards haven't booked, with held deposits applied. -/
def orderSale (db : Db) (p : Payment) (orderId : Id) : List Leg :=
  let (order, lines, issued) := orderTax db orderId p.createdAt
  let tax := without issued (redeemedTax db.ledger orderId)
  let paid := p.amountCents - p.tip.cents
  -- gift card balance already applied is not taken off what the deposits may cover
  let want := (order.map (·.totalCents)).getD paid - paid
  let applied := takeDeposits db (visits lines) want
  applied ++ saleLegs (paid + net applied) tax

/-- The tax charged in a package's price when it was sold, backed out of the paid total. -/
def packageTax (db : Db) (p : Payment) (item : Option Item) : TaxResult :=
  let sold := p.createdAt
  let within := fun taxClass => computeTax
    [{ amountCents := p.amountCents, taxClass := taxClass }] (db.rates sold) (db.registered sold) true
  match item with
  | none => within .standard
  | some item =>
    let priced := fun registered => computeTax
      [{ amountCents := item.priceCents, taxClass := item.taxClass }] (db.rates sold) registered false
    -- registration may have changed since the sale, so match the price as either
    if (priced true).totalCents = p.amountCents then priced true
    else if (priced false).totalCents = p.amountCents then priced false
    else within item.taxClass

/-- What a settled payment pays for: the credit side of its journal. -/
def settlement (db : Db) (p : Payment) : Subject × List Leg :=
  let amount := p.amountCents
  match p.invoiceId, p.orderId, p.bookingId with
  | some invoiceId, _, _ =>
    (.invoice invoiceId, leg (payer p.clientId) .receivable (-(amount - p.tip.cents)) :: tipContra p)
  | none, some orderId, _ => (.order orderId, orderSale db p orderId ++ tipContra p)
  | none, none, some bookingId => (.booking bookingId, [leg .business .deposit (-amount)])
  | none, none, none =>
    match db.packages.find? fun k => decide (k.paymentId = some p.id) with
    | some package =>
      let tax := packageTax db p (db.item? package.itemId)
      (.package package.id,
        leg (.package package.id) .deferred (-(amount - tax.taxTotalCents)) :: taxLegs tax)
    | none =>
      match db.giftCards.find? fun c => decide (c.paymentId = some p.id) with
      | some card => (.giftCard card.id, [leg (.giftCard card.id) .giftCard (-amount)])
      | none => (.payment p.id, [leg .business .revenue (-amount)])

def paymentPosting (db : Db) (p : Payment) : Posting where
  event := .payment
  ref := .payment p.id
  legs := leg .business (cashCategory p) p.amountCents :: (settlement db p).2
  source := some (.payment p.id)
  subject := some (settlement db p).1

/-! ## Tips -/

/-- One member's part of a tip, or of a returned one (`sign` is then negative). -/
def tipPosting (L : Ledger) (p : Payment) (subject : Subject) (ref : Id → Ref) (sign : Int)
    (sourceId : Id) (staffId : Id) (cents : Int) : Posting where
  event := .tip
  ref := ref staffId
  legs := [leg .business .staffCost (sign * cents), legOf (.staff staffId) .payable (-sign * cents) .pending]
  source := some (.payment sourceId)
  subject := some subject
  metadata :=
    -- a returned tip settles with the tip it returns, like a clawback with its earning
    { basis := some .tip, of := if sign < 0 then (L.find (.tip p.id staffId)).map (·.id) else none }

/-- One tip journal per staff member, owed to them like an earning. -/
def postTips (L : Ledger) (p : Payment) (subject : Subject) (ref : Id → Ref) (sign : Int)
    (sourceId : Id) : List (Id × Int) → Except Error Ledger
  | [] => .ok L
  | (staffId, cents) :: shares =>
    if cents ≤ 0 then postTips L p subject ref sign sourceId shares
    else do
      let L ← post L (tipPosting L p subject ref sign sourceId staffId cents)
      postTips L p subject ref sign sourceId shares

def postPayment (db : Db) (p : Payment) : Except Error Db := do
  let L ← post db.ledger (paymentPosting db p)
  let L ← postTips L p (settlement db p).1 (.tip p.id) 1 p.id p.tip.split
  return db.withLedger L

/-- What Stripe and the platform keep of a charge. -/
structure ChargeFees where
  processingFeeCents : Int
  applicationFeeCents : Int
  deriving DecidableEq, Repr

def feesPosting (p : Payment) (fees : ChargeFees) : Posting where
  event := .fee
  ref := .fee p.id
  legs := [
    leg .business .processingFee fees.processingFeeCents,
    leg .business .platformFee fees.applicationFeeCents,
    leg .business .stripe (-(fees.processingFeeCents + fees.applicationFeeCents)),
    leg .platform .stripe fees.applicationFeeCents,
    leg .platform .feeRevenue (-fees.applicationFeeCents)]
  source := some (.payment p.id)

def postFees (db : Db) (p : Payment) (fees : ChargeFees) : Except Error Db := do
  let L ← post db.ledger (feesPosting p fees)
  return db.withLedger L

/-! ## The credit side adds up to the amount -/

theorem net_taxLegs (tax : TaxResult) : net (taxLegs tax) = -Dict.total tax.byJurisdiction := by
  have h : ∀ d : List (TaxCode × Int),
      net (d.map fun x => legOf .business .tax (-x.2) (.tax x.1)) = -Dict.total d := by
    intro d
    induction d with
    | nil => rfl
    | cons x d ih => rw [List.map_cons, net_cons, ih, Dict.total_cons]; simp only [legOf]; omega
  unfold taxLegs
  have hp := List.perm_insertionSort (fun a b : TaxCode × Int => a.1.index ≤ b.1.index) tax.byJurisdiction
  rw [h, Dict.total, Dict.total, (hp.map (·.2)).sum_eq]

/-- A sale's legs are its amount, whatever the tax, when the tax total is its codes'. -/
theorem net_saleLegs (amount : Int) {tax : TaxResult}
    (h : tax.taxTotalCents = Dict.total tax.byJurisdiction) : net (saleLegs amount tax) = -amount := by
  rw [saleLegs, net_cons, net_taxLegs, h]
  simp only [leg]
  omega

theorem taxTotal_without (tax : TaxResult) (booked : TaxCode → Int) :
    (without tax booked).taxTotalCents = Dict.total (without tax booked).byJurisdiction := rfl

theorem taxTotal_computeTax (lines : List TaxLine) (rates : List TaxComponent)
    (registered inclusive : Bool) :
    (computeTax lines rates registered inclusive).taxTotalCents =
      Dict.total (computeTax lines rates registered inclusive).byJurisdiction := by
  have hl : ∀ l rs, (Tax.line l rs inclusive).taxCents =
      Dict.total (Tax.line l rs inclusive).byJurisdiction := by
    intro l rs
    simp only [Tax.line]
    split
    · rfl
    · rfl
  have hs : ∀ rs : List LineTax, (∀ r ∈ rs, r.taxCents = Dict.total r.byJurisdiction) →
      (rs.map (·.taxCents)).sum = Dict.total (rs.flatMap (·.byJurisdiction)) := by
    intro rs hrs
    induction rs with
    | nil => rfl
    | cons r rs ih =>
      rw [List.map_cons, List.sum_cons, ih fun r' h => hrs r' (List.mem_cons_of_mem _ h),
        hrs r List.mem_cons_self]
      simp [Dict.total]
  simp only [computeTax, Tax.total, Dict.total_collect]
  refine hs _ fun r hr => ?_
  obtain ⟨l, -, rfl⟩ := List.mem_map.1 hr
  exact hl l _

theorem taxTotal_packageTax (db : Db) (p : Payment) (item : Option Item) :
    (packageTax db p item).taxTotalCents = Dict.total (packageTax db p item).byJurisdiction := by
  unfold packageTax
  cases item with
  | none => exact taxTotal_computeTax _ _ _ _
  | some item =>
    dsimp only
    split
    · exact taxTotal_computeTax _ _ _ _
    · split <;> exact taxTotal_computeTax _ _ _ _

theorem net_tipContra (p : Payment) : net (tipContra p) = -p.tip.cents := by
  have h := p.tip.cents_nonneg
  unfold tipContra
  split
  · rw [net_nil]; omega
  · simp [leg]

theorem net_orderSale (db : Db) (p : Payment) (orderId : Id) :
    net (orderSale db p orderId) = -(p.amountCents - p.tip.cents) := by
  simp only [orderSale, net_append]
  rw [net_saleLegs _ (taxTotal_without _ _)]
  omega

theorem net_settlement (db : Db) (p : Payment) : net (settlement db p).2 = -p.amountCents := by
  unfold settlement
  split
  · rw [net_cons, net_tipContra]; simp only [leg]; omega
  · rw [net_append, net_orderSale, net_tipContra]; omega
  · simp [leg]
  · split
    · dsimp only
      rw [net_cons, net_taxLegs, taxTotal_packageTax]
      simp only [leg]
      omega
    · split <;> simp [leg]

/-! ## What settling writes -/

theorem net_paymentPosting (db : Db) (p : Payment) : net (paymentPosting db p).legs = 0 := by
  simp only [paymentPosting, net_cons, net_settlement, leg]
  omega

theorem net_tipPosting (L : Ledger) (p : Payment) (subject : Subject) (ref : Id → Ref) (sign : Int)
    (sourceId staffId : Id) (cents : Int) :
    net (tipPosting L p subject ref sign sourceId staffId cents).legs = 0 := by
  simp only [tipPosting, net_cons, net_nil, leg, legOf, Int.neg_mul]
  omega

theorem net_feesPosting (p : Payment) (fees : ChargeFees) : net (feesPosting p fees).legs = 0 := by
  simp only [feesPosting, net_cons, net_nil, leg]
  omega

/-- The tip journals of a list of shares, written one after the other. -/
def writeTips (p : Payment) (subject : Subject) (ref : Id → Ref) (sign : Int) (sourceId : Id)
    (L : Ledger) (shares : List (Id × Int)) : Ledger :=
  shares.foldl (fun L s => if s.2 ≤ 0 then L else
    let q := tipPosting L p subject ref sign sourceId s.1 s.2
    L.write q.ref q.info q.written) L

theorem postTips_eq (L : Ledger) (p : Payment) (subject : Subject) (ref : Id → Ref) (sign : Int)
    (sourceId : Id) (shares : List (Id × Int)) :
    postTips L p subject ref sign sourceId shares =
      .ok (writeTips p subject ref sign sourceId L shares) := by
  unfold writeTips
  induction shares generalizing L with
  | nil => rfl
  | cons s shares ih =>
    obtain ⟨staffId, cents⟩ := s
    rw [postTips, List.foldl_cons]
    split
    · next h => simpa [h] using ih L
    · next h =>
      rw [post_eq (net_tipPosting L p subject ref sign sourceId staffId cents)]
      simpa [h, bind, Except.bind] using ih _

/-- Settling a payment writes its journal and its tip journals, and never raises. -/
theorem postPayment_eq (db : Db) (p : Payment) :
    postPayment db p = .ok (db.withLedger (writeTips p (settlement db p).1 (.tip p.id) 1 p.id
      (db.ledger.write (.payment p.id) (paymentPosting db p).info (paymentPosting db p).written)
      p.tip.split)) := by
  unfold postPayment
  rw [post_eq (net_paymentPosting db p)]
  simp only [bind, Except.bind, postTips_eq]
  rfl

theorem postFees_eq (db : Db) (p : Payment) (fees : ChargeFees) :
    postFees db p fees = .ok (db.withLedger
      (db.ledger.write (.fee p.id) (feesPosting p fees).info (feesPosting p fees).written)) := by
  unfold postFees
  rw [post_eq (net_feesPosting p fees)]
  rfl

theorem wellKept_postTips {L L' : Ledger} (hL : WellKept L) {payment : Payment} {subject : Subject} {ref : Id → Ref}
    {sign : Int} {sourceId : Id} {shares : List (Id × Int)}
    (h : postTips L payment subject ref sign sourceId shares = .ok L') : WellKept L' := by
  induction shares generalizing L with
  | nil =>
    cases h
    exact hL
  | cons s shares ih =>
    obtain ⟨staffId, cents⟩ := s
    rw [postTips] at h
    split at h
    · exact ih hL h
    · obtain ⟨L₁, h₁, h⟩ := bind_ok h
      exact ih (wellKept_post hL h₁) h

theorem grows_writeTips (p : Payment) (subject : Subject) (ref : Id → Ref) (sign : Int)
    (sourceId : Id) (L : Ledger) (shares : List (Id × Int)) :
    Grows (fun r => ∃ s, r = ref s) L (writeTips p subject ref sign sourceId L shares) := by
  unfold writeTips
  refine Runs.foldl_invariant ?_ L shares (Grows.refl _ L)
  intro L' s hL'
  dsimp only
  split
  · exact hL'
  · exact hL'.trans (grows_write ⟨s.1, rfl⟩ L' _ _)

/-! ## What tip journals put on the accounts -/

def tipEffect (q : AccountKey → Bool) (sign : Int) (s : Id × Int) : Int :=
  keyed q [leg .business .staffCost (sign * s.2), legOf (.staff s.1) .payable (-sign * s.2) .pending]

/-- The shares that are posted: the positive ones, each member's first only, since a repeated
member repeats the reference. -/
def postedShares (taken : Id → Bool) : List (Id × Int) → List (Id × Int)
  | [] => []
  | s :: shares =>
    if s.2 ≤ 0 || taken s.1 then postedShares taken shares
    else s :: postedShares (fun i => taken i || decide (i = s.1)) shares

theorem has_tipPosting (L : Ledger) (p : Payment) (subject : Subject) (ref : Id → Ref) {sign : Int}
    (hs : sign ≠ 0) (sourceId staffId : Id) {cents : Int} (hc : ¬cents ≤ 0) (r : Ref) :
    (L.write (ref staffId) (tipPosting L p subject ref sign sourceId staffId cents).info
      (tipPosting L p subject ref sign sourceId staffId cents).written).has r =
      (L.has r || decide (ref staffId = r)) := by
  have h0 : sign * cents ≠ 0 := mul_ne_zero hs (by omega)
  rw [Book.has_write]
  simp [Posting.written, tipPosting, nonzero, leg, legOf, h0]

/-- Tip journals put the posted shares on the accounts. -/
theorem onAccounts_writeTips {R : Ref → Bool} {ref : Id → Ref} (hR : ∀ s, R (ref s) = true)
    (hinj : Function.Injective ref) {sign : Int} (hs : sign ≠ 0) (q : AccountKey → Bool)
    (p : Payment) (subject : Subject) (sourceId : Id) (L : Ledger) (shares : List (Id × Int)) :
    onAccounts (writeTips p subject ref sign sourceId L shares) R q =
      onAccounts L R q +
        ((postedShares (fun s => L.has (ref s)) shares).map (tipEffect q sign)).sum := by
  unfold writeTips
  induction shares generalizing L with
  | nil => simp [postedShares]
  | cons s shares ih =>
    obtain ⟨staffId, cents⟩ := s
    rw [List.foldl_cons]
    by_cases hc : cents ≤ 0
    · simp only [hc, if_true, postedShares, decide_true, Bool.true_or]
      exact ih L
    · have hh : ∀ r, _ := has_tipPosting L p subject ref hs sourceId staffId hc
      have ht : (fun s => (L.write (ref staffId)
          (tipPosting L p subject ref sign sourceId staffId cents).info
          (tipPosting L p subject ref sign sourceId staffId cents).written).has (ref s)) =
          fun s => L.has (ref s) || decide (s = staffId) := by
        funext s
        rw [hh]
        congr 1
        exact decide_eq_decide.2 ⟨fun e => (hinj e).symm, fun e => by rw [e]⟩
      have ht' : (tipPosting L p subject ref sign sourceId staffId cents).ref = ref staffId := rfl
      simp only [hc, if_false, ht']
      rw [ih, ht, onAccounts_write, keyed_written, hR]
      cases hl : L.has (ref staffId) with
      | true =>
        have hsame : (fun s => L.has (ref s) || decide (s = staffId)) = fun s => L.has (ref s) := by
          funext s
          by_cases e : s = staffId
          · subst e; simp [hl]
          · simp [e]
        simp [postedShares, hl, hsame]
      | false => simp [postedShares, hl, hc, tipEffect, tipPosting]; omega

theorem tipEffect_neg (q : AccountKey → Bool) (s : Id × Int) :
    tipEffect q (-1) s = -tipEffect q 1 s := by
  simp only [tipEffect, keyed_cons, keyed_nil, leg, legOf]
  split <;> split <;> simp

/-- Returning the same shares takes back what they put on the accounts. -/
theorem sum_tipEffect_neg (q : AccountKey → Bool) (shares : List (Id × Int)) :
    (shares.map (tipEffect q (-1))).sum = -(shares.map (tipEffect q 1)).sum := by
  induction shares with
  | nil => rfl
  | cons s shares ih => rw [List.map_cons, List.sum_cons, List.map_cons, List.sum_cons, ih, tipEffect_neg]; omega

/-- The references a payment's own journals are written under. -/
def isPaymentRef (paymentId : Id) (r : Ref) : Prop := r = .payment paymentId ∨ ∃ s, r = .tip paymentId s

theorem postPayment_grows (db : Db) (p : Payment) :
    ∃ L', postPayment db p = .ok (db.withLedger L') ∧ Grows (isPaymentRef p.id) db.ledger L' := by
  have hw := grows_write (P := isPaymentRef p.id) (.inl rfl) db.ledger (paymentPosting db p).info
    (paymentPosting db p).written
  refine ⟨_, postPayment_eq db p, hw.trans ?_⟩
  exact (grows_writeTips p _ (.tip p.id) 1 p.id _ p.tip.split).mono fun r h => .inr h

theorem postFees_grows (db : Db) (p : Payment) (fees : ChargeFees) :
    ∃ L', postFees db p fees = .ok (db.withLedger L') ∧ Grows (fun r => r = .fee p.id) db.ledger L' := by
  refine ⟨_, postFees_eq db p fees, ?_⟩
  exact grows_write (P := fun r => r = Ref.fee p.id) rfl db.ledger _ _

/-- A payment settled for the first time puts its journal and its tips on the accounts. -/
theorem onAccounts_postPayment {db db' : Db} {p : Payment} (h : postPayment db p = .ok db')
    {R : Ref → Bool} (hR : ∀ r, isPaymentRef p.id r → R r = true)
    (hnew : ∀ r, isPaymentRef p.id r → db.ledger.has r = false) (q : AccountKey → Bool) :
    onAccounts db'.ledger R q =
      onAccounts db.ledger R q + keyed q (paymentPosting db p).legs +
        ((postedShares (fun _ => false) p.tip.split).map (tipEffect q 1)).sum := by
  have htip : ∀ s, Ref.payment p.id ≠ .tip p.id s := by simp
  have htaken : (fun s => (db.ledger.write (.payment p.id) (paymentPosting db p).info
      (paymentPosting db p).written).has (.tip p.id s)) = fun _ => false := by
    funext s
    rw [Book.has_write_of_ne (htip s), hnew _ (.inr ⟨s, rfl⟩)]
  rw [postPayment_eq] at h
  cases h
  rw [Db.ledger_withLedger, onAccounts_writeTips (fun s => hR _ (.inr ⟨s, rfl⟩)) (fun a b e => by simpa using e) (by decide),
    htaken]
  have hp : (paymentPosting db p).ref = .payment p.id := rfl
  have hpost := onAccounts_posted db.ledger R q (paymentPosting db p)
  rw [hp, hnew _ (.inl rfl), hR _ (.inl rfl)] at hpost
  rw [hpost]
  simp

/-! ## Which legs a settled payment has -/

theorem mem_takeDeposits {db : Db} {bs : List Id} {want : Int} {e : Leg}
    (h : e ∈ takeDeposits db bs want) : e.key.category = .deposit := by
  induction bs generalizing want with
  | nil => cases h
  | cons b bs ih =>
    simp only [takeDeposits] at h
    generalize (if b ∈ db.bookings then min want (depositHeld db.ledger b) else 0) = take at h
    split at h
    · rcases List.mem_cons.1 h with rfl | h
      · rfl
      · exact ih h
    · exact ih h

theorem mem_saleLegs {amount : Int} {tax : TaxResult} {e : Leg} (h : e ∈ saleLegs amount tax) :
    e.key.category = .revenue ∨ e.key.category = .tax := by
  rcases List.mem_cons.1 h with rfl | h
  · exact .inl rfl
  · obtain ⟨x, -, rfl⟩ := List.mem_map.1 h
    exact .inr rfl

theorem mem_tipContra {p : Payment} {e : Leg} (h : e ∈ tipContra p) : e.key.category = .staffCost := by
  unfold tipContra at h
  split at h
  · cases h
  · rw [List.mem_singleton.1 h]; rfl

/-- A sale's payment credits revenue, tax and tips, and takes deposits. -/
theorem settlement_order (db : Db) {p : Payment} {orderId : Id} (hi : p.invoiceId = none)
    (ho : p.orderId = some orderId) : ∀ e ∈ (settlement db p).2,
      e.key.category = .deposit ∨ e.key.category = .revenue ∨ e.key.category = .tax ∨
        e.key.category = .staffCost := by
  intro e he
  simp only [settlement, hi, ho, orderSale] at he
  rcases List.mem_append.1 he with he | he
  · rcases List.mem_append.1 he with he | he
    · exact .inl (mem_takeDeposits he)
    · rcases mem_saleLegs he with h | h
      · exact .inr (.inl h)
      · exact .inr (.inr (.inl h))
  · exact .inr (.inr (.inr (mem_tipContra he)))

theorem sumOf_mem_eq_net {q : Leg → Bool} {legs : List Leg} (h : ∀ e ∈ legs, q e = true) :
    sumOf q legs = net legs := by
  rw [← sumOf_true]
  exact sumOf_congr fun e he => by rw [h e he]

/-- The tax legs under a code are what the result holds under it. -/
theorem sumOf_taxLegs (tax : TaxResult) (c : TaxCode) :
    sumOf (fun e => decide (e.key.category = .tax) && decide (e.key.code = .tax c)) (taxLegs tax) =
      -Dict.sumAt tax.byJurisdiction c := by
  have h : ∀ d : List (TaxCode × Int),
      sumOf (fun e : Leg => decide (e.key.category = .tax) && decide (e.key.code = .tax c))
        (d.map fun x => legOf .business .tax (-x.2) (.tax x.1)) = -Dict.sumAt d c := by
    intro d
    induction d with
    | nil => rfl
    | cons x d ih =>
      rw [List.map_cons, sumOf_cons, ih, Dict.sumAt_cons]
      by_cases hx : x.1 = c
      · simp [hx]; omega
      · simp [hx]
  have hp := List.perm_insertionSort (fun a b : TaxCode × Int => a.1.index ≤ b.1.index) tax.byJurisdiction
  have hsum : Dict.sumAt (tax.byJurisdiction.insertionSort fun a b => a.1.index ≤ b.1.index) c =
      Dict.sumAt tax.byJurisdiction c := by
    unfold Dict.sumAt
    exact ((hp.filter _).map _).sum_eq
  rw [taxLegs, h, hsum]

/-- Held deposits cover what is wanted, as far as they reach. -/
theorem net_takeDeposits {db : Db} {bs : List Id} (hheld : ∀ b ∈ bs, 0 ≤ heldOn db b) {want : Int}
    (hwant : 0 ≤ want) : net (takeDeposits db bs want) = min want (bs.map (heldOn db)).sum := by
  induction bs generalizing want with
  | nil => simp [takeDeposits, hwant]
  | cons b bs ih =>
    have hb := hheld b List.mem_cons_self
    have hbs : ∀ b' ∈ bs, 0 ≤ heldOn db b' := fun b' h => hheld b' (List.mem_cons_of_mem _ h)
    have hsum : 0 ≤ (bs.map (heldOn db)).sum := by
      refine List.sum_nonneg fun x hx => ?_
      obtain ⟨b', hb', rfl⟩ := List.mem_map.1 hx
      exact hbs b' hb'
    have htake : (if b ∈ db.bookings then min want (depositHeld db.ledger b) else 0) =
        min want (heldOn db b) := by
      unfold heldOn
      split
      · rfl
      · omega
    simp only [takeDeposits, htake, List.map_cons, List.sum_cons]
    split
    · rw [net_cons, ih hbs (by omega), legOn_cents]
      omega
    · rw [ih hbs hwant]
      omega

/-- Legs on no account that a sale's money is read from: tips and fees. -/
def SideLeg (e : Leg) : Prop :=
  e.key.category ∈ [.staffCost, .payable, .processingFee, .platformFee, .feeRevenue] ∨
    (e.key.category = .stripe ∧ e.tag = none)

theorem SideLeg.ne {e : Leg} (h : SideLeg e) {c : Category} (hc : c.isUnwound = true) :
    e.key.category ≠ c := by
  rintro rfl
  rcases h with h | ⟨h, -⟩
  · simp only [List.mem_cons, List.not_mem_nil, or_false] at h
    rcases h with h | h | h | h | h <;> rw [h] at hc <;> cases hc
  · rw [h] at hc
    cases hc

theorem SideLeg.untagged {e : Leg} (h : SideLeg e) (hc : e.key.category.isCash = true) : e.tag = none := by
  rcases h with h | ⟨-, ht⟩
  · simp only [List.mem_cons, List.not_mem_nil, or_false] at h
    rcases h with h | h | h | h | h <;> rw [h] at hc <;> cases hc
  · exact ht

/-- A leg that is written is one of the posting's, tagged with its subject unless it has its own. -/
theorem mem_written {p : Posting} {e : Leg} (h : e ∈ p.written) :
    ∃ l ∈ p.legs, e = { l with tag := l.tag.or p.subject } := by
  obtain ⟨l, hl, rfl⟩ := List.mem_map.1 h
  refine ⟨l, ?_, rfl⟩
  split at hl
  · exact hl
  · exact List.mem_of_mem_filter hl

/-- The tip journals of one payment or refund. -/
def isTipJournal (sourceId : Id) (subject : Subject) (j : LedgerJournal) : Prop :=
  j.info.source = some (.payment sourceId) ∧ j.info.event = .tip ∧ ∀ e ∈ j.legs,
    e.tag = some subject ∧ (e.key.category = .staffCost ∨ e.key.category = .payable)

theorem extends_writeTips (p : Payment) (subject : Subject) (ref : Id → Ref) (sign : Int)
    (sourceId : Id) (L : Ledger) (shares : List (Id × Int)) :
    Extends (isTipJournal sourceId subject) L (writeTips p subject ref sign sourceId L shares) := by
  unfold writeTips
  refine Runs.foldl_invariant ?_ L shares (Extends.refl _ L)
  intro L' s hL'
  dsimp only
  split
  · exact hL'
  · refine hL'.trans (extends_write L' _ _ _ fun _ => ⟨rfl, rfl, fun e he => ?_⟩)
    obtain ⟨l, hl, rfl⟩ := mem_written he
    simp only [tipPosting, List.mem_cons, List.not_mem_nil, or_false] at hl
    rcases hl with rfl | rfl
    · exact ⟨rfl, .inl rfl⟩
    · exact ⟨rfl, .inr rfl⟩

/-- Tip journals stay out of any sum that looks at no tip on staff costs and payables. -/
theorem sum_writeTips {q : LedgerJournal → Leg → Bool}
    (hq : ∀ j e, j.info.event = .tip → (e.key.category = .staffCost ∨ e.key.category = .payable) → q j e = false)
    (p : Payment) (subject : Subject) (ref : Id → Ref) (sign : Int) (sourceId : Id) (L : Ledger)
    (shares : List (Id × Int)) :
    (writeTips p subject ref sign sourceId L shares).sum q = L.sum q :=
  (extends_writeTips p subject ref sign sourceId L shares).sum_eq fun j hj e he =>
    hq j e hj.2.1 (hj.2.2 e he).2

/-! ## Booking a payment -/

/-- A payment's journal and tips are booked, and its fees where it has any. -/
def Booked (db : Db) (p : Payment) (db' : Db) : Prop :=
  ∃ db₁, postPayment db p = .ok db₁ ∧ (db' = db₁ ∨ ∃ fees, postFees db₁ p fees = .ok db')

/-- The journal a booked payment writes. -/
def paymentJournal (db : Db) (p : Payment) : LedgerJournal :=
  ⟨db.ledger.length, .payment p.id, (paymentPosting db p).info, (paymentPosting db p).written⟩

section
variable {db db' : Db} {p : Payment} (h : Booked db p db')
include h

theorem Booked.rows : ∃ L, db' = db.withLedger L ∧
    Grows (fun r => isPaymentRef p.id r ∨ r = .fee p.id) db.ledger L := by
  obtain ⟨db₁, h₁, h₂⟩ := h
  obtain ⟨L₁, he₁, hg₁⟩ := postPayment_grows db p
  rw [he₁] at h₁
  cases h₁
  have hg : Grows (fun r => isPaymentRef p.id r ∨ r = .fee p.id) db.ledger L₁ :=
    hg₁.mono fun r hr => .inl hr
  rcases h₂ with rfl | ⟨fees, h₂⟩
  · exact ⟨L₁, rfl, hg⟩
  · obtain ⟨L₂, he₂, hg₂⟩ := postFees_grows (db.withLedger L₁) p fees
    rw [he₂] at h₂
    cases h₂
    exact ⟨L₂, rfl, hg.trans (hg₂.mono fun r hr => .inr hr)⟩

/-- The journals a booked payment writes are its own: sourced to it, and on its subject or none. -/
theorem Booked.mem {j : LedgerJournal} (hj : j ∈ db'.ledger) :
    j ∈ db.ledger ∨ (j.info.source = some (.payment p.id) ∧
      (j = paymentJournal db p ∨ ∀ e ∈ j.legs, e.tag = none ∨ e.tag = some (settlement db p).1)) := by
  obtain ⟨db₁, h₁, h₂⟩ := h
  have hpay : ∀ j ∈ db₁.ledger, j ∈ db.ledger ∨ (j.info.source = some (.payment p.id) ∧
      (j = paymentJournal db p ∨ ∀ e ∈ j.legs, e.tag = none ∨ e.tag = some (settlement db p).1)) := by
    intro j hj
    rw [postPayment_eq] at h₁
    cases h₁
    rcases (extends_writeTips _ _ _ _ _ _ _).mem_or hj with hj | ⟨hs, -, ht⟩
    · rcases Book.mem_write hj with hj | ⟨-, -, rfl⟩
      · exact .inl hj
      · exact .inr ⟨rfl, .inl rfl⟩
    · exact .inr ⟨hs, .inr fun e he => .inr (ht e he).1⟩
  rcases h₂ with rfl | ⟨fees, h₂⟩
  · exact hpay j hj
  · rw [postFees_eq] at h₂
    cases h₂
    rcases Book.mem_write hj with hj | ⟨-, -, rfl⟩
    · exact hpay j hj
    · refine .inr ⟨rfl, .inr fun e he => .inl ?_⟩
      obtain ⟨l, hl, rfl⟩ := mem_written he
      simp only [feesPosting, List.mem_cons, List.not_mem_nil, or_false] at hl
      rcases hl with rfl | rfl | rfl | rfl | rfl <;> rfl

/-- What a payment booked for the first time adds to a sum that looks at no tips and fees. -/
theorem Booked.sum (hnew : db.ledger.has (.payment p.id) = false)
    {q : LedgerJournal → Leg → Bool} (hq : ∀ j e, SideLeg e → q j e = false) :
    db'.ledger.sum q = db.ledger.sum q +
      sumOf (fun l => q (paymentJournal db p) { l with tag := l.tag.or (settlement db p).1 })
        (paymentPosting db p).legs := by
  obtain ⟨db₁, h₁, h₂⟩ := h
  have hpay : db₁.ledger.sum q = db.ledger.sum q +
      sumOf (fun l => q (paymentJournal db p) { l with tag := l.tag.or (settlement db p).1 })
        (paymentPosting db p).legs := by
    rw [postPayment_eq] at h₁
    cases h₁
    rw [Db.ledger_withLedger, sum_writeTips fun j e _ he => hq j e (.inl (by rcases he with he | he <;> rw [he] <;> decide))]
    exact sum_posted (p := paymentPosting db p) hnew q
  rcases h₂ with rfl | ⟨fees, h₂⟩
  · exact hpay
  · rw [postFees_eq] at h₂
    cases h₂
    rw [Db.ledger_withLedger, Book.sum_write_of_not, hpay]
    intro e he
    obtain ⟨l, hl, rfl⟩ := mem_written he
    refine hq _ _ ?_
    simp only [feesPosting, List.mem_cons, List.not_mem_nil, or_false] at hl
    rcases hl with rfl | rfl | rfl | rfl | rfl <;> simp [SideLeg, leg, feesPosting]

end

theorem due_nonneg (db : Db) (order : Order) (state : DocumentState) :
    0 ≤ (orderMoney db order state).due := by
  simp only [orderMoney]
  split
  · exact le_max_left _ _
  · exact le_refl 0

end ClientBridge
