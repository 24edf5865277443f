import ClientBridge.Ledger.Redemptions
import ClientBridge.Payments.Refunding

/-!
# Paying a sale

Three things pay for a sale: gift cards redeemed while it is open, deposits held on its
visits, and the payment of what is then due.  `SaleStep` is one of them happening, `Unpaid`
and `Settled` are the books of a sale before and after its payment.  Here gift cards: a
redemption keeps the books of an unpaid sale (`Unpaid.redeem`), since it books what its
share of the running total adds to the tax booked so far.
-/

namespace ClientBridge

open Bookkeeping Runs

/-! ## The commands -/

/-- The sale and what is due on it, if it can be charged. -/
def chargeable (db : Db) (orderId : Id) : Except Error (Order × { due : Int // 0 ≤ due }) :=
  match db.order? orderId with
  | none => .error (.notFound "order not found")
  | some order =>
    if orderState db order ≠ .open then .error (.conflict "only an open order can be paid")
    else if fetchLines db orderId = [] then .error (.conflict "add something to the sale first")
    else .ok (order, ⟨(orderMoney db order .open).due, due_nonneg db order .open⟩)

def hasActivePayment (db : Db) (orderId : Id) : Bool :=
  db.payments.any fun p => decide (p.orderId = some orderId ∧ p.status ≠ .failed ∧ p.status ≠ .canceled)

/-- Only an active card with a balance can be used; a spent one stays active in storage. -/
def GiftCard.usable (card : GiftCard) (balance now : Int) : Bool :=
  decide (card.status = .active ∧ balance ≠ 0) && !card.expiresAt.any fun t => decide (t ≤ now)

/-- Redeem a gift card against what an open sale still owes, up to its balance. -/
def applyGiftCard (db : Db) (orderId : Id) (code : String) (serial : Nat) (now : Int) :
    Except Error Db := do
  let (order, due) ← chargeable db orderId
  if hasActivePayment db order.id then .error (.conflict "this sale already has a payment")
  else match db.giftCards.find? fun c => decide (c.code = code) with
    | none => .error (.notFound "gift card not found")
    | some card =>
      let balance := giftCardBalance db.ledger card.id
      if !card.usable balance now then .error (.conflict "only an active gift card can be used")
      else
        let amount := min balance due
        if amount ≤ 0 then .error (.conflict "nothing is left to pay on this sale")
        else postRedemption db card.id amount order.id serial now

/-- The row of a payment taken at the desk. -/
def cashPayment (id : Id) (order : Order) (tip : TipTerms) (amount createdAt : Int)
    (h : tip.cents ≤ amount) : Payment where
  id := id
  clientId := order.clientId
  kind := .payment
  parentPaymentId := none
  invoiceId := none
  orderId := some order.id
  bookingId := none
  amountCents := amount
  tip := tip
  method := .cash
  provider := .manual
  providerRef := none
  status := .succeeded
  reason := none
  disputeStatus := none
  createdAt := createdAt
  tip_le := h
  target := .inl rfl

/-- Take cash for what is due plus any tip. -/
def payCash (db : Db) (orderId id : Id) (tip : TipTerms) (tendered now : Int) : Except Error Db := do
  let (order, due) ← chargeable db orderId
  if hasActivePayment db order.id then .error (.conflict "this sale already has a payment")
  else
    let payment := cashPayment id order tip (due + tip.cents) now (by have := due.2; omega)
    if tendered < payment.amountCents then
      .error (.unprocessable "the cash handed over doesn't cover the sale")
    else postPayment (db.addPayment payment) payment

/-! ## What a sale has booked -/

/-- The redemption and payment journals of a sale. -/
def booksSale (db : Db) (orderId : Id) (j : LedgerJournal) : Bool :=
  match j.info.source with
  | some (.order id) => decide (j.info.event = .redemption ∧ id = orderId)
  | some (.payment id) =>
    decide (j.info.event = .payment) && decide ((db.payment? id).bind (·.orderId) = some orderId)
  | _ => false

/-- What these journals credited to the selected accounts. -/
def bookedOn (db : Db) (orderId : Id) (r : AccountKey → Bool) : Int :=
  -db.ledger.sum fun j e => booksSale db orderId j && r e.key

def revenueBooked (db : Db) (orderId : Id) : Int :=
  bookedOn db orderId fun k => decide (k.category = .revenue)

def taxBooked (db : Db) (orderId : Id) (code : TaxCode) : Int :=
  bookedOn db orderId fun k => decide (k.category = .tax) && decide (k.code = .tax code)

/-- The tax fixed on a sale's lines, by code. -/
def saleTax (db : Db) (order : Order) : TaxResult :=
  issuedTax db (fetchLines db order.id) order.createdAt

/-- What was applied to a sale makes up its total, and what its journals booked is the total
less the tax as revenue and each code's issued tax. -/
def Conserved (db : Db) (order : Order) : Prop :=
  giftCardApplied db.ledger order.id + orderDepositApplied db order.id +
      (collected db (.order order.id) - orderTips db order.id) = order.totalCents ∧
    revenueBooked db order.id = order.totalCents - Dict.total (saleTax db order).byJurisdiction ∧
    ∀ c, taxBooked db order.id c = (saleTax db order).code c

/-! ## Steps -/

/-- An id no row and no journal has: ids are minted when a row is made. -/
structure FreshId (db : Db) (id : Id) : Prop where
  row : ∀ q ∈ db.payments, q.id ≠ id
  ref : db.ledger.has (.payment id) = false
  source : ∀ j ∈ db.ledger, j.info.source ≠ some (.payment id)

inductive SaleAction where
  | redeem (code : String) (serial : Nat) (now : Int)
  | deposit (p : Payment)
  | cash (id : Id) (tip : TipTerms) (tendered now : Int)
  | card (p : Payment) (gateway : Gateway) (refundId : Id)

/-- Gift cards redeemed, deposits settling, and the payment of exactly what is due plus a tip,
in cash or by a card charge that settles.  Until it settles a charge only keeps redemptions
out, so its row comes with it; one whose due moved meanwhile is late and is given back. -/
inductive SaleStep (orderId : Id) (db : Db) : SaleAction → Db → Prop
  | redeem {code serial now db'} (hserial : ∀ card, db.ledger.has (.redemption card (some orderId) serial) = false)
      (h : applyGiftCard db orderId code serial now = .ok db') : SaleStep orderId db (.redeem code serial now) db'
  | deposit {p db'} (hid : FreshId db p.id) (hi : p.invoiceId = none) (ho : p.orderId = none)
      (hb : p.bookingId.isSome) (h : Booked (db.addPayment p) p db') : SaleStep orderId db (.deposit p) db'
  | cash {id tip tendered now db'} (hid : FreshId db id)
      (h : payCash db orderId id tip tendered now = .ok db') : SaleStep orderId db (.cash id tip tendered now) db'
  | card {p gateway refundId db' order} {due : { due : Int // 0 ≤ due }} (hid : FreshId db p.id)
      (hk : p.kind = .payment) (ho : p.orderId = some orderId) (hs : p.status = .pending)
      (hopen : hasActivePayment db orderId = false) (hc : chargeable db orderId = .ok (order, due))
      (hamount : p.amountCents = due.1 + p.tip.cents)
      (hlive : (liveOrder (db.addPayment p) gateway p).isSome)
      (h : settlePayment (db.addPayment p) gateway p refundId = .ok db') :
      SaleStep orderId db (.card p gateway refundId) db'

def SaleAction.isPayment : SaleAction → Bool
  | .cash _ _ _ _ | .card _ _ _ => true
  | _ => false

/-- Gift cards and held deposits together do not exceed the total. -/
def Covered (db : Db) (order : Order) : Prop :=
  giftCardApplied db.ledger order.id + visitDeposits db order ≤ order.totalCents

/-! ## Before and after the payment -/

/-- An open sale's row, with its lines' tax. -/
structure SaleRow (order : Order) (tax : TaxResult) (db : Db) : Prop where
  row : db.order? order.id = some order
  isOpen : order.status = .open
  issued : saleTax db order = tax

/-- A sale that no payment was taken for yet. -/
structure Unpaid (order : Order) (tax : TaxResult) (db : Db) : Prop extends SaleRow order tax db where
  held : ∀ b ∈ visits (fetchLines db order.id), 0 ≤ heldOn db b
  rows : ∀ p ∈ db.payments, p.orderId = some order.id → p.status ≠ .succeeded
  sources : ∀ p ∈ db.payments, p.orderId = some order.id →
    ∀ j ∈ db.ledger, j.info.source ≠ some (.payment p.id)
  untagged : ∀ j ∈ db.ledger, ∀ e ∈ j.legs, e.tag ≠ some (.order order.id)
  redemptions : ∀ j ∈ db.ledger, j.info.source = some (.order order.id) → j.info.event = .redemption
  gift_nonneg : 0 ≤ giftCardApplied db.ledger order.id
  gift_le : giftCardApplied db.ledger order.id ≤ order.totalCents
  taxed : ∀ c, redeemedTax db.ledger order.id c = (allocate (tax.code c)
    [giftCardApplied db.ledger order.id, order.totalCents - giftCardApplied db.ledger order.id]).headD 0
  earned : -db.ledger.sum (fun j e => decide (j.info.source = some (.order order.id)) &&
      decide (e.key.category = .revenue)) =
    giftCardApplied db.ledger order.id -
      (tax.byJurisdiction.map fun x => redeemedTax db.ledger order.id x.1).sum

/-- A sale whose payment was taken. -/
structure Settled (order : Order) (tax : TaxResult) (db : Db) : Prop extends SaleRow order tax db where
  active : hasActivePayment db order.id = true
  conserved : Conserved db order

section
variable {order : Order} {tax : TaxResult} {db : Db}

theorem Unpaid.collected_eq (h : Unpaid order tax db) : collected db (.order order.id) = 0 := by
  refine Book.sum_eq_zero fun j hj e he hq => absurd ?_ (h.untagged j hj e he)
  simp only [cashLeg, Bool.and_eq_true, decide_eq_true_eq] at hq
  exact hq.1.1.1

theorem Unpaid.not_refunded (h : Unpaid order tax db) : refunded db (.order order.id) = false := by
  unfold refunded
  rw [List.any_eq_false]
  intro j hj
  have hn : j.legs.any (cashLeg db.ledger (.order order.id) j) = false := by
    rw [List.any_eq_false]
    intro e he
    simp [cashLeg, h.untagged j hj e he]
  simp [hn]

theorem Unpaid.tips_eq (h : Unpaid order tax db) : orderTips db order.id = 0 := by
  have hnil : db.payments.filter (fun p =>
      decide (p.orderId = some order.id ∧ p.kind = .payment ∧ p.status = .succeeded)) = [] := by
    rw [List.filter_eq_nil_iff]
    intro p hp hq
    obtain ⟨ho, -, hs⟩ := of_decide_eq_true hq
    exact h.rows p hp ho hs
  rw [orderTips, hnil]
  rfl

/-- No journal is sourced to a payment of the sale. -/
theorem Unpaid.not_booked (h : Unpaid order tax db) {j : LedgerJournal} (hj : j ∈ db.ledger) {id : Id}
    (hs : j.info.source = some (.payment id)) : (db.payment? id).bind (·.orderId) ≠ some order.id := by
  intro hb
  obtain ⟨p, hp, ho⟩ := Option.bind_eq_some_iff.1 hb
  have hid : p.id = id := by simpa using List.find?_some hp
  exact h.sources p (List.mem_of_find?_eq_some hp) ho j hj (by rw [hid]; exact hs)

theorem Unpaid.deposit_eq (h : Unpaid order tax db) : orderDepositApplied db order.id = 0 := by
  refine Book.sum_eq_zero_of_no_journal fun j hj e => ?_
  unfold appliesDeposit
  split
  · next id hs => simp [h.not_booked hj hs]
  · rfl

/-- Before the payment the sale's journals are its redemptions. -/
theorem Unpaid.booksSale_eq (h : Unpaid order tax db) {j : LedgerJournal} (hj : j ∈ db.ledger) :
    booksSale db order.id j = decide (j.info.source = some (.order order.id)) := by
  unfold booksSale
  split
  · next id hs =>
    by_cases ho : id = order.id
    · subst ho
      simp [hs, h.redemptions j hj hs]
    · simp [hs, ho]
  · next id hs => simp [h.not_booked hj hs, hs]
  · next hne _ => exact (decide_eq_false (hne order.id)).symm

theorem Unpaid.held_nonneg (h : Unpaid order tax db) :
    0 ≤ ((visits (fetchLines db order.id)).map (heldOn db)).sum := by
  refine List.sum_nonneg fun x hx => ?_
  obtain ⟨b, hb, rfl⟩ := List.mem_map.1 hx
  exact h.held b hb

theorem Unpaid.visitDeposits_nonneg (h : Unpaid order tax db) : 0 ≤ visitDeposits db order :=
  le_min h.held_nonneg order.total_nonneg

/-- What an unpaid sale owes. -/
theorem Unpaid.due_eq (h : Unpaid order tax db) : (orderMoney db order .open).due =
    max 0 (order.totalCents - visitDeposits db order - giftCardApplied db.ledger order.id) := by
  simp [orderMoney, h.collected_eq, h.tips_eq]

theorem tax_nodup (h : SaleRow order tax db) : (Dict.keys tax.byJurisdiction).Nodup := by
  rw [← h.issued]
  exact nodup_splitFixed _ _

theorem Unpaid.taxBooked_eq (h : Unpaid order tax db) (c : TaxCode) :
    taxBooked db order.id c = redeemedTax db.ledger order.id c := by
  unfold taxBooked bookedOn redeemedTax
  rw [Book.sum_congr fun j hj e _ => by rw [h.booksSale_eq hj]]

theorem Unpaid.revenueBooked_eq (h : Unpaid order tax db) : revenueBooked db order.id =
    giftCardApplied db.ledger order.id -
      (tax.byJurisdiction.map fun x => redeemedTax db.ledger order.id x.1).sum := by
  rw [← h.earned]
  unfold revenueBooked bookedOn
  rw [Book.sum_congr fun j hj e _ => by rw [h.booksSale_eq hj]]

/-- A sale that reads paid before any payment is covered by gift cards alone. -/
theorem Unpaid.conserved (h : Unpaid order tax db) (hp : orderState db order = .paid) :
    Conserved db order := by
  have hle := h.gift_le
  have hcover : 0 < giftCardApplied db.ledger order.id ∧
      order.totalCents ≤ giftCardApplied db.ledger order.id := by
    simp only [orderState, h.collected_eq, h.deposit_eq, h.not_refunded, h.isOpen] at hp
    by_contra hn
    simp only [reduceCtorEq, if_false, Bool.false_eq_true, and_false, or_false, Int.zero_add, if_neg hn] at hp
  have hg : giftCardApplied db.ledger order.id = order.totalCents := by omega
  have htax : ∀ c, redeemedTax db.ledger order.id c = tax.code c := by
    intro c
    rw [h.taxed c, hg, Int.sub_self, allocate_first _ (by omega)]
    rfl
  have hsum : (tax.byJurisdiction.map fun x => tax.code x.1).sum = Dict.total tax.byJurisdiction :=
    Dict.total_eq_sum_get (tax_nodup h.toSaleRow)
  refine ⟨?_, ?_, fun c => ?_⟩
  · rw [h.deposit_eq, h.collected_eq, h.tips_eq, hg]
    omega
  · rw [h.revenueBooked_eq, h.issued, List.map_congr_left fun x _ => htax x.1, hsum, hg]
  · rw [h.taxBooked_eq, htax, h.issued]

end

/-! ## Redeeming a gift card -/

theorem chargeable_ok {db : Db} {orderId : Id} {order : Order} {due : { due : Int // 0 ≤ due }}
    (h : chargeable db orderId = .ok (order, due)) :
    db.order? orderId = some order ∧ orderState db order = .open ∧
      due.1 = (orderMoney db order .open).due := by
  unfold chargeable at h
  cases ho : db.order? orderId with
  | none => rw [ho] at h; cases h
  | some order' =>
    rw [ho] at h
    dsimp only at h
    split at h
    · cases h
    · next hs =>
      split at h
      · cases h
      · cases h
        exact ⟨rfl, not_not.1 hs, rfl⟩

/-- A gift card is redeemed for part of what is due, on a sale with no payment. -/
theorem applyGiftCard_ok {db db' : Db} {orderId : Id} {code : String} {serial : Nat} {now : Int}
    (h : applyGiftCard db orderId code serial now = .ok db') :
    ∃ order due cardId amount, chargeable db orderId = .ok (order, due) ∧
      hasActivePayment db order.id = false ∧ 0 < amount ∧ amount ≤ due.1 ∧
      postRedemption db cardId amount order.id serial now = .ok db' := by
  unfold applyGiftCard at h
  obtain ⟨⟨order, due⟩, hc, h⟩ := bind_ok h
  dsimp only at h
  split at h
  · cases h
  · next ha =>
    split at h
    · cases h
    · next card _ =>
      split at h
      · cases h
      · split at h
        · cases h
        · next hpos =>
          exact ⟨order, due, card.id, _, hc, by simpa using ha, by omega, min_le_right _ _, h⟩

theorem booked_lt_of_due {order : Order} {tax : TaxResult} {db : Db} (h : Unpaid order tax db)
    {amount : Int} (h0 : 0 < amount) (hle : amount ≤ (orderMoney db order .open).due) :
    giftCardApplied db.ledger order.id + amount ≤ order.totalCents := by
  have hd := h.visitDeposits_nonneg
  rw [h.due_eq] at hle
  omega

section
variable {order : Order} {tax : TaxResult} {db : Db} (h : Unpaid order tax db) {amount : Int}
  (h0 : 0 < amount) (hle : giftCardApplied db.ledger order.id + amount ≤ order.totalCents) (now : Int)
include h h0 hle

/-- A redemption's tax is what the running total's share grows by. -/
theorem redemptionTax_eq : (redemptionTax db order.id amount now).byJurisdiction =
    tax.byJurisdiction.map fun x => (x.1,
      (allocate x.2 [giftCardApplied db.ledger order.id + amount,
        order.totalCents - (giftCardApplied db.ledger order.id + amount)]).headD 0 -
          redeemedTax db.ledger order.id x.1) := by
  have hg := h.gift_nonneg
  have htotal : ¬order.totalCents ≤ 0 := by omega
  have hcovered : min order.totalCents (giftCardApplied db.ledger order.id + amount) =
      giftCardApplied db.ledger order.id + amount := min_eq_right hle
  have hissued : issuedTax db (fetchLines db order.id)
      (((some order).map (·.createdAt)).getD now) = tax := h.issued
  simp only [redemptionTax, orderTax, h.row, hissued, if_neg htotal, hcovered, without, List.map_map,
    Function.comp_def]

/-- What it books under a code. -/
theorem sumAt_redemptionTax (c : TaxCode) :
    Dict.sumAt (redemptionTax db order.id amount now).byJurisdiction c =
      (allocate (tax.code c) [giftCardApplied db.ledger order.id + amount,
        order.totalCents - (giftCardApplied db.ledger order.id + amount)]).headD 0 -
          redeemedTax db.ledger order.id c := by
  rw [redemptionTax_eq h h0 hle, Dict.sumAt_map (tax_nodup h.toSaleRow)]
  split
  · rfl
  · next hc =>
    have hz : tax.code c = 0 := Dict.get_of_not_mem hc
    rw [h.taxed c, hz]
    simp [allocate]

/-- Its codes make up its tax. -/
theorem sum_redemptionTax :
    (tax.byJurisdiction.map fun x =>
      Dict.sumAt (redemptionTax db order.id amount now).byJurisdiction x.1).sum =
        (redemptionTax db order.id amount now).taxTotalCents := by
  have hkeys : Dict.keys (redemptionTax db order.id amount now).byJurisdiction =
      Dict.keys tax.byJurisdiction := by
    simp [redemptionTax_eq h h0 hle, Dict.keys, Function.comp_def]
  have hnodup : (Dict.keys (redemptionTax db order.id amount now).byJurisdiction).Nodup :=
    hkeys ▸ tax_nodup h.toSaleRow
  have hmap : ∀ d d' : List (TaxCode × Int), ∀ f : TaxCode → Int, Dict.keys d = Dict.keys d' →
      (d.map fun x => f x.1) = d'.map fun x => f x.1 := by
    intro d d' f hd
    have hf := congrArg (List.map f) hd
    simpa only [Dict.keys, List.map_map, Function.comp_def] using hf
  rw [taxTotal_redemptionTax, ← Dict.total_eq_sum_get hnodup, hmap _ _ (Dict.get _) hkeys]
  refine congrArg _ (List.map_congr_left fun x _ => ?_)
  exact Dict.sumAt_eq_get hnodup x.1

end

/-- Redeeming a gift card keeps the books of an unpaid sale. -/
theorem Unpaid.redeem {order : Order} {tax : TaxResult} {db db' : Db} (h : Unpaid order tax db)
    {code : String} {serial : Nat} {now : Int}
    (hserial : ∀ card, db.ledger.has (.redemption card (some order.id) serial) = false)
    (hok : applyGiftCard db order.id code serial now = .ok db') : Unpaid order tax db' := by
  obtain ⟨order', due, cardId, amount, hc, -, h0, hle, hpost⟩ := applyGiftCard_ok hok
  obtain ⟨hrow, -, hdue⟩ := chargeable_ok hc
  obtain rfl : order' = order := by rw [h.row] at hrow; exact (Option.some.inj hrow).symm
  have hcover := booked_lt_of_due h h0 (hdue ▸ hle)
  have hg := h.gift_nonneg
  have hnew := hserial cardId
  have hgift := giftCardApplied_postRedemption hpost hnew
  have htaxed := redeemedTax_postRedemption hpost hnew
  have hmem := fun j => mem_postRedemption hpost (j := j)
  have hheld := heldOn_postRedemption hpost hnew
  have hrev := revenue_postRedemption hpost hnew
  obtain ⟨L, rfl, -⟩ := postRedemption_grows hpost
  refine ⟨⟨h.row, h.isOpen, h.issued⟩, fun b hb => ?_, h.rows, fun p hp ho j hj => ?_, fun j hj e he => ?_,
    fun j hj hs => ?_, ?_, ?_, fun c => ?_, ?_⟩
  · rw [hheld]
    exact h.held b hb
  · rcases hmem j hj with hj | ⟨hs, -, -⟩
    · exact h.sources p hp ho j hj
    · rw [hs]
      simp
  · rcases hmem j hj with hj | ⟨-, -, ht⟩
    · exact h.untagged j hj e he
    · rw [ht e he]
      simp
  · rcases hmem j hj with hj | ⟨-, he, -⟩
    · exact h.redemptions j hj hs
    · exact he
  · rw [hgift]
    omega
  · rw [hgift]
    exact hcover
  · rw [htaxed, sumAt_redemptionTax h h0 hcover, hgift]
    omega
  · rw [hrev, hgift, List.map_congr_left fun x _ => htaxed x.1, List.sum_map_add,
      sum_redemptionTax h h0 hcover]
    have he := h.earned
    omega

end ClientBridge
