import ClientBridge.Payments.Sales

/-!
# Booking a sale's payment, and deposits on its visits

What a booked payment adds to each of the sums a sale's money is read from.  The payment's
journal applies deposits to whatever its own cash does not cover, gift card balance included,
so it makes up the total only if gift cards and held deposits did not exceed it
(`conserved_of_payment_iff`).
-/

namespace ClientBridge

open Bookkeeping

/-! ## A visit deposit settling -/

section
variable {db : Db} {p : Payment}

theorem payment?_addPayment_of_ne {id : Id} (h : id ≠ p.id) :
    (db.addPayment p).payment? id = db.payment? id := by
  simp [Db.payment?, Db.addPayment, List.find?_append, Ne.symm h]

theorem payment?_addPayment (h : FreshId db p.id) : (db.addPayment p).payment? p.id = some p := by
  have hn : db.payments.find? (fun q => decide (q.id = p.id)) = none := by
    rw [List.find?_eq_none]
    intro q hq
    simpa using h.row q hq
  simp [Db.payment?, Db.addPayment, List.find?_append, hn]

theorem appliesDeposit_addPayment (h : FreshId db p.id) (orderId : Id) {j : LedgerJournal}
    (hj : j ∈ db.ledger) : appliesDeposit (db.addPayment p) orderId j = appliesDeposit db orderId j := by
  funext e
  unfold appliesDeposit
  split
  · next id hs => rw [payment?_addPayment_of_ne fun he => h.source j hj (he ▸ hs)]
  · rfl

theorem booksSale_addPayment (h : FreshId db p.id) (orderId : Id) {j : LedgerJournal}
    (hj : j ∈ db.ledger) : booksSale (db.addPayment p) orderId j = booksSale db orderId j := by
  unfold booksSale
  split
  · rfl
  · next id hs => rw [payment?_addPayment_of_ne fun he => h.source j hj (he ▸ hs)]
  · rfl

variable {db' : Db} (hid : FreshId db p.id) (h : Booked (db.addPayment p) p db')
include h

theorem Booked.settled_eq : settled db'.ledger = settled db.ledger := by
  obtain ⟨L, rfl, hg⟩ := h.rows
  exact settled_of_grows hg (by rintro r ((rfl | ⟨s, rfl⟩) | rfl) id <;> simp)

include hid

/-- The cash that reaches a document with a booked payment. -/
theorem collected_booked (subject : Subject) : collected db' subject = collected db subject +
    sumOf (fun l => cashLeg db.ledger subject (paymentJournal (db.addPayment p) p)
      { l with tag := l.tag.or (settlement (db.addPayment p) p).1 }) (paymentPosting (db.addPayment p) p).legs := by
  unfold collected
  rw [show cashLeg db'.ledger subject = cashLeg db.ledger subject from by
    funext j e
    simp only [cashLeg, h.settled_eq]]
  refine h.sum hid.ref fun j e he => ?_
  unfold cashLeg
  cases hc : e.key.category.isCash with
  | false => simp
  | true => simp [he.untagged hc]

theorem giftCardApplied_booked (orderId : Id) :
    giftCardApplied db'.ledger orderId = giftCardApplied db.ledger orderId := by
  refine (h.sum hid.ref fun j e he => ?_).trans ?_
  · simp [he.ne (c := .giftCard) rfl]
  · rw [sumOf_eq_zero fun e _ hq => ?_, Int.add_zero]
    · rfl
    · simp [paymentJournal, Posting.info, paymentPosting] at hq

theorem orderDepositApplied_booked (orderId : Id) :
    orderDepositApplied db' orderId = orderDepositApplied db orderId +
      if p.orderId = some orderId then
        sumOf (fun l => decide (l.key.category = .deposit)) (settlement (db.addPayment p) p).2
      else 0 := by
  obtain ⟨L, rfl, -⟩ := h.rows
  have hrow : ∀ e, appliesDeposit (db.addPayment p) orderId (paymentJournal (db.addPayment p) p) e =
      (decide (e.key.category = .deposit) && decide (p.orderId = some orderId)) := by
    intro e
    simp [appliesDeposit, paymentJournal, Posting.info, paymentPosting, payment?_addPayment hid]
  refine (h.sum hid.ref (q := appliesDeposit (db.addPayment p) orderId) fun j e he => ?_).trans ?_
  · unfold appliesDeposit
    split
    · simp [he.ne (c := .deposit) rfl]
    · rfl
  · rw [Db.ledger_addPayment, Book.sum_congr fun j hj e _ => congrFun (appliesDeposit_addPayment hid orderId hj) e]
    simp only [hrow, paymentPosting, sumOf_cons, leg_key]
    have hcash : cashCategory p ≠ .deposit := by
      unfold cashCategory
      split <;> simp
    by_cases ho : p.orderId = some orderId
    · simp [hcash, ho, orderDepositApplied]
    · simp [ho, orderDepositApplied, sumOf_false]

/-- What a booked payment adds to the accounts its sale is booked on. -/
theorem bookedOn_booked (orderId : Id) {r : AccountKey → Bool}
    (hr : ∀ k, r k = true → k.category.isUnwound = true) :
    bookedOn db' orderId r = bookedOn db orderId r -
      if p.orderId = some orderId then
        sumOf (fun l => r l.key) (settlement (db.addPayment p) p).2
      else 0 := by
  obtain ⟨L, rfl, -⟩ := h.rows
  have hrow : booksSale (db.addPayment p) orderId (paymentJournal (db.addPayment p) p) =
      decide (p.orderId = some orderId) := by
    simp [booksSale, paymentJournal, Posting.info, paymentPosting, payment?_addPayment hid]
  have hcash : r ⟨.business, cashCategory p, .plain⟩ = false := by
    rw [Bool.eq_false_iff]
    intro hk
    have hu := hr _ hk
    unfold cashCategory at hu
    split at hu <;> cases hu
  have hsum := h.sum hid.ref (q := fun j e => booksSale (db.addPayment p) orderId j && r e.key) (by
    intro j e he
    cases hk : r e.key with
    | false => simp
    | true => exact absurd rfl (he.ne (hr _ hk)))
  have hold : (db.addPayment p).ledger.sum (fun j e => booksSale (db.addPayment p) orderId j && r e.key) =
      db.ledger.sum fun j e => booksSale db orderId j && r e.key :=
    Book.sum_congr fun j hj e _ => by rw [booksSale_addPayment hid orderId hj]
  have hlegs : sumOf (fun l => booksSale (db.addPayment p) orderId (paymentJournal (db.addPayment p) p) &&
      r l.key) (paymentPosting (db.addPayment p) p).legs =
        if p.orderId = some orderId then sumOf (fun l => r l.key) (settlement (db.addPayment p) p).2
        else 0 := by
    rw [hrow, paymentPosting, sumOf_cons]
    by_cases ho : p.orderId = some orderId
    · simp [hcash, ho]
    · simp [ho, sumOf_false]
  rw [hold, hlegs] at hsum
  refine (congrArg Neg.neg hsum).trans ?_
  unfold bookedOn
  omega

omit hid in
theorem orderTips_booked (orderId : Id) : orderTips db' orderId = orderTips db orderId +
    if p.orderId = some orderId ∧ p.kind = .payment ∧ p.status = .succeeded then p.tip.cents else 0 := by
  obtain ⟨L, rfl, -⟩ := h.rows
  unfold orderTips
  rw [Db.payments_withLedger, Db.payments_addPayment, List.filter_append, List.map_append, List.sum_append]
  congr 1
  split
  · next hp => simp [hp]
  · next hp => simp [hp]

variable (hi : p.invoiceId = none) (ho : p.orderId = none) {bookingId : Id} (hb : p.bookingId = some bookingId)
include hi ho hb

omit hid h in
theorem settlement_deposit (db : Db) :
    settlement db p = (.booking bookingId, [leg .business .deposit (-p.amountCents)]) := by
  simp [settlement, hi, ho, hb]

/-- A deposit that settles is held on its booking. -/
theorem heldOn_booked_deposit (b : Id) : heldOn db b ≤ heldOn db' b := by
  have hp := p.amount_nonneg
  have hsum := h.sum hid.ref (q := fun j e => decide (e.tag = some (.booking b)) &&
    decide (e.key.category = .deposit) && settled db.ledger j) fun j e he => by
      simp [he.ne (c := .deposit) rfl]
  have hs : settled db.ledger (paymentJournal (db.addPayment p) p) = true :=
    settled_of_ne (by simp [paymentJournal, Posting.info, paymentPosting])
  have hcash : cashCategory p ≠ .deposit := by
    unfold cashCategory
    split <;> simp
  have hle : subjectBalance db'.ledger .deposit (.booking b) ≤ subjectBalance db.ledger .deposit (.booking b) := by
    unfold subjectBalance
    rw [h.settled_eq]
    refine hsum.le.trans ?_
    simp only [paymentPosting, settlement_deposit hi ho hb, hs, Db.ledger_addPayment, sumOf_cons,
      sumOf_nil, leg_key, hcash, decide_false, Bool.and_false, Bool.false_and, Bool.false_eq_true, if_false]
    split
    · simp; omega
    · simp
  have hrows : db'.bookings = db.bookings := by
    obtain ⟨L, rfl, -⟩ := h.rows
    rfl
  simp only [heldOn, depositHeld, hrows]
  split
  · exact neg_le_neg hle
  · exact le_refl 0

theorem collected_booked_deposit (orderId : Id) :
    collected db' (.order orderId) = collected db (.order orderId) := by
  rw [collected_booked hid h, sumOf_eq_zero fun e he hq => ?_, Int.add_zero]
  simp only [paymentPosting, settlement_deposit hi ho hb, List.mem_cons, List.not_mem_nil, or_false] at he
  rcases he with rfl | rfl <;> simp [cashLeg, leg, settlement_deposit hi ho hb] at hq

theorem Unpaid.deposit {order : Order} {tax : TaxResult} (hu : Unpaid order tax db) :
    Unpaid order tax db' := by
  have hgift := giftCardApplied_booked hid h order.id
  have hheld := heldOn_booked_deposit hid h hi ho hb
  have hmem := fun j => h.mem (j := j)
  have hsum : ∀ r : AccountKey → Bool, (∀ k, r k = true → k.category.isUnwound = true) →
      db'.ledger.sum (fun j e => decide (j.info.source = some (.order order.id)) && r e.key) =
        db.ledger.sum (fun j e => decide (j.info.source = some (.order order.id)) && r e.key) := by
    intro r hr
    refine (h.sum hid.ref fun j e he => ?_).trans ?_
    · cases hk : r e.key with
      | false => simp
      | true => exact absurd rfl (he.ne (hr _ hk))
    · rw [sumOf_eq_zero fun e _ hq => ?_, Int.add_zero]
      · rfl
      · simp [paymentJournal, Posting.info, paymentPosting] at hq
  have htax : ∀ c, redeemedTax db'.ledger order.id c = redeemedTax db.ledger order.id c := fun c =>
    congrArg Neg.neg (hsum (fun k => decide (k.category = .tax) && decide (k.code = .tax c)) fun k hk => by
      simp only [Bool.and_eq_true, decide_eq_true_eq] at hk
      rw [hk.1]; rfl)
  have hrev := hsum (fun k => decide (k.category = .revenue)) fun k hk => by
    rw [of_decide_eq_true hk]; rfl
  have hearned := hu.earned
  obtain ⟨L, rfl, -⟩ := h.rows
  refine ⟨⟨hu.row, hu.isOpen, hu.issued⟩, fun b hb' => (hu.held b hb').trans (hheld b), fun q hq hqo => ?_,
    fun q hq hqo j hj => ?_, fun j hj e he => ?_, fun j hj hs => ?_, hgift ▸ hu.gift_nonneg,
    hgift ▸ hu.gift_le, fun c => ?_, ?_⟩
  · rcases List.mem_append.1 hq with hq | hq
    · exact hu.rows q hq hqo
    · rw [List.mem_singleton.1 hq, ho] at hqo
      cases hqo
  · rcases List.mem_append.1 hq with hq | hq
    · rcases hmem j hj with hj | ⟨hs, -⟩
      · exact hu.sources q hq hqo j hj
      · rw [hs]
        simpa using Ne.symm (hid.row q hq)
    · rw [List.mem_singleton.1 hq, ho] at hqo
      cases hqo
  · rcases hmem j hj with hj | ⟨-, rfl | ht⟩
    · exact hu.untagged j hj e he
    · obtain ⟨l, hl, rfl⟩ := mem_written he
      simp only [paymentPosting, settlement_deposit hi ho hb, List.mem_cons, List.not_mem_nil, or_false] at hl
      rcases hl with rfl | rfl <;> simp [paymentPosting, settlement_deposit hi ho hb, leg]
    · rcases ht e he with ht | ht <;> rw [ht] <;> simp [settlement_deposit hi ho hb]
  · rcases hmem j hj with hj | ⟨hs', -⟩
    · exact hu.redemptions j hj hs
    · rw [hs'] at hs
      cases hs
  · rw [htax, hgift]
    exact hu.taxed c
  · rw [hrev, hgift, List.map_congr_left fun x _ => htax x.1]
    exact hearned

theorem Settled.deposit {order : Order} {tax : TaxResult} (hs : Settled order tax db) :
    Settled order tax db' := by
  have hno : ¬p.orderId = some order.id := by simp [ho]
  obtain ⟨hparts, hrev, htax⟩ := hs.conserved
  have hsale : saleTax db' order = saleTax db order := by
    obtain ⟨L, rfl, -⟩ := h.rows
    rfl
  have hrow : SaleRow order tax db' ∧ hasActivePayment db' order.id = true := by
    obtain ⟨L, rfl, -⟩ := h.rows
    refine ⟨⟨hs.row, hs.isOpen, hs.issued⟩, ?_⟩
    have ha := hs.active
    simp only [hasActivePayment, Db.payments_withLedger, Db.payments_addPayment, List.any_append,
      Bool.or_eq_true] at ha ⊢
    exact .inl ha
  refine ⟨hrow.1, hrow.2, ?_, ?_, fun c => ?_⟩
  · rw [giftCardApplied_booked hid h, orderDepositApplied_booked hid h, if_neg hno,
      collected_booked_deposit hid h hi ho hb, orderTips_booked h, if_neg fun hp => hno hp.1]
    omega
  · rw [revenueBooked, bookedOn_booked hid h, if_neg hno, hsale, Int.sub_zero]
    · exact hrev
    · intro k hk
      rw [of_decide_eq_true hk]; rfl
  · rw [taxBooked, bookedOn_booked hid h, if_neg hno, hsale, Int.sub_zero]
    · exact htax c
    · intro k hk
      simp only [Bool.and_eq_true, decide_eq_true_eq] at hk
      rw [hk.1]; rfl

end

/-! ## The payment -/

section
variable {order : Order} {tax : TaxResult} {db db' : Db} {p : Payment} (hu : Unpaid order tax db)
  (hid : FreshId db p.id) (ho : p.orderId = some order.id)
  (hamount : p.amountCents = (orderMoney db order .open).due + p.tip.cents)
include hu hid ho hamount

omit hid ho in
/-- The deposits the payment's journal applies. -/
theorem net_applied : net (takeDeposits (db.addPayment p) (visits (fetchLines db order.id))
    (order.totalCents - (p.amountCents - p.tip.cents))) =
      min (order.totalCents - (orderMoney db order .open).due)
        ((visits (fetchLines db order.id)).map (heldOn db)).sum := by
  have hv := hu.visitDeposits_nonneg
  have hg := hu.gift_nonneg
  have hdue := hu.due_eq
  have ht := order.total_nonneg
  have hwant : order.totalCents - (p.amountCents - p.tip.cents) =
      order.totalCents - (orderMoney db order .open).due := by omega
  have hheld : ∀ b ∈ visits (fetchLines db order.id), 0 ≤ heldOn (db.addPayment p) b := hu.held
  rw [hwant, net_takeDeposits hheld (by omega)]
  rfl

omit hid hamount in
theorem settlement_sale : settlement (db.addPayment p) p = (.order order.id,
    takeDeposits (db.addPayment p) (visits (fetchLines db order.id))
        (order.totalCents - (p.amountCents - p.tip.cents)) ++
      saleLegs (p.amountCents - p.tip.cents + net (takeDeposits (db.addPayment p)
        (visits (fetchLines db order.id)) (order.totalCents - (p.amountCents - p.tip.cents))))
          (without tax (redeemedTax db.ledger order.id)) ++ tipContra p) := by
  have hi : p.invoiceId = none := p.target.resolve_right (by simp [ho])
  have hrow : (db.addPayment p).order? order.id = some order := hu.row
  have htax : issuedTax (db.addPayment p) (fetchLines (db.addPayment p) order.id) order.createdAt = tax :=
    hu.issued
  simp only [settlement, hi, ho, orderSale, orderTax, hrow, Option.map_some, Option.getD_some, htax]
  rfl

variable (hk : p.kind = .payment) (hs : p.status = .succeeded) (h : Booked (db.addPayment p) p db')
include hk hs h

/-- What the payment adds: its cash, its tip and the deposits it applies. -/
theorem parts_of_payment : giftCardApplied db'.ledger order.id = giftCardApplied db.ledger order.id ∧
    orderDepositApplied db' order.id = min (order.totalCents - (orderMoney db order .open).due)
      ((visits (fetchLines db order.id)).map (heldOn db)).sum ∧
    collected db' (.order order.id) - orderTips db' order.id = (orderMoney db order .open).due := by
  have hi : p.invoiceId = none := p.target.resolve_right (by simp [ho])
  have hkinds := settlement_order (db.addPayment p) hi ho
  have hset := settlement_sale hu ho
  refine ⟨giftCardApplied_booked hid h order.id, ?_, ?_⟩
  · have hdep : sumOf (fun l => decide (l.key.category = .deposit)) (settlement (db.addPayment p) p).2 =
        net (takeDeposits (db.addPayment p) (visits (fetchLines db order.id))
          (order.totalCents - (p.amountCents - p.tip.cents))) := by
      rw [hset, sumOf_append, sumOf_append, sumOf_mem_eq_net fun e he => ?_, sumOf_eq_zero fun e he hq => ?_,
        sumOf_eq_zero fun e he hq => ?_, Int.add_zero, Int.add_zero]
      · simp [mem_tipContra he] at hq
      · rcases mem_saleLegs he with hc | hc <;> simp [hc] at hq
      · simp [mem_takeDeposits he]
    rw [orderDepositApplied_booked hid h, if_pos ho, hdep, hu.deposit_eq, Int.zero_add,
      net_applied hu hamount]
  · have hcash : sumOf (fun l => cashLeg db.ledger (.order order.id) (paymentJournal (db.addPayment p) p)
        { l with tag := l.tag.or (settlement (db.addPayment p) p).1 }) (paymentPosting (db.addPayment p) p).legs =
          p.amountCents := by
      have hsettled : settled db.ledger (paymentJournal (db.addPayment p) p) = true :=
        settled_of_ne (by simp [paymentJournal, Posting.info, paymentPosting])
      have hc : (cashCategory p).isCash = true := by
        unfold cashCategory
        split <;> rfl
      rw [paymentPosting, sumOf_cons, sumOf_eq_zero fun e he hq => ?_, Int.add_zero]
      · have hevent : (paymentJournal (db.addPayment p) p).info.event = .payment := rfl
        have htag : (leg .business (cashCategory p) p.amountCents).tag = none := rfl
        simp [cashLeg, hsettled, hc, hset, htag, hevent, EntryEvent.isMoneyBack]
      · rcases hkinds e he with hc | hc | hc | hc <;> simp [cashLeg, hc, Category.isCash] at hq
    rw [collected_booked hid h, hcash, hu.collected_eq, orderTips_booked h, hu.tips_eq, if_pos ⟨ho, hk, hs⟩]
    omega

omit hamount hk hs in
/-- The payment books what gift cards left of the tax, under every code. -/
theorem taxBooked_of_payment (c : TaxCode) : taxBooked db' order.id c = tax.code c := by
  have hlegs : sumOf (fun l => decide (l.key.category = .tax) && decide (l.key.code = .tax c))
      (settlement (db.addPayment p) p).2 =
        -Dict.sumAt (without tax (redeemedTax db.ledger order.id)).byJurisdiction c := by
    rw [settlement_sale hu ho, sumOf_append, sumOf_append, saleLegs, sumOf_cons, sumOf_taxLegs,
      sumOf_eq_zero fun e he hq => ?_, sumOf_eq_zero fun e he hq => ?_]
    · simp
    · simp [mem_tipContra he] at hq
    · simp [mem_takeDeposits he] at hq
  have hsum : Dict.sumAt (without tax (redeemedTax db.ledger order.id)).byJurisdiction c =
      tax.code c - redeemedTax db.ledger order.id c := by
    rw [without, Dict.sumAt_map (tax_nodup hu.toSaleRow)]
    split
    · rfl
    · next hc =>
      have hz : tax.code c = 0 := Dict.get_of_not_mem hc
      rw [hu.taxed c, hz]
      simp [allocate]
  rw [taxBooked, bookedOn_booked hid h, if_pos ho, hlegs, hsum]
  · have he := hu.taxBooked_eq c
    unfold taxBooked at he
    omega
  · intro k hk'
    simp only [Bool.and_eq_true, decide_eq_true_eq] at hk'
    rw [hk'.1]; rfl

omit hk hs in
/-- With its revenue the sale has booked whatever was applied to it, less its tax. -/
theorem revenueBooked_of_payment : revenueBooked db' order.id =
    giftCardApplied db.ledger order.id + (orderMoney db order .open).due +
      min (order.totalCents - (orderMoney db order .open).due)
        ((visits (fetchLines db order.id)).map (heldOn db)).sum - Dict.total tax.byJurisdiction := by
  have happ := net_applied hu hamount
  have hlegs : sumOf (fun l => decide (l.key.category = .revenue)) (settlement (db.addPayment p) p).2 =
      -(p.amountCents - p.tip.cents + net (takeDeposits (db.addPayment p)
        (visits (fetchLines db order.id)) (order.totalCents - (p.amountCents - p.tip.cents))) -
          (without tax (redeemedTax db.ledger order.id)).taxTotalCents) := by
    rw [settlement_sale hu ho, sumOf_append, sumOf_append, saleLegs, sumOf_cons,
      sumOf_eq_zero fun e he hq => ?_, sumOf_eq_zero fun e he hq => ?_, sumOf_eq_zero fun e he hq => ?_]
    · simp
    · simp [mem_tipContra he] at hq
    · obtain ⟨x, -, rfl⟩ := List.mem_map.1 he
      simp at hq
    · simp [mem_takeDeposits he] at hq
  have hleft : (without tax (redeemedTax db.ledger order.id)).taxTotalCents =
      Dict.total tax.byJurisdiction - (tax.byJurisdiction.map fun x => redeemedTax db.ledger order.id x.1).sum := by
    refine eq_sub_of_add_eq ?_
    simp only [without, Dict.total, List.map_map, Function.comp_def]
    rw [← List.sum_map_add]
    simp
  rw [revenueBooked, bookedOn_booked hid h, if_pos ho, hlegs, hleft, happ]
  · have he := hu.revenueBooked_eq
    unfold revenueBooked at he
    omega
  · intro k hk'
    rw [of_decide_eq_true hk']; rfl

/-- The payment makes up the total exactly when gift cards and held deposits did not exceed it. -/
theorem conserved_of_payment_iff : Conserved db' order ↔ Covered db order := by
  obtain ⟨hgift, hdep, hcash⟩ := parts_of_payment hu hid ho hamount hk hs h
  have hrev := revenueBooked_of_payment hu hid ho hamount h
  have htax := taxBooked_of_payment hu hid ho h
  have hg := hu.gift_nonneg
  have hheld := hu.held_nonneg
  have hd := hu.due_eq
  have ht := order.total_nonneg
  have hsale : saleTax db' order = tax := by
    obtain ⟨L, rfl, -⟩ := h.rows
    exact hu.issued
  unfold Conserved Covered
  rw [hsale, hrev, hgift, hdep, hcash]
  unfold visitDeposits at hd ⊢
  constructor
  · rintro ⟨hparts, -, -⟩
    omega
  · intro hc
    exact ⟨by omega, by omega, htax⟩

theorem Unpaid.pay (hc : Covered db order) : Settled order tax db' := by
  have hcons := (conserved_of_payment_iff hu hid ho hamount hk hs h).2 hc
  obtain ⟨L, rfl, -⟩ := h.rows
  refine ⟨⟨hu.row, hu.isOpen, hu.issued⟩, ?_, hcons⟩
  simp [hasActivePayment, ho, hs]

end

theorem payCash_ok {db db' : Db} {orderId id : Id} {tip : TipTerms} {tendered now : Int}
    (h : payCash db orderId id tip tendered now = .ok db') :
    ∃ order due p, chargeable db orderId = .ok (order, due) ∧ hasActivePayment db order.id = false ∧
      p.id = id ∧ p.orderId = some order.id ∧ p.amountCents = due.1 + p.tip.cents ∧ p.kind = .payment ∧
      p.status = .succeeded ∧ postPayment (db.addPayment p) p = .ok db' := by
  unfold payCash at h
  obtain ⟨⟨order, due⟩, hc, h⟩ := bind_ok h
  dsimp only at h
  split at h
  · cases h
  · next ha =>
    split at h
    · cases h
    · exact ⟨order, due, _, hc, by simpa using ha, rfl, rfl, rfl, rfl, rfl, h⟩

theorem setStatus_addPayment {db : Db} {p : Payment} (hid : FreshId db p.id) (status : PaymentStatus) :
    (db.addPayment p).setStatus p.id status = db.addPayment (p.withStatus status) := by
  have hmap : db.payments.map (fun q => if q.id = p.id then q.withStatus status else q) = db.payments := by
    rw [List.map_congr_left fun q hq => if_neg (hid.row q hq), List.map_id']
  simp [Db.setStatus, Db.addPayment, hmap]

/-- A charge row that is not settled yet changes nothing a sale's money is read from. -/
theorem orderMoney_addPayment {db : Db} {p : Payment} (hid : FreshId db p.id) (hs : p.status = .pending)
    (order : Order) : orderState (db.addPayment p) order = orderState db order ∧
      ∀ state, orderMoney (db.addPayment p) order state = orderMoney db order state := by
  have hdep : orderDepositApplied (db.addPayment p) order.id = orderDepositApplied db order.id :=
    Book.sum_congr fun j hj e _ => congrFun (appliesDeposit_addPayment hid order.id hj) e
  have htips : orderTips (db.addPayment p) order.id = orderTips db order.id := by
    simp [orderTips, Db.addPayment, List.filter_append, hs]
  refine ⟨?_, fun state => ?_⟩
  · simp only [orderState, hdep]
    rfl
  · simp only [orderMoney, hdep, htips]
    rfl

/-- A charge of exactly what is due settles as it is: it is booked with its fees. -/
theorem settlePayment_prompt {db db' : Db} {gateway : Gateway} {p : Payment} {orderId refundId : Id}
    {order : Order} {due : { due : Int // 0 ≤ due }} (hid : FreshId db p.id) (ho : p.orderId = some orderId)
    (hs : p.status = .pending) (hc : chargeable db orderId = .ok (order, due))
    (hamount : p.amountCents = due.1 + p.tip.cents)
    (hlive : (liveOrder (db.addPayment p) gateway p).isSome)
    (h : settlePayment (db.addPayment p) gateway p refundId = .ok db') :
    Booked (db.addPayment (p.withStatus .succeeded)) (p.withStatus .succeeded) db' := by
  obtain ⟨hrow, hstate, hdue⟩ := chargeable_ok hc
  obtain ⟨hst, hmoney⟩ := orderMoney_addPayment hid hs order
  have hpaid : paidOrder (db.addPayment p) p = some order := by
    simp only [paidOrder, ho, Option.bind_some]
    exact hrow
  have hset : settles (db.addPayment p) p = true := by simp [settles, hs]
  have hl : liveOrder (db.addPayment p) gateway p = some order ∧ soldOut gateway order = false := by
    unfold liveOrder at hlive ⊢
    rw [hpaid] at hlive ⊢
    rw [Option.filter_some] at hlive ⊢
    split at hlive
    · next hok =>
      rw [if_pos hok]
      simp only [Bool.and_eq_true, Bool.not_eq_true'] at hok
      exact ⟨rfl, hok.2⟩
    · cases hlive
  have hvoid : voidSoldOut (db.addPayment p) gateway p = db.addPayment p := by
    simp [voidSoldOut, hpaid, hl.2]
  have hlate : unapplied (db.addPayment p) p (some order) = false := by
    simp only [unapplied, hst, hmoney, hstate]
    split
    · rfl
    · exact decide_eq_false (by omega)
  unfold settlePayment at h
  simp only [hset, hl.1, hvoid, hlate, hpaid, Bool.not_true, Bool.false_eq_true, if_false,
    Option.isSome_some, Option.isNone_some, Bool.and_false] at h
  obtain ⟨fees, -, h⟩ := bind_ok h
  obtain ⟨db₁, h₁, h⟩ := bind_ok h
  obtain ⟨db₂, h₂, h⟩ := bind_ok h
  cases h
  have hid' : (p.withStatus .succeeded).id = p.id := rfl
  rw [hid', setStatus_addPayment hid] at h₁
  exact ⟨db₁, h₁, .inr ⟨fees, h₂⟩⟩

end ClientBridge
