import ClientBridge.Payments.Refunding

/-!
# Charges that settle late

A charge that settles on a document which no longer owes it is booked and refunded in full
in one transaction.  `lateTrace` is what the two leave on an account, tips included.  The
refund always debits the payer's receivable; only an invoice's payment credited it, so

    the trace is zero on every account  ↔  the charge was for an invoice
                                                            (late_payment_traceless_iff)
-/

namespace ClientBridge

open Bookkeeping

/-- The journals of a charge, of its refund and of their tips. -/
def isLateRef (paymentId refundId : Id) : Ref → Bool
  | .payment id => decide (id = paymentId)
  | .refund id => decide (id = refundId)
  | .tip id _ => decide (id = paymentId) || decide (id = refundId)
  | _ => false

/-- What these journals leave on an account. -/
def lateTrace (L : Ledger) (paymentId refundId : Id) (key : AccountKey) : Int :=
  onAccounts L (isLateRef paymentId refundId) fun k => decide (k = key)

/-! ## The tip comes back to whom it went -/

/-- A tip returned in full goes back in the shares it was split in. -/
theorem tipsBack_whole (p : Payment) (h : 0 < p.tip.cents) : tipsBack p p.tip.cents = p.tip.split := by
  have hs : 0 < (p.tip.split.map (·.2)).sum := by rw [p.tip.split_sum]; exact h
  unfold tipsBack
  rw [← p.tip.split_sum, allocate_whole hs]
  exact (List.zip_of_prod rfl rfl).symm

theorem postedShares_eq_nil {shares : List (Id × Int)} (h : ∀ s ∈ shares, s.2 ≤ 0)
    (taken : Id → Bool) : postedShares taken shares = [] := by
  induction shares with
  | nil => rfl
  | cons s shares ih =>
    have hs := h s List.mem_cons_self
    simp [postedShares, hs, ih fun s' hs' => h s' (List.mem_cons_of_mem _ hs')]

theorem TipTerms.shares_le (t : TipTerms) (s : Id × Int) (hs : s ∈ t.split) : s.2 ≤ t.cents := by
  rw [← t.split_sum]
  refine List.single_le_sum (fun x hx => ?_) _ (List.mem_map_of_mem hs)
  obtain ⟨s', hs', rfl⟩ := List.mem_map.1 hx
  exact t.shares_nonneg s' hs'

/-! ## The refund of a charge that was never refunded before -/

theorem earlierRefunds_eq_nil {db : Db} {p : Payment} (refundId : Id)
    (h : ∀ q ∈ db.payments, q.parentPaymentId = some p.id → q.id = refundId) :
    earlierRefunds db p refundId = [] := by
  simp only [earlierRefunds, Db.liveRefunds, List.map_eq_nil_iff, List.filter_eq_nil_iff, List.mem_filter,
    decide_eq_true_eq, ne_eq, not_not, and_imp]
  exact fun q hq _ hp _ => h q hq hp

/-- A first refund in full returns the whole tip. -/
theorem tipReturned_whole {db : Db} {p : Payment} {refundId : Id}
    (h : earlierRefunds db p refundId = []) : tipReturned db p p.amountCents refundId = p.tip.cents := by
  have ht := p.tip.cents_nonneg
  unfold tipReturned
  split
  · omega
  · have hA : p.amountCents ≠ 0 := by have := p.tip_le; omega
    have hf : ∀ j : LedgerJournal, fromPayments [] j = false := by
      intro j
      unfold fromPayments
      split <;> simp
    simp only [h, hf, Bool.and_false, Bool.false_and, Book.sum_eq_zero_of_no_journal fun _ _ _ => rfl]
    simp [Int.mul_ediv_cancel _ hA]

/-- The debit side of a late refund: the receivable and the tip, whatever the charge was for. -/
theorem refundLegs_late {db : Db} {p : Payment} {refundId : Id}
    (h : earlierRefunds db p refundId = []) :
    refundLegs db p p.amountCents refundId true =
      leg (payer p.clientId) .receivable (p.amountCents - p.tip.cents) :: tipLegs p.tip.cents := by
  simp only [refundLegs, tipReturned_whole h, if_true]

theorem tipOf_late (owner : Owner) (cents tip : Int) :
    tipOf (leg owner .receivable cents :: tipLegs tip) = tip := by
  unfold tipOf tipLegs
  split
  · next h => simp [leg, h]
  · simp [leg]

theorem returnedShares_whole (p : Payment) :
    returnedShares p p.tip.cents = postedShares (fun _ => false) p.tip.split := by
  unfold returnedShares
  split
  · next h => rw [tipsBack_whole p h]
  · next h =>
    exact (postedShares_eq_nil (fun s hs => (p.tip.shares_le s hs).trans (by omega)) _).symm

/-! ## A charge booked and given back -/

theorem isLateRef_of_payment {paymentId refundId : Id} {r : Ref} (h : isPaymentRef paymentId r) :
    isLateRef paymentId refundId r = true := by
  rcases h with rfl | ⟨s, rfl⟩ <;> simp [isLateRef]

theorem isLateRef_of_refund {paymentId refundId : Id} {r : Ref} (h : isRefundRef refundId r) :
    isLateRef paymentId refundId r = true := by
  rcases h with rfl | ⟨s, rfl⟩ <;> simp [isLateRef]

section
variable {db db₁ db₂ db₃ : Db} {p refund : Payment} {fees : ChargeFees}
  (hp : p.kind = .payment)
  (hnew : ∀ r, isLateRef p.id refund.id r = true → db.ledger.has r = false)
  (hid : refund.id ≠ p.id) (hamount : refund.amountCents = p.amountCents)
  (hreason : refund.reason = some .unapplied)
  (hrefunds : ∀ r ∈ db.payments, r.parentPaymentId ≠ some p.id)
  (h₁ : postPayment db p = .ok db₁) (h₂ : postFees db₁ p fees = .ok db₂)
  (h₃ : applyRefund (db₂.addPayment refund) refund p = .ok db₃)
include hp hnew hid hamount hreason hrefunds h₁ h₂ h₃

/-- What a charge booked and given back in full leaves: its credit side, and the debit side
of the refund; the cash and the tips cancel out. -/
theorem onAccounts_refundLate (q : AccountKey → Bool) :
    onAccounts db₃.ledger (isLateRef p.id refund.id) q =
      keyed q (settlement db p).2 +
        keyed q (leg (payer p.clientId) .receivable (p.amountCents - p.tip.cents) ::
          tipLegs p.tip.cents) := by
  have hcharge := onAccounts_postPayment h₁ (R := isLateRef p.id refund.id)
    (fun r h => isLateRef_of_payment h) (fun r h => hnew r (isLateRef_of_payment h)) q
  rw [onAccounts_eq_zero hnew] at hcharge
  obtain ⟨L₁, he₁, hg₁⟩ := postPayment_grows db p
  obtain ⟨L₂, he₂, hg₂⟩ := postFees_grows (db.withLedger L₁) p fees
  obtain rfl : db.withLedger L₁ = db₁ := by rw [he₁] at h₁; exact Except.ok.inj h₁
  obtain rfl : db.withLedger L₂ = db₂ := by rw [he₂] at h₂; exact Except.ok.inj h₂
  obtain ⟨L₃, he₃, hg₃⟩ := postRefund_grows ((db.withLedger L₂).addPayment refund) refund p true
  obtain ⟨L₄, he₄, hg₄⟩ := postFeeReturn_grows (((db.withLedger L₂).addPayment refund).withLedger L₃) p refund.id
  have hdb₃ : ((db.withLedger L₂).addPayment refund).withLedger L₄ = db₃ := by
    simp only [applyRefund, giveBack_of_payment hp, hreason, decide_true, he₃, bind, Except.bind,
      or_true, if_true] at h₃
    rw [he₄] at h₃
    exact Except.ok.inj h₃
  have hfresh : ∀ r, isRefundRef refund.id r → L₂.has r = false := by
    intro r hr
    have hne : ¬r = Ref.fee p.id := by rcases hr with rfl | ⟨s, rfl⟩ <;> simp
    have hnp : ¬isPaymentRef p.id r := by
      rcases hr with rfl | ⟨s, rfl⟩ <;> simp [isPaymentRef, hid]
    rw [hg₂.has_eq hne, Db.ledger_withLedger, hg₁.has_eq hnp, hnew r (isLateRef_of_refund hr)]
  have hback := onAccounts_postRefund he₃ (R := isLateRef p.id refund.id)
    (fun r h => isLateRef_of_refund h) hfresh q
  have hearlier : earlierRefunds ((db.withLedger L₂).addPayment refund) p refund.id = [] := by
    refine earlierRefunds_eq_nil _ fun r hr hparent => ?_
    rcases List.mem_append.1 hr with hr | hr
    · exact absurd hparent (hrefunds r hr)
    · rw [List.mem_singleton.1 hr]
  have hlegs := refundLegs_late hearlier
  have hfee : onAccounts L₂ (isLateRef p.id refund.id) q = onAccounts L₁ (isLateRef p.id refund.id) q :=
    onAccounts_of_grows hg₂ (by rintro r rfl; rfl) q
  have hreturn : onAccounts L₄ (isLateRef p.id refund.id) q = onAccounts L₃ (isLateRef p.id refund.id) q :=
    onAccounts_of_grows hg₄ (by rintro r rfl; rfl) q
  have hcancel := keyed_cancel q .business (cashCategory p) p.amountCents (settlement db p).2
    (leg (payer p.clientId) .receivable (p.amountCents - p.tip.cents) :: tipLegs p.tip.cents)
  simp only [refundPosting, hamount, hlegs, tipOf_late, returnedShares_whole, sum_tipEffect_neg,
    Db.ledger_addPayment, Db.ledger_withLedger] at hback
  simp only [paymentPosting, Db.ledger_withLedger] at hcharge
  rw [← hdb₃, Db.ledger_withLedger, hreturn, hback, hfee, hcharge]
  omega

omit hnew hid hamount hrefunds in
/-- Only the fee journals remain beside these. -/
theorem grows_refundLate :
    Grows (fun r => isLateRef p.id refund.id r = true ∨ r = .fee p.id ∨ r = .feeReturn refund.id)
      db.ledger db₃.ledger := by
  obtain ⟨L₁, he₁, hg₁⟩ := postPayment_grows db p
  obtain ⟨L₂, he₂, hg₂⟩ := postFees_grows (db.withLedger L₁) p fees
  obtain rfl : db.withLedger L₁ = db₁ := by rw [he₁] at h₁; exact Except.ok.inj h₁
  obtain rfl : db.withLedger L₂ = db₂ := by rw [he₂] at h₂; exact Except.ok.inj h₂
  obtain ⟨L₃, he₃, hg₃⟩ := postRefund_grows ((db.withLedger L₂).addPayment refund) refund p true
  obtain ⟨L₄, he₄, hg₄⟩ := postFeeReturn_grows (((db.withLedger L₂).addPayment refund).withLedger L₃) p refund.id
  simp only [applyRefund, giveBack_of_payment hp, hreason, decide_true, he₃, bind, Except.bind,
    or_true, if_true] at h₃
  rw [he₄] at h₃
  cases h₃
  exact (hg₁.mono fun r h => .inl (isLateRef_of_payment h)).trans
    ((hg₂.mono fun r h => .inr (.inl h)).trans
      ((hg₃.mono fun r h => .inl (isLateRef_of_refund h)).trans (hg₄.mono fun r h => .inr (.inr h))))

end

/-! ## Invoices and sales -/

/-- A late charge is for an invoice, or for a sale and then more than the tip alone. -/
theorem unapplied_cases {db : Db} {p : Payment} {order : Option Order}
    (h : unapplied db p order = true) :
    p.kind = .payment ∧ (order = none ∧ p.invoiceId.isSome ∨
      order.isSome ∧ p.tip.cents < p.amountCents) := by
  simp only [unapplied] at h
  split at h
  · cases h
  · next hk =>
    refine ⟨not_not.1 hk, ?_⟩
    cases order with
    | some order =>
      have hd := due_nonneg db order (orderState db order)
      right
      exact ⟨rfl, by simp only [decide_eq_true_eq] at h; omega⟩
    | none =>
      left
      cases hi : p.invoiceId with
      | none => simp [hi] at h
      | some i => exact ⟨rfl, rfl⟩

theorem liveOrder_isSome {db : Db} {gateway : Gateway} {p : Payment}
    (h : (liveOrder db gateway p).isSome) : p.orderId.isSome := by
  cases ho : p.orderId with
  | none => simp [liveOrder, paidOrder, ho] at h
  | some o => rfl

/-- A sold out order is voided before the charge is looked at, so its charge is not late. -/
theorem voidSoldOut_of_late {db : Db} {gateway : Gateway} {p : Payment} {db' : Db}
    (h : unapplied db' p (liveOrder db gateway p) = true) : voidSoldOut db gateway p = db := by
  unfold voidSoldOut
  split
  · next order ho =>
    split
    · next hs =>
      have hl : liveOrder db gateway p = none := by simp [liveOrder, ho, Option.filter, hs]
      have hi : p.invoiceId = none := by
        refine p.target.resolve_right fun hn => ?_
        simp [paidOrder, hn] at ho
      rw [hl] at h
      rcases unapplied_cases h with ⟨-, ⟨-, hsome⟩ | ⟨hsome, -⟩⟩
      · rw [hi] at hsome; cases hsome
      · cases hsome
    · rfl
  · rfl

/-- An invoice's payment and its late refund are each other's opposite. -/
theorem lateLegs_invoice (db : Db) {p : Payment} {invoiceId : Id} (hi : p.invoiceId = some invoiceId)
    (q : AccountKey → Bool) :
    keyed q (settlement db p).2 + keyed q (leg (payer p.clientId) .receivable
      (p.amountCents - p.tip.cents) :: tipLegs p.tip.cents) = 0 := by
  have ht := p.tip.cents_nonneg
  have htips : keyed q (tipContra p) + keyed q (tipLegs p.tip.cents) = 0 := by
    unfold tipContra tipLegs
    by_cases h0 : p.tip.cents = 0
    · simp [h0]
    · have hn : ¬p.tip.cents ≤ 0 := by omega
      have hc := keyed_cancel q .business .staffCost p.tip.cents [] []
      rw [if_neg h0, if_neg hn]
      simp only [keyed_nil] at hc
      omega
  have hc := keyed_cancel q (payer p.clientId) .receivable (p.amountCents - p.tip.cents)
    (tipLegs p.tip.cents) (tipContra p)
  simp only [settlement, hi]
  omega

/-- What a late charge of a sale leaves on its payer's receivable. -/
theorem lateLegs_order (db : Db) {p : Payment} {orderId : Id} (hi : p.invoiceId = none)
    (ho : p.orderId = some orderId) :
    keyed (fun k => decide (k = ⟨payer p.clientId, .receivable, .plain⟩)) (settlement db p).2 +
      keyed (fun k => decide (k = ⟨payer p.clientId, .receivable, .plain⟩))
        (leg (payer p.clientId) .receivable (p.amountCents - p.tip.cents) :: tipLegs p.tip.cents) =
      p.amountCents - p.tip.cents := by
  have hs : keyed (fun k => decide (k = ⟨payer p.clientId, .receivable, .plain⟩))
      (settlement db p).2 = 0 := by
    refine sumOf_eq_zero fun e he hk => ?_
    rcases settlement_order db hi ho e he with hc | hc | hc | hc <;> simp [of_decide_eq_true hk] at hc
  have ht : keyed (fun k => decide (k = ⟨payer p.clientId, .receivable, .plain⟩))
      (tipLegs p.tip.cents) = 0 := by
    unfold tipLegs
    split <;> simp
  rw [hs, keyed_cons, ht]
  simp

/-! ## Settling late -/

/-- A refund of a charge that has none yet, answered as succeeded, is booked under a new row. -/
theorem createRefund_ok {db db' : Db} {gateway : Gateway} (payment : Payment) {refundId : Id}
    {amount : Int} {hamount : 0 ≤ amount} {reason : Option RefundReason}
    (hcard : payment.provider = .stripe)
    (hback : ∀ intent, (gateway.refund intent amount).status = .succeeded)
    (hrefunds : ∀ q ∈ db.payments, q.parentPaymentId ≠ some payment.id)
    (h : createRefund db gateway payment refundId amount hamount reason = .ok db') :
    ∃ refund, refund.id = refundId ∧ refund.amountCents = amount ∧ refund.reason = reason ∧
      applyRefund (db.addPayment refund) refund payment = .ok db' := by
  unfold createRefund at h
  rw [hcard] at h
  cases hr : payment.providerRef with
  | none => rw [hr] at h; cases h
  | some intent =>
    rw [hr] at h
    dsimp only at h
    split at h
    · cases h
    · split at h
      · next existing hex =>
        rw [if_pos (.inl (hrefunds existing (List.mem_of_find?_eq_some hex)))] at h
        cases h
      · rw [if_pos (hback intent)] at h
        exact ⟨_, rfl, rfl, rfl, h⟩

section
variable {db db' : Db} {gateway : Gateway} {p : Payment} {refundId : Id}
  (hstatus : p.status = .pending ∨ p.status = .failed) (hcard : p.provider = .stripe)
  (hlate : unapplied db p (liveOrder db gateway p) = true)
  (hback : ∀ intent, (gateway.refund intent p.amountCents).status = .succeeded)
  (hrefunds : ∀ q ∈ db.payments, q.parentPaymentId ≠ some p.id)
  (h : settlePayment db gateway p refundId = .ok db')
include hstatus hcard hlate hback hrefunds h

/-- Settling late books the charge, its fees and a refund in full under a new row. -/
theorem settlePayment_late :
    ∃ fees db₁ db₂ refund, refund.id = refundId ∧ refund.amountCents = p.amountCents ∧
      refund.reason = some .unapplied ∧
      postPayment (db.setStatus p.id .succeeded) (p.withStatus .succeeded) = .ok db₁ ∧
      postFees db₁ (p.withStatus .succeeded) fees = .ok db₂ ∧
      applyRefund (db₂.addPayment refund) refund (p.withStatus .succeeded) = .ok db' := by
  have hset : settles db p = true := by simp [settles, hstatus]
  obtain ⟨L₁, he₁, hg₁⟩ := postPayment_grows (db.setStatus p.id .succeeded) (p.withStatus .succeeded)
  unfold settlePayment at h
  rw [hset, voidSoldOut_of_late hlate] at h
  dsimp only at h
  rw [hlate] at h
  cases hfees : chargeFees gateway p with
  | error e => rw [hfees] at h; cases h
  | ok fees =>
    obtain ⟨L₂, he₂, hg₂⟩ := postFees_grows ((db.setStatus p.id .succeeded).withLedger L₁)
      (p.withStatus .succeeded) fees
    rw [hfees] at h
    have hid : (p.withStatus .succeeded).id = p.id := rfl
    simp only [Bool.not_true, Bool.false_eq_true, if_false, if_true, bind, Except.bind, hid, he₁, he₂] at h
    obtain ⟨refund, h₁, h₂, h₃, hok⟩ := createRefund_ok (p.withStatus .succeeded) hcard
      hback (by
        intro q hq
        obtain ⟨q', hq', rfl⟩ := List.mem_map.1 hq
        split
        · exact hrefunds q' hq'
        · exact hrefunds q' hq') h
    exact ⟨fees, _, _, refund, h₁, h₂, h₃, he₁, he₂, hok⟩

variable (hid : refundId ≠ p.id)
  (hnew : ∀ r, isLateRef p.id refundId r = true → db.ledger.has r = false)
include hid hnew

/-- **A late payment leaves no trace exactly when it was for an invoice.**  A sale's charge
credited revenue, tax and tips, but its refund debits a receivable that was never credited. -/
theorem late_payment_traceless_iff :
    Grows (fun r => isLateRef p.id refundId r = true ∨ r = .fee p.id ∨ r = .feeReturn refundId)
        db.ledger db'.ledger ∧
      ((∀ key, lateTrace db'.ledger p.id refundId key = 0) ↔ p.invoiceId.isSome) := by
  obtain ⟨fees, db₁, db₂, refund, rfl, hamount, hreason, h₁, h₂, h₃⟩ :=
    settlePayment_late hstatus hcard hlate hback hrefunds h
  obtain ⟨hk, hcases⟩ := unapplied_cases hlate
  have hrefunds' : ∀ r ∈ (db.setStatus p.id .succeeded).payments, r.parentPaymentId ≠ some p.id := by
    intro r hr
    obtain ⟨q, hq, rfl⟩ := List.mem_map.1 hr
    split
    · exact hrefunds q hq
    · exact hrefunds q hq
  have hk' : (p.withStatus .succeeded).kind = .payment := hk
  have hnew' : ∀ r, isLateRef (p.withStatus .succeeded).id refund.id r = true →
      (db.setStatus p.id .succeeded).ledger.has r = false := hnew
  have htrace := onAccounts_refundLate hk' hnew' hid hamount hreason hrefunds' h₁ h₂ h₃
  have hgrows := grows_refundLate hk' hreason h₁ h₂ h₃
  refine ⟨hgrows, ?_, ?_⟩
  · intro hzero
    by_contra hn
    have hi : p.invoiceId = none := Option.not_isSome_iff_eq_none.1 hn
    rcases hcases with ⟨-, hsome⟩ | ⟨hsome, hlt⟩
    · exact hn hsome
    · obtain ⟨orderId, ho⟩ := Option.isSome_iff_exists.1 (liveOrder_isSome hsome)
      have hz := hzero ⟨payer p.clientId, .receivable, .plain⟩
      have hi' : (p.withStatus .succeeded).invoiceId = none := hi
      have hl := lateLegs_order (db.setStatus p.id .succeeded) hi' ho
      have he : p.amountCents - p.tip.cents = 0 := hl.symm.trans ((htrace _).symm.trans hz)
      omega
  · intro hsome key
    obtain ⟨invoiceId, hi⟩ := Option.isSome_iff_exists.1 hsome
    have hi' : (p.withStatus .succeeded).invoiceId = some invoiceId := hi
    exact (htrace _).trans (lateLegs_invoice _ hi' _)

end

/-! ## A sale paid in cash while its card charge was on its way -/

def cardCharge (id intent : Id) (invoiceId orderId : Option Id) (h : invoiceId = none ∨ orderId = none)
    (amount : Int) (tip : TipTerms) (ht : tip.cents ≤ amount) : Payment where
  id := id
  clientId := some "cli_1"
  kind := .payment
  parentPaymentId := none
  invoiceId := invoiceId
  orderId := orderId
  bookingId := none
  amountCents := amount
  tip := tip
  method := .card
  provider := .stripe
  providerRef := some intent
  status := .pending
  reason := none
  disputeStatus := none
  createdAt := 0
  tip_le := ht
  target := h

def saleCharge : Payment :=
  cardCharge "pay_card" "pi_1" none (some "ord_1") (.inl rfl) 5600 (tipTo "stf_1" 600) (by decide)

def paidSale : Db := { emptyDb with
  ledger := [⟨0, .payment "pay_cash", ⟨.payment, some (.payment "pay_cash"), {}⟩,
    [⟨⟨.business, .cash, .plain⟩, 5000, some (.order "ord_1")⟩,
      ⟨⟨.business, .revenue, .plain⟩, -5000, some (.order "ord_1")⟩]⟩]
  payments := [saleCharge]
  orders := [⟨"ord_1", some "cli_1", .open, .pos, 5000, 0, by decide⟩]
  lines := [⟨none, some "ord_1", none, 5000, 0, .standard⟩] }

def refunding : Gateway where
  connected := true
  fees := fun _ => some ⟨190, 50⟩
  refund := fun _ _ => ⟨"re_1", .succeeded⟩
  inStock := fun _ => true

/-- The sale was paid in cash, so the charge is refunded; its revenue stays booked, against
a receivable that nobody owes. -/
theorem late_sale_leaves_trace :
    unapplied paidSale saleCharge (liveOrder paidSale refunding saleCharge) = true ∧
      ((settlePayment paidSale refunding saleCharge "pay_back").toOption.map fun db =>
        (lateTrace db.ledger "pay_card" "pay_back" ⟨.client "cli_1", .receivable, .plain⟩,
          lateTrace db.ledger "pay_card" "pay_back" ⟨.business, .revenue, .plain⟩)) =
        some (5000, -5000) := by
  decide

def invoiceCharge : Payment :=
  cardCharge "pay_card" "pi_1" (some "inv_1") none (.inr rfl) 5600 (tipTo "stf_1" 600) (by decide)

def voidedInvoice : Db := { emptyDb with
  payments := [invoiceCharge]
  invoices := [⟨"inv_1", some "cli_1", .void, 5000, 0, false⟩] }

/-- The charge of a voided invoice leaves nothing, its tip included. -/
theorem late_invoice_traceless :
    ∃ db', settlePayment voidedInvoice refunding invoiceCharge "pay_back" = .ok db' ∧
      ∀ key, lateTrace db'.ledger "pay_card" "pay_back" key = 0 := by
  have hok : (settlePayment voidedInvoice refunding invoiceCharge "pay_back").toOption.isSome := by decide
  cases h : settlePayment voidedInvoice refunding invoiceCharge "pay_back" with
  | error e => rw [h] at hok; cases hok
  | ok db' =>
    exact ⟨db', rfl, (late_payment_traceless_iff (by decide) rfl (by decide) (fun _ => rfl) (by decide) h
      (by decide) fun _ _ => rfl).2.2 rfl⟩

end ClientBridge
