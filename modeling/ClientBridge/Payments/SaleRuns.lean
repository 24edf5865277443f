import ClientBridge.Payments.SalePayments

/-!
# Runs of a sale

From a fresh sale, in every run of redemptions, deposits that settle and a payment,

    no payment is taken while gift cards and held deposits exceed the total
      →  what was applied makes up the total once the sale reads paid       (sale_conserved)

The lines are fixed over a run: a ticket is only repriced while nothing is applied to it,
which is where a run starts.
-/

namespace ClientBridge

open Bookkeeping Runs

/-! ## Runs -/

/-- A sale nothing was applied to yet, whose visits hold no negative deposit. -/
structure FreshSale (order : Order) (db : Db) : Prop where
  row : db.order? order.id = some order
  isOpen : order.status = .open
  held : ∀ b ∈ visits (fetchLines db order.id), 0 ≤ heldOn db b
  rows : ∀ p ∈ db.payments, p.orderId ≠ some order.id
  sources : ∀ j ∈ db.ledger, j.info.source ≠ some (.order order.id)
  untagged : ∀ j ∈ db.ledger, ∀ e ∈ j.legs, e.tag ≠ some (.order order.id)

theorem FreshSale.unpaid {order : Order} {db : Db} (h : FreshSale order db) :
    Unpaid order (saleTax db order) db := by
  have hsum : ∀ q : Leg → Bool, db.ledger.sum (fun j e =>
      decide (j.info.source = some (.order order.id)) && q e) = 0 := by
    intro q
    refine Book.sum_eq_zero_of_no_journal fun j hj e => ?_
    simp [h.sources j hj]
  have hgift : giftCardApplied db.ledger order.id = 0 := hsum _
  have htax : ∀ c, redeemedTax db.ledger order.id c = 0 := fun c => congrArg Neg.neg (hsum _)
  refine ⟨⟨h.row, h.isOpen, rfl⟩, h.held, fun p hp ho => absurd ho (h.rows p hp),
    fun p hp ho => absurd ho (h.rows p hp), h.untagged, fun j hj hs => absurd hs (h.sources j hj),
    hgift.ge, hgift ▸ order.total_nonneg, fun c => ?_, ?_⟩
  · rw [htax, hgift, allocate_last]
  · rw [hsum, hgift]
    simp [htax]

/-- One step of a sale whose payments are covered. -/
def CoveredStep (order : Order) (db : Db) (a : SaleAction) (db' : Db) : Prop :=
  SaleStep order.id db a db' ∧ (a.isPayment = true → Covered db order)

theorem sale_step {order : Order} {tax : TaxResult} {db db' : Db} {a : SaleAction}
    (hs : CoveredStep order db a db') (h : Unpaid order tax db ∨ Settled order tax db) :
    Unpaid order tax db' ∨ Settled order tax db' := by
  obtain ⟨hstep, hcov⟩ := hs
  -- a settled sale has an active payment, which only a deposit gets past
  have hactive : ∀ {b}, hasActivePayment db order.id = b → b = false → Unpaid order tax db := by
    rintro b hb rfl
    refine h.resolve_right fun hset => ?_
    rw [hset.active] at hb
    cases hb
  cases hstep with
  | redeem hserial hok =>
    obtain ⟨order', due, cardId, amount, hc, ha, -⟩ := applyGiftCard_ok hok
    have hu : Unpaid order tax db := by
      rcases h with hu | hset
      · exact hu
      · have hrow := (chargeable_ok hc).1
        rw [hset.row] at hrow
        cases hrow
        exact hactive ha rfl
    exact .inl (hu.redeem hserial hok)
  | deposit hid hi ho hb hbooked =>
    obtain ⟨bookingId, hb⟩ := Option.isSome_iff_exists.1 hb
    rcases h with hu | hset
    · exact .inl (hu.deposit hid hbooked hi ho hb)
    · exact .inr (hset.deposit hid hbooked hi ho hb)
  | cash hid hok =>
    obtain ⟨order', due, p, hc, ha, rfl, ho, hamount, hk, hs, hpost⟩ := payCash_ok hok
    obtain ⟨hrow, -, hdue⟩ := chargeable_ok hc
    have heq : order' = order := by
      rcases h with hu | hset
      · rw [hu.row] at hrow; exact (Option.some.inj hrow).symm
      · rw [hset.row] at hrow; exact (Option.some.inj hrow).symm
    subst heq
    exact .inr ((hactive ha rfl).pay hid ho (hdue ▸ hamount) hk hs ⟨db', hpost, .inl rfl⟩ (hcov rfl))
  | card hid hk ho hs ha hc hamount hlive hok =>
    have hu := hactive ha rfl
    have hbooked := settlePayment_prompt hid ho hs hc hamount hlive hok
    obtain ⟨hrow, -, hdue⟩ := chargeable_ok hc
    rw [hu.row] at hrow
    cases hrow
    exact .inr (hu.pay (p := Payment.withStatus _ .succeeded) ⟨hid.row, hid.ref, hid.source⟩ ho
      (hdue ▸ hamount) hk rfl hbooked (hcov rfl))

/-- **Sales conserve money.**  In every run whose payments are taken while gift cards and held
deposits do not exceed the total, what was applied is the total once the sale reads paid. -/
theorem sale_conserved {order : Order} {db₀ db : Db} {as : List SaleAction} (h₀ : FreshSale order db₀)
    (hrun : Run (CoveredStep order) db₀ as db) (hpaid : orderState db order = .paid) :
    Conserved db order := by
  have hinv : Unpaid order (saleTax db₀ order) db ∨ Settled order (saleTax db₀ order) db :=
    hrun.invariant (I := fun db => Unpaid order (saleTax db₀ order) db ∨ Settled order (saleTax db₀ order) db)
      (fun _ _ _ h hs => sale_step hs h) (.inl h₀.unpaid)
  rcases hinv with hu | hset
  · exact hu.conserved hpaid
  · exact hset.conserved

/-! ## A sale of a visit with a deposit -/

def visitSale : Order := ⟨"ord_1", some "cli_1", .open, .pos, 10000, 0, by decide⟩

def visitDeposit (cents : Nat) : Payment :=
  { cashPayment "pay_dep" visitSale noTip cents 0 (noTip_le cents) with
    kind := .deposit
    orderId := none
    bookingId := some "bkg_1"
    target := .inl rfl }

/-- The sale's rows, with a gift card worth 60.00 sold before. -/
def visitDb : Db := { emptyDb with
  ledger := [⟨0, .payment "pay_gift", ⟨.payment, some (.payment "pay_gift"), {}⟩,
    [⟨⟨.business, .cash, .plain⟩, 6000, some (.giftCard "gft_1")⟩,
      ⟨⟨.giftCard "gft_1", .giftCard, .plain⟩, -6000, some (.giftCard "gft_1")⟩]⟩]
  orders := [visitSale]
  lines := [⟨none, some "ord_1", some "bkg_1", 10000, 0, .standard⟩]
  bookings := ["bkg_1"]
  giftCards := [⟨"gft_1", "GIFT", some "pay_gift", .active, none⟩] }

theorem visitDb_fresh : FreshSale visitSale visitDb :=
  ⟨rfl, rfl, by decide, by decide, by decide, by decide⟩

/-- The gift card is redeemed first. -/
def redeemedDb : Db := (applyGiftCard visitDb "ord_1" "GIFT" 0 0).toOption.get (by decide)

theorem redeemedDb_fresh : FreshId redeemedDb "pay_dep" := ⟨by decide, by decide, by decide⟩

theorem visitDb_redeem : SaleStep visitSale.id visitDb (.redeem "GIFT" 0 0) redeemedDb :=
  .redeem (fun _ => rfl) (eq_ok_get (by decide))

def overHeldDb : Db :=
  (postPayment (redeemedDb.addPayment (visitDeposit 5000)) (visitDeposit 5000)).toOption.get (by decide)

def overpaidDb : Db := (payCash overHeldDb "ord_1" "pay_1" noTip 0 0).toOption.get (by decide)

/-- With a deposit of 50.00 the sale of 100.00 is closed by a payment of nothing, which applies
the whole deposit: 110.00 was applied. -/
theorem sale_applies_too_much :
    Run (SaleStep visitSale.id) visitDb
        [.redeem "GIFT" 0 0, .deposit (visitDeposit 5000), .cash "pay_1" noTip 0 0] overpaidDb ∧
      orderState overpaidDb visitSale = .paid ∧
      giftCardApplied overpaidDb.ledger "ord_1" + orderDepositApplied overpaidDb "ord_1" = 11000 ∧
      ¬Conserved overpaidDb visitSale := by
  refine ⟨?_, by decide, by decide, fun h => absurd h.1 (by decide)⟩
  have hdep : SaleStep visitSale.id redeemedDb (.deposit (visitDeposit 5000)) overHeldDb :=
    .deposit redeemedDb_fresh rfl rfl rfl ⟨_, eq_ok_get (by decide), .inl rfl⟩
  have hcash : SaleStep visitSale.id overHeldDb (.cash "pay_1" noTip 0 0) overpaidDb :=
    .cash ⟨by decide, by decide, by decide⟩ (eq_ok_get (by decide))
  exact .cons visitDb_redeem (.cons hdep (.cons hcash .nil))

def heldDb : Db :=
  (postPayment (redeemedDb.addPayment (visitDeposit 3000)) (visitDeposit 3000)).toOption.get (by decide)

def paidDb : Db := (payCash heldDb "ord_1" "pay_1" (tipTo "stf_1" 500) 1500 0).toOption.get (by decide)

/-- With a deposit of 30.00 a payment of 10.00 and a tip make up the total. -/
theorem visitSale_conserved : Conserved paidDb visitSale := by
  have hdep : SaleStep visitSale.id redeemedDb (.deposit (visitDeposit 3000)) heldDb :=
    .deposit redeemedDb_fresh rfl rfl rfl ⟨_, eq_ok_get (by decide), .inl rfl⟩
  have hcash : SaleStep visitSale.id heldDb (.cash "pay_1" (tipTo "stf_1" 500) 1500 0) paidDb :=
    .cash ⟨by decide, by decide, by decide⟩ (eq_ok_get (by decide))
  have hcovered : Covered heldDb visitSale := by
    unfold Covered
    decide
  refine sale_conserved visitDb_fresh (.cons ⟨visitDb_redeem, fun h => by cases h⟩ (.cons ⟨hdep, fun h => by cases h⟩
      (.cons ⟨hcash, fun _ => hcovered⟩ .nil))) (by decide)

end ClientBridge
