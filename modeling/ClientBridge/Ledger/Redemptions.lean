import ClientBridge.Ledger.Settlement

/-!
# Gift card redemptions

A gift card is taxed when it pays for something.  Each redemption books its share of the
sale's tax as a share of the running total, so redemptions that cover the sale book exactly
its tax.
-/

namespace ClientBridge

open Bookkeeping

def giftCardBalance (L : Ledger) (cardId : Id) : Int := -balance L ⟨.giftCard cardId, .giftCard, .plain⟩

/-- A redemption's share of the sale's tax. -/
def redemptionTax (db : Db) (orderId : Id) (amount now : Int) : TaxResult :=
  let (order, _, tax) := orderTax db orderId now
  match order with
  | none => without tax tax.code
  | some order =>
    if order.totalCents ≤ 0 then without tax tax.code
    else
      let applied := giftCardApplied db.ledger orderId
      let covered := min order.totalCents (applied + amount)
      -- shares of the running total, so redemptions that cover the sale book exactly its tax
      let through := tax.byJurisdiction.map fun x =>
        (x.1, (allocate x.2 [covered, order.totalCents - covered]).headD 0)
      without { tax with byJurisdiction := through } (redeemedTax db.ledger orderId)

/-- A redemption against a sale; `serial` is the fresh id in its reference. -/
def redemptionPosting (db : Db) (cardId : Id) (amount : Int) (orderId : Id) (serial : Nat) (now : Int) :
    Posting where
  event := .redemption
  ref := .redemption cardId (some orderId) serial
  legs := leg (.giftCard cardId) .giftCard amount :: saleLegs amount (redemptionTax db orderId amount now)
  source := some (.order orderId)
  subject := some (.giftCard cardId)

def postRedemption (db : Db) (cardId : Id) (amount : Int) (orderId : Id) (serial : Nat) (now : Int) :
    Except Error Db := do
  let L ← post db.ledger (redemptionPosting db cardId amount orderId serial now)
  return db.withLedger L

theorem taxTotal_redemptionTax (db : Db) (orderId : Id) (amount now : Int) :
    (redemptionTax db orderId amount now).taxTotalCents =
      Dict.total (redemptionTax db orderId amount now).byJurisdiction := by
  simp only [redemptionTax]
  split
  · exact taxTotal_without _ _
  · split <;> exact taxTotal_without _ _

theorem net_redemptionPosting (db : Db) (cardId : Id) (amount : Int) (orderId : Id) (serial : Nat)
    (now : Int) : net (redemptionPosting db cardId amount orderId serial now).legs = 0 := by
  rw [redemptionPosting, net_cons, net_saleLegs _ (taxTotal_redemptionTax db orderId amount now)]
  simp

/-- A redemption is one journal, and never raises. -/
theorem postRedemption_eq (db : Db) (cardId : Id) (amount : Int) (orderId : Id) (serial : Nat)
    (now : Int) :
    postRedemption db cardId amount orderId serial now =
      let q := redemptionPosting db cardId amount orderId serial now
      .ok (db.withLedger (db.ledger.write q.ref q.info q.written)) := by
  unfold postRedemption
  rw [post_eq (net_redemptionPosting db cardId amount orderId serial now)]
  rfl

/-! ## What a redemption adds -/

section
variable {db db' : Db} {cardId : Id} {amount : Int} {orderId : Id} {serial : Nat} {now : Int}
  (h : postRedemption db cardId amount orderId serial now = .ok db')
include h

theorem postRedemption_grows : ∃ L, db' = db.withLedger L ∧
    Grows (fun r => r = .redemption cardId (some orderId) serial) db.ledger L := by
  rw [postRedemption_eq] at h
  cases h
  exact ⟨_, rfl, grows_write (P := fun r => r = Ref.redemption cardId (some orderId) serial) rfl db.ledger _ _⟩

theorem mem_postRedemption {j : LedgerJournal} (hj : j ∈ db'.ledger) :
    j ∈ db.ledger ∨ (j.info.source = some (.order orderId) ∧ j.info.event = .redemption ∧
      ∀ e ∈ j.legs, e.tag = some (.giftCard cardId)) := by
  rw [postRedemption_eq] at h
  cases h
  rcases Book.mem_write hj with hj | ⟨-, -, rfl⟩
  · exact .inl hj
  · refine .inr ⟨rfl, rfl, fun e he => ?_⟩
    obtain ⟨l, hl, rfl⟩ := mem_written he
    rcases List.mem_cons.1 hl with rfl | hl
    · rfl
    · rcases List.mem_cons.1 hl with rfl | hl
      · rfl
      · obtain ⟨x, -, rfl⟩ := List.mem_map.1 hl
        rfl

variable (hnew : db.ledger.has (.redemption cardId (some orderId) serial) = false)
include hnew

theorem sum_postRedemption (q : LedgerJournal → Leg → Bool) :
    ∃ j : LedgerJournal, j.info = ⟨.redemption, some (.order orderId), {}⟩ ∧
      db'.ledger.sum q = db.ledger.sum q + sumOf (fun l => q j { l with tag := l.tag.or (some (.giftCard cardId)) })
        (leg (.giftCard cardId) .giftCard amount :: saleLegs amount (redemptionTax db orderId amount now)) := by
  rw [postRedemption_eq] at h
  cases h
  exact ⟨_, rfl, sum_posted (p := redemptionPosting db cardId amount orderId serial now) hnew q⟩

theorem giftCardApplied_postRedemption :
    giftCardApplied db'.ledger orderId = giftCardApplied db.ledger orderId + amount := by
  obtain ⟨j, hj, hs⟩ := sum_postRedemption h hnew fun j e =>
    decide (j.info.source = some (.order orderId)) && decide (e.key.category = .giftCard)
  rw [giftCardApplied, hs, sumOf_cons, sumOf_eq_zero fun e he hq => ?_]
  · simp [giftCardApplied, hj]
  · rcases mem_saleLegs he with hc | hc <;> simp [hc] at hq

theorem redeemedTax_postRedemption (c : TaxCode) :
    redeemedTax db'.ledger orderId c = redeemedTax db.ledger orderId c +
      Dict.sumAt (redemptionTax db orderId amount now).byJurisdiction c := by
  have hl := sumOf_taxLegs (redemptionTax db orderId amount now) c
  obtain ⟨j, hj, hs⟩ := sum_postRedemption h hnew fun j e =>
    decide (j.info.source = some (.order orderId)) &&
      (decide (e.key.category = .tax) && decide (e.key.code = .tax c))
  have hlegs : sumOf (fun l : Leg => decide (j.info.source = some (.order orderId)) &&
      (decide (l.key.category = .tax) && decide (l.key.code = .tax c)))
        (leg (.giftCard cardId) .giftCard amount :: saleLegs amount (redemptionTax db orderId amount now)) =
          -Dict.sumAt (redemptionTax db orderId amount now).byJurisdiction c := by
    simp [saleLegs, hj, hl]
  rw [redeemedTax, hs, hlegs, Int.neg_add, Int.neg_neg]
  rfl

theorem revenue_postRedemption :
    db'.ledger.sum (fun j e => decide (j.info.source = some (.order orderId)) &&
        decide (e.key.category = .revenue)) =
      db.ledger.sum (fun j e => decide (j.info.source = some (.order orderId)) &&
        decide (e.key.category = .revenue)) - (amount - (redemptionTax db orderId amount now).taxTotalCents) := by
  obtain ⟨j, hj, hs⟩ := sum_postRedemption h hnew fun j e =>
    decide (j.info.source = some (.order orderId)) && decide (e.key.category = .revenue)
  have hlegs : sumOf (fun l : Leg => decide (j.info.source = some (.order orderId)) &&
      decide (l.key.category = .revenue))
        (leg (.giftCard cardId) .giftCard amount :: saleLegs amount (redemptionTax db orderId amount now)) =
          -(amount - (redemptionTax db orderId amount now).taxTotalCents) := by
    rw [sumOf_cons, saleLegs, sumOf_cons, sumOf_eq_zero fun e he hq => ?_, hj]
    · simp
    · obtain ⟨x, -, rfl⟩ := List.mem_map.1 he
      simp at hq
  exact hs.trans (by rw [hlegs]; rfl)

/-- Redemptions leave the deposits alone. -/
theorem heldOn_postRedemption (bookingId : Id) : heldOn db' bookingId = heldOn db bookingId := by
  obtain ⟨L, rfl, hg⟩ := postRedemption_grows h
  have hsettled := settled_of_grows hg (by rintro r rfl id; simp)
  obtain ⟨j, -, hs⟩ := sum_postRedemption h hnew fun j e =>
    decide (e.tag = some (.booking bookingId)) && decide (e.key.category = .deposit) && settled db.ledger j
  have hz : subjectBalance L .deposit (.booking bookingId) =
      subjectBalance db.ledger .deposit (.booking bookingId) := by
    unfold subjectBalance
    rw [hsettled]
    refine hs.trans ?_
    rw [sumOf_eq_zero fun e he hq => ?_, Int.add_zero]
    rcases List.mem_cons.1 he with rfl | he
    · simp at hq
    · rcases mem_saleLegs he with hc | hc <;> simp [hc] at hq
  simp only [heldOn, depositHeld, Db.ledger_withLedger, hz]
  rfl

end

end ClientBridge
