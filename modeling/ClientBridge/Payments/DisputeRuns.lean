import ClientBridge.Payments.DisputeEvents

/-!
# Disputes told in any order

Events of a dispute come over and over, in any order, and among those of other disputes.  Nothing the ledger and the
charge do of them is refused, and the books of a dispute end as the join of what its own events showed
(`disputes_join`), so that they do not depend on the order (`disputes_any_order`).
-/

namespace ClientBridge

open Bookkeeping Runs

section
variable {db db' : Db} {disputeId intent : Id} {terms : DisputeTerms} {es : List DisputeEvent}

/-- A dispute of a charge that nothing was posted of. -/
structure NewDispute (intent disputeId : Id) (db : Db) : Prop where
  kept : WellKept db.ledger
  unposted : ∀ r : Ref, r.ofDispute disputeId = true → db.ledger.has r = false
  found : (paymentOf db intent).isSome = true

/-- The events of a dispute show it on its terms. -/
def Told (terms : DisputeTerms) (intent disputeId : Id) (es : List DisputeEvent) : Prop :=
  ∀ e ∈ es, e.data.disputeId = disputeId → e.data.Shows intent terms

/-- The ledger as a dispute's books leave it. -/
structure DisputeLeaves (terms : DisputeTerms) (disputeId : Id) (b : DisputeBooks) (db : Db) : Prop where
  kept : WellKept db.ledger
  books : disputeBooks db.ledger disputeId = b
  cash : disputeOn db.ledger disputeId .stripe = b.cash terms
  owed : disputeOn db.ledger disputeId .receivable = b.owed terms

theorem Ref.ofDispute_of_other {id : Id} (hne : id ≠ disputeId) {r : Ref}
    (h : r.aboutDispute id ∨ r.isDeposit = true) : r.ofDispute disputeId = false := by
  rcases h with (hr | ⟨s, rfl⟩) | hr
  · cases r <;> first | rfl | skip
    all_goals
      have he := of_decide_eq_true hr
      exact decide_eq_false fun he' => hne (he.symm.trans he')
  · rfl
  · cases r <;> first | rfl | cases hr

/-- An event of another dispute leaves this one. -/
theorem DisputeAt.other {b : DisputeBooks} (h : DisputeAt terms intent disputeId db b) {id : Id} (hne : id ≠ disputeId)
    (hh : HandlesDispute id db db') : DisputeAt terms intent disputeId db' b := by
  have hother : ∀ r : Ref, r.aboutDispute id ∨ r.isDeposit = true → r.ofDispute disputeId = false := fun _ =>
    Ref.ofDispute_of_other hne
  exact ⟨h.kept.of_others hh.grows hother, hh.found _ h.found,
    (disputeBooks_of_others hh.grows hother).trans h.books⟩

/-- Every event joins the books of a dispute with its part. -/
theorem handleDispute_joins (terms : DisputeTerms) (intent disputeId : Id) :
    Joins Webhooks.handleDispute (fun db => WellKept db.ledger ∧ ∃ b, DisputeAt terms intent disputeId db b)
      (fun e => e.data.disputeId = disputeId → e.data.Shows intent terms)
      (fun db => disputeBooks db.ledger disputeId) (DisputeEvent.part disputeId) := by
  rintro db event ⟨hk, b, hat⟩ hs
  obtain ⟨db', he, hh, hshows⟩ := handleDispute_shows hk event
  refine ⟨db', he, ?_⟩
  by_cases hid : event.data.disputeId = disputeId
  · subst hid
    have hat' := hshows intent terms b (hs rfl) hat
    refine ⟨⟨hh.kept, _, hat'⟩, ?_⟩
    show disputeBooks _ _ = disputeBooks _ _ ⊔ _
    rw [hat'.books, hat.books, DisputeEvent.part, if_pos rfl]
  · have hat' := hat.other hid hh
    refine ⟨⟨hh.kept, b, hat'⟩, ?_⟩
    show disputeBooks _ _ = disputeBooks _ _ ⊔ _
    rw [hat'.books, hat.books, DisputeEvent.part, if_neg hid, DisputeBooks.sup_unposted]

/-- **Disputes join.**  Whatever events of disputes come, none is refused, and a dispute's books end as the join
of what its own events showed; the Stripe balance and the payer's debt follow from them. -/
theorem disputes_join (hnew : NewDispute intent disputeId db) (htold : Told terms intent disputeId es) :
    ∃ db', es.foldlM Webhooks.handleDispute db = .ok db' ∧
      DisputeLeaves terms disputeId (joinAll (DisputeEvent.part disputeId) DisputeBooks.unposted es) db' := by
  obtain ⟨hkept, hbooks⟩ := disputeKept_unposted terms hnew.unposted
  obtain ⟨db', he, ⟨hk, b, hat⟩, hview⟩ := (handleDispute_joins terms intent disputeId).run
    ⟨hnew.kept, _, hkept, hnew.found, rfl⟩ htold
  rw [hbooks] at hview
  refine ⟨db', he, hk, hview, ?_, ?_⟩
  · rw [hat.kept.cash, hview]
  · rw [hat.kept.owed, hview]

/-- **Disputes in any order.**  Two streams that hold the same events of a dispute leave it the same, in whatever
order, however often, and among whatever other disputes they come. -/
theorem disputes_any_order {es' : List DisputeEvent} {db₁ db₂ : Db} (hnew : NewDispute intent disputeId db)
    (htold : Told terms intent disputeId es)
    (hsame : ∀ e : DisputeEvent, e.data.disputeId = disputeId → (e ∈ es ↔ e ∈ es'))
    (h₁ : es.foldlM Webhooks.handleDispute db = .ok db₁) (h₂ : es'.foldlM Webhooks.handleDispute db = .ok db₂) :
    disputeBooks db₁.ledger disputeId = disputeBooks db₂.ledger disputeId ∧
      disputeOn db₁.ledger disputeId .stripe = disputeOn db₂.ledger disputeId .stripe ∧
      disputeOn db₁.ledger disputeId .receivable = disputeOn db₂.ledger disputeId .receivable := by
  have htold' : Told terms intent disputeId es' := fun e he hid => htold e ((hsame e hid).2 he) hid
  obtain ⟨d₁, he₁, hs₁⟩ := disputes_join hnew htold
  obtain ⟨d₂, he₂, hs₂⟩ := disputes_join hnew htold'
  obtain rfl := Except.ok.inj (he₁.symm.trans h₁)
  obtain rfl := Except.ok.inj (he₂.symm.trans h₂)
  -- an event of another dispute adds nothing to this one
  have hpart : ∀ es es' : List DisputeEvent, (∀ e : DisputeEvent, e.data.disputeId = disputeId → e ∈ es → e ∈ es') →
      ∀ e ∈ es, e.part disputeId ≤ DisputeBooks.unposted ∨ e ∈ es' := by
    intro es es' hin e he
    by_cases hid : e.data.disputeId = disputeId
    · exact .inr (hin e hid he)
    · left
      rw [DisputeEvent.part, if_neg hid]
  have hjoin := joinAll_congr (hpart es es' fun e hid => (hsame e hid).1) (hpart es' es fun e hid => (hsame e hid).2)
  rw [hjoin] at hs₁
  exact ⟨hs₁.books.trans hs₂.books.symm, hs₁.cash.trans hs₂.cash.symm, hs₁.owed.trans hs₂.owed.symm⟩

end

/-! ## A won dispute of 80.00 -/

theorem no_target : (none : Option Id) = none ∨ (none : Option Id) = none := .inl rfl

def disputedCharge : Payment where
  id := "pay_1"
  clientId := some "cli_1"
  kind := .payment
  parentPaymentId := none
  invoiceId := none
  orderId := none
  bookingId := none
  amountCents := 8000
  tip := noTip
  method := .card
  provider := .stripe
  providerRef := some "pi_1"
  status := .succeeded
  reason := none
  disputeStatus := none
  createdAt := 0
  tip_le := noTip_le 8000
  target := no_target

def disputedTerms : DisputeTerms := ⟨8000, fun n => if n = 8000 then 9500 else n, by decide, rfl⟩

def withdrawal : BalanceTransaction := ⟨some (-8000), some 1500, some (-9500)⟩

def openedDispute : DisputeEvent := ⟨.created, ⟨some "du_1", some "pi_1", some "needs_response", some 8000, [withdrawal]⟩⟩

def wonDispute : DisputeEvent :=
  ⟨.closed, ⟨some "du_1", some "pi_1", some "won", some 8000, [withdrawal, ⟨some 8000, some (-1500), some 9500⟩]⟩⟩

def disputedDb : Db := { emptyDb with payments := [disputedCharge] }

theorem disputedDb_new : NewDispute "pi_1" "du_1" disputedDb := ⟨wellKept_nil, fun _ _ => rfl, by decide⟩

theorem wonDispute_told : Told disputedTerms "pi_1" "du_1" [wonDispute, openedDispute] := by
  intro e he _
  rcases List.mem_cons.1 he with rfl | he
  · exact ⟨rfl, rfl, by decide, by decide⟩
  · obtain rfl := List.mem_singleton.1 he
    exact ⟨rfl, rfl, by decide, by decide⟩

/-- The news that it was won comes first: Stripe's balance is whole again. -/
theorem wonDispute_joins : ∃ db', [wonDispute, openedDispute].foldlM Webhooks.handleDispute disputedDb = .ok db' ∧
    disputeBooks db'.ledger "du_1" = ⟨true, true, false, 1500, 1500, 0⟩ ∧ disputeOn db'.ledger "du_1" .stripe = 0 := by
  obtain ⟨db', he, h⟩ := disputes_join disputedDb_new wonDispute_told
  have hjoin : joinAll (DisputeEvent.part "du_1") DisputeBooks.unposted [wonDispute, openedDispute] =
      ⟨true, true, false, 1500, 1500, 0⟩ := by rfl
  rw [hjoin] at h
  exact ⟨db', he, h.books, h.cash⟩

def wonFirst : Db := ([wonDispute, openedDispute].foldlM Webhooks.handleDispute disputedDb).toOption.get (by decide)

def wonLast : Db :=
  ([openedDispute, openedDispute, wonDispute].foldlM Webhooks.handleDispute disputedDb).toOption.get (by decide)

theorem wonDispute_any_order : disputeBooks wonFirst.ledger "du_1" = disputeBooks wonLast.ledger "du_1" ∧
    disputeOn wonFirst.ledger "du_1" .stripe = disputeOn wonLast.ledger "du_1" .stripe ∧
    disputeOn wonFirst.ledger "du_1" .receivable = disputeOn wonLast.ledger "du_1" .receivable := by
  refine disputes_any_order disputedDb_new wonDispute_told (fun e _ => ?_) (eq_ok_get (by decide)) (eq_ok_get (by decide))
  simp only [List.mem_cons, List.not_mem_nil, or_false]
  constructor
  · rintro (he | he)
    · exact .inr (.inr he)
    · exact .inl he
  · rintro (he | he | he)
    · exact .inr he
    · exact .inr he
    · exact .inl he

end ClientBridge
