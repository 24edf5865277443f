import ClientBridge.Payments.TipReturns

/-!
# Tips pass through

In every run of refunds and failures staff are left with the tip less the positive parts of the live refunds
(`tips_follow_refunds`).  That is the tip less what those returned of it on the business's side, and never
more than the tip is taken back, where no refund is booked after its predecessors returned more of the tip
than is due with it (`tips_pass_through`).
-/

namespace ClientBridge

open Bookkeeping Runs

/-! ## Runs -/

section
variable {payment : Payment} {db₀ db db' : Db}

theorem wellKept_postPayment {L : Ledger} (hk : WellKept db₀.ledger)
    (h : postPayment db₀ payment = .ok (db₀.withLedger L)) : WellKept L := by
  unfold postPayment at h
  obtain ⟨L₁, h₁, h⟩ := bind_ok h
  obtain ⟨L₂, h₂, h⟩ := bind_ok h
  obtain rfl : L₂ = L := congrArg Db.ledger (Except.ok.inj h)
  exact wellKept_postTips (wellKept_post hk h₁) h₂

/-- What settling a payment writes for the first time. -/
theorem postPayment_extends (payment : Payment) (db₀ : Db) :
    ∃ L, postPayment db₀ payment = .ok (db₀.withLedger L) ∧ Grows (isPaymentRef payment.id) db₀.ledger L ∧
      Extends (fun m => m.info.event.isMove = false) db₀.ledger L := by
  obtain ⟨L, he, hg⟩ := postPayment_grows db₀ payment
  refine ⟨L, he, hg, ?_⟩
  rw [postPayment_eq] at he
  have hL := congrArg Db.ledger (Except.ok.inj he)
  rw [Db.ledger_withLedger, Db.ledger_withLedger] at hL
  rw [← hL]
  refine Extends.trans (extends_write _ _ _ _ fun _ => rfl)
    ((extends_writeTips payment _ (.tip payment.id) 1 payment.id _ _).mono ?_)
  rintro m ⟨-, hm, -⟩
  rw [hm]
  rfl

theorem onAccounts_tips {payment : Payment} {db₀ : Db} {L : Ledger} (hu : Unbooked db₀.ledger payment.id)
    (h : postPayment db₀ payment = .ok (db₀.withLedger L)) (hn : (payment.tip.split.map (·.1)).Nodup) :
    onAccounts L (Ref.ofRefund payment.id) (onCategory .payable) = -payment.tip.cents := by
  rw [postPayment_eq] at h
  have hL := congrArg Db.ledger (Except.ok.inj h)
  rw [Db.ledger_withLedger, Db.ledger_withLedger] at hL
  have hfree : (fun s => (db₀.ledger.write (.payment payment.id) (paymentPosting db₀ payment).info
      (paymentPosting db₀ payment).written).has (.tip payment.id s)) = fun _ => false := by
    funext s
    rw [Book.has_write_of_ne (by simp)]
    exact (hu _ (by simp [Ref.ofRefund])).1
  have hpost := onAccounts_posted db₀.ledger (Ref.ofRefund payment.id) (onCategory .payable) (paymentPosting db₀ payment)
  rw [show Ref.ofRefund payment.id (paymentPosting db₀ payment).ref = false from rfl, Bool.not_false, Bool.or_true,
    if_pos rfl, onAccounts_eq_zero fun r hr => (hu r hr).1] at hpost
  rw [← hL, onAccounts_writeTips (fun s => by simp [Ref.ofRefund]) (fun a b e => by simpa using e) (by decide),
    hfree, sum_tipEffect_payable, sum_postedShares hn payment.tip.shares_nonneg fun _ _ => rfl, payment.tip.split_sum]
  have hbefore : onAccounts (db₀.ledger.write (.payment payment.id) (paymentPosting db₀ payment).info
      (paymentPosting db₀ payment).written) (Ref.ofRefund payment.id) (onCategory .payable) = 0 := hpost
  rw [hbefore]
  omega

/-- A payment that is settled owes staff its tip. -/
theorem TipStart.tips (h : TipStart payment db₀ db) (hn : (payment.tip.split.map (·.1)).Nodup) :
    TipsKept payment db := by
  obtain ⟨L, he, hg, hx⟩ := postPayment_extends payment db₀
  obtain rfl : db₀.withLedger L = db := Except.ok.inj (he.symm.trans h.settled)
  have hrows : refundsOf (db₀.withLedger L) payment = [] := h.unrefunded
  have hcancel : ∀ id, L.has (.earningReversal id) = db₀.ledger.has (.earningReversal id) := fun id =>
    hg.has_eq (by rintro (he | ⟨s, he⟩) <;> cases he)
  have hkept : WellKept L := wellKept_postPayment h.kept he
  -- the tip journals are new, so nothing has taken them back
  have huntaken : ∀ j ∈ refundJournals L payment.id, ∀ r ∈ takenBackUnder j, L.has r = false := by
    intro j hj r hr
    obtain ⟨hjL, hjr⟩ := mem_refundJournals.1 hj
    rcases mem_takenBackUnder hr with rfl | ⟨-, rfl⟩
    · rw [hg.has_eq (by rintro (he | ⟨s, he⟩) <;> cases he)]
      exact (h.unbooked _ hjr).2
    · rw [hcancel, Bool.eq_false_iff]
      intro hc
      have hlt := h.moves.cancels j.id hc
      have hge : db₀.ledger.length ≤ j.id := by
        obtain ⟨C, rfl, -⟩ := hg
        rcases List.mem_append.1 hjL with hj | hj
        · exact absurd rfl ((Book.has_false_iff _ _).1 (h.unbooked _ hjr).1 j hj)
        · exact length_le_of_kept hkept hj
      omega
  refine ⟨hkept, h.moves.extends hx fun id hid => .inl (hcancel id ▸ hid), ⟨payment, h.row, rfl⟩, ?_, ?_, ?_, ?_, ?_⟩
  · rw [hrows]
    exact List.nodup_nil
  · rw [hrows]
    simp
  · show refundNet L payment.id _ = _
    rw [refundNet, onAccounts_among huntaken]
    exact onAccounts_tips h.unbooked he hn
  · intro q hq
    have hmem := mem_refundsOf_of_live hq
    rw [hrows] at hmem
    cases hmem
  · rw [hrows]
    simp

theorem TipStep.kept {a : RefundAction} (h : TipStep payment db a db') (ht : 0 < payment.tip.cents)
    (hn : (payment.tip.split.map (·.1)).Nodup) (hk : TipsKept payment db) : TipsKept payment db' := by
  cases h with
  | refund hid hu hkind hparent hs hpos hb => exact hk.refund ht hn hid hu hkind hparent hs hb
  | fail hlive hs hb => exact hk.fail hlive hs hb

/-- **Tips follow refunds.**  Whatever refunds of a payment succeed and fail, staff are left with the tip less
the parts of it that the live refunds returned, where those are positive. -/
theorem tips_follow_refunds {as : List RefundAction} (ht : 0 < payment.tip.cents)
    (hn : (payment.tip.split.map (·.1)).Nodup) (hstart : TipStart payment db₀ db)
    (hr : Run (TipStep payment) db as db') :
    tipsToStaff db' payment = payment.tip.cents - tipParts db' payment :=
  (hr.invariant (fun _ _ _ hk hs => hs.kept ht hn hk) (hstart.tips hn)).toStaff

/-! ## Refunds that fit -/

/-- No live refund returned less than none of the tip, and together they returned the tip at most. -/
structure TipsFair (payment : Payment) (db : Db) : Prop where
  nonneg : ∀ q ∈ db.liveRefunds payment.id, 0 ≤ returnedOn db.ledger q.id (onCategory .staffCost)
  bounded : unwoundOn db payment (onCategory .staffCost) ≤ payment.tip.cents

theorem TipsFair.parts (h : TipsFair payment db) : tipParts db payment = unwoundOn db payment (onCategory .staffCost) :=
  congrArg List.sum (List.map_congr_left fun q hq => max_eq_right (h.nonneg q hq))

theorem tipDone_le (ht : 0 < payment.tip.cents) {done : Int} (hle : done ≤ payment.amountCents) :
    tipDone payment done ≤ payment.tip.cents := by
  have hA : 0 < payment.amountCents := by
    have := payment.tip_le
    omega
  unfold tipDone
  refine Int.ediv_le_of_le_mul hA ?_
  exact Int.mul_le_mul_of_nonneg_left hle ht.le

/-- A refund that fits returns some of the tip or none, up to what is due of it. -/
theorem TipsFair.refund (h : TipsFair payment db) (hk : TipsKept payment db) (ht : 0 < payment.tip.cents)
    (hn : (payment.tip.split.map (·.1)).Nodup) {row : Payment} (hid : FreshRefund db row.id)
    (hu : Unbooked db.ledger row.id) (hkind : row.kind = .refund) (hparent : row.parentPaymentId = some payment.id)
    (hs : row.status = .succeeded) (hfits : TipFits db payment row)
    (hb : applyRefund (db.addPayment row) row payment = .ok db') : TipsFair payment db' := by
  obtain ⟨L, rfl, hL⟩ := hk.books ht hn hid hu hkind hparent hs hb
  have hlive : ((db.addPayment row).withLedger L).liveRefunds payment.id = db.liveRefunds payment.id ++ [row] :=
    liveRefunds_addPayment hkind hparent hs
  have hsame : ∀ q ∈ db.liveRefunds payment.id, returnedOn L q.id (onCategory .staffCost) =
      returnedOn db.ledger q.id (onCategory .staffCost) := fun q hq =>
    hL.others q.id _ (hid.row q (mem_refundsOf.1 (mem_refundsOf_of_live hq)).1)
  have hdue := hL.due
  have hfits : unwoundOn db payment (onCategory .staffCost) ≤
      tipDone payment (min payment.amountCents (liveTotal db payment + row.amountCents)) := hfits
  refine ⟨fun q hq => ?_, ?_⟩
  · rw [hlive, List.mem_append, List.mem_singleton] at hq
    rcases hq with hq | rfl
    · exact (hsame q hq).symm ▸ h.nonneg q hq
    · show 0 ≤ returnedOn L q.id _
      omega
  · have hunwound : unwoundOn ((db.addPayment row).withLedger L) payment (onCategory .staffCost) =
        unwoundOn db payment (onCategory .staffCost) + returnedOn L row.id (onCategory .staffCost) := by
      rw [unwoundOn, hlive, List.map_append, List.sum_append, Db.ledger_withLedger,
        List.map_congr_left fun q hq => hsame q hq, List.map_singleton, List.sum_singleton]
      rfl
    have hle := tipDone_le ht (min_le_left payment.amountCents (liveTotal db payment + row.amountCents))
    rw [hunwound]
    omega

theorem TipsFair.fail (h : TipsFair payment db) (hk : TipsKept payment db) {row : Payment} {status : PaymentStatus}
    (hlive : row ∈ db.liveRefunds payment.id) (hs : status.isFailure = true)
    (hb : unapplyRefund (db.setStatus row.id status) (row.withStatus status) payment = .ok db') :
    TipsFair payment db' := by
  obtain ⟨L, he, -, -, hx⟩ := @unapplyRefund_clears (db.setStatus row.id status) (row.withStatus status) payment
    (hk.live row hlive).booked
  obtain rfl : (db.setStatus row.id status).withLedger L = db' := Except.ok.inj (he.symm.trans hb)
  obtain ⟨-, -, hret⟩ := unapply_writes hk.kept hx
  have hrest : ((db.setStatus row.id status).withLedger L).liveRefunds payment.id =
      (db.liveRefunds payment.id).filter fun q => decide (q.id ≠ row.id) := by
    show (db.setStatus row.id status).liveRefunds payment.id = _
    rw [liveRefunds_eq, liveRefunds_eq, refundsOf_setStatus, List.filter_map, List.filter_filter]
    refine (List.map_congr_left fun q hq => ?_).trans ((List.map_id _).trans (List.filter_congr fun q _ => ?_))
    · obtain ⟨-, hq⟩ := List.mem_filter.1 hq
      by_cases hid : q.id = row.id
      · simp only [Function.comp_apply, if_pos hid] at hq
        exact absurd (of_decide_eq_true hq) (isFailure_ne hs)
      · rw [if_neg hid]
        rfl
    · by_cases hid : q.id = row.id
      · simp [hid, Payment.withStatus, isFailure_ne hs]
      · simp [hid]
  have hsame : ∀ q ∈ (db.liveRefunds payment.id).filter (fun q => decide (q.id ≠ row.id)),
      returnedOn L q.id (onCategory .staffCost) = returnedOn db.ledger q.id (onCategory .staffCost) := by
    intro q hq
    exact hret q.id _ (of_decide_eq_true (List.mem_filter.1 hq).2)
  refine ⟨fun q hq => ?_, ?_⟩
  · rw [hrest] at hq
    exact (hsame q hq).symm ▸ h.nonneg q (List.mem_filter.1 hq).1
  · have hle : unwoundOn ((db.setStatus row.id status).withLedger L) payment (onCategory .staffCost) ≤
        unwoundOn db payment (onCategory .staffCost) := by
      rw [unwoundOn, hrest, Db.ledger_withLedger, List.map_congr_left hsame]
      refine (List.filter_sublist.map _).sum_le_sum fun x hx => ?_
      obtain ⟨q, hq, rfl⟩ := List.mem_map.1 hx
      exact h.nonneg q hq
    exact hle.trans h.bounded

/-- **Tips pass through** in every run whose refunds fit: staff are left with the tip less what the live refunds
returned of it on the business's side, and the tip at most is taken back from them. -/
theorem tips_pass_through {as : List RefundAction} (ht : 0 < payment.tip.cents)
    (hn : (payment.tip.split.map (·.1)).Nodup) (hstart : TipStart payment db₀ db)
    (hr : Run (FittingTipStep payment) db as db') : TipsExact payment db' := by
  have hkept := hstart.tips hn
  have hnone : db.liveRefunds payment.id = [] := by
    obtain ⟨L, he, -⟩ := postPayment_extends payment db₀
    obtain rfl : db₀.withLedger L = db := Except.ok.inj (he.symm.trans hstart.settled)
    rw [liveRefunds_eq, show refundsOf (db₀.withLedger L) payment = [] from hstart.unrefunded]
    rfl
  have hfair : TipsFair payment db := by
    refine ⟨fun q hq => ?_, ?_⟩
    · rw [hnone] at hq
      cases hq
    · rw [unwoundOn, hnone]
      exact ht.le
  have hboth : TipsKept payment db' ∧ TipsFair payment db' := by
    refine hr.invariant (I := fun db => TipsKept payment db ∧ TipsFair payment db) ?_ ⟨hkept, hfair⟩
    rintro s a s' ⟨hk, hf⟩ ⟨hs, hfits⟩
    refine ⟨hs.kept ht hn hk, ?_⟩
    cases hs with
    | refund hid hu hkind hparent hs hpos hb => exact hf.refund hk ht hn hid hu hkind hparent hs (hfits _ rfl) hb
    | fail hlive hs hb => exact hf.fail hk hlive hs hb
  obtain ⟨hk, hf⟩ := hboth
  refine ⟨hf.parts ▸ hk.toStaff, ?_⟩
  rw [hk.taken, hf.parts]
  exact hf.bounded

end

/-! ## A tip of 6.00 -/

def unsettledDb : Db := { emptyDb with payments := [tippedSale] }

def tippedDb : Db := (postPayment unsettledDb tippedSale).toOption.get (by decide)

def halfRefund : Payment := cashRefund tippedSale "ref_1" 5900

def halfDb : Db := (applyRefund (tippedDb.addPayment halfRefund) halfRefund tippedSale).toOption.get (by decide)

def wholeDb : Db := (unapplyRefund (halfDb.setStatus "ref_1" .failed) (halfRefund.withStatus .failed)
  tippedSale).toOption.get (by decide)

theorem tippedDb_start : TipStart tippedSale unsettledDb tippedDb := by
  refine ⟨wellKept_nil, ⟨?_, ?_⟩, ?_, by decide, by decide, eq_ok_get (by decide)⟩
  · rintro j hj
    cases hj
  · rintro id hid
    cases hid
  · exact fun r _ => ⟨rfl, rfl⟩

/-- Half of the sale is refunded, and the refund fails. -/
theorem halfRefund_run : Run (FittingTipStep tippedSale) tippedDb [.refund halfRefund, .fail halfRefund] wholeDb := by
  obtain ⟨L, he, hg, -⟩ := postPayment_extends tippedSale unsettledDb
  have hL : tippedDb = unsettledDb.withLedger L := Except.ok.inj (tippedDb_start.settled.symm.trans he)
  have hunused : ∀ r : Ref, ¬isPaymentRef "pay_1" r → tippedDb.ledger.has r = false := by
    intro r hr
    rw [hL, Db.ledger_withLedger, hg.has_eq hr]
    rfl
  have hunbooked : Unbooked tippedDb.ledger "ref_1" := by
    intro r hr
    refine ⟨hunused r ?_, hunused _ ?_⟩
    · rintro (rfl | ⟨s, rfl⟩)
      · cases hr
      · have he : "pay_1" = "ref_1" := of_decide_eq_true hr
        exact absurd he (by decide)
    · rintro (hf | ⟨s, hf⟩) <;> cases hf
  have hid : FreshRefund tippedDb "ref_1" := by
    refine ⟨by decide, fun r hr => (hunbooked r ?_).1, by decide⟩
    rcases hr with rfl | ⟨s, rfl⟩ <;> rfl
  refine .cons ⟨.refund hid hunbooked rfl rfl rfl (by decide) (eq_ok_get (by decide)), fun row hrow => ?_⟩
    (.cons ⟨.fail (by decide) (by decide) (eq_ok_get (by decide)), fun row hrow => by cases hrow⟩ .nil)
  cases hrow
  show _ ≤ _
  decide

theorem halfRefund_follows : tipsToStaff wholeDb tippedSale = tippedSale.tip.cents - tipParts wholeDb tippedSale := by
  have hr : Run (TipStep tippedSale) tippedDb [.refund halfRefund, .fail halfRefund] wholeDb :=
    halfRefund_run.mono fun _ _ _ h => h.1
  exact tips_follow_refunds (by decide) (by decide) tippedDb_start hr

theorem halfRefund_passes : TipsExact tippedSale wholeDb :=
  tips_pass_through (by decide) (by decide) tippedDb_start halfRefund_run

end ClientBridge
