import ClientBridge.Ledger.RefundRuns
import ClientBridge.Payments.RefundEvents

/-!
# What refunds take back of a tip

A tip is owed to staff in journals of its own, one a member, and each refund takes its part of it back the
same way, where that part is positive.  Booking one refund and taking another back leave the rest of the
payment's journals alone (`ApartFrom`), so that what staff are left with can be told from the live refunds
(`TipsKept`).
-/

namespace ClientBridge

open Bookkeeping Apportion Runs

/-! ## Journals that leave a refund alone -/

/-- A journal that neither belongs to a refund nor takes a part of it back. -/
structure ApartFrom (L : Ledger) (refundId : Id) (m : LedgerJournal) : Prop where
  unmoved : m.info.event.isMove = false
  other : m.ref.ofRefund refundId = false
  unfailed : ∀ r : Ref, r.ofRefund refundId = true → m.ref ≠ .failed r
  uncancelled : ∀ j ∈ refundJournals L refundId, m.ref ≠ .earningReversal j.id

section
variable {L L' : Ledger} {refundId : Id}

theorem refundJournals_of_extends (h : Extends (ApartFrom L refundId) L L') :
    refundJournals L' refundId = refundJournals L refundId := by
  obtain ⟨C, rfl, hC⟩ := h
  have hnil : C.filter (fun j => j.ref.ofRefund refundId) = [] := by
    rw [List.filter_eq_nil_iff]
    intro j hj
    rw [(hC j hj).other]
    decide
  rw [refundJournals, List.filter_append, hnil, List.append_nil]
  rfl

theorem refundNet_of_extends (h : Extends (ApartFrom L refundId) L L') (q : AccountKey → Bool) :
    refundNet L' refundId q = refundNet L refundId q := by
  have hother : Grows (fun r => Ref.among (refundJournals L refundId) r = false) L L' := by
    refine h.mono fun m hm => ?_
    show Ref.among (refundJournals L refundId) m.ref = false
    rw [Bool.eq_false_iff]
    intro ha
    obtain ⟨j, hj, href | hu⟩ := Ref.among_iff.1 ha
    · have hof := (mem_refundJournals.1 hj).2
      rw [href, hm.other] at hof
      cases hof
    · rcases mem_takenBackUnder hu with hf | ⟨-, hc⟩
      · exact hm.unfailed j.ref (mem_refundJournals.1 hj).2 hf
      · exact hm.uncancelled j hj hc
  rw [refundNet, refundJournals_of_extends h, onAccounts_of_grows hother fun r hr => hr]
  rfl

theorem JustBooked.extends {staff : List Id} (h : JustBooked L refundId staff) (hk : WellKept L')
    (hx : Extends (ApartFrom L refundId) L L') : JustBooked L' refundId staff := by
  refine ⟨hk, fun s hs => ?_, fun r hr => ?_, fun j hj => ?_, fun j hj m hm hs => ?_⟩
  · obtain ⟨j, hj, href⟩ := (L'.has_iff _).1 hs
    rcases hx.mem_or hj with hj | hj
    · exact h.tips s ((L.has_iff _).2 ⟨j, hj, href⟩)
    · have hof := hj.other
      rw [href] at hof
      simp [Ref.ofRefund] at hof
  · refine (L'.has_false_iff _).2 fun j hj => ?_
    rcases hx.mem_or hj with hj | hj
    · exact (L.has_false_iff _).1 (h.unfailed r hr) j hj
    · exact hj.unfailed r hr
  · rw [refundJournals_of_extends hx] at hj
    refine (L'.has_false_iff _).2 fun m hm => ?_
    rcases hx.mem_or hm with hm | hm
    · exact (L.has_false_iff _).1 (h.uncancelled j hj) m hm
    · exact hm.uncancelled j hj
  · rw [refundJournals_of_extends hx] at hj
    rcases hx.mem_or hm with hm | hm
    · exact h.unmoved j hj m hm hs
    · exact hm.unmoved

theorem Ref.ofRefund_ne {id : Id} (hne : id ≠ refundId) {r : Ref} (hr : r.ofRefund refundId = true) :
    r.ofRefund id = false := by
  cases r <;> first | rfl | skip
  all_goals
    have he := of_decide_eq_true hr
    subst he
    exact decide_eq_false (Ne.symm hne)

/-- Booking one refund leaves the others alone. -/
theorem apartFrom_of_booking {payment : Payment} {id : Id} (hne : id ≠ refundId)
    (hp : Posted (QuietPosting payment refundId) L L') (hg : Grows (Ref.ofBooking refundId) L L') :
    Extends (ApartFrom L id) L L' := by
  refine (hp.extends.and hg).mono ?_
  rintro m ⟨⟨p, hq, -, hi⟩, hr⟩
  refine ⟨?_, ?_, fun r _ he => ?_, fun j _ he => ?_⟩
  · rw [hi]
    exact hq.unmoved
  · rcases hr with hd | hr
    · exact Ref.ofRefund_of_deposit hd
    · exact Ref.ofRefund_ne hne hr
  · exact Ref.not_ofBooking_failed refundId r (he ▸ hr)
  · exact Ref.not_ofBooking_cancel refundId j.id (he ▸ hr)

/-- Taking one refund back leaves the others alone. -/
theorem apartFrom_of_unapply (hk : WellKept L) {id : Id} (hne : id ≠ refundId)
    (hx : Extends (UnapplyJournal refundId (refundJournals L refundId)) L L') : Extends (ApartFrom L id) L L' := by
  refine hx.mono ?_
  rintro m (hm | ⟨p, hp, hr, hi⟩)
  · obtain ⟨j, hj, hu⟩ := hm.under
    obtain ⟨hjL, hjr⟩ := mem_refundJournals.1 hj
    have hjo := Ref.ofRefund_ne hne hjr
    rcases mem_takenBackUnder hu with he | ⟨-, he⟩
    · refine ⟨hm.unmoved, by rw [he]; rfl, fun r hr hf => ?_, fun j' _ hc => ?_⟩
      · obtain rfl := Ref.failed.inj (he.symm.trans hf)
        rw [hjo] at hr
        cases hr
      · cases he.symm.trans hc
    · refine ⟨hm.unmoved, by rw [he]; rfl, fun r hr hf => ?_, fun j' hj' hc => ?_⟩
      · cases he.symm.trans hf
      · obtain ⟨hjL', hjr'⟩ := mem_refundJournals.1 hj'
        rw [← hk.eq_of_id hjL hjL' (Ref.earningReversal.inj (he.symm.trans hc)), hjo] at hjr'
        cases hjr'
  · have hd : m.ref.isDeposit = true := by
      rw [hr]
      exact hp.ref
    refine ⟨by rw [hi]; exact hp.unmoved, Ref.ofRefund_of_deposit hd, fun r _ he => ?_, fun j _ he => ?_⟩
    · rw [he] at hd
      cases hd
    · rw [he] at hd
      cases hd

/-- Booking and taking back move no earning, and cancel only what was written. -/
theorem MovesNamed.extends (h : MovesNamed L) (hx : Extends (fun m => m.info.event.isMove = false) L L')
    (hc : ∀ id, L'.has (.earningReversal id) = true → L.has (.earningReversal id) = true ∨ id < L.length) :
    MovesNamed L' := by
  have hlen : L.length ≤ L'.length := by
    obtain ⟨C, rfl, -⟩ := hx
    rw [List.length_append]
    omega
  refine ⟨fun j hj hmove id hs => ?_, fun id hid => ?_⟩
  · rcases hx.mem_or hj with hj | hj
    · have := h.moves j hj hmove id hs
      omega
    · rw [hj] at hmove
      cases hmove
  · rcases hc id hid with hid | hid
    · have := h.cancels id hid
      omega
    · omega

end

/-! ## What a refund's journal puts where -/

/-- Accounts that are none of those a refund unwinds. -/
structure Beside (r : AccountKey → Bool) : Prop where
  unwound : ∀ k, k.category.isUnwound = true → r k = false
  receivable : ∀ k, k.category = .receivable → r k = false
  loss : ∀ k, k.category = .loss → r k = false

theorem beside_onCategory {c : Category} (h : c.isUnwound = false) (hr : c ≠ .receivable) (hl : c ≠ .loss) :
    Beside (onCategory c) := by
  refine ⟨fun k hk => ?_, fun k hk => ?_, fun k hk => ?_⟩ <;> refine decide_eq_false fun he => ?_
  · rw [he, h] at hk
    cases hk
  · exact hr (he.symm.trans hk)
  · exact hl (he.symm.trans hk)

theorem beside_onCash : Beside onCash := by
  refine ⟨fun k hk => Category.not_isCash hk, fun k hk => ?_, fun k hk => ?_⟩ <;>
  · show k.category.isCash = false
    rw [hk]
    rfl

theorem Beside.keyed {r : AccountKey → Bool} (h : Beside r) (db : Db) (refund original : Payment) (unapplied : Bool) :
    ClientBridge.keyed r (refundPosting db refund original unapplied).legs =
      (if r ⟨.business, cashCategory original, .plain⟩ then -refund.amountCents else 0) +
        if r ⟨.business, .staffCost, .plain⟩ then tipReturned db original refund.amountCents refund.id else 0 := by
  obtain ⟨zs, hlegs, hzs⟩ := refundLegs_split db original refund.amountCents refund.id unapplied
  have hz : ClientBridge.keyed r zs = 0 := by
    refine sumOf_eq_zero fun e he hr => ?_
    have hout : r e.key = false := by
      rcases hzs e he with hu | hu | ⟨-, hu⟩
      · exact h.unwound _ hu
      · exact h.loss _ hu
      · exact h.receivable _ hu
    rw [hout] at hr
    cases hr
  show ClientBridge.keyed r (leg .business (cashCategory original) (-refund.amountCents) ::
    refundLegs db original refund.amountCents refund.id unapplied) = _
  rw [hlegs, keyed_refund, hz]
  omega

/-! ## Shares -/

theorem onCategory_cash (payment : Payment) {c : Category} (hc : c.isCash = false) :
    ¬onCategory c ⟨.business, cashCategory payment, .plain⟩ = true := by
  intro h
  have he : cashCategory payment = c := of_decide_eq_true h
  have hcash := cashCategory_isCash payment
  rw [he, hc] at hcash
  cases hcash

/-- Members who are named once are all paid. -/
theorem sum_postedShares {shares : List (Id × Int)} {taken : Id → Bool} (hn : (shares.map (·.1)).Nodup)
    (h0 : ∀ s ∈ shares, 0 ≤ s.2) (ht : ∀ s ∈ shares, taken s.1 = false) :
    ((postedShares taken shares).map (·.2)).sum = (shares.map (·.2)).sum := by
  induction shares generalizing taken with
  | nil => rfl
  | cons s shares ih =>
    rw [List.map_cons, List.nodup_cons] at hn
    have hrest : ∀ s' ∈ shares, 0 ≤ s'.2 := fun s' hs' => h0 s' (List.mem_cons_of_mem _ hs')
    have hs := h0 s List.mem_cons_self
    rw [postedShares, ht s List.mem_cons_self, Bool.or_false]
    split
    · next hz =>
      have hle := of_decide_eq_true hz
      rw [ih hn.2 hrest fun s' hs' => ht s' (List.mem_cons_of_mem _ hs'), List.map_cons, List.sum_cons]
      omega
    · rw [List.map_cons, List.sum_cons, List.map_cons, List.sum_cons, ih hn.2 hrest]
      intro s' hs'
      have hne : s'.1 ≠ s.1 := fun he => hn.1 (he ▸ List.mem_map_of_mem hs')
      rw [ht s' (List.mem_cons_of_mem _ hs'), decide_eq_false hne]
      rfl

theorem sum_tipEffect_payable (sign : Int) (shares : List (Id × Int)) :
    (shares.map (tipEffect (onCategory .payable) sign)).sum = -sign * (shares.map (·.2)).sum := by
  induction shares with
  | nil => simp
  | cons s shares ih =>
    rw [List.map_cons, List.sum_cons, List.map_cons, List.sum_cons, ih, mul_add]
    refine congrArg (· + _) ?_
    simp [tipEffect, onCategory, leg, legOf]

/-- What a refund takes back from members who are named once is the tip it returns, if it returns any. -/
theorem sum_returnedShares {payment : Payment} (ht : 0 < payment.tip.cents)
    (hn : (payment.tip.split.map (·.1)).Nodup) (tip : Int) :
    ((returnedShares payment tip).map (·.2)).sum = max 0 tip := by
  have hw : 0 < (payment.tip.split.map (·.2)).sum := by
    rw [payment.tip.split_sum]
    exact ht
  have hlen : (payment.tip.split.map (·.1)).length = (allocate tip (payment.tip.split.map (·.2))).length := by
    rw [length_allocate, List.length_map, List.length_map]
  unfold returnedShares
  split
  · next h0 =>
    rw [max_eq_right h0.le, sum_postedShares ?_ (fun s hs => ?_) fun _ _ => rfl]
    · rw [tipsBack, List.map_snd_zip hlen.ge, sum_allocate tip hw]
    · rw [tipsBack, List.map_fst_zip hlen.le]
      exact hn
    · refine allocate_nonneg h0.le (fun w hw => ?_) _ (List.of_mem_zip hs).2
      obtain ⟨s, hs, rfl⟩ := List.mem_map.1 hw
      exact payment.tip.shares_nonneg s hs
  · next h0 =>
    rw [max_eq_left (by omega)]
    rfl

/-! ## Tips of a payment -/

/-- What the journals of a payment or a refund, and those that took them back, put on what staff are owed:
its tips.  It is negative where staff are owed them. -/
def onStaff (L : Ledger) (id : Id) : Int := refundNet L id (onCategory .payable)

/-- The refunds of a payment, whatever became of them. -/
def refundsOf (db : Db) (payment : Payment) : List Payment :=
  db.payments.filter fun q => decide (q.kind = .refund ∧ q.parentPaymentId = some payment.id)

/-- The tip taken back from all staff. -/
def tipsTaken (db : Db) (payment : Payment) : Int := ((refundsOf db payment).map fun q => onStaff db.ledger q.id).sum

/-- What the tip journals leave staff with. -/
def tipsToStaff (db : Db) (payment : Payment) : Int := -(onStaff db.ledger payment.id + tipsTaken db payment)

/-- What the live refunds returned of the tip, each that returned some. -/
def tipParts (db : Db) (payment : Payment) : Int :=
  ((db.liveRefunds payment.id).map fun q => max 0 (returnedOn db.ledger q.id (onCategory .staffCost))).sum

/-- Staff are left with the tip less what the live refunds returned of it on the business's side, and give
back the tip at most. -/
structure TipsExact (payment : Payment) (db : Db) : Prop where
  passed : tipsToStaff db payment = payment.tip.cents - unwoundOn db payment (onCategory .staffCost)
  bounded : tipsTaken db payment ≤ payment.tip.cents

/-- A refund of the payment that is booked, or a booked one that Stripe failed. -/
inductive TipStep (payment : Payment) (db : Db) : RefundAction → Db → Prop
  | refund {row db'} (hid : FreshRefund db row.id) (hu : Unbooked db.ledger row.id) (hk : row.kind = .refund)
      (hparent : row.parentPaymentId = some payment.id) (hs : row.status = .succeeded) (hpos : 0 < row.amountCents)
      (h : applyRefund (db.addPayment row) row payment = .ok db') : TipStep payment db (.refund row) db'
  | fail {row status db'} (hlive : row ∈ db.liveRefunds payment.id) (hs : status.isFailure = true)
      (h : unapplyRefund (db.setStatus row.id status) (row.withStatus status) payment = .ok db') :
      TipStep payment db (.fail row) db'

/-- The live refunds returned no more of the tip than is due with this one. -/
def TipFits (db : Db) (payment row : Payment) : Prop :=
  unwoundOn db payment (onCategory .staffCost) ≤
    tipDone payment (min payment.amountCents (liveTotal db payment + row.amountCents))

def FittingTipStep (payment : Payment) (db : Db) (a : RefundAction) (db' : Db) : Prop :=
  TipStep payment db a db' ∧ ∀ row, a = .refund row → TipFits db payment row

/-- A payment that is settled for the first time, and has no refund. -/
structure TipStart (payment : Payment) (db₀ db : Db) : Prop where
  kept : WellKept db₀.ledger
  moves : MovesNamed db₀.ledger
  unbooked : Unbooked db₀.ledger payment.id
  row : payment ∈ db₀.payments
  unrefunded : refundsOf db₀ payment = []
  settled : postPayment db₀ payment = .ok db

/-- What a live refund put where. -/
structure TipBack (db : Db) (payment q : Payment) : Prop where
  booked : JustBooked db.ledger q.id (payment.tip.split.map (·.1))
  cash : returnedOn db.ledger q.id onCash = -q.amountCents
  tip : onStaff db.ledger q.id = max 0 (returnedOn db.ledger q.id (onCategory .staffCost))

structure TipsKept (payment : Payment) (db : Db) : Prop where
  kept : WellKept db.ledger
  moves : MovesNamed db.ledger
  row : ∃ q ∈ db.payments, q.id = payment.id
  nodup : ((refundsOf db payment).map (·.id)).Nodup
  apart : ∀ q ∈ refundsOf db payment, q.id ≠ payment.id
  own : onStaff db.ledger payment.id = -payment.tip.cents
  live : ∀ q ∈ db.liveRefunds payment.id, TipBack db payment q
  dead : ∀ q ∈ refundsOf db payment, q.status ≠ .succeeded → onStaff db.ledger q.id = 0

section
variable {payment : Payment} {db : Db}

theorem mem_refundsOf {q : Payment} : q ∈ refundsOf db payment ↔
    q ∈ db.payments ∧ q.kind = .refund ∧ q.parentPaymentId = some payment.id := by
  simp [refundsOf]

theorem liveRefunds_eq : db.liveRefunds payment.id =
    (refundsOf db payment).filter fun q => decide (q.status = .succeeded) := by
  rw [refundsOf, List.filter_filter]
  refine List.filter_congr fun q _ => ?_
  rw [← Bool.decide_and]
  exact decide_eq_decide.2 ⟨fun h => ⟨h.2.2, h.1, h.2.1⟩, fun h => ⟨h.2.1, h.2.2, h.1⟩⟩

theorem mem_refundsOf_of_live {q : Payment} (hq : q ∈ db.liveRefunds payment.id) : q ∈ refundsOf db payment := by
  rw [liveRefunds_eq] at hq
  exact (List.mem_filter.1 hq).1

theorem sum_filter_of_zero {α : Type} {f : α → Int} {p : α → Bool} (xs : List α)
    (h : ∀ x ∈ xs, p x = false → f x = 0) : ((xs.filter p).map f).sum = (xs.map f).sum := by
  induction xs with
  | nil => rfl
  | cons x xs ih =>
    have ih := ih fun y hy => h y (List.mem_cons_of_mem _ hy)
    cases hp : p x with
    | true => rw [List.filter_cons_of_pos hp, List.map_cons, List.sum_cons, List.map_cons, List.sum_cons, ih]
    | false =>
      rw [List.filter_cons_of_neg (by simp [hp]), List.map_cons, List.sum_cons, ih, h x List.mem_cons_self hp]
      omega

theorem TipsKept.taken (h : TipsKept payment db) : tipsTaken db payment = tipParts db payment := by
  have hlive : ((db.liveRefunds payment.id).map fun q => onStaff db.ledger q.id).sum = tipsTaken db payment := by
    rw [liveRefunds_eq]
    exact sum_filter_of_zero _ fun q hq hs => h.dead q hq (of_decide_eq_false hs)
  rw [← hlive, tipParts]
  exact congrArg List.sum (List.map_congr_left fun q hq => (h.live q hq).tip)

theorem TipsKept.toStaff (h : TipsKept payment db) :
    tipsToStaff db payment = payment.tip.cents - tipParts db payment := by
  rw [tipsToStaff, h.own, h.taken]
  omega

/-! ## A refund is booked -/

theorem returnedOn_of_deposit {L L' : Ledger} (h : Posted DepositPosting L L') (id : Id) (r : AccountKey → Bool) :
    returnedOn L' id r = returnedOn L id r := by
  refine returnedOn_of_extends h.extends ?_ r
  rintro j ⟨p, hp, -, hi⟩ he
  rw [hi] at he
  exact absurd he hp.other

/-- A returned application fee is on no payable, and no refund journal. -/
theorem postFeeReturn_extends {refundId : Id} {L' : Ledger} (h : postFeeReturn db payment refundId = .ok (db.withLedger L')) :
    Extends (fun m => m.info.event = .fee ∧ ∀ e ∈ m.legs, e.key.category ≠ .payable) db.ledger L' := by
  simp only [postFeeReturn] at h
  split at h
  · have hL : L' = db.ledger := congrArg Db.ledger (Except.ok.inj h).symm
    rw [hL]
    exact Extends.refl _ _
  · obtain ⟨L₁, h₁, h⟩ := bind_ok h
    obtain rfl : L₁ = L' := congrArg Db.ledger (Except.ok.inj h)
    obtain ⟨rfl, -⟩ := post_ok h₁
    refine extends_write _ _ _ _ fun _ => ⟨rfl, fun e he => ?_⟩
    obtain ⟨l, hl, rfl⟩ := mem_written he
    revert l
    simp [feeReturnPosting, leg]

section
variable {row : Payment} (hk : row.kind = .refund) (hparent : row.parentPaymentId = some payment.id)
include hk hparent

theorem refundsOf_addPayment : refundsOf (db.addPayment row) payment = refundsOf db payment ++ [row] := by
  simp [refundsOf, Db.addPayment, List.filter_append, hk, hparent]

/-- The tip a refund returns makes up what is due with it. -/
theorem TipsKept.returnsDue (h : TipsKept payment db) (hs : row.status = .succeeded) (ht : 0 < payment.tip.cents)
    (hid : FreshRefund db row.id) {L₁ : Ledger} (hsame : ∀ id r, returnedOn L₁ id r = returnedOn db.ledger id r) :
    tipReturned ((db.addPayment row).withLedger L₁) payment row.amountCents row.id =
      tipDone payment (min payment.amountCents (liveTotal db payment + row.amountCents)) -
        unwoundOn db payment (onCategory .staffCost) := by
  have hnodup : ((db.liveRefunds payment.id).map (·.id)).Nodup := by
    rw [liveRefunds_eq]
    exact h.nodup.sublist (List.filter_sublist.map _)
  have hsum : ∀ r, L₁.sum (fun j e => (decide (j.info.event = .refund) &&
      fromPayments ((db.liveRefunds payment.id).map (·.id)) j) && r e.key) =
        ((db.liveRefunds payment.id).map fun q => returnedOn db.ledger q.id r).sum := by
    intro r
    rw [sum_fromPayments L₁ hnodup r, List.map_map]
    exact congrArg List.sum (List.map_congr_left fun q _ => hsame q.id r)
  have hcash : ((db.liveRefunds payment.id).map fun q => returnedOn db.ledger q.id onCash).sum = -liveTotal db payment := by
    rw [List.map_congr_left fun q hq => (h.live q hq).cash, liveTotal, List.sum_neg, List.map_map]
    rfl
  have hearlier : earlierRefunds ((db.addPayment row).withLedger L₁) payment row.id =
      (db.liveRefunds payment.id).map (·.id) := earlierRefunds_addPayment hid hk hparent hs
  have hc := hsum onCash
  have hp := hsum (onCategory .staffCost)
  rw [hcash] at hc
  simp only [tipReturned, if_neg (not_le.2 ht), hearlier, Db.ledger_withLedger]
  unfold onCash at hc
  unfold onCategory at hp
  rw [hc, hp, Int.neg_neg]
  rfl

end

theorem onStaff_of_extends {L L' : Ledger} {id : Id} (h : Extends (ApartFrom L id) L L') : onStaff L' id = onStaff L id :=
  refundNet_of_extends h _

/-- Staff give back the tip that the refund journal returns on the business's side, if it returns any. -/
theorem onStaff_applyRefund {row : Payment} {L₁ L₂ L₃ : Ledger} {unapplied : Bool} (ht : 0 < payment.tip.cents)
    (hn : (payment.tip.split.map (·.1)).Nodup) (hu : Unbooked db.ledger row.id)
    (h₁ : Posted DepositPosting db.ledger L₁)
    (h₂ : postRefund ((db.addPayment row).withLedger L₁) row payment unapplied = .ok ((db.addPayment row).withLedger L₂))
    (hfee : Extends (fun m => m.info.event = .fee ∧ ∀ e ∈ m.legs, e.key.category ≠ .payable) L₂ L₃)
    (hbooked : JustBooked L₃ row.id (payment.tip.split.map (·.1))) :
    onStaff L₃ row.id = max 0 (tipReturned ((db.addPayment row).withLedger L₁) payment row.amountCents row.id) := by
  have hnew : ∀ r : Ref, r.ofRefund row.id = true → L₁.has r = false := by
    intro r hr
    rw [(DepositPosting.grows h₁).has_eq fun hd => ?_]
    · exact (hu r hr).1
    · rw [Ref.ofRefund_of_deposit hd] at hr
      cases hr
  have hrefs : ∀ r, isRefundRef row.id r → r.ofRefund row.id = true := by
    rintro r (rfl | ⟨s, rfl⟩) <;> simp [Ref.ofRefund]
  have hnet : onStaff L₃ row.id = onAccounts L₃ (Ref.ofRefund row.id) (onCategory .payable) :=
    onAccounts_among hbooked.untaken _
  have hfee0 : onAccounts L₃ (Ref.ofRefund row.id) (onCategory .payable) =
      onAccounts L₂ (Ref.ofRefund row.id) (onCategory .payable) := by
    refine hfee.sum_eq fun j hj e hej => ?_
    rw [show onCategory .payable e.key = false from decide_eq_false (hj.2 e hej), Bool.and_false]
  have hnone : keyed (onCategory .payable)
      (refundPosting ((db.addPayment row).withLedger L₁) row payment unapplied).legs = 0 := by
    rw [(beside_onCategory (by decide) (by decide) (by decide)).keyed, if_neg (onCategory_cash payment rfl),
      if_neg (by decide)]
    rfl
  have hlegs : tipOf (refundLegs ((db.addPayment row).withLedger L₁) payment row.amountCents row.id unapplied) =
      tipReturned ((db.addPayment row).withLedger L₁) payment row.amountCents row.id := by
    obtain ⟨zs, hz, hzs⟩ := refundLegs_split ((db.addPayment row).withLedger L₁) payment row.amountCents row.id unapplied
    rw [hz, tipOf, sumOf_append, sumOf_eq_zero fun e he hc => ?_]
    · unfold tipLegs
      split
      · next hzero => simp [hzero]
      · simp [leg]
    · have hc : e.key.category = .staffCost := of_decide_eq_true hc
      rcases hzs e he with hc' | hc' | ⟨-, hc'⟩ <;> rw [hc] at hc' <;> cases hc'
  have hpost := onAccounts_postRefund h₂ hrefs (fun r hr => hnew r (hrefs r hr)) (onCategory .payable)
  simp only [Db.ledger_withLedger] at hpost
  rw [hnet, hfee0, hpost, onAccounts_eq_zero hnew, hnone, hlegs, sum_tipEffect_payable,
    sum_returnedShares ht hn]
  omega

/-- What booking a refund leaves. -/
structure BookedRefund (db : Db) (payment row : Payment) (L : Ledger) : Prop where
  posted : Posted (QuietPosting payment row.id) db.ledger L
  grows : Grows (Ref.ofBooking row.id) db.ledger L
  others : ∀ id r, id ≠ row.id → returnedOn L id r = returnedOn db.ledger id r
  own : TipBack ((db.addPayment row).withLedger L) payment row
  due : returnedOn L row.id (onCategory .staffCost) =
    tipDone payment (min payment.amountCents (liveTotal db payment + row.amountCents)) -
      unwoundOn db payment (onCategory .staffCost)

/-- A refund takes its tip back from staff, and leaves the others alone. -/
theorem TipsKept.books (h : TipsKept payment db) (ht : 0 < payment.tip.cents)
    (hn : (payment.tip.split.map (·.1)).Nodup) {row : Payment} {db' : Db} (hid : FreshRefund db row.id)
    (hu : Unbooked db.ledger row.id) (hk : row.kind = .refund) (hparent : row.parentPaymentId = some payment.id)
    (hs : row.status = .succeeded) (hb : applyRefund (db.addPayment row) row payment = .ok db') :
    ∃ L, db' = (db.addPayment row).withLedger L ∧ BookedRefund db payment row L := by
  obtain ⟨L₁, L₂, L₃, h₁, h₂, h₃, he⟩ := @applyRefund_split (db.addPayment row) row payment h.kept
  refine ⟨L₃, (Except.ok.inj (he.symm.trans hb)).symm, ?_⟩
  obtain ⟨hp, hg, -⟩ := applyRefund_posted h₁ h₂ h₃
  have hbooked : JustBooked L₃ row.id (payment.tip.split.map (·.1)) := justBooked_of_posted h.kept h.moves hu hp hg
  have hfee : Extends (fun m => m.info.event = .fee ∧ ∀ e ∈ m.legs, e.key.category ≠ .payable) L₂ L₃ := by
    rcases h₃ with rfl | h₃
    · exact Extends.refl _ _
    · exact postFeeReturn_extends h₃
  have hfresh : FreshRefund (db.withLedger L₁) row.id := by
    refine ⟨hid.row, fun r hr => ?_, fun j hj => ?_⟩
    · rw [Db.ledger_withLedger, (DepositPosting.grows h₁).has_eq fun hd => ?_]
      · exact hid.refs r hr
      · rcases hr with rfl | ⟨s, rfl⟩ <;> cases hd
    · rcases h₁.extends.mem_or hj with hj | ⟨p, hq, -, hi⟩
      · exact hid.source j hj
      · rw [hi]
        exact hq.source row.id
  have hpost : postRefund ((db.withLedger L₁).addPayment row) row payment (row.reason = some .unapplied) =
      .ok ((db.addPayment row).withLedger L₂) := h₂
  have hret : ∀ id r, returnedOn L₃ id r = returnedOn L₂ id r := fun id r =>
    returnedOn_of_extends hfee (fun j hj he => by rw [hj.1] at he; cases he) r
  have hown : ∀ r, returnedOn L₃ row.id r =
      keyed r (refundPosting ((db.addPayment row).withLedger L₁) row payment (row.reason = some .unapplied)).legs :=
    fun r => (hret row.id r).trans (returnedOn_postRefund hpost hfresh r)
  have htip := h.returnsDue hk hparent hs ht hid (returnedOn_of_deposit h₁)
  have hcost : returnedOn L₃ row.id (onCategory .staffCost) =
      tipReturned ((db.addPayment row).withLedger L₁) payment row.amountCents row.id := by
    rw [hown, (beside_onCategory (by decide) (by decide) (by decide)).keyed, if_neg (onCategory_cash payment rfl),
      if_pos (by decide)]
    omega
  have hstaff := onStaff_applyRefund ht hn hu h₁ h₂ hfee hbooked
  refine ⟨hp, hg, fun id r hne => ?_, ⟨hbooked, ?_, ?_⟩, hcost.trans htip⟩
  · have hother := returnedOn_postRefund_of_ne hpost hne r
    exact (hret id r).trans (hother.trans (returnedOn_of_deposit h₁ id r))
  · have hin : onCash ⟨.business, cashCategory payment, .plain⟩ = true := cashCategory_isCash payment
    rw [Db.ledger_withLedger, hown, beside_onCash.keyed, if_pos hin, if_neg (by decide)]
    omega
  · rw [Db.ledger_withLedger, hcost]
    exact hstaff

theorem TipBack.extends {q : Payment} {db' : Db} (h : TipBack db payment q) (hk : WellKept db'.ledger)
    (hx : Extends (ApartFrom db.ledger q.id) db.ledger db'.ledger)
    (hr : ∀ r, returnedOn db'.ledger q.id r = returnedOn db.ledger q.id r) : TipBack db' payment q := by
  refine ⟨h.booked.extends hk hx, (hr _).trans h.cash, ?_⟩
  rw [onStaff_of_extends hx, hr]
  exact h.tip

theorem TipsKept.refund (h : TipsKept payment db) (ht : 0 < payment.tip.cents)
    (hn : (payment.tip.split.map (·.1)).Nodup) {row : Payment} {db' : Db} (hid : FreshRefund db row.id)
    (hu : Unbooked db.ledger row.id) (hk : row.kind = .refund) (hparent : row.parentPaymentId = some payment.id)
    (hs : row.status = .succeeded) (hb : applyRefund (db.addPayment row) row payment = .ok db') : TipsKept payment db' := by
  obtain ⟨L, rfl, hL⟩ := h.books ht hn hid hu hk hparent hs hb
  have hkept : WellKept L := hL.posted.kept h.kept
  have hothers : ∀ id, id ≠ row.id → Extends (ApartFrom db.ledger id) db.ledger L := fun id hne =>
    apartFrom_of_booking hne hL.posted hL.grows
  have hlive : ((db.addPayment row).withLedger L).liveRefunds payment.id = db.liveRefunds payment.id ++ [row] :=
    liveRefunds_addPayment hk hparent hs
  have hrows : refundsOf ((db.addPayment row).withLedger L) payment = refundsOf db payment ++ [row] :=
    refundsOf_addPayment hk hparent
  have hfresh : ∀ q ∈ refundsOf db payment, q.id ≠ row.id := fun q hq => hid.row q (mem_refundsOf.1 hq).1
  have hpay : payment.id ≠ row.id := by
    obtain ⟨q, hq, hqid⟩ := h.row
    exact hqid ▸ hid.row q hq
  refine ⟨hkept, ?_, ?_, ?_, ?_, ?_, ?_, ?_⟩
  · refine h.moves.extends (hL.posted.extends.mono ?_) fun id hhas => .inl ?_
    · rintro m ⟨p, hq, -, hi⟩
      rw [hi]
      exact hq.unmoved
    · exact (hL.grows.has_eq (Ref.not_ofBooking_cancel row.id id)).symm.trans hhas
  · obtain ⟨q, hq, hqid⟩ := h.row
    exact ⟨q, List.mem_append_left _ hq, hqid⟩
  · rw [hrows, List.map_append, List.nodup_append]
    refine ⟨h.nodup, by simp, fun a ha b hb hab => ?_⟩
    obtain ⟨q, hq, rfl⟩ := List.mem_map.1 ha
    rw [List.map_cons, List.map_nil, List.mem_singleton] at hb
    exact hfresh q hq (hab.trans hb)
  · intro q hq
    rw [hrows, List.mem_append, List.mem_singleton] at hq
    rcases hq with hq | rfl
    · exact h.apart q hq
    · exact hpay.symm
  · exact (onStaff_of_extends (hothers payment.id hpay)).trans h.own
  · intro q hq
    rw [hlive, List.mem_append, List.mem_singleton] at hq
    rcases hq with hq | rfl
    · have hne := hfresh q (mem_refundsOf_of_live hq)
      exact (h.live q hq).extends hkept (hothers q.id hne) fun r => hL.others q.id r hne
    · exact hL.own
  · intro q hq hdead
    rw [hrows, List.mem_append, List.mem_singleton] at hq
    rcases hq with hq | rfl
    · exact (onStaff_of_extends (hothers q.id (hfresh q hq))).trans (h.dead q hq hdead)
    · exact absurd hs hdead

/-! ## A refund fails -/

theorem refundsOf_setStatus (id : Id) (status : PaymentStatus) :
    refundsOf (db.setStatus id status) payment =
      (refundsOf db payment).map fun q => if q.id = id then q.withStatus status else q := by
  unfold refundsOf Db.setStatus
  rw [List.filter_map]
  refine congrArg (List.map _) (List.filter_congr fun q _ => ?_)
  by_cases hq : q.id = id <;> simp [hq, Payment.withStatus]

theorem mem_refundsOf_setStatus {id : Id} {status : PaymentStatus} {q' : Payment}
    (hq : q' ∈ refundsOf (db.setStatus id status) payment) :
    ∃ q ∈ refundsOf db payment, q'.id = q.id ∧ (q.id = id ∧ q'.status = status ∨ q.id ≠ id ∧ q' = q) := by
  rw [refundsOf_setStatus] at hq
  obtain ⟨q, hq₀, rfl⟩ := List.mem_map.1 hq
  refine ⟨q, hq₀, ?_⟩
  by_cases hid : q.id = id
  · rw [if_pos hid]
    exact ⟨rfl, .inl ⟨hid, rfl⟩⟩
  · rw [if_neg hid]
    exact ⟨rfl, .inr ⟨hid, rfl⟩⟩

theorem mem_live_setStatus {id : Id} {status : PaymentStatus} (hs : status ≠ .succeeded) {q : Payment}
    (hq : q ∈ (db.setStatus id status).liveRefunds payment.id) : q ∈ db.liveRefunds payment.id ∧ q.id ≠ id := by
  rw [liveRefunds_eq] at hq ⊢
  obtain ⟨hq, hlive⟩ := List.mem_filter.1 hq
  obtain ⟨q₀, hq₀, -, ⟨-, hst⟩ | ⟨hne, rfl⟩⟩ := mem_refundsOf_setStatus hq
  · rw [hst] at hlive
    exact absurd (of_decide_eq_true hlive) hs
  · exact ⟨List.mem_filter.2 ⟨hq₀, hlive⟩, hne⟩

/-- Taking a refund back cancels only what was written, and is no other refund's journal. -/
theorem unapply_writes {L L' : Ledger} {refundId : Id} (hk : WellKept L)
    (hx : Extends (UnapplyJournal refundId (refundJournals L refundId)) L L') :
    Extends (fun m => m.info.event.isMove = false) L L' ∧
      (∀ id, L'.has (.earningReversal id) = true → L.has (.earningReversal id) = true ∨ id < L.length) ∧
      ∀ id r, id ≠ refundId → returnedOn L' id r = returnedOn L id r := by
  refine ⟨hx.mono ?_, fun id hhas => ?_, fun id r hne => returnedOn_of_extends hx ?_ r⟩
  · rintro m (hm | ⟨p, hp, -, hi⟩)
    · exact hm.unmoved
    · rw [hi]
      exact hp.unmoved
  · obtain ⟨m, hm, hr⟩ := (L'.has_iff _).1 hhas
    rcases hx.mem_or hm with hm | hm | ⟨p, hp, hpr, -⟩
    · exact .inl ((L.has_iff _).2 ⟨m, hm, hr⟩)
    · obtain ⟨j, hj, hu⟩ := hm.under
      rw [hr] at hu
      rcases mem_takenBackUnder hu with he | ⟨-, he⟩
      · cases he
      · obtain ⟨n, hn⟩ := List.mem_iff_getElem?.1 (mem_refundJournals.1 hj).1
        have hlt := (List.getElem?_eq_some_iff.1 hn).1
        rw [Ref.earningReversal.inj he, hk.numbered n j hn]
        exact .inr hlt
    · have hd := hp.ref
      rw [← hpr, hr] at hd
      cases hd
  · rintro m (hm | ⟨p, hp, -, hi⟩) he
    · rw [hm.source he]
      simpa using Ne.symm hne
    · rw [hi] at he
      exact absurd he hp.other

theorem isFailure_ne {status : PaymentStatus} (h : status.isFailure = true) : status ≠ .succeeded := by
  rintro rfl
  cases h

/-- A live refund that fails leaves nothing with staff, and the others alone. -/
theorem TipsKept.fail (h : TipsKept payment db) {row : Payment} {status : PaymentStatus} {db' : Db}
    (hlive : row ∈ db.liveRefunds payment.id) (hs : status.isFailure = true)
    (hb : unapplyRefund (db.setStatus row.id status) (row.withStatus status) payment = .ok db') :
    TipsKept payment db' := by
  obtain ⟨L, he, hkept, hclear, hx⟩ := @unapplyRefund_clears (db.setStatus row.id status) (row.withStatus status) payment
    (h.live row hlive).booked
  obtain rfl : (db.setStatus row.id status).withLedger L = db' := Except.ok.inj (he.symm.trans hb)
  obtain ⟨hmoves, hcancels, hret⟩ := unapply_writes h.kept hx
  have hothers : ∀ id, id ≠ row.id → Extends (ApartFrom db.ledger id) db.ledger L := fun id hne =>
    apartFrom_of_unapply h.kept hne hx
  have hpay : payment.id ≠ row.id := Ne.symm (h.apart row (mem_refundsOf_of_live hlive))
  refine ⟨hkept, h.moves.extends hmoves hcancels, ?_, ?_, fun q hq => ?_, ?_, fun q hq => ?_, fun q hq hdead => ?_⟩
  · obtain ⟨q, hq, hqid⟩ := h.row
    refine ⟨_, List.mem_map_of_mem hq, ?_⟩
    split
    · exact hqid
    · exact hqid
  · have hids : (refundsOf ((db.setStatus row.id status).withLedger L) payment).map (·.id) =
        (refundsOf db payment).map (·.id) := by
      show (refundsOf (db.setStatus row.id status) payment).map (·.id) = _
      rw [refundsOf_setStatus, List.map_map]
      refine List.map_congr_left fun q _ => ?_
      show (if q.id = row.id then q.withStatus status else q).id = q.id
      split <;> rfl
    rw [hids]
    exact h.nodup
  · obtain ⟨q₀, hq₀, hid, -⟩ := mem_refundsOf_setStatus hq
    rw [hid]
    exact h.apart q₀ hq₀
  · exact (onStaff_of_extends (hothers payment.id hpay)).trans h.own
  · obtain ⟨hq, hne⟩ := mem_live_setStatus (isFailure_ne hs) hq
    exact (h.live q hq).extends hkept (hothers q.id hne) fun r => hret q.id r hne
  · obtain ⟨q₀, hq₀, hid, ⟨hrow, -⟩ | ⟨hne, rfl⟩⟩ := mem_refundsOf_setStatus hq
    · show refundNet L q.id _ = 0
      rw [hid, hrow]
      exact hclear _
    · exact (onStaff_of_extends (hothers q.id hne)).trans (h.dead q hq₀ hdead)

end

end ClientBridge
