import ClientBridge.Ledger.RefundSplits

/-!
# Runs of refunds and of failures of refunds

Any refund of a payment may fail later, and the next ones split themselves by those that are
left, so the last one clears every credit:

    the live refunds make up the payment
      →  they unwound every credit and the tip exactly, and nothing was lost   (refunds_exact)
-/

namespace ClientBridge

open Bookkeeping Apportion Runs

section
variable {original : Payment} {basis : List Leg} {db : Db}

/-! ## A refund keeps the invariant -/

omit db in
theorem credits_of_grows {P : Ref → Prop} {L L' : Ledger} (h : Grows P L L')
    (hP : ¬P (basisRef original)) : credits L' original = credits L original := by
  obtain ⟨C, rfl, hC⟩ := h
  have hnil : C.filter (fun j => decide (j.ref = basisRef original)) = [] := by
    rw [List.filter_eq_nil_iff]
    intro j hj he
    exact hP (of_decide_eq_true he ▸ hC j hj)
  simp only [credits, List.filter_append, hnil, List.append_nil]

omit db in
theorem basisRef_cases (original : Payment) : (∃ id, basisRef original = .invoice id) ∨ basisRef original = .payment original.id := by
  unfold basisRef
  split
  · exact .inl ⟨_, rfl⟩
  · exact .inr rfl

omit db in
theorem lostPayments_of_grows (db : Db) {P : Ref → Prop} {L' : Ledger} (h : Grows P db.ledger L')
    (hP : ∀ r, P r → ∀ id, r ≠ .disputeLost id) :
    lostPayments (db.withLedger L') original = lostPayments db original := by
  obtain ⟨C, hC, hP'⟩ := h
  have hnone : ∀ id, C.any (fun j => lostJournal j && decide (j.info.source = some (.payment id))) = false := by
    intro id
    rw [List.any_eq_false]
    intro j hj
    rw [lostJournal_false (hP _ (hP' j hj))]
    simp
  simp only [lostPayments, Db.payments_withLedger, Db.ledger_withLedger, hC, List.any_append, hnone,
    Bool.or_false]

section
variable {row : Payment} {db' : Db} {unapplied : Bool} (h : postRefund (db.addPayment row) row original unapplied = .ok db')
include h

/-- A refund writes its journal, and tip journals of its own. -/
theorem postRefund_extends : ∃ L' subject, db' = (db.addPayment row).withLedger L' ∧
    Grows (isRefundRef row.id) db.ledger L' ∧ Extends (isTipJournal row.id subject)
      (db.ledger.write (.refund row.id) (refundPosting (db.addPayment row) row original unapplied).info
        (refundPosting (db.addPayment row) row original unapplied).written) L' := by
  obtain ⟨L', he, hg⟩ := postRefund_grows (db.addPayment row) row original unapplied
  rw [he] at h
  cases h
  refine ⟨L', (settlement (db.addPayment row) original).1, rfl, hg, ?_⟩
  rw [postRefund_eq] at he
  have hL := congrArg Db.ledger (Except.ok.inj he)
  simp only [Db.ledger_withLedger] at hL
  rw [← hL]
  split
  · exact extends_writeTips _ _ _ _ _ _ _
  · exact Extends.refl _ _

/-- Another refund's part stays what it was. -/
theorem returnedOn_postRefund_of_ne {id : Id} (hne : id ≠ row.id) (r : AccountKey → Bool) :
    returnedOn db'.ledger id r = returnedOn db.ledger id r := by
  obtain ⟨L', subject, rfl, -, hx⟩ := postRefund_extends h
  have hw := extends_write (P := fun j : LedgerJournal => j.info.source = some (.payment row.id)) db.ledger
    (.refund row.id) (refundPosting (db.addPayment row) row original unapplied).info
    (refundPosting (db.addPayment row) row original unapplied).written fun _ => rfl
  refine returnedOn_of_extends (hw.trans (hx.mono fun j hj => hj.1)) (fun j hj _ => ?_) r
  rw [hj]
  simpa using Ne.symm hne

/-- The refund's own part is what its journal's legs are. -/
theorem returnedOn_postRefund (hid : FreshRefund db row.id) (r : AccountKey → Bool) :
    returnedOn db'.ledger row.id r = keyed r (refundPosting (db.addPayment row) row original unapplied).legs := by
  obtain ⟨L', subject, rfl, -, hx⟩ := postRefund_extends h
  have hz : returnedOn db.ledger row.id r = 0 :=
    Book.sum_eq_zero_of_no_journal fun j hj e => by simp [hid.source j hj]
  have hnew := hid.refs (.refund row.id) (.inl rfl)
  have hpost := sum_posted (p := refundPosting (db.addPayment row) row original unapplied) hnew fun j e =>
    (decide (j.info.event = .refund) && decide (j.info.source = some (.payment row.id))) && r e.key
  refine (hx.sum_eq fun j hj e _ => by simp [hj.2.1]).trans (hpost.trans ?_)
  refine (congrArg (· + _) hz).trans ?_
  simp [keyed, refundPosting, Posting.info]

theorem journalOf_postRefund (hid : FreshRefund db row.id) (hpos : 0 < row.amountCents)
    (hs : RefundSplit db original basis row.amountCents
      (refundPosting (db.addPayment row) row original unapplied).legs) : JournalOf db'.ledger row := by
  obtain ⟨L', subject, rfl, -, hx⟩ := postRefund_extends h
  set q := refundPosting (db.addPayment row) row original unapplied with hq
  have hnew := hid.refs (.refund row.id) (.inl rfl)
  have hwritten : q.written ≠ [] := by
    have h0 : row.amountCents ≠ 0 := by omega
    simp [hq, refundPosting, Posting.written, nonzero, h0]
  have hj : (⟨db.ledger.length, .refund row.id, q.info, q.written⟩ : LedgerJournal) ∈
      db.ledger.write (.refund row.id) q.info q.written := by
    rw [Book.write_of_new hnew _ hwritten]
    simp
  refine ⟨_, hx.mem hj, rfl, ?_, ?_, fun e he => ?_⟩
  · rw [net_written]
    exact net_refundPosting _ _ _ _
  · rw [keyed_written]
    exact hs.cash
  · obtain ⟨l, hl, rfl⟩ := mem_written he
    exact hs.lossless l hl

end

theorem JournalOf.mono {L L' : Ledger} {q : Payment} (h : JournalOf L q) (hmem : ∀ j ∈ L, j ∈ L') :
    JournalOf L' q := by
  obtain ⟨j, hj, hrest⟩ := h
  exact ⟨j, hmem j hj, hrest⟩

theorem RefundedInv.refund {row : Payment} {db' : Db} (hinv : RefundedInv original basis db)
    (hbase : -net basis = original.amountCents - original.tip.cents) (hid : FreshRefund db row.id)
    (hk : row.kind = .refund) (hparent : row.parentPaymentId = some original.id)
    (hinvoice : row.invoiceId = original.invoiceId) (hs : row.status = .succeeded)
    (hpos : 0 < row.amountCents) (hroom : liveTotal db original + row.amountCents ≤ original.amountCents)
    (hunspent : Unspent db original) (hfits : FitsNow db original row)
    (h : postRefund (db.addPayment row) row original false = .ok db') : RefundedInv original basis db' := by
  have hsplit := refundSplit hid hk hparent hs hinv hbase hpos hroom hunspent hfits
  have hown := returnedOn_postRefund h hid
  have hother := fun id (hne : id ≠ row.id) => returnedOn_postRefund_of_ne h hne
  have hjournal := journalOf_postRefund h hid hpos hsplit
  obtain ⟨L', subject, rfl, hg, hx⟩ := postRefund_extends h
  have hlive : ((db.addPayment row).withLedger L').liveRefunds original.id = db.liveRefunds original.id ++ [row] :=
    liveRefunds_addPayment hk hparent hs
  have hne : ∀ q ∈ db.liveRefunds original.id, q.id ≠ row.id := fun q hq => hid.row q (mem_liveRefunds.1 hq).1
  have hunwound : ∀ r, unwoundOn ((db.addPayment row).withLedger L') original r =
      unwoundOn db original r + keyed r (refundPosting (db.addPayment row) row original false).legs := by
    intro r
    unfold unwoundOn
    rw [hlive, List.map_append, List.sum_append, List.map_congr_left fun q hq => hother q.id (hne q hq) r,
      List.map_singleton, List.sum_singleton, hown]
  have htotal : liveTotal ((db.addPayment row).withLedger L') original = liveTotal db original + row.amountCents := by
    unfold liveTotal
    rw [hlive]
    simp
  have hpayments : ∀ q ∈ ((db.addPayment row).withLedger L').payments, q ∈ db.payments ∨ q = row := by
    intro q hq
    simpa using hq
  refine ⟨?_, ?_, ?_, ?_, ?_, ?_, ?_, htotal ▸ hroom, fun hw => ⟨fun x hx => ?_, ?_⟩⟩
  · rw [Db.ledger_withLedger, credits_of_grows hg ?_]
    · exact hinv.basis_eq
    · rintro (hr | ⟨s, hr⟩) <;> rcases basisRef_cases original with ⟨id, hb⟩ | hb <;>
        rw [hb] at hr <;> cases hr
  · rw [lostPayments_of_grows (db.addPayment row) hg ?_]
    · have hkept := hinv.kept
      simp only [lostPayments, Db.payments_addPayment, Db.ledger_addPayment, List.filter_append,
        List.map_append, List.append_eq_nil_iff] at hkept ⊢
      exact ⟨hkept, by simp [hk]⟩
    · rintro r (rfl | ⟨s, rfl⟩) id <;> simp
  · intro q hq hqk
    rcases hpayments q hq with hq | rfl
    · exact hinv.invoice q hq hqk
    · exact ⟨fun _ => hinvoice, fun _ _ => hparent⟩
  · rw [hlive, List.map_append, List.nodup_append]
    refine ⟨hinv.nodup, by simp, fun a ha b hb => ?_⟩
    obtain ⟨q, hq, rfl⟩ := List.mem_map.1 ha
    obtain rfl : b = row.id := by simpa using hb
    exact hne q hq
  · intro q hq hqk hqp
    rcases hpayments q hq with hq | rfl
    · exact (hinv.journals q hq hqk hqp).mono fun j hj => hg.mem hj
    · exact hjournal
  · intro q hq
    rw [hlive] at hq
    rcases List.mem_append.1 hq with hq | hq
    · exact hinv.pos q hq
    · rw [List.mem_singleton.1 hq]
      exact hpos
  · intro q hq
    rw [hlive] at hq
    rcases List.mem_append.1 hq with hq | hq
    · have hp := hinv.parts q hq
      have ho := hother q.id (hne q hq)
      exact ⟨(ho _).trans hp.cash, by rw [ho, List.map_congr_left fun key _ => ho (onKey key)]; exact hp.parts,
        fun ht => (ho _).trans (hp.tipless ht)⟩
    · rw [List.mem_singleton.1 hq]
      refine ⟨(hown _).trans hsplit.cash, ?_, fun ht => (hown _).trans ?_⟩
      · rw [hown, List.map_congr_left fun key _ => hown (onKey key)]
        exact hsplit.parts
      · rw [hsplit.tip, tipDone, ht, unwoundOn, List.map_congr_left fun q hq => (hinv.parts q hq).tipless ht]
        simp
  · rw [hunwound]
    exact hsplit.whole (htotal ▸ hw) x hx
  · rw [hunwound, hsplit.tip, ← htotal, hw, tipDone, Int.mul_ediv_cancel _ (by have := hinv.liveTotal_nonneg; omega)]
    omega

/-! ## A failure keeps the invariant -/

/-- The journals that take a refund's journals back. -/
def isFailedRef (refundId : Id) (r : Ref) : Prop :=
  r = .failed (.refund refundId) ∨ ∃ s, r = .failed (.tip refundId s)

omit db in
theorem reverse_extends {L L' : Ledger} {j : LedgerJournal} {ref : Ref} {event : EntryEvent}
    {source : Source} {metadata : Metadata} (h : reverse L j ref event (some source) metadata = .ok L') :
    Extends (fun j => j.ref = ref ∧ j.info.source = some source) L L' := by
  obtain ⟨rfl, -⟩ := post_ok h
  exact extends_write L _ _ _ fun _ => ⟨rfl, rfl⟩

theorem reverseRefund_extends {row : Payment} {db' : Db} (h : reverseRefund db row original = .ok db') :
    ∃ L', db' = db.withLedger L' ∧
      Extends (fun j => isFailedRef row.id j.ref ∧ j.info.source = some (.payment row.id)) db.ledger L' := by
  unfold reverseRefund at h
  obtain ⟨L₁, h₁, h⟩ := bind_ok h
  obtain ⟨L₂, h₂, h⟩ := bind_ok h
  cases h
  refine ⟨L₂, rfl, foldlM_invariant (I := fun L => Extends (fun j => isFailedRef row.id j.ref ∧
    j.info.source = some (.payment row.id)) db.ledger L) ?_ h₂ ?_⟩
  · intro L s L' hL hs
    refine hL.trans ?_
    unfold reverseTip at hs
    split at hs
    · cases hs; exact Extends.refl _ _
    · split at hs
      · cases hs; exact Extends.refl _ _
      · exact (reverse_extends hs).mono fun j hj => ⟨.inr ⟨s, hj.1⟩, hj.2⟩
  · unfold reverseRefundJournal at h₁
    split at h₁
    · cases h₁; exact Extends.refl _ _
    · exact (reverse_extends h₁).mono fun j hj => ⟨.inl hj.1, hj.2⟩

theorem liveRefunds_setStatus_failed (id : Id) :
    (db.setStatus id .failed).liveRefunds original.id =
      (db.liveRefunds original.id).filter fun q => decide (q.id ≠ id) := by
  unfold Db.liveRefunds Db.setStatus
  have hcomp : ((fun q : Payment => decide (q.kind = .refund ∧ q.parentPaymentId = some original.id ∧
      q.status = .succeeded)) ∘ fun q => if q.id = id then q.withStatus .failed else q) =
      fun q => decide (q.id ≠ id) &&
        decide (q.kind = .refund ∧ q.parentPaymentId = some original.id ∧ q.status = .succeeded) := by
    funext q
    by_cases hq : q.id = id <;> simp [hq, Payment.withStatus]
  rw [List.filter_filter, List.filter_map, hcomp]
  refine (List.map_congr_left fun q hq => ?_).trans (List.map_id _)
  have hne : q.id ≠ id := by
    have hp := (List.mem_filter.1 hq).2
    rw [Bool.and_eq_true] at hp
    exact of_decide_eq_true hp.1
  rw [if_neg hne]
  rfl

omit db in
theorem sum_filter_lt {xs : List Payment} {p : Payment → Bool} (hpos : ∀ q ∈ xs, 0 < q.amountCents)
    {row : Payment} (hrow : row ∈ xs) (hp : p row = false) :
    ((xs.filter p).map (·.amountCents)).sum < (xs.map (·.amountCents)).sum := by
  have hle : ∀ ys : List Payment, (∀ q ∈ ys, 0 < q.amountCents) →
      ((ys.filter p).map (·.amountCents)).sum ≤ (ys.map (·.amountCents)).sum := by
    intro ys hys
    exact ((List.filter_sublist.map _).sum_le_sum fun x hx => by
      obtain ⟨q, hq, rfl⟩ := List.mem_map.1 hx
      exact (hys q hq).le)
  induction xs with
  | nil => cases hrow
  | cons q xs ih =>
    have hq := hpos q List.mem_cons_self
    have hxs : ∀ q' ∈ xs, 0 < q'.amountCents := fun q' h' => hpos q' (List.mem_cons_of_mem _ h')
    rcases List.mem_cons.1 hrow with rfl | hrow
    · rw [List.filter_cons_of_neg (by simp [hp]), List.map_cons, List.sum_cons]
      have := hle xs hxs
      omega
    · have hlt := ih hxs hrow
      by_cases hpq : p q = true
      · rw [List.filter_cons_of_pos hpq, List.map_cons, List.sum_cons, List.map_cons, List.sum_cons]
        omega
      · rw [List.filter_cons_of_neg hpq, List.map_cons, List.sum_cons]
        omega

theorem RefundedInv.fail {row : Payment} {db' : Db} (hinv : RefundedInv original basis db)
    (hrow : row ∈ db.liveRefunds original.id)
    (h : reverseRefund (db.setStatus row.id .failed) row original = .ok db') :
    RefundedInv original basis db' := by
  obtain ⟨L', rfl, hx⟩ := reverseRefund_extends h
  have hlive : ((db.setStatus row.id .failed).withLedger L').liveRefunds original.id =
      (db.liveRefunds original.id).filter fun q => decide (q.id ≠ row.id) := liveRefunds_setStatus_failed row.id
  have hmem : ∀ q ∈ ((db.setStatus row.id .failed).withLedger L').liveRefunds original.id,
      q ∈ db.liveRefunds original.id ∧ q.id ≠ row.id := by
    intro q hq
    rw [hlive, List.mem_filter] at hq
    exact ⟨hq.1, of_decide_eq_true hq.2⟩
  have hother : ∀ id, id ≠ row.id → ∀ r, returnedOn L' id r = returnedOn db.ledger id r := by
    intro id hne r
    refine returnedOn_of_extends hx (fun j hj _ => ?_) r
    rw [hj.2]
    simpa using Ne.symm hne
  have htotal : liveTotal ((db.setStatus row.id .failed).withLedger L') original < liveTotal db original := by
    unfold liveTotal
    rw [hlive]
    exact sum_filter_lt hinv.pos hrow (by simp)
  have hg : Grows (isFailedRef row.id) db.ledger L' := hx.mono fun j hj => hj.1
  have hpay : ∀ q ∈ ((db.setStatus row.id .failed).withLedger L').payments, ∃ q' ∈ db.payments,
      q.id = q'.id ∧ q.kind = q'.kind ∧ q.parentPaymentId = q'.parentPaymentId ∧ q.invoiceId = q'.invoiceId ∧
        q.amountCents = q'.amountCents := by
    intro q hq
    obtain ⟨q', hq', rfl⟩ := List.mem_map.1 hq
    refine ⟨q', hq', ?_⟩
    split <;> exact ⟨rfl, rfl, rfl, rfl, rfl⟩
  have hroom := hinv.room
  refine ⟨?_, ?_, ?_, ?_, ?_, ?_, ?_, by omega, fun hw => by omega⟩
  · rw [Db.ledger_withLedger, credits_of_grows hg ?_]
    · exact hinv.basis_eq
    · rintro (hr | ⟨s, hr⟩) <;> rcases basisRef_cases original with ⟨id, hb⟩ | hb <;>
        rw [hb] at hr <;> cases hr
  · rw [lostPayments_of_grows (db.setStatus row.id .failed) hg ?_]
    · have hkept := hinv.kept
      simp only [lostPayments, List.map_eq_nil_iff, List.filter_eq_nil_iff] at hkept ⊢
      intro q hq
      obtain ⟨q', hq', rfl⟩ := List.mem_map.1 hq
      split
      · exact hkept q' hq'
      · exact hkept q' hq'
    · rintro r (rfl | ⟨s, rfl⟩) id <;> simp
  · intro q hq hqk
    obtain ⟨q', hq', -, hk, hp, hi, -⟩ := hpay q hq
    rw [hp, hi]
    exact hinv.invoice q' hq' (hk ▸ hqk)
  · rw [hlive]
    exact hinv.nodup.sublist (List.filter_sublist.map _)
  · intro q hq hqk hqp
    obtain ⟨q', hq', hid, hk, hp, -, ha⟩ := hpay q hq
    have hj := (hinv.journals q' hq' (hk ▸ hqk) (hp ▸ hqp)).mono fun j hj => hx.mem hj
    unfold JournalOf at hj ⊢
    rw [hid, ha]
    exact hj
  · exact fun q hq => hinv.pos q (hmem q hq).1
  · intro q hq
    have hp := hinv.parts q (hmem q hq).1
    have ho : ∀ r, returnedOn ((db.setStatus row.id .failed).withLedger L').ledger q.id r =
      returnedOn db.ledger q.id r := hother q.id (hmem q hq).2
    exact ⟨(ho _).trans hp.cash, by rw [ho, List.map_congr_left fun key _ => ho (onKey key)]; exact hp.parts,
      fun ht => (ho _).trans (hp.tipless ht)⟩

end

/-! ## Runs -/

theorem Unrefunded.inv {original : Payment} {db : Db} (h : Unrefunded original db) :
    RefundedInv original (credits db.ledger original) db := by
  have hnil : db.liveRefunds original.id = [] := by
    rw [Db.liveRefunds, List.filter_eq_nil_iff]
    intro q hq hp
    obtain ⟨hk, hparent, -⟩ := of_decide_eq_true hp
    exact (h.rows q hq hk).1 hparent
  have htip := original.tip.cents_nonneg
  have hle := original.tip_le
  have hzero : liveTotal db original = 0 := by
    unfold liveTotal
    rw [hnil]
    rfl
  have hnone : ∀ r, unwoundOn db original r = 0 := by
    intro r
    unfold unwoundOn
    rw [hnil]
    rfl
  refine ⟨rfl, h.kept, fun q hq hk => ⟨fun hp => absurd hp (h.rows q hq hk).1,
    fun hi hs => absurd hs ((h.rows q hq hk).2 hi)⟩, by simp [hnil], fun q hq hk hp =>
    absurd hp (h.rows q hq hk).1, by simp [hnil], by simp [hnil], hzero ▸ original.amount_nonneg, fun hw => ?_⟩
  rw [hzero] at hw
  have hbase := h.base
  have hempty : credits db.ledger original = [] := credits_eq_nil (by omega)
  refine ⟨fun x hx => ?_, ?_⟩
  · rw [hempty] at hx
    cases hx
  · rw [hnone]
    omega

/-- **The last refund clears every credit.**  In every run of refunds and failures whose rounding
fits, every refund journal balances and pays its refund, and whenever the live refunds make up
the payment they unwound every credit and the tip exactly. -/
theorem refunds_exact {original : Payment} {db₀ db : Db} {as : List RefundAction}
    (h₀ : Unrefunded original db₀) (hrun : Run (FittingStep original) db₀ as db) :
    RefundsExact original db := by
  have hinv : RefundedInv original (credits db₀.ledger original) db := by
    refine hrun.invariant (I := RefundedInv original (credits db₀.ledger original)) ?_ h₀.inv
    rintro t a u ht ⟨hstep, hfits⟩
    cases hstep with
    | refund hid hk hparent hinvoice hs hpos hroom hunspent h =>
      exact ht.refund h₀.base hid hk hparent hinvoice hs hpos hroom hunspent (hfits _ rfl) h
    | fail hlive h => exact ht.fail hlive h
  exact ⟨hinv.journals, by rw [hinv.basis_eq]; exact hinv.whole⟩

/-! ## A sale refunded in parts, and a package -/

def cashSale (amount tip : Nat) (h : tip ≤ amount) : Payment where
  id := "pay_1"
  clientId := some "cli_1"
  kind := .payment
  parentPaymentId := none
  invoiceId := none
  orderId := none
  bookingId := none
  amountCents := amount
  tip := tipTo "stf_1" tip
  method := .cash
  provider := .manual
  providerRef := none
  status := .succeeded
  reason := none
  disputeStatus := none
  createdAt := 0
  tip_le := by simpa [tipTo] using h
  target := .inl rfl

def cashRefund (payment : Payment) (id : Id) (amount : Nat) : Payment :=
  { cashSale amount 0 (Nat.zero_le _) with
    id := id
    kind := .refund
    parentPaymentId := some payment.id
    tip := noTip
    tip_le := by simp [noTip, cashSale] }

/-- A settled payment, with the credit legs of its journal. -/
def settledDb (payment : Payment) (credits : List Leg) : Db := { emptyDb with
  ledger := [⟨0, .payment "pay_1", ⟨.payment, some (.payment "pay_1"), {}⟩,
    leg .business .cash payment.amountCents :: (credits ++ tipContra payment)⟩]
  payments := [payment] }

theorem refundStep {payment : Payment} {db : Db} (id : Id) (amount : Nat)
    (hinvoice : payment.invoiceId = none) (hid : FreshRefund db id) (hpos : 0 < amount)
    (hroom : liveTotal db payment + amount ≤ payment.amountCents) (hunspent : Unspent db payment)
    (h : (postRefund (db.addPayment (cashRefund payment id amount)) (cashRefund payment id amount) payment
      false).toOption.isSome) :
    RefundStep payment db (.refund (cashRefund payment id amount))
      ((postRefund (db.addPayment (cashRefund payment id amount)) (cashRefund payment id amount) payment
        false).toOption.get h) :=
  .refund hid rfl rfl hinvoice.symm rfl (by simpa [cashRefund, cashSale] using hpos) hroom hunspent (eq_ok_get h)

theorem untipped_le : 0 ≤ 11200 := Nat.zero_le 11200

def taxedPackage : Payment := cashSale 11200 0 untipped_le

def packageDb : Db := settledDb taxedPackage
  [leg (.package "pkg_1") .deferred (-10000), legOf .business .tax (-500) (.tax .GST),
    legOf .business .tax (-700) (.tax .PST)]

def packageDb₁ : Db := (postRefund (packageDb.addPayment (cashRefund taxedPackage "ref_1" 11199))
  (cashRefund taxedPackage "ref_1" 11199) taxedPackage false).toOption.get (by decide)

def packageDb₂ : Db := (postRefund (packageDb₁.addPayment (cashRefund taxedPackage "ref_2" 1))
  (cashRefund taxedPackage "ref_2" 1) taxedPackage false).toOption.get (by decide)

/-- The two cents of rounding put 100.01 on the package's 100.00: a cent is lost, and the GST
is never unwound in full. -/
theorem package_refund_loses :
    Run (RefundStep taxedPackage) packageDb [.refund (cashRefund taxedPackage "ref_1" 11199),
        .refund (cashRefund taxedPackage "ref_2" 1)] packageDb₂ ∧
      liveTotal packageDb₂ taxedPackage = taxedPackage.amountCents ∧
      unwoundOn packageDb₂ taxedPackage (onKey ⟨.business, .tax, .tax .GST⟩) = 499 ∧
      unwoundOn packageDb₂ taxedPackage (onCategory .loss) = 2 ∧
      ¬RefundsExact taxedPackage packageDb₂ := by
  refine ⟨?_, by decide, by decide, by decide, fun h => ?_⟩
  · refine .cons (refundStep "ref_1" 11199 rfl ⟨by decide, ?_, by decide⟩ (by decide) (by decide) ?_ (by decide))
      (.cons (refundStep "ref_2" 1 rfl ⟨by decide, ?_, by decide⟩ (by decide) (by decide) ?_ (by decide)) .nil)
    · rintro r (rfl | ⟨s, rfl⟩) <;> rfl
    · unfold Unspent; decide
    · rintro r (rfl | ⟨s, rfl⟩) <;> rfl
    · unfold Unspent; decide
  · have hgst := (h.whole (by decide)).1 (⟨.business, .tax, .tax .GST⟩, 500) (by decide)
    exact absurd hgst (by decide)

def tippedSale : Payment := cashSale 11800 600 (by decide)

def saleDb : Db := settledDb tippedSale
  [leg .business .revenue (-10000), legOf .business .tax (-500) (.tax .GST),
    legOf .business .tax (-700) (.tax .PST)]

def saleDb₁ : Db := (postRefund (saleDb.addPayment (cashRefund tippedSale "ref_1" 5000))
  (cashRefund tippedSale "ref_1" 5000) tippedSale false).toOption.get (by decide)

def saleDb₂ : Db := (reverseRefund (saleDb₁.setStatus "ref_1" .failed)
  (cashRefund tippedSale "ref_1" 5000) tippedSale).toOption.get (by decide)

def saleDb₃ : Db := (postRefund (saleDb₂.addPayment (cashRefund tippedSale "ref_2" 11800))
  (cashRefund tippedSale "ref_2" 11800) tippedSale false).toOption.get (by decide)

/-- A refund of 50.00 fails and the sale is refunded in full. -/
theorem saleDb_refunded : RefundsExact tippedSale saleDb₃ := by
  have h₀ : Unrefunded tippedSale saleDb := ⟨by decide, by decide, by decide⟩
  have h₁ : FittingStep tippedSale saleDb (.refund (cashRefund tippedSale "ref_1" 5000)) saleDb₁ := by
    refine ⟨refundStep "ref_1" 5000 rfl ⟨by decide, ?_, by decide⟩ (by decide) (by decide) ?_ (by decide), ?_⟩
    · rintro r (rfl | ⟨s, rfl⟩) <;> rfl
    · unfold Unspent; decide
    · exact fun row _ => fitsNow_of_not_holds (by decide) row
  have h₂ : FittingStep tippedSale saleDb₁ (.fail (cashRefund tippedSale "ref_1" 5000)) saleDb₂ :=
    ⟨.fail (by decide) (eq_ok_get (by decide)), fun row h => by cases h⟩
  have h₃ : FittingStep tippedSale saleDb₂ (.refund (cashRefund tippedSale "ref_2" 11800)) saleDb₃ := by
    refine ⟨refundStep "ref_2" 11800 rfl ⟨by decide, ?_, by decide⟩ (by decide) (by decide) ?_ (by decide), ?_⟩
    · rintro r (rfl | ⟨s, rfl⟩) <;> rfl
    · unfold Unspent; decide
    · exact fun row _ => fitsNow_of_not_holds (by decide) row
  exact refunds_exact h₀ (.cons h₁ (.cons h₂ (.cons h₃ .nil)))

end ClientBridge
