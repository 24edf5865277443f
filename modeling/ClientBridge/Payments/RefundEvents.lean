import ClientBridge.Payments.Refunding
import ClientBridge.Ledger.RefundReversals

/-!
# Refund events

Stripe reports a refund over and over, in any order, and `reconcileRefund` takes each snapshot of it.  The
row keeps the first failed or canceled snapshot; a succeeded one books the refund once, and the failure
that follows it takes every journal of the refund back.

A refund that was just booked can be taken back in full (`unapplyRefund_clears`), because between the two
no other event of the refund writes anything.
-/

namespace ClientBridge

open Bookkeeping Runs

/-! ## The handler -/

/-- A refund as an event shows it. -/
structure RefundSnapshot where
  id : Option Id
  paymentIntent : Option Id
  amount : Option Int
  status : Option String
  deriving DecidableEq, Repr

def refundStatus (status : Option String) : PaymentStatus :=
  match status with
  | some "succeeded" => .succeeded
  | some "failed" => .failed
  | some "canceled" => .canceled
  | _ => .pending

def PaymentStatus.isFailure : PaymentStatus → Bool
  | .failed | .canceled => true
  | _ => false

theorem PaymentStatus.failure_or (s : PaymentStatus) : s.isFailure = true ∨ s = .pending ∨ s = .succeeded := by
  cases s <;> simp [isFailure]

inductive WebhookNotice where
  | refund | refundFailed | refundStalled
  deriving DecidableEq, Repr

structure WebhookOutcome where
  notify : WebhookNotice
  targetId : Id
  deriving DecidableEq, Repr

/-- The charge of an intent. -/
def paymentOf (db : Db) (intent : Id) : Option Payment :=
  db.payments.find? fun q => decide (q.providerRef = some intent ∧ q.kind ≠ .refund)

/-- A refund is booked, and the client told. -/
def bookRefund (db : Db) (refund payment : Payment) : Except Error (Db × Option WebhookOutcome) := do
  let db ← applyRefund db refund payment
  return (db, some ⟨.refund, refund.id⟩)

/-- A snapshot of a refund whose row exists. -/
def updateRefund (db : Db) (refund payment : Payment) (status : PaymentStatus) :
    Except Error (Db × Option WebhookOutcome) :=
  match refund.status with
  | .succeeded =>
    if status.isFailure then do
      let db ← unapplyRefund (db.setStatus refund.id status) (refund.withStatus status) payment
      return (db, some ⟨.refundFailed, refund.id⟩)
    else .ok (db, none)
  -- final at Stripe: a late succeeded or pending snapshot is out of order
  | .failed | .canceled => .ok (db, none)
  | .pending =>
    let db := db.setStatus refund.id status
    if status.isFailure then .ok (db, some ⟨.refundStalled, refund.id⟩)
    else if status = .succeeded then bookRefund db (refund.withStatus status) payment
    else .ok (db, none)

/-- The first snapshot of a refund writes its row under `newId`. -/
def insertRefund (db : Db) (payment : Payment) (refundId : Id) (amount : Int) (h : 0 ≤ amount)
    (status : PaymentStatus) (newId : Id) : Except Error (Db × Option WebhookOutcome) :=
  let refund := refundRow payment newId amount h .stripe (some refundId) status none
  let db := db.addPayment refund
  if status = .succeeded then bookRefund db refund payment else .ok (db, none)

/-- One event of a refund (`_reconcile_refund`). -/
def reconcileRefund (db : Db) (data : RefundSnapshot) (newId : Id) :
    Except Error (Db × Option WebhookOutcome) :=
  match data.id, data.paymentIntent, data.amount with
  | some refundId, some intent, some amount =>
    if h : 0 < amount then
      match paymentOf db intent with
      | none => .ok (db, none)
      | some payment =>
        match payment.status with
        | .pending => .error .retryLater
        | .failed | .canceled => .ok (db, none)
        | .succeeded =>
          match refundByRef db refundId with
          | some refund =>
            if refund.parentPaymentId ≠ some payment.id ∨ refund.amountCents ≠ amount then
              .error (.conflict "refund does not match the original payment")
            else updateRefund db refund payment (refundStatus data.status)
          | none => insertRefund db payment refundId amount h.le (refundStatus data.status) newId
    else .ok (db, none)
  | _, _, _ => .ok (db, none)

/-- Events taken one after the other, each with the id its row gets if it is the first. -/
def reconcileRefunds (db : Db) : List (RefundSnapshot × Id) → Except Error (Db × List WebhookOutcome)
  | [] => .ok (db, [])
  | (data, newId) :: rest => do
    let (db, told) ← reconcileRefund db data newId
    let (db, outcomes) ← reconcileRefunds db rest
    return (db, told.toList ++ outcomes)

/-! ## What booking a refund posts -/

/-- Postings of some kind, one after the other. -/
inductive Posted (P : Posting → Prop) (L : Ledger) : Ledger → Prop
  | refl : Posted P L L
  | snoc {L₁ L₂ p} : Posted P L L₁ → P p → post L₁ p = .ok L₂ → Posted P L L₂

section
variable {P : Posting → Prop} {L L' : Ledger}

theorem Posted.trans {L'' : Ledger} (h : Posted P L L') (h' : Posted P L' L'') : Posted P L L'' := by
  induction h' with
  | refl => exact h
  | snoc _ hp hpost ih => exact ih.snoc hp hpost

theorem Posted.kept (h : Posted P L L') (hL : WellKept L) : WellKept L' := by
  induction h with
  | refl => exact hL
  | snoc _ _ hpost ih => exact wellKept_post ih hpost

theorem Posted.extends (h : Posted P L L') :
    Extends (fun j => ∃ p, P p ∧ j.ref = p.ref ∧ j.info = p.info) L L' := by
  induction h with
  | refl => exact Extends.refl _ L
  | snoc _ hp hpost ih =>
    obtain ⟨rfl, -⟩ := post_ok hpost
    exact ih.trans (extends_write _ _ _ _ fun _ => ⟨_, hp, rfl, rfl⟩)

theorem Posted.mono {Q : Posting → Prop} (hPQ : ∀ p, P p → Q p) (h : Posted P L L') : Posted Q L L' := by
  induction h with
  | refl => exact .refl
  | snoc _ hp hpost ih => exact ih.snoc (hPQ _ hp) hpost

theorem Posted.one {p : Posting} (hp : P p) (h : post L p = .ok L') : Posted P L L' := Posted.refl.snoc hp h

end

/-- A posting of a visit's deposit. -/
structure DepositPosting (p : Posting) : Prop where
  ref : p.ref.isDeposit = true
  unmoved : p.event.isMove = false
  other : p.event ≠ .refund
  source : ∀ id, p.source ≠ some (.payment id)

theorem DepositPosting.grows {L L' : Ledger} (h : Posted DepositPosting L L') :
    Grows (fun r => r.isDeposit = true) L L' := by
  refine h.extends.mono ?_
  rintro j ⟨p, hp, hr, -⟩
  rw [hr]
  exact hp.ref

theorem isDeposit_of_application {bookingId : Id} {j : LedgerJournal} {L : Ledger} (hj : j ∈ applications L bookingId) :
    (Ref.reversal j.ref).isDeposit = true := by
  obtain ⟨-, hb⟩ := List.mem_filter.1 hj
  split at hb
  · next href =>
    rw [href]
    rfl
  · cases hb

theorem posted_reverseDeposit {db db' : Db} {bookingId key : Id} (h : reverseDeposit db bookingId key = .ok db') :
    Posted DepositPosting db.ledger db'.ledger := by
  unfold reverseDeposit at h
  split at h
  · obtain ⟨L₁, h₁, h⟩ := bind_ok h
    obtain ⟨L₂, h₂, h⟩ := bind_ok h
    cases h
    have hp : Posted DepositPosting db.ledger L₁ := by
      simp only [reverseForfeit] at h₁
      split at h₁
      · exact .one ⟨rfl, rfl, by simp [forfeitPosting], by simp [forfeitPosting]⟩ h₁
      · cases h₁
        exact .refl
    have happ : ∀ js : List LedgerJournal, (∀ j ∈ js, (Ref.reversal j.ref).isDeposit = true) → ∀ L L' : Ledger,
        reverseApplications L js = .ok L' → Posted DepositPosting L L' := by
      intro js hjs
      induction js with
      | nil =>
        intro L L' hL
        cases hL
        exact .refl
      | cons j js ih =>
        intro L L' hL
        obtain ⟨L₀, h₀, hL⟩ := bind_ok hL
        have hone : Posted DepositPosting L L₀ :=
          .one ⟨hjs j List.mem_cons_self, rfl, by simp [reversal], by simp [reversal]⟩ h₀
        exact hone.trans (ih (fun j hj => hjs j (List.mem_cons_of_mem _ hj)) L₀ L' hL)
    exact hp.trans (happ _ (fun j hj => isDeposit_of_application hj) _ _ h₂)
  · cases h
    exact .refl

theorem posted_restoreDeposit {db db' : Db} {bookingId key : Id} (h : restoreDeposit db bookingId key = .ok db') :
    Posted DepositPosting db.ledger db'.ledger := by
  unfold restoreDeposit at h
  split at h
  · obtain ⟨L₁, h₁, h⟩ := bind_ok h
    have hp : Posted DepositPosting db.ledger L₁ := by
      simp only [restoreForfeit] at h₁
      split at h₁
      · exact .one ⟨rfl, rfl, by simp [forfeitPosting], by simp [forfeitPosting]⟩ h₁
      · cases h₁
        exact .refl
    dsimp only at h
    split at h
    · cases h
      exact hp
    · split at h
      · cases h
        exact hp
      · simp only [postApplication] at h
        split at h
        · cases h
          exact hp
        · obtain ⟨L₂, h₂, h⟩ := bind_ok h
          cases h
          exact hp.snoc ⟨rfl, rfl, by simp, by simp⟩ h₂
  · cases h
    exact .refl

/-- A posting of a refund of `payment`: it moves no earning, and its tips are the payment's. -/
structure QuietPosting (payment : Payment) (refundId : Id) (p : Posting) : Prop where
  unmoved : p.event.isMove = false
  tips : ∀ s, p.ref = .tip refundId s → s ∈ payment.tip.split.map (·.1)

section
variable {payment : Payment} {refundId : Id}

theorem DepositPosting.quiet {p : Posting} (h : DepositPosting p) : QuietPosting payment refundId p := by
  refine ⟨h.unmoved, fun s hs => ?_⟩
  have hr := h.ref
  rw [hs] at hr
  cases hr

theorem posted_postTips {L L' : Ledger} {subject : Subject} {shares : List (Id × Int)}
    (hs : ∀ x ∈ shares, x.1 ∈ payment.tip.split.map (·.1))
    (h : postTips L payment subject (.tip refundId) (-1) refundId shares = .ok L') :
    Posted (QuietPosting payment refundId) L L' := by
  induction shares generalizing L with
  | nil =>
    cases h
    exact .refl
  | cons x shares ih =>
    obtain ⟨staffId, cents⟩ := x
    have hrest : ∀ x ∈ shares, x.1 ∈ payment.tip.split.map (·.1) := fun x hx => hs x (List.mem_cons_of_mem _ hx)
    rw [postTips] at h
    split at h
    · exact ih hrest h
    · obtain ⟨L₁, h₁, h⟩ := bind_ok h
      refine Posted.trans (.one ⟨rfl, fun s he => ?_⟩ h₁) (ih hrest h)
      cases he
      exact hs _ List.mem_cons_self

theorem posted_postRefund {db db' : Db} {refund : Payment} {unapplied : Bool}
    (h : postRefund db refund payment unapplied = .ok db') :
    Posted (QuietPosting payment refund.id) db.ledger db'.ledger := by
  unfold postRefund at h
  obtain ⟨L₁, h₁, h⟩ := bind_ok h
  have hp : Posted (QuietPosting payment refund.id) db.ledger L₁ := .one ⟨rfl, fun s hs => by cases hs⟩ h₁
  split at h
  · obtain ⟨L₂, h₂, h⟩ := bind_ok h
    cases h
    refine hp.trans (posted_postTips (fun x hx => ?_) h₂)
    exact (List.of_mem_zip hx).1
  · cases h
    exact hp

theorem posted_postFeeReturn {db db' : Db} (h : postFeeReturn db payment refundId = .ok db') :
    Posted (QuietPosting payment refundId) db.ledger db'.ledger := by
  simp only [postFeeReturn] at h
  split at h
  · cases h
    exact .refl
  · obtain ⟨L₁, h₁, h⟩ := bind_ok h
    cases h
    exact .one ⟨rfl, fun s hs => by cases hs⟩ h₁

end

/-! ## Booking a refund, and taking it back -/

/-- The journals of a ledger name journals that were written. -/
structure NamesWritten (L : Ledger) : Prop where
  sources : ∀ j ∈ L, ∀ id, j.info.source = some (.journal id) → id < L.length
  cancels : ∀ id, L.has (.earningReversal id) = true → id < L.length

/-- Moves name earnings that were written, and so do cancellations. -/
structure MovesNamed (L : Ledger) : Prop where
  moves : ∀ j ∈ L, j.info.event.isMove = true → ∀ id, j.info.source = some (.journal id) → id < L.length
  cancels : ∀ id, L.has (.earningReversal id) = true → id < L.length

theorem NamesWritten.movesNamed {L : Ledger} (h : NamesWritten L) : MovesNamed L :=
  ⟨fun j hj _ => h.sources j hj, h.cancels⟩

theorem length_le_of_kept {L C : Ledger} (h : WellKept (L ++ C)) {j : LedgerJournal} (hj : j ∈ C) :
    L.length ≤ j.id := by
  obtain ⟨n, hn⟩ := List.mem_iff_getElem?.1 hj
  have hat : (L ++ C)[L.length + n]? = some j := by
    rw [List.getElem?_append_right (by omega)]
    simpa using hn
  rw [h.numbered _ j hat]
  omega

/-- The references booking a refund writes under. -/
def Ref.ofBooking (refundId : Id) (r : Ref) : Prop := r.isDeposit = true ∨ r.ofRefund refundId = true

theorem Ref.ofBooking_refund {refundId : Id} {r : Ref} (h : isRefundRef refundId r) : r.ofBooking refundId := by
  right
  rcases h with rfl | ⟨s, rfl⟩ <;> simp [Ref.ofRefund]

theorem Ref.ofRefund_of_deposit {refundId : Id} {r : Ref} (h : r.isDeposit = true) : r.ofRefund refundId = false := by
  cases r <;> first | rfl | cases h

theorem Ref.not_ofBooking_failed (refundId : Id) (r : Ref) : ¬(Ref.failed r).ofBooking refundId := by
  rintro (h | h) <;> cases h

theorem Ref.not_ofBooking_cancel (refundId : Id) (id : Nat) : ¬(Ref.earningReversal id).ofBooking refundId := by
  rintro (h | h) <;> cases h

/-- Whatever a booking posted to a ledger that knew nothing of the refund, it can be taken back. -/
theorem justBooked_of_posted {L L' : Ledger} {payment : Payment} {refundId : Id} (hk : WellKept L)
    (hn : MovesNamed L) (hu : Unbooked L refundId) (hp : Posted (QuietPosting payment refundId) L L')
    (hg : Grows (Ref.ofBooking refundId) L L') :
    JustBooked L' refundId (payment.tip.split.map (·.1)) := by
  have hk' := hp.kept hk
  have hnew : ∀ j ∈ refundJournals L' refundId, L.length ≤ j.id := by
    intro j hj
    obtain ⟨hj, hr⟩ := mem_refundJournals.1 hj
    obtain ⟨C, rfl, -⟩ := hg
    rcases List.mem_append.1 hj with hj | hj
    · exact absurd rfl ((L.has_false_iff _).1 (hu _ hr).1 j hj)
    · exact length_le_of_kept hk' hj
  refine ⟨hk', fun s hs => ?_, fun r hr => ?_, fun j hj => ?_, fun j hj m hm hs => ?_⟩
  · obtain ⟨j, hj, href⟩ := (L'.has_iff _).1 hs
    rcases hp.extends.mem_or hj with hj | ⟨p, hq, hpr, -⟩
    · have hfree := (hu (.tip refundId s) (by simp [Ref.ofRefund])).1
      exact absurd href ((L.has_false_iff _).1 hfree j hj)
    · exact hq.tips s (hpr.symm.trans href)
  · rw [hg.has_eq (Ref.not_ofBooking_failed refundId r)]
    exact (hu r hr).2
  · rw [hg.has_eq (Ref.not_ofBooking_cancel refundId j.id), Bool.eq_false_iff]
    intro hc
    have hlt := hn.cancels j.id hc
    have hle := hnew j hj
    omega
  · rcases hp.extends.mem_or hm with hm | ⟨p, hq, -, hi⟩
    · rw [Bool.eq_false_iff]
      intro hmove
      have hlt := hn.moves m hm hmove j.id hs
      have hle := hnew j hj
      omega
    · rw [hi]
      exact hq.unmoved

/-- Money leaving a deposit takes its forfeit and applications back first. -/
theorem giveBack_posted {db : Db} (payment : Payment) (hk : WellKept db.ledger) (key : Id) :
    ∃ L₁, Posted DepositPosting db.ledger L₁ ∧ ∀ book, giveBack db payment key book = book (db.withLedger L₁) := by
  unfold giveBack
  split
  · next bookingId _ _ =>
    obtain ⟨L₁, h₁, -⟩ := reverseDeposit_grows hk bookingId key
    exact ⟨L₁, posted_reverseDeposit h₁, fun book => by rw [h₁]; rfl⟩
  · exact ⟨db.ledger, .refl, fun book => rfl⟩

/-- Booking a refund never raises: it takes a deposit's forfeit and applications back, posts the refund,
and may return the application fee. -/
theorem applyRefund_split {db : Db} (refund payment : Payment) (hk : WellKept db.ledger) :
    ∃ L₁ L₂ L₃, Posted DepositPosting db.ledger L₁ ∧
      postRefund (db.withLedger L₁) refund payment (refund.reason = some .unapplied) = .ok (db.withLedger L₂) ∧
      (L₃ = L₂ ∨ postFeeReturn (db.withLedger L₂) payment refund.id = .ok (db.withLedger L₃)) ∧
      applyRefund db refund payment = .ok (db.withLedger L₃) := by
  obtain ⟨L₁, hp₁, hback⟩ := giveBack_posted payment hk refund.id
  obtain ⟨L₂, h₂, -⟩ := postRefund_grows (db.withLedger L₁) refund payment (refund.reason = some .unapplied)
  by_cases hfee : refund.reason = some .ourVoid ∨ refund.reason = some .unapplied
  · obtain ⟨L₃, h₃, -⟩ := postFeeReturn_grows (db.withLedger L₂) payment refund.id
    refine ⟨L₁, L₂, L₃, hp₁, h₂, .inr h₃, ?_⟩
    simp only [applyRefund, hback, h₂, bind, Except.bind, Db.withLedger_withLedger, if_pos hfee]
    exact h₃
  · refine ⟨L₁, L₂, L₂, hp₁, h₂, .inl rfl, ?_⟩
    simp only [applyRefund, hback, h₂, bind, Except.bind, Db.withLedger_withLedger, if_neg hfee]
    rfl

theorem postRefund_has {db : Db} {refund payment : Payment} {unapplied : Bool} {L' : Ledger}
    (hpos : 0 < refund.amountCents) (h : postRefund db refund payment unapplied = .ok (db.withLedger L')) :
    L'.has (.refund refund.id) = true := by
  have hwritten : (refundPosting db refund payment unapplied).written ≠ [] := by
    have h0 : refund.amountCents ≠ 0 := by omega
    simp [refundPosting, Posting.written, nonzero, h0]
  have hw : (db.ledger.write (.refund refund.id) (refundPosting db refund payment unapplied).info
      (refundPosting db refund payment unapplied).written).has (.refund refund.id) = true := by
    rw [Book.has_write, List.isEmpty_eq_false_iff.2 hwritten]
    simp
  rw [postRefund_eq] at h
  have hL : L' = _ := congrArg Db.ledger (Except.ok.inj h).symm
  rw [hL, Db.ledger_withLedger]
  dsimp only
  split
  · exact (grows_writeTips _ _ _ _ _ _ _).has hw
  · exact hw

/-- What booking a refund writes. -/
theorem applyRefund_posted {db : Db} {refund payment : Payment} {L₁ L₂ L₃ : Ledger}
    (h₁ : Posted DepositPosting db.ledger L₁)
    (h₂ : postRefund (db.withLedger L₁) refund payment (refund.reason = some .unapplied) = .ok (db.withLedger L₂))
    (h₃ : L₃ = L₂ ∨ postFeeReturn (db.withLedger L₂) payment refund.id = .ok (db.withLedger L₃)) :
    Posted (QuietPosting payment refund.id) db.ledger L₃ ∧ Grows (Ref.ofBooking refund.id) db.ledger L₃ ∧
      Grows (Ref.ofBooking refund.id) L₂ L₃ := by
  have hp : Posted (QuietPosting payment refund.id) db.ledger L₂ :=
    (h₁.mono fun _ => DepositPosting.quiet).trans (posted_postRefund h₂)
  obtain ⟨L', he, hg₂⟩ := postRefund_grows (db.withLedger L₁) refund payment (refund.reason = some .unapplied)
  obtain rfl : L' = L₂ := congrArg Db.ledger (Except.ok.inj (he.symm.trans h₂))
  have hg : Grows (Ref.ofBooking refund.id) db.ledger L' :=
    ((DepositPosting.grows h₁).mono fun r hr => .inl hr).trans (hg₂.mono fun r => Ref.ofBooking_refund)
  rcases h₃ with rfl | h₃
  · exact ⟨hp, hg, Grows.refl _ _⟩
  · obtain ⟨L₄, he₃, hg₃⟩ := postFeeReturn_grows (db.withLedger L') payment refund.id
    obtain rfl : L₄ = L₃ := congrArg Db.ledger (Except.ok.inj (he₃.symm.trans h₃))
    have hfee : Grows (Ref.ofBooking refund.id) L' L₄ := by
      refine hg₃.mono ?_
      rintro r rfl
      exact .inr (by simp [Ref.ofRefund])
    exact ⟨hp.trans (posted_postFeeReturn h₃), hg.trans hfee, hfee⟩

/-- Booking a refund never raises, and what it books can be taken back. -/
theorem applyRefund_books {db : Db} {refund : Payment} (payment : Payment) (hk : WellKept db.ledger)
    (hn : MovesNamed db.ledger) (hu : Unbooked db.ledger refund.id) (hpos : 0 < refund.amountCents) :
    ∃ L', applyRefund db refund payment = .ok (db.withLedger L') ∧
      JustBooked L' refund.id (payment.tip.split.map (·.1)) ∧ L'.has (.refund refund.id) = true := by
  obtain ⟨L₁, L₂, L₃, h₁, h₂, h₃, he⟩ := applyRefund_split refund payment hk
  obtain ⟨hp, hg, hg₃⟩ := applyRefund_posted h₁ h₂ h₃
  exact ⟨L₃, he, justBooked_of_posted hk hn hu hp hg, hg₃.has (postRefund_has hpos h₂)⟩

def reverseFeeReturn (L : Ledger) (refundId : Id) : Except Error Ledger :=
  match L.find (.feeReturn refundId) with
  | some returned => reversePlain L returned (.failed (.feeReturn refundId))
  | none => .ok L

theorem Unwinding.reverseFeeReturn {refundId : Id} {js : List LedgerJournal} {L : Ledger}
    (h : Unwinding refundId js L) :
    ∃ L', ClientBridge.reverseFeeReturn L refundId = .ok L' ∧ Unwinding refundId js L' ∧
      Extends (TakesBack refundId js) L L' ∧ ∀ j ∈ js, j.ref = .feeReturn refundId → Cleared L' j := by
  unfold ClientBridge.reverseFeeReturn
  split
  · next j hf =>
    obtain ⟨hj, href⟩ := h.find (by simp [Ref.ofRefund]) hf
    obtain ⟨hw, hclear⟩ := h.takeBackFailed hj (by simp [href]) ⟨.reversal, some (.journal j.id), {}⟩
    rw [href] at hw hclear
    refine ⟨_, reverse_eq (h.kept.balanced j (h.mem j hj).1) L _ _ _ _, hw,
      extends_write L _ _ _ fun _ => ⟨⟨j, hj, href ▸ failed_mem_takenBackUnder j⟩, rfl, fun he => by cases he⟩,
      fun j' hj' href' => ?_⟩
    rw [h.kept.eq_of_ref (h.mem j' hj').1 (h.mem j hj).1 (href'.trans href.symm)]
    exact hclear
  · next hf =>
    refine ⟨L, rfl, h, Extends.refl _ L, fun j hj href => ?_⟩
    have hn := (L.has_false_iff _).1 ((L.find_eq_none_iff _).1 hf) j (h.mem j hj).1
    exact absurd href hn

/-- A journal that taking a refund back writes. -/
def UnapplyJournal (refundId : Id) (js : List LedgerJournal) (m : LedgerJournal) : Prop :=
  TakesBack refundId js m ∨ ∃ p, DepositPosting p ∧ m.ref = p.ref ∧ m.info = p.info

/-- Taking a booked refund back never raises, and leaves nothing of it on any account. -/
theorem unapplyRefund_clears {db : Db} {refund payment : Payment}
    (h : JustBooked db.ledger refund.id (payment.tip.split.map (·.1))) :
    ∃ L', unapplyRefund db refund payment = .ok (db.withLedger L') ∧ WellKept L' ∧
      (∀ q, refundNet L' refund.id q = 0) ∧
      Extends (UnapplyJournal refund.id (refundJournals db.ledger refund.id)) db.ledger L' := by
  set js := refundJournals db.ledger refund.id with hjs
  obtain ⟨L₁, h₁, hc₁, hg₁⟩ := h.cancelling.cancelTips (payment.tip.split.map (·.1))
  obtain ⟨L₂, h₂, hw₂, hg₂, hrefund⟩ := hc₁.unwinding.reverseRefundJournal
  obtain ⟨L₃, h₃, hw₃, hg₃, htips⟩ := hw₂.reverseTips (payment.tip.split.map (·.1))
  obtain ⟨L₄, h₄, hw₄, hg₄, hfee⟩ := hw₃.reverseFeeReturn
  have hrestore : ∀ bookingId, ∃ L₅, restoreDeposit (db.withLedger L₄) bookingId refund.id = .ok (db.withLedger L₅) ∧
      Posted DepositPosting L₄ L₅ := by
    intro bookingId
    obtain ⟨L₅, h₅, -⟩ := restoreDeposit_grows (db.withLedger L₄) bookingId refund.id
    exact ⟨L₅, h₅, posted_restoreDeposit h₅⟩
  have hback : ∃ L₅, unapplyRefund db refund payment = .ok (db.withLedger L₅) ∧ Posted DepositPosting L₄ L₅ := by
    unfold ClientBridge.reverseFeeReturn at h₄
    unfold unapplyRefund
    simp only [cancelReturnedTips, h₁, reverseRefund, Db.ledger_withLedger, h₂, h₃, bind, Except.bind, pure,
      Except.pure, Db.withLedger_withLedger]
    cases hf : L₃.find (.feeReturn refund.id) with
    | none =>
      rw [hf] at h₄
      cases h₄
      dsimp only
      split
      · exact hrestore _
      · exact ⟨_, rfl, .refl⟩
    | some returned =>
      rw [hf] at h₄
      dsimp only at h₄ ⊢
      rw [h₄]
      dsimp only
      split
      · exact hrestore _
      · exact ⟨_, rfl, .refl⟩
  obtain ⟨L₅, h₅, hp₅⟩ := hback
  have hk₅ := hp₅.kept hw₄.kept
  have hg₅ := DepositPosting.grows hp₅
  have hw₅ : Unwinding refund.id js L₅ := by
    refine hw₄.grows hg₅ (fun r hr => ⟨?_, fun j _ hm => ?_⟩) hk₅
    · exact Ref.ofRefund_of_deposit hr
    · rcases mem_takenBackUnder hm with rfl | ⟨-, rfl⟩ <;> cases hr
  have hcleared : ∀ j ∈ js, Cleared L₅ j := by
    intro j hj
    obtain ⟨hL, hr⟩ := mem_refundJournals.1 hj
    have hall : ∀ {P : LedgerJournal → Prop} {L L' : Ledger}, Extends P L L' → Grows (fun _ => True) L L' :=
      fun hx => hx.mono fun _ _ => trivial
    have hrest := ((hall hg₃).trans (hall hg₄)).trans (hall hg₅)
    cases href : j.ref <;> rw [href] at hr <;> try cases hr
    · next id s =>
      obtain rfl : id = refund.id := of_decide_eq_true hr
      have hs := h.tips s ((db.ledger.has_iff _).2 ⟨j, hL, href⟩)
      exact (htips s hs j hj href).grows ((hall hg₄).trans (hall hg₅))
    · next id =>
      obtain rfl : id = refund.id := of_decide_eq_true hr
      exact (hrefund j hj href).grows hrest
    · next id =>
      obtain rfl : id = refund.id := of_decide_eq_true hr
      exact (hfee j hj href).grows hg₅
  refine ⟨L₅, h₅, hk₅, fun q => ?_, ?_⟩
  swap
  · have htaken := ((hg₁.trans hg₂).trans hg₃).trans hg₄
    exact (htaken.mono fun _ => .inl).trans (hp₅.extends.mono fun _ => .inr)
  have hsame : Ref.among (refundJournals L₅ refund.id) = Ref.among js := by
    funext r
    rw [Bool.eq_iff_iff, Ref.among_iff, Ref.among_iff]
    refine exists_congr fun j => and_congr_left fun _ => ?_
    rw [mem_refundJournals]
    exact ⟨fun hj => hw₅.all j hj.1 hj.2, fun hj => hw₅.mem j hj⟩
  rw [refundNet, hsame, hw₅.net q]
  refine List.sum_eq_zero fun n hn => ?_
  obtain ⟨j, hj, rfl⟩ := List.mem_map.1 hn
  exact hcleared j hj q

end ClientBridge
