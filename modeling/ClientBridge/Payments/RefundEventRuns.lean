import ClientBridge.Payments.RefundEvents

/-!
# Runs of refund events

Every snapshot of a refund finds its row as the snapshots before left it: pending, booked or final.  A run
is followed from each of the three (`RefundRow.pending_run`, `RefundRow.booked_run`, `RefundRow.final`), and
`refund_events_converge` puts them together for a refund that has no row yet.
-/

namespace ClientBridge

open Bookkeeping

/-! ## The rows the events find -/

/-- Snapshots of one refund: the status each one shows, and the id its row would get. -/
def snapshots (refundId intent : Id) (amount : Int) (shown : List (Option String × Id)) :
    List (RefundSnapshot × Id) :=
  shown.map fun d => (⟨some refundId, some intent, some amount, d.1⟩, d.2)

def statuses (shown : List (Option String × Id)) : List PaymentStatus := shown.map fun d => refundStatus d.1

/-- A settled payment, and the row of its refund. -/
structure RefundRow (db : Db) (payment : Payment) (refundId intent : Id) (amount : Int) (row : Payment) : Prop where
  charge : paymentOf db intent = some payment
  settled : payment.status = .succeeded
  amount_pos : 0 < amount
  found : refundByRef db refundId = some row
  parent : row.parentPaymentId = some payment.id
  whole : row.amountCents = amount
  apart : payment.id ≠ row.id

theorem paymentOf_addPayment {db : Db} {intent : Id} {payment : Payment} (h : paymentOf db intent = some payment)
    (row : Payment) : paymentOf (db.addPayment row) intent = some payment := by
  unfold paymentOf at h ⊢
  rw [Db.payments_addPayment, List.find?_append, h]
  rfl

theorem refundByRef_addPayment {db : Db} {refundId : Id} (h : refundByRef db refundId = none) {row : Payment}
    (href : row.providerRef = some refundId) (hk : row.kind = .refund) :
    refundByRef (db.addPayment row) refundId = some row := by
  unfold refundByRef at h ⊢
  rw [Db.payments_addPayment, List.find?_append, h]
  simp [href, hk]

section
variable {db : Db} {payment : Payment} {refundId intent : Id} {amount : Int} {row : Payment}

theorem RefundRow.withLedger (h : RefundRow db payment refundId intent amount row) (L : Ledger) :
    RefundRow (db.withLedger L) payment refundId intent amount row :=
  ⟨h.charge, h.settled, h.amount_pos, h.found, h.parent, h.whole, h.apart⟩

/-- Writing the row's status leaves the payment as it is. -/
theorem RefundRow.setStatus (h : RefundRow db payment refundId intent amount row) (status : PaymentStatus) :
    RefundRow (db.setStatus row.id status) payment refundId intent amount (row.withStatus status) := by
  refine ⟨?_, h.settled, h.amount_pos, ?_, h.parent, h.whole, h.apart⟩
  · have hp := h.charge
    unfold paymentOf at hp ⊢
    have hsame : ((fun q : Payment => decide (q.providerRef = some intent ∧ q.kind ≠ .refund)) ∘
        fun q => if q.id = row.id then q.withStatus status else q) =
        fun q => decide (q.providerRef = some intent ∧ q.kind ≠ .refund) := by
      funext q
      by_cases hq : q.id = row.id <;> simp [hq, Payment.withStatus]
    rw [Db.setStatus, List.find?_map, hsame, hp]
    simp [h.apart]
  · have hf := h.found
    unfold refundByRef at hf ⊢
    have hsame : ((fun q : Payment => decide (q.providerRef = some refundId ∧ q.kind = .refund)) ∘
        fun q => if q.id = row.id then q.withStatus status else q) =
        fun q => decide (q.providerRef = some refundId ∧ q.kind = .refund) := by
      funext q
      by_cases hq : q.id = row.id <;> simp [hq, Payment.withStatus]
    rw [Db.setStatus, List.find?_map, hsame, hf]
    simp

/-- A snapshot of a refund with a row updates the row. -/
theorem RefundRow.reconcile (h : RefundRow db payment refundId intent amount row) (shown : Option String)
    (newId : Id) : reconcileRefund db ⟨some refundId, some intent, some amount, shown⟩ newId =
      updateRefund db row payment (refundStatus shown) := by
  have hmatch : ¬(row.parentPaymentId ≠ some payment.id ∨ row.amountCents ≠ amount) := by
    rintro (hp | ha)
    · exact hp h.parent
    · exact ha h.whole
  simp only [reconcileRefund, dif_pos h.amount_pos, h.charge, h.settled, h.found, if_neg hmatch]

/-- A snapshot that changes nothing leaves the others to be taken. -/
theorem reconcileRefunds_cons {d : Option String × Id} {rest : List (Option String × Id)} {db' : Db}
    {told : Option WebhookOutcome}
    (h : reconcileRefund db ⟨some refundId, some intent, some amount, d.1⟩ d.2 = .ok (db', told)) :
    reconcileRefunds db (snapshots refundId intent amount (d :: rest)) =
      (reconcileRefunds db' (snapshots refundId intent amount rest)).map fun r => (r.1, told.toList ++ r.2) := by
  simp only [snapshots, List.map_cons, reconcileRefunds, h, bind, Except.bind]
  cases reconcileRefunds db' (rest.map fun d => (⟨some refundId, some intent, some amount, d.1⟩, d.2)) <;> rfl

/-! ## Runs of snapshots -/

/-- A refund that failed or was canceled is final. -/
theorem RefundRow.final (h : RefundRow db payment refundId intent amount row) (hs : row.status.isFailure = true)
    (shown : List (Option String × Id)) :
    reconcileRefunds db (snapshots refundId intent amount shown) = .ok (db, []) := by
  induction shown with
  | nil => rfl
  | cons d rest ih =>
    have hd : reconcileRefund db ⟨some refundId, some intent, some amount, d.1⟩ d.2 = .ok (db, none) := by
      rw [h.reconcile]
      unfold updateRefund
      cases hst : row.status <;> rw [hst] at hs <;> cases hs
    rw [reconcileRefunds_cons hd, ih]
    rfl

/-- A booked refund stays booked until a snapshot fails it, which takes it back. -/
theorem RefundRow.booked_run (h : RefundRow db payment refundId intent amount row)
    (hs : row.status = .succeeded) (hb : JustBooked db.ledger row.id (payment.tip.split.map (·.1)))
    (shown : List (Option String × Id)) :
    ((statuses shown).find? PaymentStatus.isFailure = none ∧
      reconcileRefunds db (snapshots refundId intent amount shown) = .ok (db, [])) ∨
    ∃ status db', (statuses shown).find? PaymentStatus.isFailure = some status ∧
      reconcileRefunds db (snapshots refundId intent amount shown) = .ok (db', [⟨.refundFailed, row.id⟩]) ∧
      RefundRow db' payment refundId intent amount (row.withStatus status) ∧ WellKept db'.ledger ∧
      ∀ q, refundNet db'.ledger row.id q = 0 := by
  induction shown with
  | nil => exact .inl ⟨rfl, rfl⟩
  | cons d rest ih =>
    cases hf : (refundStatus d.1).isFailure with
    | true =>
      right
      have hbs : JustBooked (db.setStatus row.id (refundStatus d.1)).ledger
          (row.withStatus (refundStatus d.1)).id (payment.tip.split.map (·.1)) := hb
      obtain ⟨L', hu, hk', hnet, -⟩ := unapplyRefund_clears hbs
      have hrow := (h.setStatus (refundStatus d.1)).withLedger L'
      have hd : reconcileRefund db ⟨some refundId, some intent, some amount, d.1⟩ d.2 =
          .ok ((db.setStatus row.id (refundStatus d.1)).withLedger L', some ⟨.refundFailed, row.id⟩) := by
        rw [h.reconcile]
        simp only [updateRefund, hs, hf, hu, bind, Except.bind, if_true]
        rfl
      refine ⟨refundStatus d.1, _, ?_, ?_, hrow, hk', hnet⟩
      · simp only [statuses, List.map_cons, List.find?_cons, hf]
      · rw [reconcileRefunds_cons hd, hrow.final hf]
        rfl
    | false =>
      have hd : reconcileRefund db ⟨some refundId, some intent, some amount, d.1⟩ d.2 = .ok (db, none) := by
        rw [h.reconcile]
        simp only [updateRefund, hs, hf, Bool.false_eq_true, if_false]
      have hfind : (statuses (d :: rest)).find? PaymentStatus.isFailure =
          (statuses rest).find? PaymentStatus.isFailure := by
        simp only [statuses, List.map_cons, List.find?_cons, hf]
      rw [reconcileRefunds_cons hd, hfind]
      rcases ih with ⟨hn, hr⟩ | ⟨status, db', hst, hr, hrest⟩
      · exact .inl ⟨hn, by rw [hr]; rfl⟩
      · exact .inr ⟨status, db', hst, by rw [hr]; rfl, hrest⟩

/-- What Stripe made of a refund: the first snapshot that failed or was canceled, else one that succeeded. -/
def refundOutcome (shown : List PaymentStatus) : PaymentStatus :=
  match shown.find? PaymentStatus.isFailure with
  | some status => status
  | none => if .succeeded ∈ shown then .succeeded else .pending

def WebhookNotice.count (notice : WebhookNotice) (outcomes : List WebhookOutcome) : Nat :=
  outcomes.countP fun o => decide (o.notify = notice)

def journalsUnder (L : Ledger) (r : Ref) : Nat := L.countP fun j => decide (j.ref = r)

/-- Where the snapshots of a refund leave its row and the ledger. -/
structure Converged (db db' : Db) (refundId intent : Id) (amount : Int) (row : Payment)
    (outcomes : List WebhookOutcome) : Prop where
  final : row.status.isFailure = true → ∀ shown,
    reconcileRefunds db' (snapshots refundId intent amount shown) = .ok (db', [])
  undone : row.status.isFailure = true → ∀ q, refundNet db'.ledger row.id q = 0
  booked : row.status = .succeeded →
    journalsUnder db'.ledger (.refund row.id) = 1 ∧ journalsUnder db'.ledger (.failed (.refund row.id)) = 0
  unbooked : row.status = .pending → db'.ledger = db.ledger ∧ refundJournals db'.ledger row.id = []
  once : ∀ r, journalsUnder db'.ledger r ≤ 1
  books_once : WebhookNotice.refund.count outcomes ≤ 1
  reverses_once : WebhookNotice.refundFailed.count outcomes ≤ 1

theorem journalsUnder_of_has {L : Ledger} (hk : WellKept L) {r : Ref} (h : L.has r = true) :
    journalsUnder L r = 1 := by
  obtain ⟨j, hj, href⟩ := (L.has_iff r).1 h
  have hc := List.count_eq_one_of_mem hk.refs (List.mem_map.2 ⟨j, hj, href⟩)
  rw [List.count_eq_countP, List.countP_map] at hc
  rw [journalsUnder, ← hc]
  exact List.countP_congr fun j _ => by simp

theorem journalsUnder_of_not_has {L : Ledger} {r : Ref} (h : L.has r = false) : journalsUnder L r = 0 := by
  refine List.countP_eq_zero.2 fun j hj he => ?_
  exact (L.has_false_iff r).1 h j hj (of_decide_eq_true he)

theorem journalsUnder_le {L : Ledger} (hk : WellKept L) (r : Ref) : journalsUnder L r ≤ 1 := by
  cases h : L.has r with
  | true => exact (journalsUnder_of_has hk h).le
  | false =>
    rw [journalsUnder_of_not_has h]
    omega

theorem refundJournals_of_unbooked {L : Ledger} {refundId : Id} (h : Unbooked L refundId) :
    refundJournals L refundId = [] := by
  refine List.filter_eq_nil_iff.2 fun j hj hr => ?_
  exact (L.has_false_iff _).1 (h j.ref hr).1 j hj rfl

theorem refundOutcome_cons {status : PaymentStatus} {shown : List PaymentStatus} (h : status = .pending) :
    refundOutcome (status :: shown) = refundOutcome shown := by
  subst h
  simp [refundOutcome, PaymentStatus.isFailure]

theorem refundOutcome_failure {status : PaymentStatus} (h : status.isFailure = true) (shown : List PaymentStatus) :
    refundOutcome (status :: shown) = status := by
  simp [refundOutcome, h]

/-- The first snapshot that succeeded books the refund; the run goes on from there. -/
theorem RefundRow.books (h : RefundRow db payment refundId intent amount row) (hs : row.status = .succeeded)
    (hk : WellKept db.ledger) (hn : NamesWritten db.ledger) (hu : Unbooked db.ledger row.id) :
    ∃ db₁, bookRefund db row payment = .ok (db₁, some ⟨.refund, row.id⟩) ∧
      ∀ (rest : List (Option String × Id)) (db₀ : Db), ∃ db' outcomes row',
        reconcileRefunds db₁ (snapshots refundId intent amount rest) = .ok (db', outcomes) ∧
        RefundRow db' payment refundId intent amount row' ∧
        row'.status = refundOutcome (.succeeded :: statuses rest) ∧
        Converged db₀ db' refundId intent amount row' (⟨.refund, row.id⟩ :: outcomes) := by
  have hpos : 0 < row.amountCents := h.whole.symm ▸ h.amount_pos
  obtain ⟨L₁, ha, hb, hhas⟩ := applyRefund_books payment hk hn.movesNamed hu hpos
  have h₁ := h.withLedger L₁
  refine ⟨db.withLedger L₁, by rw [bookRefund, ha]; rfl, fun rest db₀ => ?_⟩
  rcases h₁.booked_run hs hb rest with ⟨hnone, hr⟩ | ⟨status, db', hfind, hr, hrow, hk', hnet⟩
  · refine ⟨_, _, row, hr, h₁, ?_, ?_⟩
    · rw [hs]
      simp [refundOutcome, hnone, PaymentStatus.isFailure]
    · refine ⟨fun hf => ?_, fun hf => ?_, fun _ => ⟨?_, ?_⟩, fun hp => ?_, journalsUnder_le hb.kept, ?_, ?_⟩
      · rw [hs] at hf
        cases hf
      · rw [hs] at hf
        cases hf
      · exact journalsUnder_of_has hb.kept hhas
      · exact journalsUnder_of_not_has (hb.unfailed _ (by simp [Ref.ofRefund]))
      · rw [hs] at hp
        cases hp
      · simp [WebhookNotice.count]
      · simp [WebhookNotice.count]
  · have hfail : status.isFailure = true := List.find?_some hfind
    refine ⟨_, _, _, hr, hrow, ?_, ?_⟩
    · simp [refundOutcome, hfind, PaymentStatus.isFailure, Payment.withStatus]
    · refine ⟨fun _ => hrow.final hfail, fun _ => hnet, fun hp => ?_, fun hp => ?_, journalsUnder_le hk', ?_, ?_⟩
      · rw [show status = .succeeded from hp] at hfail
        cases hfail
      · rw [show status = .pending from hp] at hfail
        cases hfail
      · simp [WebhookNotice.count]
      · simp [WebhookNotice.count]

/-- A failure before anything was booked is final, and leaves the ledger as it was. -/
theorem RefundRow.stalled (h : RefundRow db payment refundId intent amount row) (hs : row.status.isFailure = true)
    (hk : WellKept db.ledger) (hu : Unbooked db.ledger row.id) (db₀ : Db) {outcomes : List WebhookOutcome}
    (hout : ∀ o ∈ outcomes, o.notify = .refundStalled) :
    Converged db₀ db refundId intent amount row outcomes := by
  have hnone : ∀ notice : WebhookNotice, notice ≠ .refundStalled → notice.count outcomes = 0 := by
    intro notice hne
    refine List.countP_eq_zero.2 fun o ho he => hne ?_
    rw [← hout o ho]
    exact (of_decide_eq_true he).symm
  refine ⟨fun _ => h.final hs, fun _ q => ?_, fun hp => ?_, fun hp => ?_, journalsUnder_le hk, ?_, ?_⟩
  · rw [refundNet, refundJournals_of_unbooked hu]
    exact onAccounts_eq_zero (fun r hr => by cases hr) q
  · rw [hp] at hs
    cases hs
  · rw [hp] at hs
    cases hs
  · rw [hnone _ (by decide)]
    omega
  · rw [hnone _ (by decide)]
    omega

/-- The snapshots of a refund whose row is pending. -/
theorem RefundRow.pending_run (h : RefundRow db payment refundId intent amount row) (hs : row.status = .pending)
    (hk : WellKept db.ledger) (hn : NamesWritten db.ledger) (hu : Unbooked db.ledger row.id)
    (shown : List (Option String × Id)) (db₀ : Db) (h₀ : db.ledger = db₀.ledger) :
    ∃ db' outcomes row', reconcileRefunds db (snapshots refundId intent amount shown) = .ok (db', outcomes) ∧
      RefundRow db' payment refundId intent amount row' ∧ row'.status = refundOutcome (statuses shown) ∧
      Converged db₀ db' refundId intent amount row' outcomes := by
  induction shown generalizing db row with
  | nil =>
    refine ⟨db, [], row, rfl, h, hs, fun hf => ?_, fun hf => ?_, fun hp => ?_, fun _ => ⟨h₀, ?_⟩,
      journalsUnder_le hk, ?_, ?_⟩
    · rw [hs] at hf
      cases hf
    · rw [hs] at hf
      cases hf
    · rw [hs] at hp
      cases hp
    · exact refundJournals_of_unbooked hu
    · simp [WebhookNotice.count]
    · simp [WebhookNotice.count]
  | cons d rest ih =>
    have hrow := h.setStatus (refundStatus d.1)
    have hstatuses : statuses (d :: rest) = refundStatus d.1 :: statuses rest := rfl
    have hstep := h.reconcile d.1 d.2
    simp only [updateRefund, hs] at hstep
    rcases (refundStatus d.1).failure_or with hd | hd | hd
    · rw [if_pos hd] at hstep
      refine ⟨_, [⟨.refundStalled, row.id⟩], _, ?_, hrow, ?_, hrow.stalled hd hk hu db₀ (by simp)⟩
      · rw [reconcileRefunds_cons hstep, hrow.final hd]
        rfl
      · rw [hstatuses, refundOutcome_failure hd]
        rfl
    · rw [hd] at hstep hrow
      obtain ⟨db', outcomes, row', hr, hrow', hst, hc⟩ := ih hrow rfl hk hn hu h₀
      refine ⟨db', outcomes, row', ?_, hrow', ?_, hc⟩
      · rw [reconcileRefunds_cons hstep, hr]
        rfl
      · rw [hst, hstatuses, refundOutcome_cons hd]
    · rw [hd] at hstep hrow
      obtain ⟨db₁, hb, hrun⟩ := hrow.books rfl hk hn hu
      obtain ⟨db', outcomes, row', hr, hrow', hst, hc⟩ := hrun rest db₀
      refine ⟨db', _, row', ?_, hrow', by rw [hst, hstatuses, hd], hc⟩
      rw [reconcileRefunds_cons (hstep.trans hb), hr]
      rfl

end

/-! ## Convergence -/

/-- A settled payment at Stripe, and a refund of it of which nothing is booked: it has no row yet, or one
that still waits. -/
structure RefundStart (db : Db) (payment : Payment) (refundId intent : Id) (amount : Int) : Prop where
  kept : WellKept db.ledger
  names : NamesWritten db.ledger
  ids : (db.payments.map (·.id)).Nodup
  charge : paymentOf db intent = some payment
  settled : payment.status = .succeeded
  amount_pos : 0 < amount
  waiting : ∀ row, refundByRef db refundId = some row → row.status = .pending ∧
    row.parentPaymentId = some payment.id ∧ row.amountCents = amount ∧ Unbooked db.ledger row.id

/-- An id that no row and no journal of a refund has. -/
def UnusedId (db : Db) (id : Id) : Prop := (∀ p ∈ db.payments, p.id ≠ id) ∧ Unbooked db.ledger id

/-- However often and in whatever order Stripe shows a refund, its row and its journals end as its outcome
has them: a failure is final and leaves nothing on any account, a success is booked once. -/
theorem refund_events_converge {db : Db} {payment : Payment} {refundId intent : Id} {amount : Int}
    (h : RefundStart db payment refundId intent amount) {shown : List (Option String × Id)}
    (hids : ∀ d ∈ shown, UnusedId db d.2) :
    ∃ db' outcomes, reconcileRefunds db (snapshots refundId intent amount shown) = .ok (db', outcomes) ∧
      (shown = [] → db' = db) ∧
      (shown ≠ [] → ∃ row, refundByRef db' refundId = some row ∧ row.status = refundOutcome (statuses shown) ∧
        Converged db db' refundId intent amount row outcomes) := by
  cases hrow : refundByRef db refundId with
  | some row =>
    obtain ⟨hs, hparent, hwhole, hu⟩ := h.waiting row hrow
    have hapart : payment.id ≠ row.id := by
      intro he
      have hp := List.find?_some h.charge
      have hr := List.find?_some hrow
      have hsame := List.inj_on_of_nodup_map h.ids (List.mem_of_find?_eq_some h.charge)
        (List.mem_of_find?_eq_some hrow) he
      rw [hsame] at hp
      exact (of_decide_eq_true hp).2 (of_decide_eq_true hr).2
    have hfollow : RefundRow db payment refundId intent amount row :=
      ⟨h.charge, h.settled, h.amount_pos, hrow, hparent, hwhole, hapart⟩
    obtain ⟨db', outcomes, row', hr, hrow', hst, hc⟩ := hfollow.pending_run hs h.kept h.names hu shown db rfl
    refine ⟨db', outcomes, hr, ?_, fun _ => ⟨row', hrow'.found, hst, hc⟩⟩
    rintro rfl
    cases hr
    rfl
  | none =>
    cases shown with
    | nil => exact ⟨db, [], rfl, fun _ => rfl, fun hne => absurd rfl hne⟩
    | cons d rest =>
      suffices hrun : ∃ db' outcomes row, reconcileRefunds db (snapshots refundId intent amount (d :: rest)) =
          .ok (db', outcomes) ∧ RefundRow db' payment refundId intent amount row ∧
            row.status = refundOutcome (statuses (d :: rest)) ∧
            Converged db db' refundId intent amount row outcomes by
        obtain ⟨db', outcomes, row, hr, hrow', hst, hc⟩ := hrun
        exact ⟨db', outcomes, hr, fun hnil => (by cases hnil), fun _ => ⟨row, hrow'.found, hst, hc⟩⟩
      obtain ⟨hfresh, hu⟩ := hids d List.mem_cons_self
      set row := refundRow payment d.2 amount h.amount_pos.le .stripe (some refundId) (refundStatus d.1) none with hrowdef
      have hfollow : RefundRow (db.addPayment row) payment refundId intent amount row :=
        ⟨paymentOf_addPayment h.charge row, h.settled, h.amount_pos, refundByRef_addPayment hrow rfl rfl, rfl, rfl,
          hfresh payment (List.mem_of_find?_eq_some h.charge)⟩
      have hstep : reconcileRefund db ⟨some refundId, some intent, some amount, d.1⟩ d.2 =
          if refundStatus d.1 = .succeeded then bookRefund (db.addPayment row) row payment
          else .ok (db.addPayment row, none) := by
        simp only [reconcileRefund, dif_pos h.amount_pos, h.charge, h.settled, hrow, insertRefund, hrowdef]
      have hstatuses : statuses (d :: rest) = row.status :: statuses rest := rfl
      rcases row.status.failure_or with hd | hd | hd
      · have hne : refundStatus d.1 ≠ .succeeded := by
          intro he
          rw [show row.status = .succeeded from he] at hd
          cases hd
        rw [if_neg hne] at hstep
        refine ⟨_, [], row, ?_, hfollow, ?_, hfollow.stalled hd h.kept hu db (by simp)⟩
        · rw [reconcileRefunds_cons hstep, hfollow.final hd]
          rfl
        · rw [hstatuses, refundOutcome_failure hd]
      · rw [if_neg (fun e => by cases hd.symm.trans e)] at hstep
        obtain ⟨db', outcomes, row', hr, hrow', hst, hc⟩ := hfollow.pending_run hd h.kept h.names hu rest db rfl
        refine ⟨db', outcomes, row', ?_, hrow', ?_, hc⟩
        · rw [reconcileRefunds_cons hstep, hr]
          rfl
        · rw [hst, hstatuses, refundOutcome_cons hd]
      · rw [if_pos (show refundStatus d.1 = .succeeded from hd)] at hstep
        obtain ⟨db₁, hb, hrun⟩ := hfollow.books hd h.kept h.names hu
        obtain ⟨db', outcomes, row', hr, hrow', hst, hc⟩ := hrun rest db
        refine ⟨db', _, row', ?_, hrow', by rw [hst, hstatuses, hd], hc⟩
        rw [reconcileRefunds_cons (hstep.trans hb), hr]
        rfl

/-! ## A refund that succeeds and fails -/

theorem cardSale_target : (none : Option Id) = none ∨ (none : Option Id) = none := .inl rfl

theorem cardTip_le : (tipTo "stf_1" 600).cents ≤ 11800 := by decide

/-- A card payment of 118.00 with a tip of 6.00. -/
def cardSale : Payment where
  id := "pay_1"
  clientId := some "cli_1"
  kind := .payment
  parentPaymentId := none
  invoiceId := none
  orderId := none
  bookingId := none
  amountCents := 11800
  tip := tipTo "stf_1" 600
  method := .card
  provider := .stripe
  providerRef := some "pi_1"
  status := .succeeded
  reason := none
  disputeStatus := none
  createdAt := 0
  tip_le := cardTip_le
  target := cardSale_target

def cardDb : Db := { emptyDb with
  ledger := [
    ⟨0, .payment "pay_1", ⟨.payment, some (.payment "pay_1"), {}⟩,
      [leg .business .stripe 11800, leg .business .revenue (-11200), leg .business .staffCost (-600)]⟩,
    ⟨1, .tip "pay_1" "stf_1", ⟨.tip, some (.payment "pay_1"), { basis := some .tip }⟩,
      [leg .business .staffCost 600, legOf (.staff "stf_1") .payable (-600) .pending]⟩]
  payments := [cardSale] }

theorem cardDb_unbooked {id : Id} (h : id ≠ "pay_1") : Unbooked cardDb.ledger id := by
  intro r hr
  constructor
  · cases r <;> first | cases hr | skip
    · next id' s =>
      obtain rfl : id' = id := of_decide_eq_true hr
      simp [cardDb, Book.has, Ne.symm h]
    · rfl
    · rfl
  · rfl

theorem cardDb_start : RefundStart cardDb cardSale "re_1" "pi_1" 11800 := by
  refine ⟨⟨by decide, ?_, by decide⟩, ⟨?_, ?_⟩, by decide, rfl, rfl, by decide, ?_⟩
  · rintro (_ | _ | n) j hj
    · cases hj
      rfl
    · cases hj
      rfl
    · cases hj
  · rintro j hj id hs
    rcases List.mem_cons.1 hj with rfl | hj
    · cases hs
    · rw [List.mem_singleton.1 hj] at hs
      cases hs
  · rintro id hid
    cases hid
  · rintro row hrow
    cases hrow

/-- Shown as succeeded, failed and succeeded again, the refund ends failed and leaves no trace. -/
theorem card_refund_failed :
    ∃ db' outcomes, reconcileRefunds cardDb (snapshots "re_1" "pi_1" 11800
        [(some "succeeded", "pay_2"), (some "failed", "pay_3"), (some "succeeded", "pay_4")]) = .ok (db', outcomes) ∧
      ∃ row, refundByRef db' "re_1" = some row ∧ row.status = .failed ∧ ∀ q, refundNet db'.ledger row.id q = 0 := by
  have hids : ∀ d ∈ [(some "succeeded", "pay_2"), (some "failed", "pay_3"), ((some "succeeded", "pay_4") : Option String × Id)],
      UnusedId cardDb d.2 := by
    intro d hd
    have hne : d.2 ≠ "pay_1" := by
      revert d
      decide
    exact ⟨fun p hp => by rw [List.mem_singleton.1 hp]; exact hne.symm, cardDb_unbooked hne⟩
  obtain ⟨db', outcomes, hr, -, hrow⟩ := refund_events_converge cardDb_start hids
  obtain ⟨row, hfound, hstatus, hc⟩ := hrow (by simp)
  have hfailed : row.status = .failed := hstatus
  exact ⟨db', outcomes, hr, row, hfound, hfailed, hc.undone (by rw [hfailed]; rfl)⟩

end ClientBridge
