import ClientBridge.Ledger.DisputeBooks
import ClientBridge.Payments.RefundEvents
import ClientBridge.Library.Joins

/-!
# Dispute events

Stripe tells of a dispute in snapshots that come over and over, in any order.  Each is booked whole, whatever
came before it, so that in the end the books hold the join of what the snapshots showed (`disputes_join`), in
whatever order they came (`disputes_any_order`).  The handlers are modelled in the ledger and in what the charge tracks
of its dispute.  What a lost dispute takes back of the purchase (`_reverse_entitlement`, `_claw_back_package`) and the
membership it ends (`_end_disputed_membership`, which Stripe may refuse) are not.
-/

namespace ClientBridge

open Bookkeeping Runs

/-! ## The handlers -/

/-- A balance transaction of a dispute, where each part may be missing. -/
structure BalanceTransaction where
  amount : Option Int
  fee : Option Int
  net : Option Int
  deriving DecidableEq, Repr

/-- A dispute as an event shows it. -/
structure DisputeSnapshot where
  id : Option Id
  paymentIntent : Option Id
  status : Option String
  amount : Option Int
  transactions : List BalanceTransaction
  deriving DecidableEq, Repr

namespace DisputeSnapshot

/-- A missing id is printed as such. -/
def disputeId (data : DisputeSnapshot) : Id := data.id.getD "None"

/-- Nothing is withdrawn for an inquiry. -/
def isInquiry (data : DisputeSnapshot) : Bool := data.status.any fun s => "warning_".toList.isPrefixOf s.toList

/-- The fee Stripe took with the withdrawal. -/
def fee (data : DisputeSnapshot) : Int :=
  (data.transactions.filterMap fun t => if t.amount.all (· < 0) then t.fee else none).sum

/-- The amount and net of the funds reinstated. -/
def credits (data : DisputeSnapshot) : Int × Int :=
  let credits := data.transactions.filterMap fun t =>
    match t.amount, t.net with
    | some amount, some net => if 0 < amount then some (amount, net) else none
    | _, _ => none
  ((credits.map (·.1)).sum, (credits.map (·.2)).sum)

/-- The fee Stripe gave back with the reinstated funds. -/
def returnedFee (data : DisputeSnapshot) : Int :=
  -(data.transactions.filterMap fun t =>
    match t.amount, t.fee with
    | some amount, some fee => if 0 < amount ∧ fee < 0 then some fee else none
    | _, _ => none).sum

end DisputeSnapshot

inductive DisputeEventType where
  | created | updated | fundsWithdrawn | closed | fundsReinstated
  deriving DecidableEq, Repr

def DisputeEventType.closes : DisputeEventType → Bool
  | .closed | .fundsReinstated => true
  | _ => false

structure DisputeEvent where
  type : DisputeEventType
  data : DisputeSnapshot
  deriving DecidableEq, Repr

def disputedPayment (db : Db) (data : DisputeSnapshot) : Option Payment := data.paymentIntent.bind (paymentOf db)

def Payment.withDispute (p : Payment) (status : DisputeStatus) : Payment := { p with disputeStatus := some status }

def Db.setDispute (db : Db) (id : Id) (status : DisputeStatus) : Db :=
  { db with payments := db.payments.map fun p => if p.id = id then p.withDispute status else p }

def Payment.disputeSettled (p : Payment) : Bool :=
  decide (p.disputeStatus = some .won ∨ p.disputeStatus = some .lost)

def disputeStatus (status : Option String) : Option DisputeStatus :=
  match status with
  | some "won" => some .won
  | some "lost" => some .lost
  | some "under_review" => some .underReview
  | some "needs_response" => some .needsResponse
  | _ => none

namespace Webhooks

/-- Mirror Stripe's dispute status on the charge; a status we don't know is left out. -/
def trackDispute (db : Db) (payment : Payment) (data : DisputeSnapshot) : Db :=
  if payment.disputeSettled then db
  else
    match disputeStatus data.status with
    | some status => db.setDispute payment.id status
    | none => db

/-- A chargeback was opened: book the pulled funds and fee, and return the disputed payment. -/
def recordDispute (db : Db) (data : DisputeSnapshot) : Except Error (Db × Option Id) :=
  if data.isInquiry ∨ data.status = some "prevented" then .ok (db, none)
  else
    match disputedPayment db data with
    | none => .ok (db, none)
    | some payment => do
      let db ← postDispute db payment data.disputeId (data.amount.getD payment.amountCents) data.fee
      if payment.disputeSettled then return (db, none)
      else return (trackDispute db payment data, some payment.id)

/-- Track the case; an inquiry escalated to a chargeback is booked now. -/
def updateDispute (db : Db) (data : DisputeSnapshot) : Except Error (Db × Option Id) :=
  match disputedPayment db data with
  | none => .ok (db, none)
  | some payment => do
    let (db, recorded) ← recordDispute db data
    return (db, if payment.disputeStatus.isNone then recorded else none)

/-- The loss of a dispute, and what was handed back of it. -/
def loseDispute (db : Db) (payment : Payment) (data : DisputeSnapshot) : Except Error Db := do
  let db ← giveBack db payment data.disputeId fun db =>
    ClientBridge.loseDispute db payment data.disputeId (data.amount.getD payment.amountCents)
  reinstateDispute db payment data.disputeId data.credits.1 data.credits.2

def closeDispute (db : Db) (data : DisputeSnapshot) : Except Error Db :=
  match disputedPayment db data with
  | none => .ok db
  | some payment => do
    let (db, _) ← recordDispute db data
    -- the row as it is now
    let payment := (disputedPayment db data).getD payment
    let db := if payment.disputeStatus.isSome then trackDispute db payment data else db
    match data.status with
    | some "won" => ClientBridge.closeDispute db payment data.disputeId data.returnedFee
    | some "lost" => loseDispute db payment data
    | _ => return db

/-- A dispute's event, in the ledger and on the charge.  An inquiry that was opened moves no funds. -/
def handleDispute (db : Db) (event : DisputeEvent) : Except Error Db :=
  match event.type with
  | .created => if event.data.isInquiry then .ok db else do return (← recordDispute db event.data).1
  | .updated | .fundsWithdrawn => do return (← updateDispute db event.data).1
  | .closed | .fundsReinstated => closeDispute db event.data

end Webhooks

/-! ## What an event shows of its dispute -/

/-- What a snapshot adds to a dispute's books; `closes` says whether its event closes the case. -/
def DisputeSnapshot.books (data : DisputeSnapshot) (closes : Bool) : DisputeBooks :=
  if data.isInquiry ∨ data.status = some "prevented" then DisputeBooks.unposted
  else
    let won := closes && decide (data.status = some "won")
    let lost := closes && decide (data.status = some "lost")
    { withdrawn := true
      won := won
      lost := lost
      fee := data.fee.toNat
      feeReturned := if won then data.returnedFee.toNat else 0
      reinstated := if lost then data.credits.1.toNat else 0 }

/-- The part of an event in the books of one dispute. -/
def DisputeEvent.part (disputeId : Id) (event : DisputeEvent) : DisputeBooks :=
  if event.data.disputeId = disputeId then event.data.books event.type.closes else DisputeBooks.unposted

/-- A snapshot of the dispute of a charge on its terms: a fee is given back only where one was taken, and so much
handed back always leaves the same after fees. -/
structure DisputeSnapshot.Shows (data : DisputeSnapshot) (intent : Id) (terms : DisputeTerms) : Prop where
  intent : data.paymentIntent = some intent
  amount : data.amount = some terms.amount
  fees : 0 < data.returnedFee → 0 < data.fee
  net : data.credits.2 = terms.net data.credits.1.toNat

/-! ## What a handler leaves -/

/-- A handler of one dispute's events leaves the other journals and the charges. -/
structure HandlesDispute (disputeId : Id) (db db' : Db) : Prop where
  kept : WellKept db'.ledger
  grows : Grows (fun r => r.aboutDispute disputeId ∨ r.isDeposit = true) db.ledger db'.ledger
  found : ∀ intent, (paymentOf db intent).isSome = true → (paymentOf db' intent).isSome = true

section
variable {db db' : Db} {disputeId intent : Id} {terms : DisputeTerms} {data : DisputeSnapshot}

theorem HandlesDispute.refl (hk : WellKept db.ledger) : HandlesDispute disputeId db db :=
  ⟨hk, Grows.refl _ _, fun _ h => h⟩

theorem HandlesDispute.trans {db'' : Db} (h : HandlesDispute disputeId db db') (h' : HandlesDispute disputeId db' db'') :
    HandlesDispute disputeId db db'' := ⟨h'.kept, h.grows.trans h'.grows, fun i hi => h'.found i (h.found i hi)⟩

theorem HandlesDispute.of_books {L : Ledger} (h : BooksDispute disputeId db.ledger L) :
    HandlesDispute disputeId db (db.withLedger L) := ⟨h.kept, h.grows.mono fun _ => .inl, fun _ h => h⟩

theorem found_setDispute (id : Id) (status : DisputeStatus) (intent : Id) (h : (paymentOf db intent).isSome = true) :
    (paymentOf (db.setDispute id status) intent).isSome = true := by
  unfold paymentOf at h ⊢
  rw [List.find?_isSome] at h ⊢
  obtain ⟨q, hq, hp⟩ := h
  refine ⟨_, List.mem_map_of_mem hq, ?_⟩
  split
  · exact hp
  · exact hp

theorem ledger_trackDispute (db : Db) (payment : Payment) (data : DisputeSnapshot) :
    (Webhooks.trackDispute db payment data).ledger = db.ledger := by
  unfold Webhooks.trackDispute
  split
  · rfl
  · split <;> rfl

theorem handles_trackDispute (hk : WellKept db.ledger) (payment : Payment) (data : DisputeSnapshot) :
    HandlesDispute disputeId db (Webhooks.trackDispute db payment data) := by
  refine ⟨by rwa [ledger_trackDispute], by rw [ledger_trackDispute]; exact Grows.refl _ _, fun i hi => ?_⟩
  unfold Webhooks.trackDispute
  split
  · exact hi
  · split
    · exact found_setDispute _ _ i hi
    · exact hi

/-- The dispute is booked on its terms, its charge is there, and its books are `b`. -/
structure DisputeAt (terms : DisputeTerms) (intent disputeId : Id) (db : Db) (b : DisputeBooks) : Prop where
  kept : DisputeKept terms disputeId db.ledger
  found : (paymentOf db intent).isSome = true
  books : disputeBooks db.ledger disputeId = b

theorem DisputeAt.track {b : DisputeBooks} (h : DisputeAt terms intent disputeId db b) (payment : Payment)
    (data : DisputeSnapshot) : DisputeAt terms intent disputeId (Webhooks.trackDispute db payment data) b := by
  have hfound : ∀ i, (paymentOf db i).isSome = true → (paymentOf (Webhooks.trackDispute db payment data) i).isSome = true := by
    intro i hi
    unfold Webhooks.trackDispute
    split
    · exact hi
    · split
      · exact found_setDispute _ _ i hi
      · exact hi
  refine ⟨?_, hfound _ h.found, ?_⟩
  · rw [ledger_trackDispute]
    exact h.kept
  · rw [ledger_trackDispute]
    exact h.books

/-- Recording a dispute never raises, and books the withdrawal. -/
theorem recordDispute_books (hk : WellKept db.ledger) (data : DisputeSnapshot) :
    ∃ db' told, Webhooks.recordDispute db data = .ok (db', told) ∧ HandlesDispute data.disputeId db db' ∧
      ∀ intent terms b, data.Shows intent terms → DisputeAt terms intent data.disputeId db b →
        DisputeAt terms intent data.disputeId db' (b ⊔ data.books false) := by
  unfold Webhooks.recordDispute
  split
  · next hno =>
    refine ⟨db, none, rfl, HandlesDispute.refl hk, fun intent terms b _ h => ?_⟩
    rwa [DisputeSnapshot.books, if_pos hno, DisputeBooks.sup_unposted]
  · next hyes =>
    cases hfound : disputedPayment db data with
    | none =>
      refine ⟨db, none, rfl, HandlesDispute.refl hk, fun intent terms b hs h => ?_⟩
      have hsome := h.found
      rw [disputedPayment, hs.intent] at hfound
      rw [show paymentOf db intent = none from hfound] at hsome
      cases hsome
    | some payment =>
      obtain ⟨L, hpost, hbooks, hterms⟩ := postDispute_books hk payment data.disputeId
        (data.amount.getD payment.amountCents) data.fee
      have hat : ∀ intent terms b, data.Shows intent terms → DisputeAt terms intent data.disputeId db b →
          DisputeAt terms intent data.disputeId (db.withLedger L) (b ⊔ data.books false) := by
        intro intent terms b hs h
        obtain ⟨hkept, he⟩ := hterms terms (by rw [hs.amount]; rfl) h.kept
        refine ⟨hkept, h.found, ?_⟩
        show disputeBooks L _ = _
        rw [he, h.books, DisputeSnapshot.books, if_neg hyes]
        rfl
      have hh : HandlesDispute data.disputeId db (db.withLedger L) := HandlesDispute.of_books hbooks
      simp only [hpost, bind, Except.bind]
      split
      · exact ⟨_, _, rfl, hh, hat⟩
      · exact ⟨_, _, rfl, hh.trans (handles_trackDispute hh.kept payment data),
          fun intent terms b hs h => (hat intent terms b hs h).track payment data⟩

theorem updateDispute_books (hk : WellKept db.ledger) (data : DisputeSnapshot) :
    ∃ db' told, Webhooks.updateDispute db data = .ok (db', told) ∧ HandlesDispute data.disputeId db db' ∧
      ∀ intent terms b, data.Shows intent terms → DisputeAt terms intent data.disputeId db b →
        DisputeAt terms intent data.disputeId db' (b ⊔ data.books false) := by
  obtain ⟨db', told, hrec, hh, hat⟩ := recordDispute_books hk data
  unfold Webhooks.updateDispute
  split
  · next hfound =>
    refine ⟨db, none, rfl, HandlesDispute.refl hk, fun intent terms b hs h => ?_⟩
    have hsome := h.found
    rw [disputedPayment, hs.intent] at hfound
    rw [show paymentOf db intent = none from hfound] at hsome
    cases hsome
  · next payment hfound =>
    rw [hrec]
    exact ⟨db', _, rfl, hh, hat⟩

/-- A snapshot of a settled case withdrew funds. -/
theorem not_inquiry {status : String} (h : data.status = some status) (hs : status = "won" ∨ status = "lost") :
    ¬(data.isInquiry = true ∨ data.status = some "prevented") := by
  rw [DisputeSnapshot.isInquiry, h]
  rcases hs with rfl | rfl <;> decide

theorem DisputeAt.withdrawn {b : DisputeBooks} (h : DisputeAt terms intent disputeId db b) (hb : b.withdrawn = true) :
    db.ledger.has (.dispute disputeId) = true := by
  have he := congrArg DisputeBooks.withdrawn h.books
  exact he.trans hb

/-- Losing a dispute, with what comes back of it, never raises. -/
theorem loseDispute_shows (hk : WellKept db.ledger) (payment : Payment) (data : DisputeSnapshot) :
    ∃ db', Webhooks.loseDispute db payment data = .ok db' ∧ HandlesDispute data.disputeId db db' ∧
      ∀ intent terms b, data.Shows intent terms → DisputeAt terms intent data.disputeId db b → b.withdrawn = true →
        DisputeAt terms intent data.disputeId db'
          (b ⊔ { DisputeBooks.unposted with lost := true, reinstated := data.credits.1.toNat }) := by
  obtain ⟨L₁, hp₁, hback⟩ := giveBack_posted payment hk data.disputeId
  have hk₁ := hp₁.kept hk
  have hg₁ := DepositPosting.grows hp₁
  obtain ⟨L₂, h₂, hb₂, hat₂⟩ := @loseDispute_books (db.withLedger L₁) hk₁ payment data.disputeId
    (data.amount.getD payment.amountCents)
  obtain ⟨L₃, h₃, hb₃, hat₃⟩ := @reinstateDispute_books (db.withLedger L₂) hb₂.kept payment data.disputeId
    data.credits.1 data.credits.2
  refine ⟨db.withLedger L₃, ?_, ?_, fun intent terms b hs h hw => ?_⟩
  · simp only [Webhooks.loseDispute, hback, h₂, bind, Except.bind, Db.withLedger_withLedger, h₃]
  · exact ⟨hb₃.kept, ((hg₁.mono fun _ => .inr).trans (hb₂.grows.mono fun _ => .inl)).trans (hb₃.grows.mono fun _ => .inl),
      fun _ h => h⟩
  · have hother : ∀ r : Ref, r.isDeposit = true → r.ofDispute data.disputeId = false := by
      intro r hr
      cases r <;> first | rfl | cases hr
    have hkept₁ := h.kept.of_others hg₁ hother
    have hbooks₁ : disputeBooks L₁ data.disputeId = b := (disputeBooks_of_others hg₁ hother).trans h.books
    obtain ⟨hkept₂, he₂⟩ := hat₂ terms (by rw [hs.amount]; rfl) hkept₁ ((congrArg DisputeBooks.withdrawn hbooks₁).trans hw)
    have hlost : L₂.has (.disputeLost data.disputeId) = true := by
      have he := congrArg DisputeBooks.lost he₂
      exact he.trans (Bool.or_true _)
    obtain ⟨hkept₃, he₃⟩ := hat₃ terms hs.net hkept₂ hlost
    refine ⟨hkept₃, h.found, he₃.trans ?_⟩
    rw [show disputeBooks (db.withLedger L₂).ledger data.disputeId = _ from he₂, Db.ledger_withLedger, hbooks₁]
    ext <;> simp [DisputeBooks.unposted]

theorem books_won (h : data.status = some "won") : data.books true =
    data.books false ⊔ { DisputeBooks.unposted with won := true, feeReturned := data.returnedFee.toNat } := by
  have hno := not_inquiry h (.inl rfl)
  rw [DisputeSnapshot.books, DisputeSnapshot.books, if_neg hno, if_neg hno, h]
  ext <;> simp [DisputeBooks.unposted]

theorem books_lost (h : data.status = some "lost") : data.books true =
    data.books false ⊔ { DisputeBooks.unposted with lost := true, reinstated := data.credits.1.toNat } := by
  have hno := not_inquiry h (.inr rfl)
  rw [DisputeSnapshot.books, DisputeSnapshot.books, if_neg hno, if_neg hno, h]
  ext <;> simp [DisputeBooks.unposted]

theorem books_open (hw : data.status ≠ some "won") (hl : data.status ≠ some "lost") :
    data.books true = data.books false := by
  unfold DisputeSnapshot.books
  split
  · rfl
  · ext <;> simp [hw, hl]

theorem books_withdrawn {b : DisputeBooks} {status : String} (h : data.status = some status)
    (hs : status = "won" ∨ status = "lost") : (b ⊔ data.books false).withdrawn = true := by
  rw [DisputeSnapshot.books, if_neg (not_inquiry h hs)]
  exact Bool.or_true _

/-- Closing a case never raises, and books it whole. -/
theorem closeDispute_shows (hk : WellKept db.ledger) (data : DisputeSnapshot) :
    ∃ db', Webhooks.closeDispute db data = .ok db' ∧ HandlesDispute data.disputeId db db' ∧
      ∀ intent terms b, data.Shows intent terms → DisputeAt terms intent data.disputeId db b →
        DisputeAt terms intent data.disputeId db' (b ⊔ data.books true) := by
  obtain ⟨db₁, told, hrec, hh₁, hat₁⟩ := recordDispute_books hk data
  unfold Webhooks.closeDispute
  split
  · next hfound =>
    refine ⟨db, rfl, HandlesDispute.refl hk, fun intent terms b hs h => ?_⟩
    have hsome := h.found
    rw [disputedPayment, hs.intent] at hfound
    rw [show paymentOf db intent = none from hfound] at hsome
    cases hsome
  · next payment hfound =>
    simp only [hrec, bind, Except.bind]
    set row := (disputedPayment db₁ data).getD payment
    -- the row is tracked, whatever it was
    obtain ⟨db₂, he₂, hh₂, hat₂⟩ : ∃ db₂, (if row.disputeStatus.isSome then Webhooks.trackDispute db₁ row data else db₁) =
        db₂ ∧ HandlesDispute data.disputeId db db₂ ∧ ∀ intent terms b, data.Shows intent terms →
          DisputeAt terms intent data.disputeId db b → DisputeAt terms intent data.disputeId db₂ (b ⊔ data.books false) := by
      split
      · exact ⟨_, rfl, hh₁.trans (handles_trackDispute hh₁.kept row data),
          fun intent terms b hs h => (hat₁ intent terms b hs h).track row data⟩
      · exact ⟨_, rfl, hh₁, hat₁⟩
    rw [he₂]
    split
    · next hwon =>
      obtain ⟨L, hclose, hb, hterms⟩ := closeDispute_books hh₂.kept row data.disputeId data.returnedFee
      refine ⟨_, hclose, hh₂.trans (HandlesDispute.of_books hb), fun intent terms b hs h => ?_⟩
      have h₂ := hat₂ intent terms b hs h
      have hfee : 0 < data.returnedFee → 0 < recordedFee db₂.ledger data.disputeId := by
        intro hpos
        have hle : (b ⊔ data.books false).fee = (recordedFee db₂.ledger data.disputeId).toNat :=
          (congrArg DisputeBooks.fee h₂.books).symm
        have hshown : (data.books false).fee = data.fee.toNat := by
          rw [DisputeSnapshot.books, if_neg (not_inquiry hwon (.inl rfl))]
        have hmax : (data.books false).fee ≤ (b ⊔ data.books false).fee := Nat.le_max_right _ _
        have := hs.fees hpos
        omega
      obtain ⟨hkept, he⟩ := hterms terms h₂.kept (h₂.withdrawn (books_withdrawn hwon (.inl rfl))) hfee
      refine ⟨hkept, h₂.found, he.trans ?_⟩
      rw [h₂.books, books_won hwon, sup_assoc]
    · next hlost =>
      obtain ⟨db₃, he₃, hh₃, hat₃⟩ := loseDispute_shows hh₂.kept row data
      refine ⟨db₃, he₃, hh₂.trans hh₃, fun intent terms b hs h => ?_⟩
      have h₃ := hat₃ intent terms _ hs (hat₂ intent terms b hs h) (books_withdrawn hlost (.inr rfl))
      rwa [sup_assoc, ← books_lost hlost] at h₃
    · next hwon hlost =>
      refine ⟨db₂, rfl, hh₂, fun intent terms b hs h => ?_⟩
      rw [books_open (fun he => hwon he) fun he => hlost he]
      exact hat₂ intent terms b hs h

/-- An event never raises, and joins its dispute's books with what it shows. -/
theorem handleDispute_shows (hk : WellKept db.ledger) (event : DisputeEvent) :
    ∃ db', Webhooks.handleDispute db event = .ok db' ∧ HandlesDispute event.data.disputeId db db' ∧
      ∀ intent terms b, event.data.Shows intent terms → DisputeAt terms intent event.data.disputeId db b →
        DisputeAt terms intent event.data.disputeId db' (b ⊔ event.data.books event.type.closes) := by
  obtain ⟨type, data⟩ := event
  have hopen : ∃ db', Except.map (·.1) (Webhooks.recordDispute db data) = .ok db' ∧ HandlesDispute data.disputeId db db' ∧
      ∀ intent terms b, data.Shows intent terms → DisputeAt terms intent data.disputeId db b →
        DisputeAt terms intent data.disputeId db' (b ⊔ data.books false) := by
    obtain ⟨db', told, hrec, hh, hat⟩ := recordDispute_books hk data
    exact ⟨db', by rw [hrec]; rfl, hh, hat⟩
  have hupdate : ∃ db', Except.map (·.1) (Webhooks.updateDispute db data) = .ok db' ∧ HandlesDispute data.disputeId db db' ∧
      ∀ intent terms b, data.Shows intent terms → DisputeAt terms intent data.disputeId db b →
        DisputeAt terms intent data.disputeId db' (b ⊔ data.books false) := by
    obtain ⟨db', told, hrec, hh, hat⟩ := updateDispute_books hk data
    exact ⟨db', by rw [hrec]; rfl, hh, hat⟩
  cases type with
  | created =>
    unfold Webhooks.handleDispute
    dsimp only
    split
    · next hno =>
      refine ⟨db, rfl, HandlesDispute.refl hk, fun intent terms b _ h => ?_⟩
      show DisputeAt terms intent data.disputeId db (b ⊔ data.books false)
      rwa [DisputeSnapshot.books, if_pos (.inl hno), DisputeBooks.sup_unposted]
    · exact hopen
  | updated => exact hupdate
  | fundsWithdrawn => exact hupdate
  | closed => exact closeDispute_shows hk data
  | fundsReinstated => exact closeDispute_shows hk data

end

end ClientBridge
