import ClientBridge.Ledger.Settlement

/-!
# Visit deposits: forfeits and applications

A deposit is held against its booking until it is forfeited, applied to an invoice or
refunded.  Money leaving a deposit first takes its forfeit and its applications back
(`reverseDeposit`); a refund that fails restores them (`restoreDeposit`).  All of it is
posted under the booking's own references (`Ref.isDeposit`).
-/

namespace ClientBridge

open Bookkeeping

def forfeitPosting (bookingId : Id) (cents : Int) (ref : Ref) : Posting where
  event := .forfeit
  ref := ref
  legs := [leg .business .deposit cents, leg .business .revenue (-cents)]
  subject := some (.booking bookingId)

def Ref.isForfeitOf (bookingId : Id) : Ref → Bool
  | .forfeit b | .forfeitBack b _ | .forfeitRestore b _ => decide (b = bookingId)
  | _ => false

/-- Money leaving a deposit (refund `key` or lost dispute `key`) takes its forfeit back. -/
def reverseForfeit (L : Ledger) (bookingId key : Id) : Except Error Ledger :=
  let forfeited := -L.sum fun j e => j.ref.isForfeitOf bookingId && decide (e.key.category = .revenue)
  if 0 < forfeited then post L (forfeitPosting bookingId (-forfeited) (.forfeitBack bookingId key))
  else .ok L

/-- A refund that failed after taking a forfeit back forfeits that money again. -/
def restoreForfeit (L : Ledger) (bookingId key : Id) : Except Error Ledger :=
  let taken := L.sum fun j e =>
    decide (j.ref = .forfeitBack bookingId key) && decide (e.key.category = .revenue)
  if 0 < taken then post L (forfeitPosting bookingId taken (.forfeitRestore bookingId key)) else .ok L

/-- The booking's application journals that have not been reversed. -/
def applications (L : Ledger) (bookingId : Id) : List LedgerJournal :=
  L.filter fun j => match j.ref with
    | .application b _ _ => decide (b = bookingId) && !L.has (.reversal j.ref)
    | _ => false

def reverseApplications (L : Ledger) (js : List LedgerJournal) : Except Error Ledger :=
  js.foldlM (fun L j => reversePlain L j (.reversal j.ref)) L

def reverseDeposit (db : Db) (bookingId key : Id) : Except Error Db :=
  if bookingId ∈ db.bookings then do
    let L ← reverseForfeit db.ledger bookingId key
    let L ← reverseApplications L (applications L bookingId)
    return db.withLedger L
  else .ok db

/-- The open invoice issued last among those that bill the booking. -/
def openInvoice (db : Db) (bookingId : Id) : Option Invoice :=
  let bills := fun i : Invoice => db.lines.any fun l =>
    decide (l.invoiceId = some i.id) && decide (l.bookingId = some bookingId)
  let unpaid := db.invoices.filter fun i =>
    bills i && decide (invoiceState db i ∈ [.sent, .partlyPaid, .overdue])
  unpaid.foldl (fun best i => match best with
    | none => some i
    | some b => if b.issuedAt < i.issuedAt then some i else some b) none

/-- Apply a held deposit to the booking's invoice: the deposit pays down its receivable. -/
def postApplication (db : Db) (bookingId : Id) (invoice : Invoice) (again : Option Id) :
    Except Error Db := do
  let applied := min (depositHeld db.ledger bookingId) (invoiceBalance db invoice)
  if applied ≤ 0 then return db
  else
    let L ← post db.ledger {
      event := .application
      ref := .application bookingId invoice.id again
      legs := [
        legOn .business .deposit applied (.booking bookingId),
        legOn (payer invoice.clientId) .receivable (-applied) (.invoice invoice.id)]
      subject := some (.booking bookingId) }
    return db.withLedger L

def restoreDeposit (db : Db) (bookingId key : Id) : Except Error Db :=
  if bookingId ∈ db.bookings then do
    let L ← restoreForfeit db.ledger bookingId key
    let db := db.withLedger L
    if depositHeld L bookingId ≤ 0 then return db
    else match openInvoice db bookingId with
      | none => return db
      | some invoice => postApplication db bookingId invoice (some key)
  else .ok db

/-! ## What they write -/

def Ref.isDeposit : Ref → Bool
  | .forfeit _ | .forfeitBack _ _ | .forfeitRestore _ _ | .application _ _ _ => true
  | .reversal (.application _ _ _) => true
  | _ => false

theorem net_forfeitPosting (bookingId : Id) (cents : Int) (ref : Ref) :
    net (forfeitPosting bookingId cents ref).legs = 0 := by
  simp [forfeitPosting, leg]

theorem reverseForfeit_grows (L : Ledger) (bookingId key : Id) :
    ∃ L', reverseForfeit L bookingId key = .ok L' ∧ Grows (fun r => r.isDeposit = true) L L' := by
  simp only [reverseForfeit]
  split
  · exact post_grows (net_forfeitPosting _ _ _) L rfl
  · exact ⟨L, rfl, Grows.refl _ L⟩

theorem restoreForfeit_grows (L : Ledger) (bookingId key : Id) :
    ∃ L', restoreForfeit L bookingId key = .ok L' ∧ Grows (fun r => r.isDeposit = true) L L' := by
  simp only [restoreForfeit]
  split
  · exact post_grows (net_forfeitPosting _ _ _) L rfl
  · exact ⟨L, rfl, Grows.refl _ L⟩

theorem reverseApplications_grows (js : List LedgerJournal) (L : Ledger)
    (hjs : ∀ j ∈ js, net j.legs = 0 ∧ (Ref.reversal j.ref).isDeposit = true) :
    ∃ L', reverseApplications L js = .ok L' ∧ Grows (fun r => r.isDeposit = true) L L' := by
  unfold reverseApplications
  induction js generalizing L with
  | nil => exact ⟨L, rfl, Grows.refl _ L⟩
  | cons j js ih =>
    obtain ⟨hn, hr⟩ := hjs j List.mem_cons_self
    rw [List.foldlM_cons, reversePlain, reverse_eq hn]
    obtain ⟨L', he, hg⟩ := ih _ fun j' hj' => hjs j' (List.mem_cons_of_mem _ hj')
    exact ⟨L', he, (grows_write (P := fun r : Ref => r.isDeposit = true) hr L _ _).trans hg⟩

/-- Taking a deposit back posts under the booking's own references only. -/
theorem reverseDeposit_grows {db : Db} (hL : WellKept db.ledger) (bookingId key : Id) :
    ∃ L', reverseDeposit db bookingId key = .ok (db.withLedger L') ∧
      Grows (fun r => r.isDeposit = true) db.ledger L' := by
  unfold reverseDeposit
  split
  · obtain ⟨L₁, h₁, hg₁⟩ := reverseForfeit_grows db.ledger bookingId key
    have hk₁ : WellKept L₁ := by
      simp only [reverseForfeit] at h₁
      split at h₁
      · exact wellKept_post hL h₁
      · cases h₁; exact hL
    obtain ⟨L₂, h₂, hg₂⟩ := reverseApplications_grows (applications L₁ bookingId) L₁ (by
      intro j hj
      obtain ⟨hm, hp⟩ := List.mem_filter.1 hj
      refine ⟨hk₁.balanced j hm, ?_⟩
      split at hp
      · next h => rw [h]; rfl
      · cases hp)
    exact ⟨L₂, by simp [h₁, h₂, bind, Except.bind, pure, Except.pure], hg₁.trans hg₂⟩
  · exact ⟨db.ledger, rfl, Grows.refl _ _⟩

theorem postApplication_grows (db : Db) (bookingId : Id) (invoice : Invoice) (again : Option Id) :
    ∃ L', postApplication db bookingId invoice again = .ok (db.withLedger L') ∧
      Grows (fun r => r.isDeposit = true) db.ledger L' := by
  simp only [postApplication]
  split
  · exact ⟨db.ledger, rfl, Grows.refl _ _⟩
  · rw [post_eq (by simp [legOn])]
    exact ⟨_, rfl, grows_write (P := fun r : Ref => r.isDeposit = true) rfl db.ledger _ _⟩

theorem restoreDeposit_grows (db : Db) (bookingId key : Id) :
    ∃ L', restoreDeposit db bookingId key = .ok (db.withLedger L') ∧
      Grows (fun r => r.isDeposit = true) db.ledger L' := by
  unfold restoreDeposit
  split
  · obtain ⟨L₁, h₁, hg₁⟩ := restoreForfeit_grows db.ledger bookingId key
    simp only [h₁, bind, Except.bind]
    split
    · exact ⟨L₁, rfl, hg₁⟩
    · split
      · exact ⟨L₁, rfl, hg₁⟩
      · next invoice _ =>
        obtain ⟨L₂, h₂, hg₂⟩ := postApplication_grows (db.withLedger L₁) bookingId invoice (some key)
        exact ⟨L₂, h₂, hg₁.trans hg₂⟩
  · exact ⟨db.ledger, rfl, Grows.refl _ _⟩

end ClientBridge
