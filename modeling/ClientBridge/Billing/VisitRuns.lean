import ClientBridge.Billing.VisitPointers
import ClientBridge.Library.Interleave

/-!
# A visit is billed at most once

Sales and covers hold the visit they checked until they write it.  `issue_invoice` and `draft_for_booking`
read it before they lock it, so the runs in which it is still what they take it for (`Timely`) are the
ones in which pointers tell what is billed.
-/

namespace ClientBridge

open Runs

variable {π : Type} {s : VisitBooks π}

/-! ## What a transaction holds -/

/-- What a transaction knows of the rows it holds or has read. -/
def HoldsVisits (p : π) (s : VisitBooks π) : VisitPlace → Prop
  | .selling sale visits => s.saleLock sale = some p ∧ (∀ b, s.linked sale visits b → s.visitLock b = some p) ∧
      ∀ b ∈ visits, FreeFor s sale (s.visits b)
  | .voidingSale sale => s.saleLock sale = some p ∧ (∀ b, s.linked sale [] b → s.visitLock b = some p) ∧
      ∃ d, s.sales sale = some d
  | .issuing invoice visits read => s.invoiceLock invoice = some p ∧
      (s.invoices invoice = none ∨ s.invoices invoice = some ⟨.draft, visits⟩) ∧
      ∀ b, (s.visits b).invoiceId = none → (read b).invoiceId = none
  | .covering b _ => s.visitLock b = some p ∧ (s.visits b).status = .confirmed ∧ (s.visits b).orderId = none ∧
      InvoiceGone s (s.visits b).invoiceId
  | _ => True

/-- A step of `q` leaves what the others hold, and nothing that was voided comes back. -/
structure LeavesVisits (q : π) (s s' : VisitBooks π) : Prop where
  visits : ∀ b p, p ≠ q → s.visitLock b = some p → s'.visits b = s.visits b ∧ s'.visitLock b = some p
  sales : ∀ sale p, p ≠ q → s.saleLock sale = some p → s'.sales sale = s.sales sale ∧ s'.saleLock sale = some p ∧
    ∀ b, (s'.visits b).orderId = some sale → (s.visits b).orderId = some sale
  invoices : ∀ invoice p, p ≠ q → s.invoiceLock invoice = some p →
    s'.invoices invoice = s.invoices invoice ∧ s'.invoiceLock invoice = some p
  saleGone : ∀ id d, s.sales id = some d → d.void = true → ∃ d', s'.sales id = some d' ∧ d'.void = true
  invoiceGone : ∀ id d, s.invoices id = some d → d.status = .void → ∃ d', s'.invoices id = some d' ∧ d'.status = .void
  pointer : ∀ b, (s'.visits b).invoiceId = none → (s.visits b).invoiceId = none

theorem LeavesVisits.gone {q : π} {s' : VisitBooks π} (h : LeavesVisits q s s') :
    (∀ sale, SaleGone s sale → SaleGone s' sale) ∧ ∀ invoice, InvoiceGone s invoice → InvoiceGone s' invoice := by
  constructor
  · intro sale hg id hid
    obtain ⟨d, hd, hv⟩ := hg id hid
    exact h.saleGone id d hd hv
  · intro invoice hg id hid
    obtain ⟨d, hd, hv⟩ := hg id hid
    exact h.invoiceGone id d hd hv

/-- What a transaction holds, it still holds after another one's step. -/
theorem HoldsVisits.others {p q : π} {s' : VisitBooks π} {y : VisitPlace} (hp : HoldsVisits p s y)
    (h : LeavesVisits q s s') (hne : p ≠ q) : HoldsVisits p s' y := by
  cases y with
  | selling sale visits =>
    obtain ⟨hl, hlocks, hfree⟩ := hp
    obtain ⟨-, hl', hpoint⟩ := h.sales sale p hne hl
    have hlinked : ∀ b, s'.linked sale visits b → s.linked sale visits b := fun b hb => hb.imp_right (hpoint b)
    refine ⟨hl', fun b hb => (h.visits b p hne (hlocks b (hlinked b hb))).2, fun b hb => ?_⟩
    rw [(h.visits b p hne (hlocks b (.inl hb))).1]
    obtain ⟨hc, hi, hs⟩ := hfree b hb
    exact ⟨hc, h.gone.2 _ hi, hs.imp_right (h.gone.1 _)⟩
  | voidingSale sale =>
    obtain ⟨hl, hlocks, d, hd⟩ := hp
    obtain ⟨hs, hl', hpoint⟩ := h.sales sale p hne hl
    have hlinked : ∀ b, s'.linked sale [] b → s.linked sale [] b := fun b hb => hb.imp_right (hpoint b)
    exact ⟨hl', fun b hb => (h.visits b p hne (hlocks b (hlinked b hb))).2, d, hs.trans hd⟩
  | issuing invoice visits read =>
    obtain ⟨hl, hdoc, hread⟩ := hp
    obtain ⟨hi, hl'⟩ := h.invoices invoice p hne hl
    exact ⟨hl', by rwa [hi], fun b hb => hread b (h.pointer b hb)⟩
  | covering b cover =>
    obtain ⟨hl, hst, ho, hi⟩ := hp
    obtain ⟨hv, hl'⟩ := h.visits b p hne hl
    refine ⟨hl', ?_⟩
    rw [hv]
    exact ⟨hst, ho, h.gone.2 _ hi⟩
  | idle => trivial
  | drafting b read => trivial
  | rolledBack => trivial

theorem LeavesVisits.refl (q : π) (s : VisitBooks π) : LeavesVisits q s s :=
  ⟨fun _ _ _ h => ⟨rfl, h⟩, fun _ _ _ h => ⟨rfl, h, fun _ hb => hb⟩, fun _ _ _ h => ⟨rfl, h⟩,
    fun _ d hd hv => ⟨d, hd, hv⟩, fun _ d hd hv => ⟨d, hd, hv⟩, fun _ hb => hb⟩

section
variable {q : π}

theorem free_other [DecidableEq π] {lock : Id → Option π} {p : π} {id : Id} (hne : p ≠ q) (h : lock id = some p) :
    VisitBooks.free lock q id = some p := by
  unfold VisitBooks.free
  rw [if_neg (by rw [h]; exact fun e => hne (Option.some.inj e)), h]

theorem LeavesVisits.release [DecidableEq π] {s' : VisitBooks π} (h : LeavesVisits q s s') : LeavesVisits q s (s'.release q) := by
  refine ⟨fun b p hne hl => ?_, fun sale p hne hl => ?_, fun invoice p hne hl => ?_, h.saleGone, h.invoiceGone, h.pointer⟩
  · obtain ⟨hv, hl'⟩ := h.visits b p hne hl
    exact ⟨hv, free_other hne hl'⟩
  · obtain ⟨hs, hl', hb⟩ := h.sales sale p hne hl
    exact ⟨hs, free_other hne hl', hb⟩
  · obtain ⟨hi, hl'⟩ := h.invoices invoice p hne hl
    exact ⟨hi, free_other hne hl'⟩

theorem LeavesVisits.trans {s₁ s₂ : VisitBooks π} (h : LeavesVisits q s s₁) (h' : LeavesVisits q s₁ s₂) :
    LeavesVisits q s s₂ := by
  refine ⟨fun b p hne hl => ?_, fun sale p hne hl => ?_, fun invoice p hne hl => ?_, fun id d hd hv => ?_,
    fun id d hd hv => ?_, fun b hb => h.pointer b (h'.pointer b hb)⟩
  · obtain ⟨hv, hl₁⟩ := h.visits b p hne hl
    obtain ⟨hv', hl₂⟩ := h'.visits b p hne hl₁
    exact ⟨hv'.trans hv, hl₂⟩
  · obtain ⟨hs, hl₁, hb⟩ := h.sales sale p hne hl
    obtain ⟨hs', hl₂, hb'⟩ := h'.sales sale p hne hl₁
    exact ⟨hs'.trans hs, hl₂, fun b he => hb b (hb' b he)⟩
  · obtain ⟨hi, hl₁⟩ := h.invoices invoice p hne hl
    obtain ⟨hi', hl₂⟩ := h'.invoices invoice p hne hl₁
    exact ⟨hi'.trans hi, hl₂⟩
  · obtain ⟨d₁, hd₁, hv₁⟩ := h.saleGone id d hd hv
    exact h'.saleGone id d₁ hd₁ hv₁
  · obtain ⟨d₁, hd₁, hv₁⟩ := h.invoiceGone id d hd hv
    exact h'.invoiceGone id d₁ hd₁ hv₁

/-- A lock that was free is taken. -/
theorem taken_other {lock : Id → Option π} {p : π} {id id' : Id} (hl : lock id = none) (h : lock id' = some p) :
    Function.update lock id (some q) id' = some p := by
  have hne : id' ≠ id := by
    rintro rfl
    rw [hl] at h
    cases h
  rw [Function.update_of_ne hne, h]

theorem LeavesVisits.lockInvoice {id : Id} (hl : s.invoiceLock id = none) :
    LeavesVisits q s { s with invoiceLock := Function.update s.invoiceLock id (some q) } :=
  ⟨fun _ _ _ h => ⟨rfl, h⟩, fun _ _ _ h => ⟨rfl, h, fun _ hb => hb⟩, fun _ _ _ h => ⟨rfl, taken_other hl h⟩,
    fun _ d hd hv => ⟨d, hd, hv⟩, fun _ d hd hv => ⟨d, hd, hv⟩, fun _ hb => hb⟩

theorem LeavesVisits.lockVisit {b : Id} (hl : s.visitLock b = none) :
    LeavesVisits q s { s with visitLock := Function.update s.visitLock b (some q) } :=
  ⟨fun _ _ _ h => ⟨rfl, taken_other hl h⟩, fun _ _ _ h => ⟨rfl, h, fun _ hb => hb⟩, fun _ _ _ h => ⟨rfl, h⟩,
    fun _ d hd hv => ⟨d, hd, hv⟩, fun _ d hd hv => ⟨d, hd, hv⟩, fun _ hb => hb⟩

/-- The locks a sale's writer takes were free. -/
theorem LeavesVisits.lockSale {sale : Id} {visits : List Id} (hl : s.saleLock sale = none)
    (hv : ∀ b, s.linked sale visits b → s.visitLock b = none) : LeavesVisits q s (s.lockSale q sale visits) := by
  refine ⟨fun b p _ hb => ⟨rfl, ?_⟩, fun id p _ hs => ⟨rfl, ?_, fun _ h => h⟩, fun _ _ _ h => ⟨rfl, h⟩,
    fun _ d hd hv => ⟨d, hd, hv⟩, fun _ d hd hv => ⟨d, hd, hv⟩, fun _ h => h⟩
  · have hout : ¬s.linked sale visits b := by
      intro hlinked
      rw [hv b hlinked] at hb
      cases hb
    exact (if_neg hout).trans hb
  · have hne : id ≠ sale := by
      rintro rfl
      rw [hl] at hs
      cases hs
    exact (Function.update_of_ne hne _ _).trans hs

/-- Who holds a sale and the visits linked to it may write them. -/
theorem LeavesVisits.sell {sale : Id} {visits : List Id} {void : Bool} (hl : s.saleLock sale = some q)
    (hv : ∀ b, s.linked sale visits b → s.visitLock b = some q)
    (hvoid : ∀ d, s.sales sale = some d → d.void = true → void = true) : LeavesVisits q s (s.sell sale visits void) := by
  refine ⟨fun b p hne hb => ⟨?_, hb⟩, fun id p hne hs => ?_, fun _ _ _ h => ⟨rfl, h⟩, fun id d hd hgone => ?_,
    fun _ d hd hv => ⟨d, hd, hv⟩, fun b hb => ?_⟩
  · have hout : ¬s.linked sale visits b := by
      intro hlinked
      rw [hv b hlinked] at hb
      exact hne (Option.some.inj hb).symm
    unfold VisitBooks.linked at hout
    rw [not_or] at hout
    rw [sell_visits, if_neg hout.1, if_neg hout.2]
  · have hsale : id ≠ sale := by
      rintro rfl
      rw [hl] at hs
      exact hne (Option.some.inj hs).symm
    refine ⟨sell_sales_of_ne hsale _ _, hs, fun b hb => ?_⟩
    rw [sell_visits] at hb
    dsimp only at hb
    split at hb
    · exact absurd (Option.some.inj hb).symm hsale
    · split at hb
      · cases hb
      · exact hb
  · by_cases hid : id = sale
    · subst hid
      exact ⟨_, sell_sales .., hvoid d hd hgone⟩
    · exact ⟨d, (sell_sales_of_ne hid _ _).trans hd, hgone⟩
  · rw [sell_visits] at hb
    exact hb

theorem LeavesVisits.voidSale {sale : Id} {d₀ : SaleVisits} (hd₀ : s.sales sale = some d₀) (hl : s.saleLock sale = some q)
    (hv : ∀ b, s.linked sale [] b → s.visitLock b = some q) : LeavesVisits q s (s.voidSale sale) := by
  refine ⟨fun b p hne hb => ⟨?_, hb⟩, fun id p hne hs => ?_, fun _ _ _ h => ⟨rfl, h⟩, fun id d hd hgone => ?_,
    fun _ d hd hv => ⟨d, hd, hv⟩, fun b hb => ?_⟩
  · have hout : ¬s.linked sale [] b := by
      intro hlinked
      rw [hv b hlinked] at hb
      exact hne (Option.some.inj hb).symm
    unfold VisitBooks.linked at hout
    rw [not_or] at hout
    rw [voidSale_visits, if_neg hout.2]
  · have hsale : id ≠ sale := by
      rintro rfl
      rw [hl] at hs
      exact hne (Option.some.inj hs).symm
    refine ⟨voidSale_sales_of_ne hsale, hs, fun b hb => ?_⟩
    rw [voidSale_visits] at hb
    dsimp only at hb
    split at hb
    · cases hb
    · exact hb
  · by_cases hid : id = sale
    · subst hid
      exact ⟨_, voidSale_sales hd₀, rfl⟩
    · exact ⟨d, (voidSale_sales_of_ne hid).trans hd, hgone⟩
  · rw [voidSale_visits] at hb
    exact hb

/-- An invoice that nobody holds, or that `q` holds, is written; one that is void stays so. -/
theorem LeavesVisits.putInvoice {id : Id} {d₀ : InvoiceVisits} (hl : s.invoiceLock id = none ∨ s.invoiceLock id = some q)
    (hvoid : ∀ d, s.invoices id = some d → d.status = .void → d₀.status = .void) :
    LeavesVisits q s (s.putInvoice id d₀) := by
  refine ⟨fun _ _ _ h => ⟨rfl, h⟩, fun _ _ _ h => ⟨rfl, h, fun _ hb => hb⟩, fun id' p hne hs => ⟨?_, hs⟩,
    fun _ d hd hv => ⟨d, hd, hv⟩, fun id' d hd hgone => ?_, fun _ hb => hb⟩
  · refine putInvoice_of_ne ?_ _
    rintro rfl
    rcases hl with hl | hl <;> rw [hl] at hs
    · cases hs
    · exact hne (Option.some.inj hs).symm
  · by_cases he : id' = id
    · subst he
      exact ⟨_, putInvoice_self .., hvoid d hd hgone⟩
    · exact ⟨d, (putInvoice_of_ne he _).trans hd, hgone⟩

/-- A visit that nobody holds, or that `q` holds, is written, and keeps its sale. -/
theorem LeavesVisits.putVisit {b : Id} {v : Visit} (hl : s.visitLock b = none ∨ s.visitLock b = some q)
    (ho : v.orderId = (s.visits b).orderId) (hi : v.invoiceId = none → (s.visits b).invoiceId = none) :
    LeavesVisits q s (s.putVisit b v) := by
  have hat : ∀ b', b' ≠ b → (s.putVisit b v).visits b' = s.visits b' := fun b' hne => Function.update_of_ne hne _ _
  have hself : (s.putVisit b v).visits b = v := Function.update_self ..
  refine ⟨fun b' p hne hs => ⟨hat b' ?_, hs⟩, fun sale p _ hs => ⟨rfl, hs, fun b' hb => ?_⟩, fun _ _ _ h => ⟨rfl, h⟩,
    fun _ d hd hv => ⟨d, hd, hv⟩, fun _ d hd hv => ⟨d, hd, hv⟩, fun b' hb => ?_⟩
  · rintro rfl
    rcases hl with hl | hl <;> rw [hl] at hs
    · cases hs
    · exact hne (Option.some.inj hs).symm
  · by_cases he : b' = b
    · subst he
      rwa [hself, ho] at hb
    · rwa [hat b' he] at hb
  · by_cases he : b' = b
    · subst he
      rw [hself] at hb
      exact hi hb
    · rwa [hat b' he] at hb

/-- An invoice's issuer holds it, and waits for its visits. -/
theorem LeavesVisits.issue {invoice : Id} {visits : List Id} {read : Id → Visit} {started : Id → Bool}
    (hl : s.invoiceLock invoice = some q)
    (hdoc : s.invoices invoice = none ∨ s.invoices invoice = some ⟨.draft, visits⟩)
    (hv : ∀ b ∈ visits, s.visitLock b = none) : LeavesVisits q s (s.issue invoice visits read started) := by
  refine ⟨fun b p _ hb => ⟨issue_visits_of_not_mem fun hm => ?_, hb⟩, fun sale p _ hs => ⟨rfl, hs, fun b hb => ?_⟩,
    fun id p hne hs => ⟨putInvoice_of_ne ?_ _, hs⟩, fun _ d hd hv => ⟨d, hd, hv⟩, fun id d hd hgone => ?_, fun b hb => ?_⟩
  · rw [hv b hm] at hb
    cases hb
  · by_cases hm : b ∈ visits
    · rwa [issue_visits_of_mem hm, (closeSettled_fields _ _).1] at hb
    · rwa [issue_visits_of_not_mem hm] at hb
  · rintro rfl
    rw [hl] at hs
    exact hne (Option.some.inj hs).symm
  · have he : id ≠ invoice := by
      rintro rfl
      rcases hdoc with hn | hs
      · rw [hn] at hd
        cases hd
      · rw [hs] at hd
        cases hd
        cases hgone
    exact ⟨d, (putInvoice_of_ne he _).trans hd, hgone⟩
  · by_cases hm : b ∈ visits
    · rw [issue_visits_of_mem hm, (closeSettled_fields _ _).2.1] at hb
      dsimp only at hb
      split at hb
      · cases hb
      · exact hb
    · rwa [issue_visits_of_not_mem hm] at hb

end

/-! ## Runs -/

/-- What `issue_invoice` and `draft_for_booking` take a visit for when they commit: nothing else bills it,
and it points at no other invoice, or at none that stands. -/
def Timely (s : VisitBooks π) : VisitPlace → VisitPlace → Prop
  | .issuing invoice visits _, .idle => ∀ b ∈ visits, Billable s invoice (s.visits b)
  | .drafting b _, .idle => s.invoiceStands (s.visits b).invoiceId = false
  | _, _ => True

variable [DecidableEq π]

def TimelyStep (p : π) (s : VisitBooks π) (x : VisitPlace) (s' : VisitBooks π) (x' : VisitPlace) : Prop :=
  VisitStep p s x s' x' ∧ Timely s x x'

theorem VisitStep.leaves {q : π} {s s' : VisitBooks π} {x x' : VisitPlace} (h : VisitStep q s x s' x')
    (hq : HoldsVisits q s x) : LeavesVisits q s s' := by
  cases h with
  | sell hl hv h => exact .lockSale hl hv
  | @sold sale visits =>
    refine (LeavesVisits.sell hq.1 hq.2.1 fun d hd hv => ?_).release
    rw [hd]
    exact hv
  | voidSale hl hd hv h => exact .lockSale hl h
  | saleVoided =>
    obtain ⟨hl, hlocks, d, hd⟩ := hq
    exact (LeavesVisits.voidSale hd hl hlocks).release
  | readVisit b h => exact .refl q s
  | @drafted b read id hid hl hv =>
    refine (LeavesVisits.putInvoice (.inl hl) fun d hd _ => ?_).trans (.putVisit (.inl hv) rfl fun hn => ?_)
    · rw [hid] at hd
      cases hd
    · cases hn
  | draft id visits hid hl =>
    refine .putInvoice (.inl hl) fun d hd _ => ?_
    rw [hid] at hd
    cases hd
  | editDraft id visits hd hl =>
    refine .putInvoice (.inl hl) fun d hd' hv => ?_
    rw [hd] at hd'
    cases hd'
    cases hv
  | readVisits id visits hl hd h => exact .lockInvoice hl
  | issued started hv => exact (LeavesVisits.issue hq.1 hq.2.1 hv).release
  | voidInvoice hl hd => exact .putInvoice (.inl hl) fun _ _ _ => rfl
  | cover b cover hl h => exact .lockVisit hl
  | covered => exact (LeavesVisits.putVisit (.inr hq.1) (cover_fields _ _).1 fun hn => (cover_fields _ _).2.1 ▸ hn).release
  | move b status charged hl h => exact .putVisit (.inl hl) rfl id
  | rollback => exact (LeavesVisits.refl q s).release

theorem TimelyStep.own {q : π} {s s' : VisitBooks π} {x x' : VisitPlace} (h : TimelyStep q s x s' x')
    (hs : BilledByPointer s) : HoldsVisits q s' x' := by
  obtain ⟨h, -⟩ := h
  cases h with
  | @sell sale visits hl hv h =>
    refine ⟨Function.update_self .., fun b hb => if_pos hb, fun b hb => ?_⟩
    obtain ⟨hc, hi, ho⟩ := linkable_ok (h b hb)
    exact ⟨hc, invoiceGone_of_not_stands (fun _ => hs.valid.invoice) hi,
      ho.imp_right (saleGone_of_not_stands fun _ => hs.valid.sale)⟩
  | @voidSale sale d hl hd hv h => exact ⟨Function.update_self .., fun b hb => if_pos hb, d, hd⟩
  | readVisits id visits hl hd h => exact ⟨Function.update_self .., hd, fun _ hb => hb⟩
  | cover b cover hl h =>
    obtain ⟨hst, ho, hi⟩ := assertCoverable_ok h
    exact ⟨Function.update_self .., hst, ho, invoiceGone_of_not_stands (fun _ => hs.valid.invoice) hi⟩
  | sold => trivial
  | saleVoided => trivial
  | readVisit b h => trivial
  | drafted id hid hl hv => trivial
  | draft id visits hid hl => trivial
  | editDraft id visits hd hl => trivial
  | issued started hv => trivial
  | voidInvoice hl hd => trivial
  | covered => trivial
  | move b status charged hl h => trivial
  | rollback => trivial

theorem same_release (s : VisitBooks π) (q : π) : SameRows s (s.release q) := ⟨rfl, rfl, rfl⟩

theorem TimelyStep.store {q : π} {s s' : VisitBooks π} {x x' : VisitPlace} (h : TimelyStep q s x s' x')
    (hs : BilledByPointer s) (hq : HoldsVisits q s x) : BilledByPointer s' := by
  obtain ⟨h, ht⟩ := h
  cases h with
  | sell hl hv h => exact hs.of_same ⟨rfl, rfl, rfl⟩
  | sold => exact (hs.sell _ hq.2.2).of_same (same_release _ q)
  | voidSale hl hd hv h => exact hs.of_same ⟨rfl, rfl, rfl⟩
  | saleVoided =>
    obtain ⟨-, -, d, hd⟩ := hq
    exact (hs.voidSale hd).of_same (same_release _ q)
  | readVisit b h => exact hs
  | drafted id hid hl hv => exact hs.drafted hid (invoiceGone_of_not_stands (fun _ => hs.valid.invoice) ht)
  | draft id visits hid hl => exact hs.putInvoice (by simp)
  | editDraft id visits hd hl => exact hs.putInvoice (by simp)
  | readVisits id visits hl hd h => exact hs.of_same ⟨rfl, rfl, rfl⟩
  | issued started hv => exact (hs.issue started hq.2.1 hq.2.2 ht).of_same (same_release _ q)
  | voidInvoice hl hd => exact hs.putInvoice (by simp)
  | cover b cover hl h => exact hs.of_same ⟨rfl, rfl, rfl⟩
  | covered => exact (hs.cover _ hq.2.1 hq.2.2.1 hq.2.2.2).of_same (same_release _ q)
  | move b status charged hl h =>
    refine hs.putVisit rfl (fun _ => hs.valid.invoice) (fun id d hd hst hb => ?_) fun hc => ?_
    · obtain ⟨hi, -, hcov⟩ := hs.onInvoice hd hst hb
      exact ⟨hi, hcov⟩
    · obtain ⟨ho, hst, hone⟩ := hs.covered (b := b) hc
      exact ⟨ho, h hst, hone⟩
  | rollback => exact hs.of_same (same_release _ q)

theorem visits_kept : Kept TimelyStep (BilledByPointer (π := π)) HoldsVisits where
  store h hs hq := h.store hs hq
  own h hs _ := h.own hs
  others h hne _ hp hq := hq.others (h.1.leaves hp) hne

/-- Books in which nothing is billed yet. -/
structure Unbilled (s : VisitBooks π) : Prop where
  sales : ∀ id, s.sales id = none
  invoices : ∀ id, s.invoices id = none
  visits : ∀ b, (s.visits b).orderId = none ∧ (s.visits b).invoiceId = none ∧ (s.visits b).covered = false

omit [DecidableEq π] in
theorem Unbilled.byPointer {s : VisitBooks π} (h : Unbilled s) : BilledByPointer s := by
  refine ⟨⟨fun {b id} hb => ?_, fun {b id} hb => ?_⟩, fun {id d b} hd => ?_, fun {id d b} hd => ?_, fun {b} hc => ?_⟩
  · rw [(h.visits b).1] at hb
    cases hb
  · rw [(h.visits b).2.1] at hb
    cases hb
  · rw [h.sales] at hd
    cases hd
  · rw [h.invoices] at hd
    cases hd
  · rw [(h.visits b).2.2] at hc
    cases hc

/-- **A visit is billed at most once** in every run in which invoices are issued, and drafts made, of visits
that are still what they were checked for. -/
theorem visits_billed_once {w w' : World π (VisitBooks π) VisitPlace} {ps : List π} (hempty : Unbilled w.store)
    (hidle : ∀ p, w.place p = .idle) (hr : Run (Interleaved TimelyStep) w ps w') {b : Id} {x y : VisitBill}
    (hx : w'.store.Billed b x) (hy : w'.store.Billed b y) : x = y := by
  have hstart : Knows BilledByPointer HoldsVisits w := by
    refine ⟨hempty.byPointer, fun p => ?_⟩
    rw [hidle]
    trivial
  exact (visits_kept.run hr hstart).1.once hx hy

/-! ## Two invoices that name one visit -/

def openVisit : Visit := ⟨.confirmed, false, none, none, none, none⟩

def unbilledVisits : World Bool (VisitBooks Bool) VisitPlace :=
  ⟨⟨fun _ => openVisit, fun _ => none, fun _ => none, fun _ => none, fun _ => none, fun _ => none⟩, fun _ => .idle⟩

theorem unbilledVisits_unbilled : Unbilled unbilledVisits.store := ⟨fun _ => rfl, fun _ => rfl, fun _ => ⟨rfl, rfl, rfl⟩⟩

/-- A visit is drafted, and its invoice is issued. -/
theorem drafted_visit_billed_once : ∃ w' : World Bool (VisitBooks Bool) VisitPlace, w'.store.Billed "visit" (.invoice "first") ∧
    ∀ x, w'.store.Billed "visit" x → x = .invoice "first" := by
  have hrun : ∃ w', Run (Interleaved TimelyStep) unbilledVisits [true, true, true, true] w' ∧
      w'.store.Billed "visit" (.invoice "first") := by
    refine ⟨_,
      .cons (.from rfl ⟨.readVisit "visit" (by decide), trivial⟩)
      (.cons (.from rfl ⟨.drafted "first" rfl rfl rfl, show unbilledVisits.store.invoiceStands none = false by rfl⟩)
      (.cons (.from rfl ⟨.readVisits "first" ["visit"] rfl (.inr rfl) (by decide), trivial⟩)
      (.cons (.from rfl ⟨.issued (fun _ => true) (by decide), ?_⟩) .nil))), _, rfl, rfl, by decide⟩
    intro b hb
    rw [List.mem_singleton.1 hb]
    exact ⟨by decide, by decide, .inr (by decide)⟩
  obtain ⟨w', hrun, hbilled⟩ := hrun
  exact ⟨w', hbilled, fun x hx => visits_billed_once unbilledVisits_unbilled (fun _ => rfl) hrun hx hbilled⟩

/-- Two drafts name one visit; the second one is issued although the first was. -/
theorem two_invoices_one_visit : ¬∀ (ps : List Bool) (w' : World Bool (VisitBooks Bool) VisitPlace),
    Run (Interleaved VisitStep) unbilledVisits ps w' →
      ∀ b x y, w'.store.Billed b x → w'.store.Billed b y → x = y := by
  intro h
  have hboth := h _ _
    (.cons (.from (p := true) rfl (.draft "first" ["visit"] rfl rfl))
    (.cons (.from (p := true) rfl (.draft "second" ["visit"] rfl rfl))
    (.cons (.from (p := true) rfl (.readVisits "first" ["visit"] rfl (.inr rfl) (by decide)))
    (.cons (.from (p := true) rfl (.issued (fun _ => true) (by decide)))
    (.cons (.from (p := true) rfl (.readVisits "second" ["visit"] rfl (.inr rfl) (by decide)))
    (.cons (.from (p := true) rfl (.issued (fun _ => true) (by decide))) .nil))))))
    "visit" (.invoice "first") (.invoice "second") ⟨_, rfl, rfl, by decide⟩ ⟨_, rfl, rfl, by decide⟩
  exact absurd hboth (by decide)

end ClientBridge
