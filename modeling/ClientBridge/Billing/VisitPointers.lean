import ClientBridge.Billing.Visits

/-!
# What a visit points at

A standing sale that names a visit is the sale it points at, an issued invoice that names it is the
invoice it points at, and a covered visit is on neither (`BilledByPointer`); then it is billed on one thing
at most.  Each write keeps this where the visit is free for it.
-/

namespace ClientBridge

variable {π : Type}

/-! ## Pointers -/

/-- The sale a visit points at, if it points at one, was voided. -/
def SaleGone (s : VisitBooks π) (sale : Option Id) : Prop := ∀ id, sale = some id → ∃ d, s.sales id = some d ∧ d.void = true

/-- The invoice a visit points at, if it points at one, was voided. -/
def InvoiceGone (s : VisitBooks π) (invoice : Option Id) : Prop :=
  ∀ id, invoice = some id → ∃ d, s.invoices id = some d ∧ d.status = .void

/-- Rows that visits point at are there. -/
structure PointersValid (s : VisitBooks π) : Prop where
  sale : ∀ {b id}, (s.visits b).orderId = some id → s.sales id ≠ none
  invoice : ∀ {b id}, (s.visits b).invoiceId = some id → s.invoices id ≠ none

theorem saleGone_of_not_stands {s : VisitBooks π} {sale : Option Id} (hv : ∀ id, sale = some id → s.sales id ≠ none)
    (h : s.saleStands sale = false) : SaleGone s sale := by
  rintro id rfl
  obtain ⟨d, hd⟩ := Option.ne_none_iff_exists'.1 (hv id rfl)
  refine ⟨d, hd, ?_⟩
  simpa [VisitBooks.saleStands, hd] using h

theorem invoiceGone_of_not_stands {s : VisitBooks π} {invoice : Option Id}
    (hv : ∀ id, invoice = some id → s.invoices id ≠ none) (h : s.invoiceStands invoice = false) : InvoiceGone s invoice := by
  rintro id rfl
  obtain ⟨d, hd⟩ := Option.ne_none_iff_exists'.1 (hv id rfl)
  refine ⟨d, hd, ?_⟩
  simpa [VisitBooks.invoiceStands, hd] using h

/-- What is billed to a visit can be told from its pointers. -/
structure BilledByPointer (s : VisitBooks π) : Prop where
  valid : PointersValid s
  onSale : ∀ {id d b}, s.sales id = some d → d.void = false → b ∈ d.visits → (s.visits b).orderId = some id
  onInvoice : ∀ {id d b}, s.invoices id = some d → d.status = .sent → b ∈ d.visits →
    (s.visits b).invoiceId = some id ∧ SaleGone s (s.visits b).orderId ∧ (s.visits b).covered = false
  covered : ∀ {b}, (s.visits b).covered = true → (s.visits b).orderId = none ∧ (s.visits b).status = .completed ∧
    ((s.visits b).packageId = none ∨ (s.visits b).subscriptionId = none)

theorem SaleGone.ne {s : VisitBooks π} {sale : Option Id} (h : SaleGone s sale) {id : Id} {d : SaleVisits}
    (hd : s.sales id = some d) (hv : d.void = false) : sale ≠ some id := by
  intro he
  obtain ⟨d', hd', hv'⟩ := h id he
  cases hd.symm.trans hd'
  rw [hv] at hv'
  cases hv'

theorem InvoiceGone.ne {s : VisitBooks π} {invoice : Option Id} (h : InvoiceGone s invoice) {id : Id} {d : InvoiceVisits}
    (hd : s.invoices id = some d) (hst : d.status = .sent) : invoice ≠ some id := by
  intro he
  obtain ⟨d', hd', hv⟩ := h id he
  cases hd.symm.trans hd'
  rw [hst] at hv
  cases hv

theorem covered_of_package {v : Visit} {id : Id} (h : v.packageId = some id) : v.covered = true := by
  simp [Visit.covered, h]

theorem covered_of_membership {v : Visit} {id : Id} (h : v.subscriptionId = some id) : v.covered = true := by
  simp [Visit.covered, h]

/-- A covered visit is on no sale and no invoice. -/
theorem BilledByPointer.not_on_document {s : VisitBooks π} (h : BilledByPointer s) {b : Id}
    (hc : (s.visits b).covered = true) : (∀ id, ¬s.Billed b (.sale id)) ∧ ∀ id, ¬s.Billed b (.invoice id) := by
  refine ⟨fun id hb => ?_, fun id hb => ?_⟩
  · obtain ⟨d, hd, hv, hmem⟩ := hb
    have ho := h.onSale hd hv hmem
    rw [(h.covered hc).1] at ho
    cases ho
  · obtain ⟨d, hd, hst, hmem⟩ := hb
    rw [(h.onInvoice hd hst hmem).2.2] at hc
    cases hc

/-- A visit is billed on one thing at most. -/
theorem BilledByPointer.once {s : VisitBooks π} (h : BilledByPointer s) {b : Id} {x y : VisitBill} (hx : s.Billed b x)
    (hy : s.Billed b y) : x = y := by
  -- a sale and an invoice exclude each other, and so do the two covers
  have hsale : ∀ {i j}, s.Billed b (.sale i) → ¬s.Billed b (.invoice j) := by
    rintro i j ⟨d, hd, hv, hb⟩ ⟨e, he, hst, hb'⟩
    exact (h.onInvoice he hst hb').2.1.ne hd hv (h.onSale hd hv hb)
  have hboth : ∀ {i j}, s.Billed b (.package i) → ¬s.Billed b (.membership j) := by
    intro i j hp hm
    rcases (h.covered (covered_of_package hp)).2.2 with hn | hn
    · cases hn.symm.trans hp
    · cases hn.symm.trans hm
  have hpackage : ∀ {i}, s.Billed b (.package i) → (s.visits b).covered = true := fun hp => covered_of_package hp
  have hmember : ∀ {i}, s.Billed b (.membership i) → (s.visits b).covered = true := fun hm => covered_of_membership hm
  cases x with
  | sale i =>
    cases y with
    | sale j =>
      obtain ⟨d, hd, hv, hb⟩ := hx
      obtain ⟨e, he, hv', hb'⟩ := hy
      rw [Option.some.inj ((h.onSale hd hv hb).symm.trans (h.onSale he hv' hb'))]
    | invoice j => exact absurd hy (hsale hx)
    | package j => exact absurd hx ((h.not_on_document (hpackage hy)).1 i)
    | membership j => exact absurd hx ((h.not_on_document (hmember hy)).1 i)
  | invoice i =>
    cases y with
    | sale j => exact absurd hx (hsale hy)
    | invoice j =>
      obtain ⟨d, hd, hst, hb⟩ := hx
      obtain ⟨e, he, hst', hb'⟩ := hy
      rw [Option.some.inj ((h.onInvoice hd hst hb).1.symm.trans (h.onInvoice he hst' hb').1)]
    | package j => exact absurd hx ((h.not_on_document (hpackage hy)).2 i)
    | membership j => exact absurd hx ((h.not_on_document (hmember hy)).2 i)
  | package i =>
    cases y with
    | sale j => exact absurd hy ((h.not_on_document (hpackage hx)).1 j)
    | invoice j => exact absurd hy ((h.not_on_document (hpackage hx)).2 j)
    | package j => rw [Option.some.inj (Eq.symm hx |>.trans hy)]
    | membership j => exact absurd hy (hboth hx)
  | membership i =>
    cases y with
    | sale j => exact absurd hy ((h.not_on_document (hmember hx)).1 j)
    | invoice j => exact absurd hy ((h.not_on_document (hmember hx)).2 j)
    | package j => exact absurd hx (hboth hy)
    | membership j => rw [Option.some.inj (Eq.symm hx |>.trans hy)]

/-! ## The checks -/

theorem linkable_ok {s : VisitBooks π} {sale : Id} {v : Visit} (h : linkable s sale v = .ok ()) :
    v.covered = false ∧ s.invoiceStands v.invoiceId = false ∧ (v.orderId = some sale ∨ s.saleStands v.orderId = false) := by
  unfold linkable at h
  split at h
  · cases h
  · next hp =>
    split at h
    · cases h
    · next hi =>
      split at h
      · cases h
      · next ho =>
        refine ⟨?_, by simpa using hi, ?_⟩
        · simp only [Bool.or_eq_true, not_or, Bool.not_eq_true] at hp
          exact hp.2
        · by_cases he : v.orderId = some sale
          · exact .inl he
          · exact .inr (by simpa [he] using ho)

theorem assertCoverable_ok {s : VisitBooks π} {v : Visit} (h : assertCoverable s v = .ok ()) :
    v.status = .confirmed ∧ v.orderId = none ∧ s.invoiceStands v.invoiceId = false := by
  unfold assertCoverable at h
  split at h
  · cases h
  · next hn =>
    simp only [not_or, not_not, Bool.not_eq_true] at hn
    exact ⟨hn.1, hn.2.1, hn.2.2.2⟩

/-! ## What the writes keep -/

variable {s : VisitBooks π}

/-- Rows apart from locks. -/
def SameRows (s s' : VisitBooks π) : Prop := s'.visits = s.visits ∧ s'.sales = s.sales ∧ s'.invoices = s.invoices

theorem BilledByPointer.of_same {s' : VisitBooks π} (h : BilledByPointer s) (hs : SameRows s s') : BilledByPointer s' := by
  obtain ⟨hv, hsales, hi⟩ := hs
  refine ⟨⟨?_, ?_⟩, ?_, ?_, ?_⟩
  · intro b id
    rw [hv, hsales]
    exact h.valid.sale
  · intro b id
    rw [hv, hi]
    exact h.valid.invoice
  · intro id d b
    rw [hv, hsales]
    exact h.onSale
  · intro id d b
    unfold SaleGone
    rw [hv, hsales, hi]
    exact h.onInvoice
  · intro b
    rw [hv]
    exact h.covered

/-- A visit a sale may take. -/
def FreeFor (s : VisitBooks π) (sale : Id) (v : Visit) : Prop :=
  v.covered = false ∧ InvoiceGone s v.invoiceId ∧ (v.orderId = some sale ∨ SaleGone s v.orderId)

theorem sell_visits (s : VisitBooks π) (sale : Id) (visits : List Id) (void : Bool) (b : Id) :
    (s.sell sale visits void).visits b = { s.visits b with
      orderId := if b ∈ visits then some sale else if (s.visits b).orderId = some sale then none else (s.visits b).orderId } := by
  simp only [VisitBooks.sell]
  split
  · rfl
  · split <;> rfl

theorem sell_sales_of_ne {sale id : Id} (h : id ≠ sale) (visits : List Id) (void : Bool) :
    (s.sell sale visits void).sales id = s.sales id := Function.update_of_ne h _ _

theorem sell_sales (s : VisitBooks π) (sale : Id) (visits : List Id) (void : Bool) :
    (s.sell sale visits void).sales sale = some ⟨void, visits⟩ := Function.update_self ..

/-- A sale takes visits that are free for it. -/
theorem BilledByPointer.sell (h : BilledByPointer s) {sale : Id} {visits : List Id} (void : Bool)
    (hfree : ∀ b ∈ visits, FreeFor s sale (s.visits b)) : BilledByPointer (s.sell sale visits void) := by
  have hsome : ∀ id, s.sales id ≠ none → (s.sell sale visits void).sales id ≠ none := by
    intro id hid
    by_cases he : id = sale
    · subst he
      rw [sell_sales]
      simp
    · rwa [sell_sales_of_ne he]
  refine ⟨⟨fun {b id} hb => ?_, fun {b id} hb => ?_⟩, fun {id d b} hd hv hb => ?_, fun {id d b} hd hst hb => ?_,
    fun {b} hc => ?_⟩
  · rw [sell_visits] at hb
    dsimp only at hb
    split at hb
    · cases hb
      rw [sell_sales]
      simp
    · split at hb
      · cases hb
      · exact hsome id (h.valid.sale hb)
  · rw [sell_visits] at hb
    exact h.valid.invoice hb
  · rw [sell_visits]
    by_cases he : id = sale
    · subst he
      rw [sell_sales] at hd
      cases hd
      exact if_pos hb
    · rw [sell_sales_of_ne he] at hd
      have ho := h.onSale hd hv hb
      have hne : (s.visits b).orderId ≠ some sale := by
        rw [ho]
        exact fun e => he (Option.some.inj e)
      have hout : b ∉ visits := by
        intro hm
        rcases (hfree b hm).2.2 with hs | hs
        · exact hne hs
        · exact hs.ne hd hv ho
      dsimp only
      rw [if_neg hout, if_neg hne]
      exact ho
  · obtain ⟨hi, hg, hcov⟩ := h.onInvoice (show s.invoices id = some d from hd) hst hb
    have hout : b ∉ visits := fun hm => (hfree b hm).2.1.ne hd hst hi
    rw [sell_visits]
    refine ⟨hi, ?_, hcov⟩
    dsimp only
    rw [if_neg hout]
    split
    · intro id' hid'
      cases hid'
    · next hne =>
      intro id' hid'
      obtain ⟨d', hd', hv'⟩ := hg id' hid'
      have he : id' ≠ sale := by
        rintro rfl
        exact hne hid'
      exact ⟨d', (sell_sales_of_ne he _ _).trans hd', hv'⟩
  · rw [sell_visits] at hc ⊢
    have hcov : (s.visits b).covered = true := hc
    obtain ⟨ho, hst, hone⟩ := h.covered hcov
    have hout : b ∉ visits := by
      intro hm
      rw [(hfree b hm).1] at hcov
      cases hcov
    refine ⟨?_, hst, hone⟩
    dsimp only
    rw [if_neg hout, if_neg (by rw [ho]; simp)]
    exact ho

theorem voidSale_sales_of_ne {sale id : Id} (h : id ≠ sale) : (s.voidSale sale).sales id = s.sales id :=
  Function.update_of_ne h _ _

theorem voidSale_sales {sale : Id} {d : SaleVisits} (h : s.sales sale = some d) :
    (s.voidSale sale).sales sale = some { d with void := true } := by
  simp [VisitBooks.voidSale, h]

theorem voidSale_visits (s : VisitBooks π) (sale b : Id) : (s.voidSale sale).visits b = { s.visits b with
    orderId := if (s.visits b).orderId = some sale then none else (s.visits b).orderId } := by
  simp only [VisitBooks.voidSale]
  split <;> rfl

theorem BilledByPointer.voidSale (h : BilledByPointer s) {sale : Id} {d₀ : SaleVisits} (hs : s.sales sale = some d₀) :
    BilledByPointer (s.voidSale sale) := by
  refine ⟨⟨fun {b id} hb => ?_, fun {b id} hb => ?_⟩, fun {id d b} hd hv hb => ?_, fun {id d b} hd hst hb => ?_,
    fun {b} hc => ?_⟩
  · rw [voidSale_visits] at hb
    dsimp only at hb
    split at hb
    · cases hb
    · next hne =>
      have he : id ≠ sale := by
        rintro rfl
        exact hne hb
      rw [voidSale_sales_of_ne he]
      exact h.valid.sale hb
  · rw [voidSale_visits] at hb
    exact h.valid.invoice hb
  · by_cases he : id = sale
    · subst he
      rw [voidSale_sales hs] at hd
      cases hd
      cases hv
    · rw [voidSale_sales_of_ne he] at hd
      have ho := h.onSale hd hv hb
      rw [voidSale_visits]
      dsimp only
      rw [if_neg (by rw [ho]; exact fun e => he (Option.some.inj e))]
      exact ho
  · obtain ⟨hi, hg, hcov⟩ := h.onInvoice (show s.invoices id = some d from hd) hst hb
    rw [voidSale_visits]
    refine ⟨hi, ?_, hcov⟩
    dsimp only
    split
    · intro id' hid'
      cases hid'
    · next hne =>
      intro id' hid'
      obtain ⟨d', hd', hv'⟩ := hg id' hid'
      have he : id' ≠ sale := by
        rintro rfl
        exact hne hid'
      exact ⟨d', (voidSale_sales_of_ne he).trans hd', hv'⟩
  · rw [voidSale_visits] at hc ⊢
    obtain ⟨ho, hst, hone⟩ := h.covered (b := b) hc
    refine ⟨?_, hst, hone⟩
    dsimp only
    rw [if_neg (by rw [ho]; simp)]
    exact ho

theorem putInvoice_of_ne {id id' : Id} (h : id' ≠ id) (d : InvoiceVisits) :
    (s.putInvoice id d).invoices id' = s.invoices id' := Function.update_of_ne h _ _

theorem putInvoice_self (s : VisitBooks π) (id : Id) (d : InvoiceVisits) :
    (s.putInvoice id d).invoices id = some d := Function.update_self ..

theorem putInvoice_ne_none {id id' : Id} (d : InvoiceVisits) (h : s.invoices id' ≠ none) :
    (s.putInvoice id d).invoices id' ≠ none := by
  by_cases he : id' = id
  · subst he
    rw [putInvoice_self]
    simp
  · rwa [putInvoice_of_ne he]

/-- An invoice that is written as a draft or void was no issued one, or no longer is. -/
theorem BilledByPointer.putInvoice (h : BilledByPointer s) {id : Id} {d₀ : InvoiceVisits} (hd₀ : d₀.status ≠ .sent) :
    BilledByPointer (s.putInvoice id d₀) := by
  refine ⟨⟨h.valid.sale, fun {b id'} hb => putInvoice_ne_none d₀ (h.valid.invoice hb)⟩, h.onSale,
    fun {id' d b} hd hst hb => ?_, h.covered⟩
  by_cases he : id' = id
  · subst he
    rw [putInvoice_self] at hd
    cases hd
    exact absurd hst hd₀
  · rw [putInvoice_of_ne he] at hd
    exact h.onInvoice hd hst hb

/-- A visit's row is written: it keeps its sale, and what it is issued on and covered by stays told. -/
theorem BilledByPointer.putVisit (h : BilledByPointer s) {b : Id} {v : Visit} (ho : v.orderId = (s.visits b).orderId)
    (hvalid : ∀ id, v.invoiceId = some id → s.invoices id ≠ none)
    (hi : ∀ id d, s.invoices id = some d → d.status = .sent → b ∈ d.visits → v.invoiceId = some id ∧ v.covered = false)
    (hc : v.covered = true → v.orderId = none ∧ v.status = .completed ∧
      (v.packageId = none ∨ v.subscriptionId = none)) : BilledByPointer (s.putVisit b v) := by
  have hat : ∀ b', b' ≠ b → (s.putVisit b v).visits b' = s.visits b' := fun b' hne => Function.update_of_ne hne _ _
  have hself : (s.putVisit b v).visits b = v := Function.update_self ..
  refine ⟨⟨fun {b' id} hb => ?_, fun {b' id} hb => ?_⟩, fun {id d b'} hd hv hb => ?_, fun {id d b'} hd hst hb => ?_,
    fun {b'} hcov => ?_⟩
  · by_cases he : b' = b
    · subst he
      rw [hself, ho] at hb
      exact h.valid.sale hb
    · rw [hat b' he] at hb
      exact h.valid.sale hb
  · by_cases he : b' = b
    · subst he
      rw [hself] at hb
      exact hvalid id hb
    · rw [hat b' he] at hb
      exact h.valid.invoice hb
  · by_cases he : b' = b
    · subst he
      rw [hself, ho]
      exact h.onSale hd hv hb
    · rw [hat b' he]
      exact h.onSale hd hv hb
  · by_cases he : b' = b
    · subst he
      obtain ⟨hinv, hcov⟩ := hi id d hd hst hb
      rw [hself]
      exact ⟨hinv, ho ▸ (h.onInvoice hd hst hb).2.1, hcov⟩
    · rw [hat b' he]
      exact h.onInvoice hd hst hb
  · by_cases he : b' = b
    · subst he
      rw [hself] at hcov ⊢
      exact hc hcov
    · rw [hat b' he] at hcov ⊢
      exact h.covered hcov

theorem closeSettled_fields (v : Visit) (started : Bool) :
    (v.closeSettled started).orderId = v.orderId ∧ (v.closeSettled started).invoiceId = v.invoiceId ∧
      (v.closeSettled started).covered = v.covered := by
  unfold Visit.closeSettled
  split <;> exact ⟨rfl, rfl, rfl⟩

/-- A visit an invoice may bill: nothing else does, and it points at no other invoice.  Nor at one that
is void by now: an issue writes only a pointer that is empty, so the stale one would stay, and the next
document would find the visit free. -/
def Billable (s : VisitBooks π) (invoice : Id) (v : Visit) : Prop :=
  v.covered = false ∧ s.saleStands v.orderId = false ∧ (v.invoiceId = none ∨ v.invoiceId = some invoice)

/-- Where a visit that is billed on an invoice points after it. -/
theorem issue_visits_of_mem {invoice : Id} {visits : List Id} {read : Id → Visit} {started : Id → Bool} {b : Id}
    (hb : b ∈ visits) : (s.issue invoice visits read started).visits b =
      ({ s.visits b with invoiceId := if (read b).invoiceId = none then some invoice else (s.visits b).invoiceId }).closeSettled
        (started b) := if_pos hb

theorem issue_visits_of_not_mem {invoice : Id} {visits : List Id} {read : Id → Visit} {started : Id → Bool} {b : Id}
    (hb : b ∉ visits) : (s.issue invoice visits read started).visits b = s.visits b := if_neg hb

/-- An invoice that bills visits it may bill. -/
theorem BilledByPointer.issue (h : BilledByPointer s) {invoice : Id} {visits : List Id} {read : Id → Visit}
    (started : Id → Bool) (hdoc : s.invoices invoice = none ∨ s.invoices invoice = some ⟨.draft, visits⟩)
    (hread : ∀ b, (s.visits b).invoiceId = none → (read b).invoiceId = none)
    (hfree : ∀ b ∈ visits, Billable s invoice (s.visits b)) : BilledByPointer (s.issue invoice visits read started) := by
  have hself : (s.issue invoice visits read started).invoices invoice = some ⟨.sent, visits⟩ := putInvoice_self ..
  have hne : ∀ id, id ≠ invoice → (s.issue invoice visits read started).invoices id = s.invoices id := fun id he =>
    putInvoice_of_ne he _
  have hpointer : ∀ b ∈ visits, ((s.issue invoice visits read started).visits b).invoiceId = some invoice := by
    intro b hb
    rw [issue_visits_of_mem hb, (closeSettled_fields _ _).2.1]
    dsimp only
    rcases (hfree b hb).2.2 with hn | hs
    · rw [if_pos (hread b hn)]
    · rw [hs]
      split <;> rfl
  have horder : ∀ b, ((s.issue invoice visits read started).visits b).orderId = (s.visits b).orderId := by
    intro b
    by_cases hb : b ∈ visits
    · rw [issue_visits_of_mem hb, (closeSettled_fields _ _).1]
    · rw [issue_visits_of_not_mem hb]
  have hcovered : ∀ b, ((s.issue invoice visits read started).visits b).covered = (s.visits b).covered := by
    intro b
    by_cases hb : b ∈ visits
    · rw [issue_visits_of_mem hb, (closeSettled_fields _ _).2.2]
      rfl
    · rw [issue_visits_of_not_mem hb]
  refine ⟨⟨fun {b id} hb => ?_, fun {b id} hb => ?_⟩, fun {id d b} hd hv hb => ?_, fun {id d b} hd hst hb => ?_,
    fun {b} hc => ?_⟩
  · rw [horder] at hb
    exact h.valid.sale hb
  · by_cases hm : b ∈ visits
    · rw [hpointer b hm] at hb
      cases hb
      rw [hself]
      simp
    · rw [issue_visits_of_not_mem hm] at hb
      exact putInvoice_ne_none _ (h.valid.invoice hb)
  · rw [horder]
    exact h.onSale hd hv hb
  · rw [horder, hcovered]
    by_cases he : id = invoice
    · subst he
      rw [hself] at hd
      cases hd
      obtain ⟨hcov, hsale, -⟩ := hfree b hb
      exact ⟨hpointer b hb, saleGone_of_not_stands (fun _ => h.valid.sale) hsale, hcov⟩
    · rw [hne id he] at hd
      obtain ⟨hi, hg, hcov⟩ := h.onInvoice hd hst hb
      have hout : b ∉ visits := by
        intro hm
        rcases (hfree b hm).2.2 with hn | hs
        · rw [hi] at hn
          cases hn
        · rw [hi] at hs
          exact he (Option.some.inj hs)
      rw [issue_visits_of_not_mem hout]
      exact ⟨hi, hg, hcov⟩
  · rw [hcovered] at hc
    have hout : b ∉ visits := by
      intro hm
      rw [(hfree b hm).1] at hc
      cases hc
    rw [issue_visits_of_not_mem hout]
    exact h.covered hc

theorem cover_fields (v : Visit) (cover : Cover) : (v.cover cover).orderId = v.orderId ∧
    (v.cover cover).invoiceId = v.invoiceId ∧ (v.cover cover).status = .completed := by
  cases cover <;> exact ⟨rfl, rfl, rfl⟩

/-- Pointers still tell what is billed once a visit is drafted whose earlier invoice does not stand. -/
theorem BilledByPointer.drafted (h : BilledByPointer s) {b id : Id} (hid : s.invoices id = none)
    (hgone : InvoiceGone s (s.visits b).invoiceId) :
    BilledByPointer ((s.putInvoice id ⟨.draft, [b]⟩).putVisit b { s.visits b with invoiceId := some id }) := by
  have hdraft : BilledByPointer (s.putInvoice id ⟨.draft, [b]⟩) := h.putInvoice (by simp)
  refine hdraft.putVisit rfl (fun id' he => ?_) (fun id' d hd hst hb => ?_) h.covered
  · cases he
    rw [putInvoice_self]
    simp
  · exfalso
    by_cases he : id' = id
    · subst he
      rw [putInvoice_self] at hd
      cases hd
      cases hst
    · rw [putInvoice_of_ne he] at hd
      exact hgone.ne hd hst (h.onInvoice hd hst hb).1

/-- An open visit is covered that no sale or invoice bills. -/
theorem BilledByPointer.cover (h : BilledByPointer s) {b : Id} (cover : Cover)
    (hst : (s.visits b).status = .confirmed) (ho : (s.visits b).orderId = none)
    (hi : InvoiceGone s (s.visits b).invoiceId) : BilledByPointer (s.putVisit b ((s.visits b).cover cover)) := by
  obtain ⟨hsale, hinvoice, hdone⟩ := cover_fields (s.visits b) cover
  have hbare : (s.visits b).covered = false := by
    by_contra hc
    have hcompleted := (h.covered (Bool.not_eq_false _ ▸ hc)).2.1
    rw [hst] at hcompleted
    cases hcompleted
  refine h.putVisit hsale (fun id he => h.valid.invoice (hinvoice ▸ he)) (fun id d hd hs hb => ?_) fun _ => ?_
  · exact absurd (h.onInvoice hd hs hb).1 (hi.ne hd hs)
  · refine ⟨hsale.trans ho, hdone, ?_⟩
    simp only [Visit.covered, Bool.or_eq_false_iff, Option.isSome_eq_false_iff, Option.isNone_iff_eq_none] at hbare
    cases cover with
    | package id => exact .inr hbare.2
    | membership id => exact .inl hbare.1

end ClientBridge
