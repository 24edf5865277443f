import ClientBridge.Billing.DocumentRuns
import ClientBridge.Payments.SaleEdits

/-!
# A closed sale is never edited

The commands that read a sale under its lock find it open, and a repricing finds nothing paid
against it.  What `update_order` read before is still true when it has the lock unless the sale was
closed meanwhile without a payment: voided, covered by a gift card, or edited down to what a gift
card covers (`ClosesUnseen`).  Its second look at the payments catches the rest (`Sale.Seen`).
-/

namespace ClientBridge

open Runs

/-- What a sale is about: its lines, discount and totals. -/
def Sale.terms (s : Sale) : List BillLine × BillRow := (s.doc.lines, { s.doc.row with status := .open })

/-- A charge is posted when it succeeds. -/
def Sale.Booked (s : Sale) : Prop := ∀ p ∈ s.payments, p.posted.isSome → p.status = .succeeded

/-- Open, or closed by a payment that a second look finds. -/
def Sale.Seen (s : Sale) : Prop := s.state = .open ∨ s.hasActivePayment = true

/-! ## What the state is read from -/

theorem saleStatus_nothing (voided : Bool) (total : Int) :
    saleStatus voided total 0 0 false = if voided then .void else .open := by
  simp [saleStatus]

theorem Sale.posted_none {s : Sale} (h : s.Booked) (hs : s.payments.any (·.settled) = false) :
    ∀ p ∈ s.payments, p.posted = none := by
  intro p hp
  by_contra hne
  have hsucc := h p hp (Option.isSome_iff_ne_none.2 hne)
  rw [List.any_eq_false] at hs
  exact hs p hp (by simp [SaleCharge.settled, hsucc])

theorem Sale.sum_eq_zero {s : Sale} {f : SaleCharge → Int} (h : ∀ p ∈ s.payments, f p = 0) :
    (s.payments.map f).sum = 0 := by
  refine List.sum_eq_zero fun x hx => ?_
  obtain ⟨p, hp, rfl⟩ := List.mem_map.1 hx
  exact h p hp

/-- A ticket nothing was paid against reads open, whatever its total. -/
theorem Sale.state_of_unpaid {s : Sale} (h : s.Booked) (hu : s.unpaid = true) : s.state = .open := by
  simp only [unpaid, Bool.and_eq_true, Bool.not_eq_true', decide_eq_true_eq] at hu
  obtain ⟨⟨hopen, hs⟩, hg⟩ := hu
  have hnone := Sale.posted_none h hs
  have hc : s.collected = 0 := sum_eq_zero fun p hp => by simp [SaleCharge.left, hnone p hp]
  have hd : s.deposit = 0 := sum_eq_zero fun p hp => by simp [hnone p hp]
  have hr : s.refunded = false := by
    unfold refunded
    rw [List.any_eq_false]
    intro p hp
    simp [hnone p hp]
  rw [state, hc, hd, hg, hr, Int.add_zero, saleStatus_nothing, voided, hopen]
  rfl

/-- The state depends on the stored status, the total and what is booked. -/
theorem Sale.state_congr {s s' : Sale} (hst : s'.doc.row.status = s.doc.row.status)
    (ht : s'.doc.row.totalCents = s.doc.row.totalCents) (hr : s'.redeemed = s.redeemed)
    (hp : s'.payments.map (fun p => (p.amountCents, p.posted, p.returned)) =
      s.payments.map fun p => (p.amountCents, p.posted, p.returned)) : s'.state = s.state := by
  have hmap : ∀ {β : Type} (f : Int × Option Int × List Int → β),
      (s'.payments.map fun p => f (p.amountCents, p.posted, p.returned)) =
        s.payments.map fun p => f (p.amountCents, p.posted, p.returned) := by
    intro β f
    have h := congrArg (List.map f) hp
    simpa only [List.map_map, Function.comp_def] using h
  have hc : s'.collected = s.collected :=
    congrArg List.sum (hmap fun x => if x.2.1.isSome then x.1 - x.2.2.sum else 0)
  have hd : s'.deposit = s.deposit := congrArg List.sum (hmap fun x => x.2.1.getD 0)
  have hb : s'.refunded = s.refunded := by
    have h := congrArg (fun l => l.any fun b => b) (hmap fun x => x.2.1.isSome && !x.2.2.isEmpty)
    simp only [List.any_map, Function.comp_def] at h
    exact h
  rw [state, state, hc, hd, hb, ht, gift, gift, hr, voided, voided, hst]

/-! ## Repricing -/

theorem Sale.repriced_of_not {s : Sale} (settings : TaxSettings) (h : s.unpaid = false) : s.repriced settings = s := by
  simp [repriced, h]

@[simp] theorem Sale.payments_repriced (s : Sale) (settings : TaxSettings) : (s.repriced settings).payments = s.payments := by
  unfold repriced
  split
  · rfl
  · rfl

@[simp] theorem Sale.redeemed_repriced (s : Sale) (settings : TaxSettings) : (s.repriced settings).redeemed = s.redeemed := by
  unfold repriced
  split
  · rfl
  · rfl

@[simp] theorem Sale.status_repriced (s : Sale) (settings : TaxSettings) :
    (s.repriced settings).doc.row.status = s.doc.row.status := by
  unfold repriced
  split
  · rfl
  · rfl

@[simp] theorem Sale.active_repriced (s : Sale) (settings : TaxSettings) :
    (s.repriced settings).hasActivePayment = s.hasActivePayment := by
  simp [hasActivePayment]

theorem Sale.Booked.repriced {s : Sale} (h : s.Booked) (settings : TaxSettings) : (s.repriced settings).Booked := by
  intro p hp
  rw [payments_repriced] at hp
  exact h p hp

@[simp] theorem Sale.unpaid_repriced (s : Sale) (settings : TaxSettings) : (s.repriced settings).unpaid = s.unpaid := by
  have hg : (s.repriced settings).gift = s.gift := by rw [gift, redeemed_repriced, gift]
  rw [unpaid, status_repriced, payments_repriced, hg, unpaid]

/-- Repricing opens or closes nothing. -/
theorem Sale.state_repriced {s : Sale} (h : s.Booked) (settings : TaxSettings) :
    (s.repriced settings).state = s.state := by
  cases hu : s.unpaid with
  | false => rw [repriced_of_not settings hu]
  | true => rw [state_of_unpaid h hu, state_of_unpaid (h.repriced settings) (by rw [unpaid_repriced, hu])]

/-- A repricing changes only a ticket nothing was paid against. -/
theorem Sale.terms_repriced (s : Sale) (settings : TaxSettings) :
    s.unpaid = true ∨ (s.repriced settings).terms = s.terms := by
  cases hu : s.unpaid with
  | false => exact .inr (by rw [repriced_of_not settings hu])
  | true => exact .inl rfl

/-! ## Charges -/

theorem SaleCharge.cancel_booked {keepTip : Option Int} {closed : Id → Bool} {p : SaleCharge}
    (h : p.posted.isSome → p.status = .succeeded) :
    (p.cancel keepTip closed).posted.isSome → (p.cancel keepTip closed).status = .succeeded := by
  unfold cancel
  split
  · next hc =>
    intro hp
    have hs := h hp
    simp [cancels, hs] at hc
  · exact h

theorem SaleCharge.cancel_books (keepTip : Option Int) (closed : Id → Bool) (p : SaleCharge) :
    ((p.cancel keepTip closed).amountCents, (p.cancel keepTip closed).posted, (p.cancel keepTip closed).returned) =
      (p.amountCents, p.posted, p.returned) := by
  unfold cancel
  split
  · rfl
  · rfl

/-- Canceling open intents changes nothing that is booked. -/
theorem Sale.cancelIntents_ok {s s' : Sale} {keepTip : Option Int} {closed : Id → Bool}
    (h : s.cancelIntents keepTip closed = .ok s') (hb : s.Booked) :
    s'.Booked ∧ s'.state = s.state ∧ s'.doc = s.doc ∧ s'.redeemed = s.redeemed := by
  unfold cancelIntents at h
  split at h
  · cases h
  · cases h
    refine ⟨fun p hp => ?_, ?_, rfl, rfl⟩
    · obtain ⟨q, hq, rfl⟩ := List.mem_map.1 hp
      exact SaleCharge.cancel_booked (hb q hq)
    · refine state_congr rfl rfl rfl ?_
      simp only [List.map_map, Function.comp_def, SaleCharge.cancel_books]

theorem Sale.mem_putCharge {s : Sale} {p q : SaleCharge} {f : SaleCharge → SaleCharge}
    (hq : q ∈ (s.putCharge p f).payments) : q ∈ s.payments ∨ (∃ r ∈ s.payments, q = f r) ∨ q = f p := by
  unfold putCharge at hq
  split at hq
  · obtain ⟨r, hr, rfl⟩ := List.mem_map.1 hq
    by_cases hid : r.id = p.id
    · rw [if_pos hid]
      exact .inr (.inl ⟨r, hr, rfl⟩)
    · rw [if_neg hid]
      exact .inl hr
  · rcases List.mem_append.1 hq with hq | hq
    · exact .inl hq
    · exact .inr (.inr (List.mem_singleton.1 hq))

/-- The charge's row is there as it was put. -/
theorem Sale.exists_putCharge (s : Sale) (p : SaleCharge) (f : SaleCharge → SaleCharge) :
    ∃ r, f r ∈ (s.putCharge p f).payments := by
  unfold putCharge
  split
  · next h =>
    obtain ⟨r, hr, hid⟩ := List.mem_map.1 h
    refine ⟨r, List.mem_map.2 ⟨r, hr, ?_⟩⟩
    rw [if_pos hid]
  · exact ⟨p, List.mem_append_right _ List.mem_cons_self⟩

@[simp] theorem Sale.doc_putCharge (s : Sale) (p : SaleCharge) (f : SaleCharge → SaleCharge) :
    (s.putCharge p f).doc = s.doc := by
  unfold putCharge
  split
  · rfl
  · rfl

@[simp] theorem Sale.redeemed_putCharge (s : Sale) (p : SaleCharge) (f : SaleCharge → SaleCharge) :
    (s.putCharge p f).redeemed = s.redeemed := by
  unfold putCharge
  split
  · rfl
  · rfl

@[simp] theorem Sale.doc_book (s : Sale) (p : SaleCharge) (held : List Int) : (s.book p held).doc = s.doc :=
  doc_putCharge s p _

theorem Sale.Booked.book {s : Sale} (h : s.Booked) (p : SaleCharge) (held : List Int) : (s.book p held).Booked := by
  intro q hq hposted
  rcases mem_putCharge hq with hq | ⟨r, -, rfl⟩ | rfl
  · exact h q hq hposted
  · rfl
  · rfl

theorem Sale.active_book (s : Sale) (p : SaleCharge) (held : List Int) : (s.book p held).hasActivePayment = true := by
  obtain ⟨r, hr⟩ := exists_putCharge s p fun q =>
    { q with
      status := .succeeded
      posted := some (q.posted.getD (takeHeld held (s.doc.row.totalCents - (p.amountCents - p.tipCents)))) }
  exact List.any_eq_true.2 ⟨_, hr, by simp [SaleCharge.active]⟩

/-- Giving a charge back leaves its status and the sale's row. -/
theorem Sale.giveBack_keeps {s : Sale} {p : SaleCharge} (confirmed : Bool) (hp : p.id ∈ s.payments.map (·.id))
    (hb : s.Booked) (ha : s.hasActivePayment = true) :
    (s.giveBack p confirmed).Booked ∧ (s.giveBack p confirmed).hasActivePayment = true ∧
      (s.giveBack p confirmed).doc = s.doc := by
  unfold giveBack putCharge
  cases confirmed with
  | false => exact ⟨hb, ha, rfl⟩
  | true =>
    simp only [if_pos hp, if_true, and_true]
    refine ⟨fun q hq hposted => ?_, ?_⟩
    · obtain ⟨r, hr, rfl⟩ := List.mem_map.1 hq
      by_cases hid : r.id = p.id
      · rw [if_pos hid] at hposted ⊢
        exact hb r hr hposted
      · rw [if_neg hid] at hposted ⊢
        exact hb r hr hposted
    · obtain ⟨r, hr, hact⟩ := List.any_eq_true.1 ha
      refine List.any_eq_true.2 ⟨_, List.mem_map_of_mem hr, ?_⟩
      by_cases hid : r.id = p.id
      · rw [if_pos hid]
        exact hact
      · rw [if_neg hid]
        exact hact

theorem Sale.mem_book (s : Sale) (p : SaleCharge) (held : List Int) : p.id ∈ (s.book p held).payments.map (·.id) := by
  unfold book putCharge
  split
  · next h =>
    obtain ⟨r, hr, hid⟩ := List.mem_map.1 h
    refine List.mem_map.2 ⟨_, List.mem_map_of_mem hr, ?_⟩
    rw [if_pos hid]
    exact hid
  · simp

theorem Sale.book_late {s : Sale} (h : s.Booked) (p : SaleCharge) (late confirmed : Bool) (held : List Int) :
    (if late then (s.book p held).giveBack p confirmed else s.book p held).Booked ∧
      (if late then (s.book p held).giveBack p confirmed else s.book p held).hasActivePayment = true ∧
      (if late then (s.book p held).giveBack p confirmed else s.book p held).doc = s.doc := by
  cases late with
  | false => exact ⟨h.book p held, s.active_book p held, s.doc_book p held⟩
  | true =>
    obtain ⟨hb, ha, hd⟩ := giveBack_keeps confirmed (s.mem_book p held) (h.book p held) (s.active_book p held)
    exact ⟨hb, ha, hd.trans (s.doc_book p held)⟩

/-- A charge that settles leaves the sale's terms, and is found by a second look. -/
theorem Sale.settle_keeps {s : Sale} (h : s.Booked) (p : SaleCharge) (inStock confirmed : Bool) (held : List Int) :
    (s.settle p inStock confirmed held).Booked ∧ (s.settle p inStock confirmed held).terms = s.terms ∧
      (s.Seen → (s.settle p inStock confirmed held).Seen) := by
  unfold settle
  split
  · exact ⟨h, rfl, id⟩
  · generalize hs' : (if s.source = .online ∧ !s.voided ∧ !inStock then s.withStatus .void else s) = s'
    have hb : s'.Booked ∧ s'.terms = s.terms := by
      rw [← hs']
      split
      · exact ⟨h, rfl⟩
      · exact ⟨h, rfl⟩
    obtain ⟨hbook, hact, hdoc⟩ :=
      book_late hb.1 p (s'.voided || decide (s'.due held < p.amountCents - p.tipCents)) confirmed held
    refine ⟨hbook, ?_, fun _ => .inr hact⟩
    rw [← hb.2, terms, terms, hdoc]

/-! ## The commands -/

/-- A change is made to a sale that reads open, unless it leaves the terms; a repricing needs more. -/
def EditedOpen (s s' : Sale) : SaleChange → Prop
  | .update => s.state = .open ∨ s'.terms = s.terms ∧ s'.redeemed = s.redeemed
  | .reprice => (s.state = .open ∧ s.unpaid = true ∨ s'.terms = s.terms) ∧ s'.redeemed = s.redeemed
  | _ => s.state = .open ∧ s.unpaid = true ∨ s'.terms = s.terms

/-- The changes that may close a sale without a payment. -/
def SaleChange.mayClose : SaleChange → Bool
  | .update | .command (.voidOrder _ _) | .command (.applyGiftCard _ _ _ _ _) => true
  | _ => false

/-- What a change knows of the sale it was read from. -/
structure ChangeKnows (s s' : Sale) (change : SaleChange) : Prop where
  booked : s'.Booked
  edited : change ≠ .update → EditedOpen s s' change
  /-- Who may close a sale without a payment found it open, or without a payment. -/
  found : change.mayClose = true → s.state = .open ∨ s.hasActivePayment = false
  seen : change.mayClose = false → s.Seen → s'.Seen

theorem Sale.chargeable_ok {s : Sale} (h : s.chargeable = .ok ()) : s.state = .open := by
  unfold chargeable at h
  split at h
  · cases h
  · next hs => exact not_not.1 hs

section
variable {s s' : Sale}

theorem editedOpen_repriced (h : s.Booked) (settings : TaxSettings) (hdoc : s'.doc = (s.repriced settings).doc) :
    s.state = .open ∧ s.unpaid = true ∨ s'.terms = s.terms := by
  rcases s.terms_repriced settings with hu | ht
  · exact .inl ⟨Sale.state_of_unpaid h hu, hu⟩
  · refine .inr (Eq.trans ?_ ht)
    rw [Sale.terms, Sale.terms, hdoc]

theorem voidOrder_knows {connected : Bool} {closed : Id → Bool} (h : s.Booked)
    (hok : SaleCommand.run s (.voidOrder connected closed) = .ok s') :
    ChangeKnows s s' (.command (.voidOrder connected closed)) := by
  simp only [SaleCommand.run] at hok
  split at hok
  · cases hok
  · cases hc : (if s.state = .open ∧ connected then s.cancelIntents none closed else .ok s) with
    | error e =>
      simp only [hc] at hok
      cases hok
    | ok t =>
      simp only [hc] at hok
      split at hok
      · cases hok
      · next ha =>
        cases hok
        by_cases hcancel : s.state = .open ∧ connected
        · rw [if_pos hcancel] at hc
          obtain ⟨hb, -, hd, -⟩ := Sale.cancelIntents_ok hc h
          refine ⟨hb, fun _ => .inr ?_, fun _ => .inl hcancel.1, fun hf => by cases hf⟩
          show ((t.withStatus .void).doc.lines, { (t.withStatus .void).doc.row with status := .open }) = s.terms
          rw [Sale.withStatus, hd, Sale.terms]
        · rw [if_neg hcancel] at hc
          cases hc
          exact ⟨h, fun _ => .inr rfl, fun _ => .inr (by simpa using ha), fun hf => by cases hf⟩

theorem applyGiftCard_knows {settings : TaxSettings} {card : Id} {usable : Bool} {balance : Int} {held : List Int}
    (h : s.Booked) (hok : SaleCommand.run s (.applyGiftCard settings card usable balance held) = .ok s') :
    ChangeKnows s s' (.command (.applyGiftCard settings card usable balance held)) := by
  simp only [SaleCommand.run] at hok
  cases hc : (s.repriced settings).chargeable with
  | error e =>
    simp only [hc] at hok
    cases hok
  | ok u =>
    simp only [hc] at hok
    split at hok
    · cases hok
    · split at hok
      · cases hok
      · split at hok
        · cases hok
        · cases hok
          have hopen : s.state = .open := by
            rw [← Sale.state_repriced h settings]
            exact Sale.chargeable_ok hc
          exact ⟨h.repriced settings, fun _ => editedOpen_repriced h settings rfl, fun _ => .inl hopen,
            fun hf => by cases hf⟩

theorem payCash_knows {settings : TaxSettings} {id : Id} {tip tendered : Int} {held : List Int}
    (h : s.Booked) (hok : SaleCommand.run s (.payCash settings id tip tendered held) = .ok s') :
    ChangeKnows s s' (.command (.payCash settings id tip tendered held)) := by
  simp only [SaleCommand.run] at hok
  cases hc : (s.repriced settings).chargeable with
  | error e =>
    simp only [hc] at hok
    cases hok
  | ok u =>
    simp only [hc] at hok
    split at hok
    · cases hok
    · split at hok
      · cases hok
      · cases hok
        exact ⟨(h.repriced settings).book _ held, fun _ => editedOpen_repriced h settings (Sale.doc_book _ _ _),
          (fun hf => by cases hf), fun _ _ => .inr (Sale.active_book _ _ _)⟩

theorem checkout_knows {settings : TaxSettings} {id : Id} {tip : Int} {held : List Int} {closed : Id → Bool}
    {saved replayed : Bool} (h : s.Booked)
    (hok : SaleCommand.run s (.checkout settings id tip held closed saved replayed) = .ok s') :
    ChangeKnows s s' (.command (.checkout settings id tip held closed saved replayed)) := by
  simp only [SaleCommand.run] at hok
  have hr := h.repriced settings
  cases hc : (s.repriced settings).chargeable with
  | error e =>
    simp only [hc] at hok
    cases hok
  | ok u =>
    simp only [hc] at hok
    have hopen := Sale.chargeable_ok hc
    split at hok
    · cases hok
      exact ⟨hr, fun _ => editedOpen_repriced h settings rfl, (fun hf => by cases hf), fun _ _ => .inl hopen⟩
    · cases hcancel : (s.repriced settings).cancelIntents (some tip) closed with
      | error e =>
        simp only [hcancel] at hok
        cases hok
      | ok t =>
        simp only [hcancel] at hok
        obtain ⟨hb, hst, hd, -⟩ := Sale.cancelIntents_ok hcancel hr
        split at hok
        · cases hok
        · split at hok
          · cases hok
            exact ⟨hb, fun _ => editedOpen_repriced h settings hd, (fun hf => by cases hf),
              fun _ _ => .inl (hst.trans hopen)⟩
          · cases hok
            refine ⟨fun q hq hposted => ?_, fun _ => editedOpen_repriced h settings hd, (fun hf => by cases hf),
              fun _ _ => .inr ?_⟩
            · rcases List.mem_append.1 hq with hq | hq
              · exact hb q hq hposted
              · rw [List.mem_singleton.1 hq] at hposted
                cases hposted
            · exact List.any_eq_true.2 ⟨_, List.mem_append_right _ List.mem_cons_self, rfl⟩

theorem SaleCommand.knows {cmd : SaleCommand} (h : s.Booked) (hok : cmd.run s = .ok s') :
    ChangeKnows s s' (.command cmd) := by
  cases cmd with
  | voidOrder connected closed => exact voidOrder_knows h hok
  | applyGiftCard settings card usable balance held => exact applyGiftCard_knows h hok
  | payCash settings id tip tendered held => exact payCash_knows h hok
  | checkout settings id tip held closed saved replayed => exact checkout_knows h hok

theorem repriced_knows (h : s.Booked) (settings : TaxSettings) : ChangeKnows s (s.repriced settings) .reprice where
  booked := h.repriced settings
  edited _ := ⟨editedOpen_repriced h settings rfl, s.redeemed_repriced settings⟩
  found hf := by cases hf
  seen _ hs := by
    unfold Sale.Seen
    rw [Sale.state_repriced h settings, Sale.active_repriced]
    exact hs

theorem settle_knows (h : s.Booked) (p : SaleCharge) (inStock confirmed : Bool) (held : List Int) :
    ChangeKnows s (s.settle p inStock confirmed held) .settlement := by
  obtain ⟨hb, ht, hs⟩ := Sale.settle_keeps h p inStock confirmed held
  exact ⟨hb, fun _ => .inr ht, (fun hf => by cases hf), fun _ => hs⟩

theorem update_knows {settings : TaxSettings} {row : BillRow} {data : SaleUpdate} (h : s.Booked)
    (hok : s.update settings row data = .ok s') : ChangeKnows s s' .update := by
  unfold Sale.update at hok
  split at hok
  · cases hok
  · next ha =>
    split at hok
    · cases hok
    · split at hok
      · cases hok
      · cases hok
        exact ⟨h, fun hne => absurd rfl hne, fun _ => .inr (by simpa using ha), fun hf => by cases hf⟩

end

/-! ## Transactions -/

variable {π : Type} [DecidableEq π]

/-- What a transaction knows at its place. -/
def HoldsSale (p : π) (s : SaleStore π) : SalePlace → Prop
  | .writing change sale => s.lock = some p ∧ ChangeKnows s.sale sale change
  | .repricing _ => s.lock = some p
  | _ => True

section
variable {p q : π} {s s' : SaleStore π} {x x' : SalePlace}

/-- A locked sale stays as it is until its holder is done. -/
theorem SaleEditStep.leaves (hs : SaleEditStep p s x s' x') (hx : HoldsSale p s x) (hq : q ≠ p)
    (hl : s.lock = some q) : s' = s := by
  have hfree : s.lock ≠ none := by
    rw [hl]
    simp
  have hother : s.lock ≠ some p := by
    rw [hl]
    exact fun h => hq (Option.some.inj h)
  cases hs with
  | load => rfl
  | checkOpen h => rfl
  | checkPayments h => rfl
  | update hnone h => exact absurd hnone hfree
  | command cmd hnone h => exact absurd hnone hfree
  | lockReprice hnone => exact absurd hnone hfree
  | reprice => rfl
  | loadCharge h => rfl
  | newCharge id amount tip => rfl
  | settle inStock confirmed held hnone => exact absurd hnone hfree
  | commit => exact absurd hx.1 hother
  | rollback => rw [if_neg hother]

theorem HoldsSale.leaves {y : SalePlace} (hy : HoldsSale q s y) (hs : SaleEditStep p s x s' x')
    (hx : HoldsSale p s x) (hq : q ≠ p) : HoldsSale q s' y := by
  cases y with
  | writing change sale =>
    rw [hs.leaves hx hq hy.1]
    exact hy
  | repricing settings =>
    have hl : s.lock = some q := hy
    rw [hs.leaves hx hq hl]
    exact hy
  | idle => trivial
  | loaded row => trivial
  | readOpen row => trivial
  | checked row => trivial
  | settling charge => trivial
  | rolledBack => trivial

theorem SaleEditStep.keeps (hs : SaleEditStep p s x s' x') (h : s.sale.Booked) (hx : HoldsSale p s x) :
    s'.sale.Booked ∧ HoldsSale p s' x' := by
  cases hs with
  | load => exact ⟨h, trivial⟩
  | checkOpen _ => exact ⟨h, trivial⟩
  | checkPayments _ => exact ⟨h, trivial⟩
  | update _ hok => exact ⟨h, rfl, update_knows h hok⟩
  | command cmd _ hok => exact ⟨h, rfl, SaleCommand.knows h hok⟩
  | lockReprice _ => exact ⟨h, rfl⟩
  | reprice => exact ⟨h, hx, repriced_knows h _⟩
  | loadCharge _ => exact ⟨h, trivial⟩
  | newCharge id amount tip => exact ⟨h, trivial⟩
  | settle inStock confirmed held _ => exact ⟨h, rfl, settle_knows h _ inStock confirmed held⟩
  | commit => exact ⟨hx.2.booked, trivial⟩
  | rollback => exact ⟨h, trivial⟩

end

theorem sale_edits_kept :
    Kept (fun p : π => SaleEditStep p) (fun s => s.sale.Booked) fun p => HoldsSale p where
  store hs hI hJ := (hs.keeps hI hJ).1
  own hs hI hJ := (hs.keeps hI hJ).2
  others hs hq _ hJ hJq := hJq.leaves hs hJ hq

/-! ## Closed behind an update's back -/

/-- `update_order` has read the sale open and has not locked it. -/
def SalePlace.waits : SalePlace → Bool
  | .readOpen _ | .checked _ => true
  | _ => false

/-- A void, a gift card or another update closes the sale while an update waits for it. -/
def ClosesUnseen (w : World π (SaleStore π) SalePlace) (p : π) (w' : World π (SaleStore π) SalePlace) : Prop :=
  (∃ q, (w.place q).waits = true) ∧
    (∃ change sale, w.place p = .writing change sale ∧ change.mayClose = true) ∧
    w.store.sale.state = .open ∧ w'.store.sale.state ≠ .open

def TimelyEdit (w : World π (SaleStore π) SalePlace) (p : π) (w' : World π (SaleStore π) SalePlace) : Prop :=
  Interleaved (fun p => SaleEditStep p) w p w' ∧ ¬ClosesUnseen w p w'

/-- A waiting update would see that the sale was closed, and one about to commit finds it open. -/
structure UpdatesTimely (w : World π (SaleStore π) SalePlace) : Prop where
  waits : ∀ {q}, (w.place q).waits = true → w.store.sale.Seen
  found : ∀ {q sale}, w.place q = .writing .update sale → w.store.sale.state = .open

/-- A step leaves a sale that a second look finds as it is, unless a change closes it. -/
theorem SaleEditStep.seen {p : π} {s s' : SaleStore π} {x x' : SalePlace} (hs : SaleEditStep p s x s' x')
    (hx : HoldsSale p s x)
    (hclose : ∀ change sale, x = .writing change sale → change.mayClose = true → s.sale.state = .open →
      s'.sale.state = .open) (h : s.sale.Seen) : s'.sale.Seen := by
  cases hs with
  | @commit change sale =>
    obtain ⟨-, hk⟩ := hx
    cases hc : change.mayClose with
    | false => exact hk.seen hc h
    | true =>
      have hopen : s.sale.state = .open := by
        rcases h with h | h
        · exact h
        · rcases hk.found hc with hf | hf
          · exact hf
          · rw [hf] at h
            cases h
      exact .inl (hclose _ _ rfl hc hopen)
  | load => exact h
  | checkOpen _ => exact h
  | checkPayments _ => exact h
  | update _ _ => exact h
  | command cmd _ _ => exact h
  | lockReprice _ => exact h
  | reprice => exact h
  | loadCharge _ => exact h
  | newCharge id amount tip => exact h
  | settle inStock confirmed held _ => exact h
  | rollback => exact h

theorem Sale.inactive_of_update {s s' : Sale} {settings : TaxSettings} {row : BillRow} {data : SaleUpdate}
    (h : s.update settings row data = .ok s') : s.hasActivePayment = false := by
  unfold update at h
  split at h
  · cases h
  · next ha => simpa using ha

/-- A place that waits is reached from reading the sale open. -/
theorem SaleEditStep.waits_seen {p : π} {s s' : SaleStore π} {x x' : SalePlace} (hs : SaleEditStep p s x s' x')
    (h : x.waits = true → s.sale.Seen) (hw : x'.waits = true) : s'.sale.Seen := by
  cases hs with
  | checkOpen hopen => exact .inl hopen
  | checkPayments _ => exact h rfl
  | load => cases hw
  | update _ _ => cases hw
  | command cmd _ _ => cases hw
  | lockReprice _ => cases hw
  | reprice => cases hw
  | loadCharge _ => cases hw
  | newCharge id amount tip => cases hw
  | settle inStock confirmed held _ => cases hw
  | commit => cases hw
  | rollback => cases hw

/-- An update looks for payments once more under the lock, so what it writes is written of an open sale. -/
theorem SaleEditStep.update_open {p : π} {s s' : SaleStore π} {x : SalePlace} {sale : Sale}
    (hs : SaleEditStep p s x s' (.writing .update sale)) (h : x.waits = true → s.sale.Seen) :
    s'.sale.state = .open := by
  cases hs with
  | update _ hok =>
    rcases h rfl with hopen | hactive
    · exact hopen
    · rw [Sale.inactive_of_update hok] at hactive
      cases hactive

theorem UpdatesTimely.step {w w' : World π (SaleStore π) SalePlace} {p : π} (h : UpdatesTimely w)
    (hk : Knows (fun s => s.sale.Booked) (fun p => HoldsSale p) w) (hs : TimelyEdit w p w') : UpdatesTimely w' := by
  obtain ⟨hs, hcalm⟩ := hs
  cases hs with
  | @step s' x' hstep =>
    have hx : HoldsSale p w.store (w.place p) := hk.2 p
    have hother : ∀ {q}, q ≠ p → Function.update w.place p x' q = w.place q := fun hq => Function.update_of_ne hq _ _
    have hown : Function.update w.place p x' p = x' := Function.update_self _ _ _
    refine ⟨fun {q} (hq : (Function.update w.place p x' q).waits = true) => ?_,
      fun {q sale} (hq : Function.update w.place p x' q = .writing .update sale) => ?_⟩
    · by_cases hqp : q = p
      · subst hqp
        rw [hown] at hq
        exact hstep.waits_seen h.waits hq
      · rw [hother hqp] at hq
        refine hstep.seen hx (fun change sale hw hc hopen => ?_) (h.waits hq)
        by_contra hne
        exact hcalm ⟨⟨q, hq⟩, ⟨change, sale, hw, hc⟩, hopen, hne⟩
    · by_cases hqp : q = p
      · subst hqp
        rw [hown] at hq
        subst hq
        exact hstep.update_open h.waits
      · rw [hother hqp] at hq
        have hheld : HoldsSale q w.store (.writing .update sale) := hq ▸ hk.2 q
        show s'.sale.state = .open
        rw [hstep.leaves hx hqp hheld.1]
        exact h.found hq

/-- No transaction has started on a sale whose posted charges have succeeded. -/
structure SaleStart (w : World π (SaleStore π) SalePlace) : Prop where
  idle : ∀ p, w.place p = .idle
  booked : w.store.sale.Booked

omit [DecidableEq π] in
theorem SaleStart.knows {w : World π (SaleStore π) SalePlace} (h : SaleStart w) :
    Knows (fun s => s.sale.Booked) (fun p => HoldsSale p) w := by
  refine ⟨h.booked, fun p => ?_⟩
  rw [h.idle p]
  trivial

omit [DecidableEq π] in
theorem SaleStart.timely {w : World π (SaleStore π) SalePlace} (h : SaleStart w) : UpdatesTimely w where
  waits {q} hq := by
    rw [h.idle q] at hq
    cases hq
  found {q sale} hq := by
    rw [h.idle q] at hq
    cases hq

/-- **A closed sale is never edited**, in every run in which no void, gift card or other update closes it
while an update that read it open waits for its lock. -/
theorem closed_sales_stand {w w' w'' : World π (SaleStore π) SalePlace} {ps : List π} {p : π} {change : SaleChange}
    {sale : Sale} (hstart : SaleStart w) (hr : Run TimelyEdit w ps w')
    (hs : Interleaved (fun p => SaleEditStep p) w' p w'') (hp : w'.place p = .writing change sale) :
    EditedOpen w'.store.sale w''.store.sale change := by
  obtain ⟨hk, ht⟩ := hr.invariant
    (I := fun w => Knows (fun s => s.sale.Booked) (fun p => HoldsSale p) w ∧ UpdatesTimely w)
    (fun _ _ _ hw hs => ⟨sale_edits_kept.preserved hs.1 hw.1, hw.2.step hw.1 hs⟩) ⟨hstart.knows, hstart.timely⟩
  have hx : HoldsSale p w'.store (.writing change sale) := hp ▸ hk.2 p
  cases hs with
  | @step s' x' hstep =>
    rw [hp] at hstep
    cases hstep with
    | commit =>
      cases change with
      | update => exact .inl (ht.found hp)
      | reprice => exact hx.2.edited (by simp)
      | command cmd => exact hx.2.edited (by simp)
      | settlement => exact hx.2.edited (by simp)
    | rollback =>
      cases change with
      | update => exact .inr ⟨rfl, rfl⟩
      | reprice => exact ⟨.inr rfl, rfl⟩
      | command cmd => exact .inr rfl
      | settlement => exact .inr rfl

/-! ## A sale of 100.00 and a gift card that covers it -/

def hundredSale (doc : BillDocument) (redeemed : List (Id × Int)) : Sale := ⟨doc, .pos, [], redeemed⟩

def giftFull : SaleCommand := .applyGiftCard noTax "gft_1" true 10000 []

def tenthOff : SaleUpdate := ⟨some (some tenPercent), none⟩

theorem giftFull_run : giftFull.run (hundredSale fullSale []) = .ok (hundredSale fullSale [("gft_1", 10000)]) := by
  decide +kernel

/-- The update takes the gift card off again. -/
theorem tenthOff_update (redeemed : List (Id × Int)) :
    (hundredSale fullSale redeemed).update noTax fullSale.row tenthOff = .ok (hundredSale lessSale []) := by
  have hw : EarlyCommand.run noTax (hundredSale fullSale redeemed).doc.row (hundredSale fullSale redeemed).doc.lines
      (.updateOrder (some (some tenPercent)) none) =
        .ok ⟨fullSale.row, lessSale.row, .updated (fullSale.lines.zip lessSale.lines)⟩ := lessSale_edited
  have hf : BillWrite.flush ⟨fullSale.row, lessSale.row, .updated (fullSale.lines.zip lessSale.lines)⟩ fullSale =
      some lessSale := by decide +kernel
  have ha : (hundredSale fullSale redeemed).hasActivePayment = false := rfl
  simp only [Sale.update, ha, Bool.false_eq_true, if_false]
  rw [show EarlyCommand.run noTax fullSale.row (hundredSale fullSale redeemed).doc.lines
    (.updateOrder tenthOff.discount tenthOff.inputs) = _ from hw]
  simp only [show (hundredSale fullSale redeemed).doc = fullSale from rfl, hf]
  rfl

def hundredStart : World Bool (SaleStore Bool) SalePlace := ⟨⟨hundredSale fullSale [], none⟩, fun _ => .idle⟩

theorem hundredStart_start : SaleStart hundredStart := ⟨fun _ => rfl, fun p hp => by cases hp⟩

theorem hundredStart_open : hundredStart.store.sale.state = .open := by decide +kernel

/-- Who has not written anything closes nothing. -/
theorem TimelyEdit.early {w w' : World π (SaleStore π) SalePlace} {p : π}
    (hs : Interleaved (fun p => SaleEditStep p) w p w') (h : ∀ change sale, w.place p ≠ .writing change sale) :
    TimelyEdit w p w' := by
  refine ⟨hs, fun hc => ?_⟩
  obtain ⟨-, ⟨change, sale, hp, -⟩, -⟩ := hc
  exact h change sale hp

/-- Nobody pays meanwhile, and the discount is given to an open sale. -/
theorem hundredSale_edited : ∃ w' w'' : World Bool (SaleStore Bool) SalePlace,
    w''.store.sale = hundredSale lessSale [] ∧ EditedOpen w'.store.sale w''.store.sale .update := by
  have hrun : ∃ w', Run TimelyEdit hundredStart [true, true, true, true] w' ∧
      w'.place true = .writing .update (hundredSale lessSale []) := by
    refine ⟨_,
      .cons (.early (.from rfl .load) (by simp [hundredStart]))
      (.cons (.early (.from rfl (.checkOpen hundredStart_open)) (by simp))
      (.cons (.early (.from rfl (.checkPayments rfl)) (by simp))
      (.cons (.early (.from rfl (.update rfl (tenthOff_update []))) (by simp)) .nil))), ?_⟩
    rfl
  obtain ⟨w', hrun, hp⟩ := hrun
  exact ⟨w', _, rfl, closed_sales_stand hundredStart_start hrun (.from hp .commit) hp⟩

/-- A gift card pays the sale in full after it was read open, and the update gives its discount and takes
the gift card off. -/
theorem paid_sale_edited : ¬∀ (ps : List Bool) (w' w'' : World Bool (SaleStore Bool) SalePlace) (p : Bool)
    (change : SaleChange) (sale : Sale), Run (Interleaved fun p => SaleEditStep p) hundredStart ps w' →
      Interleaved (fun p => SaleEditStep p) w' p w'' → w'.place p = .writing change sale →
        EditedOpen w'.store.sale w''.store.sale change := by
  intro h
  have hedit := h _ _ _ true .update (hundredSale lessSale [])
    (.cons (.from (p := true) rfl .load)
    (.cons (.from (p := true) rfl (.checkOpen hundredStart_open))
    (.cons (.from (p := true) rfl (.checkPayments rfl))
    (.cons (.from (p := false) rfl (.command giftFull rfl giftFull_run))
    (.cons (.from (p := false) rfl .commit)
    (.cons (.from (p := true) rfl (.update rfl (tenthOff_update [("gft_1", 10000)]))) .nil))))))
    (.from (p := true) rfl .commit) rfl
  rcases hedit with hopen | ⟨-, hredeemed⟩
  · exact absurd hopen (by decide +kernel)
  · cases hredeemed

end ClientBridge
